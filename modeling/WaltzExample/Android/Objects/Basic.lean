import WaltzExample.Method.Basic

namespace Android

inductive WaltzCode
  -- SDK validation
  | appUidNotExist | licenseKeyNotExist | licenseKeyIsExpired | sdkVersionIsExpired
  | sdkNotInitialized | noInternetConnection | unknownPlatform | invalidJwt | shouldLogin
  | featureDisable
  -- Transaction
  | accessGranted | accessDenied | cameraPermissionNotGranted
  -- Authentication
  | forgotPasswordRequestSent | loginCancelled | loginFailed | logout
  -- Guests
  | invalidFirstName | invalidLastName | invalidEmailFormat | invalidStartDate | invalidEndDate
  | userCannotInvite
  -- Geofence
  | locationPermissionNotGranted
  -- Backend response
  | success | failure
  deriving DecidableEq, Repr

def WaltzCode.toString : WaltzCode → String
  | appUidNotExist               => "APP_UID_NOT_EXIST"
  | licenseKeyNotExist           => "LICENSE_KEY_NOT_EXIST"
  | licenseKeyIsExpired          => "LICENSE_KEY_IS_EXPIRED"
  | sdkVersionIsExpired          => "SDK_VERSION_IS_EXPIRED"
  | sdkNotInitialized            => "SDK_NOT_INITIALIZED"
  | noInternetConnection         => "NO_INTERNET_CONNECTION"
  | unknownPlatform              => "UNKNOWN_PLATFORM"
  | invalidJwt                   => "INVALID_JWT"
  | shouldLogin                  => "SHOULD_LOGIN"
  | featureDisable               => "FEATURE_DISABLE"
  | accessGranted                => "ACCESS_GRANTED"
  | accessDenied                 => "ACCESS_DENIED"
  | cameraPermissionNotGranted   => "CAMERA_PERMISSION_NOT_GRANTED"
  | forgotPasswordRequestSent    => "FORGOT_PASSWORD_REQUEST_SENT"
  | loginCancelled               => "LOGIN_CANCELLED"
  | loginFailed                  => "LOGIN_FAILED"
  | logout                       => "LOGOUT"
  | invalidFirstName             => "INVALID_FIRST_NAME"
  | invalidLastName              => "INVALID_LAST_NAME"
  | invalidEmailFormat           => "INVALID_EMAIL_FORMAT"
  | invalidStartDate             => "INVALID_START_DATE"
  | invalidEndDate               => "INVALID_END_DATE"
  | userCannotInvite             => "USER_CANNOT_INVITE"
  | locationPermissionNotGranted => "LOCATION_PERMISSION_NOT_GRANTED"
  | success                      => "SUCCESS"
  | failure                      => "FAILURE"

structure DDInfos where
  elevator : String
  floor    : String
  deriving DecidableEq, Repr

def DDInfos.text (data : DDInfos) : String :=
  "Elevator: " ++ data.elevator ++ "\nfloor: " ++ data.floor

inductive Visibility
  | visible
  | gone
  deriving DecidableEq, Repr

structure TextView where
  text       : String     := ""
  visibility : Visibility := .visible
  deriving DecidableEq, Repr

structure Button where
  onClickListener : Bool := false
  deriving DecidableEq, Repr

-- What a null pointer exception is about.
inductive Null
  | view
  | code
  | context
  | list
  | infos
  deriving DecidableEq, Repr

-- `sdk` is whatever the fragments of the SDK throw when they are restored.
inductive Throwable
  | nullPointer (null : Null)
  | illegalState
  | sdk
  deriving DecidableEq, Repr

-- `null` of the source is `none`, and using it as an object throws.
def deref {σ α : Type} (null : Null) : Option α → Method Throwable σ α
  | some a => pure a
  | none   => throw <| .nullPointer null

end Android
