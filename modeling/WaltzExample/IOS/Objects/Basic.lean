namespace IOS

inductive SDKResponseCodes
  -- SDK validation
  | appUidNotExist | licenseKeyNotExist | licenseKeyIsExpired | sdkVersionIsExpired
  | sdkNotInitialized | noInternetConnection | unknownPlatform | invalidJwt | shouldLogin
  | featureDisable
  -- Transaction
  | accessGranted | accessDenied | cameraPersmissionNotGranted
  -- Authentification
  | forgotPasswordRequestSend | loginCancelled | loginFailed | logout
  -- Guests
  | invalidFirstName | invalidLastName | invalidEmailFormat | invalidStartDate | invalidEndDate
  | userCannotInvite
  -- Geofence
  | locationPersmissionNotGranted | notificationPersmissionNotGranted
  -- Backend response
  | success | failure
  deriving DecidableEq

-- What string interpolation makes of an enumeration that comes from C.
def SDKResponseCodes.description (c : SDKResponseCodes) : String :=
  "SDKResponseCodes(rawValue: " ++ toString c.ctorIdx ++ ")"

abbrev UUID := BitVec 128

-- The third-party serializer: `toJSON().rawString()`, which is nil when it fails.
class JSON (ι : Type) where
  rawString : List ι → Option String

-- Without invitations there is only the empty list.
instance : JSON Empty where
  rawString _ := "[\n\n]"

-- A token. The values of `body` are given as they read in an interpolated string.
structure JWT where
  body : String → Option String

-- The requests that `ViewController` issues to the SDK. Dates are seconds.
inductive Request
  | getMyGuestsWithUUID
  | getMyInvitationsWithUUID
  | sendInvitation (firstName lastName email phoneNumber : String) (startDate endDate : Nat)
  | getJWT
  deriving DecidableEq

-- Unwrapping nil stops the process.
inductive Trap
  | unwrappedNil
  deriving DecidableEq

end IOS
