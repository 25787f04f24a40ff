import WaltzExample.Android.Objects.Basic

namespace Android

-- The third-party serializer.
class Gson (ι : Type) where
  toJson : List ι → String

-- Without invitations there is only the empty list.
instance : Gson Empty where
  toJson _ := "[]"

structure Invitee where
  firstName   : String
  lastName    : String
  email       : String
  phoneNumber : String
  deriving DecidableEq

-- The requests that `MainFragment` issues to the SDK, each with a callback. Dates are milliseconds.
inductive Request
  | startGeofencing
  | stopGeofencing
  | sendInvitation (invitee : Invitee) (startDate endDate : Nat)
  | fetchMyGuests
  | fetchMyInvitations
  deriving DecidableEq

-- The requests whose answers bring a list.
def Request.Fetches : Request → Prop
  | fetchMyGuests | fetchMyInvitations => True
  | _                                  => False

instance : (q : Request) → Decidable q.Fetches
  | .fetchMyGuests | .fetchMyInvitations                        => .isTrue trivial
  | .startGeofencing | .stopGeofencing | .sendInvitation _ _ _ => .isFalse id

-- `context` is whether `getContext()` is non-null. `requests` are those that were issued with a
-- callback of this fragment. `toasts` and `log` are what it has put on the screen and in the log.
structure MainFragment where
  mListener          : Bool            := false
  mInvitationsResult : Option TextView := none
  mUserInfosResult   : Option TextView := none
  context            : Bool            := false
  requests           : List Request    := []
  toasts             : List String     := []
  log                : List String     := []

namespace MainFragment

-- The buttons that issue a request. `now` is the clock that the click handler reads.
inductive Click
  | startGeofence
  | stopGeofence
  | sendInvitation (now : Nat)
  | myGuests
  | myInvitations
  deriving DecidableEq

def invitee : Invitee where
  firstName   := "A-SDK fName"
  lastName    := "A-SDK lName"
  email       := "androidsdk@example.com"
  phoneNumber := "5145457878"

def Click.request : Click → Request
  | startGeofence      => .startGeofencing
  | stopGeofence       => .stopGeofencing
  | sendInvitation now => .sendInvitation invitee now (now + 30 * 60 * 1000)
  | myGuests           => .fetchMyGuests
  | myInvitations      => .fetchMyInvitations

def onAttach : Method Throwable MainFragment Unit :=
  modify ({ · with context := true, mListener := true })

def onViewCreated : Method Throwable MainFragment Unit :=
  modify ({ · with
    mInvitationsResult := some { visibility := .gone }
    mUserInfosResult   := some { visibility := .gone } })

def onDetach : Method Throwable MainFragment Unit :=
  modify ({ · with context := false, mListener := false })

def onClick (c : Click) : Method Throwable MainFragment Unit :=
  modify fun this => { this with requests := c.request :: this.requests }

def makeToast (text : String) : Method Throwable MainFragment Unit := do
  if !(← get).context then
    throw <| .nullPointer .context
  modify fun this => { this with toasts := text :: this.toasts }

def logD (text : String) : Method Throwable MainFragment Unit :=
  modify fun this => { this with log := text :: this.log }

variable {ι : Type} [Gson ι]

-- The callbacks of `startGeofencing` and `stopGeofencing`.
def onTransactionDone (waltzCode : WaltzCode) : Method Throwable MainFragment Unit :=
  makeToast <| "Status code: " ++ waltzCode.toString

def onInvitationSent (code : WaltzCode) : Method Throwable MainFragment Unit := do
  logD <| "onInvitationSent() code : " ++ code.toString
  makeToast <| "Code: " ++ code.toString

-- The callbacks of `fetchMyGuests` and `fetchMyInvitations`, which differ in the `name` they log.
def onInvitationsReceived (name : String) (code : WaltzCode) (invitationList : Option (List ι)) :
    Method Throwable MainFragment Unit := do
  makeToast <| "Code: " ++ code.toString
  let line := name ++ " - onInvitationsReceived() code : " ++ code.toString
  if code = .success then
    let list ← deref .list invitationList
    logD <| line ++ ", item count: " ++ toString list.length
    let view ← deref .view (← get).mInvitationsResult
    modify ({ · with
      mInvitationsResult := some { view with text := Gson.toJson list, visibility := .visible } })
  else
    logD line

-- The callback of a request. Only those of the last two are passed a list.
def onAnswer (code : WaltzCode) (invitationList : Option (List ι)) :
    Request → Method Throwable MainFragment Unit
  | .startGeofencing | .stopGeofencing => onTransactionDone code
  | .sendInvitation ..                 => onInvitationSent code
  | .fetchMyGuests                     => onInvitationsReceived "fetchMyGuests" code invitationList
  | .fetchMyInvitations                =>
    onInvitationsReceived "fetchMyInvitations" code invitationList

end MainFragment
end Android
