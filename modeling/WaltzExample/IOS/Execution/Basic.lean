import WaltzExample.Machine.Basic
import WaltzExample.IOS.Objects.ViewController

namespace IOS.ViewController

-- The buttons whose requests are answered by a callback that shows something.
inductive Tap
  | getMyGuestsList
  | getMyInvitationsList
  | sendInvitation (now : Nat)
  | getUserInfo
  deriving DecidableEq

-- The callbacks of `WltzSDKMgrDelegate` that answer the requests.
inductive Answer (ι : Type)
  | guests (errorCode : SDKResponseCodes) (guests : Option (List (ι × UUID)))
  | invitations (errorCode : SDKResponseCodes) (invitations : Option (List (ι × UUID)))
  | invitation (errorCode : SDKResponseCodes)
  | jwt (errorCode : SDKResponseCodes) (jwt : Option JWT)

variable {ι : Type}

-- The requests that a callback can be the answer to.
def Answer.answers : Answer ι → Request → Bool
  | .guests ..,      .getMyGuestsWithUUID      => true
  | .invitations .., .getMyInvitationsWithUUID => true
  | .invitation _,   .sendInvitation ..        => true
  | .jwt ..,         .getJWT                   => true
  | _,               _                         => false

inductive Event (ι : Type)
  | tap (b : Tap)
  | answer (x : Answer ι)

def onTap : Tap → Method Trap ViewController Unit
  | .getMyGuestsList      => getMyGuestsList
  | .getMyInvitationsList => getMyInvitationsList
  | .sendInvitation now   => sendInvitation now
  | .getUserInfo          => getUserInfo

variable [JSON ι]

def onAnswer : Answer ι → Method Trap ViewController Unit
  | .guests errorCode guests           => didGetWaltzMyGuestsWithUUIDWithErrorCode errorCode guests
  | .invitations errorCode invitations =>
    didGetWaltzMyInvitationsWithUUIDWithErrorCode errorCode invitations
  | .invitation errorCode              => didSendWaltzInvitationWithErrorCode errorCode
  | .jwt errorCode jwt                 => didGetWaltzJWTWithErrorCode errorCode jwt

-- A callback answers the oldest unanswered request of its kind. Nothing is said about the order of
-- answers to requests of different kinds.
def Enabled (v : ViewController) : Event ι → Prop
  | .tap _    => True
  | .answer x => v.sharedManager.oldest? x.answers ≠ none

instance (v : ViewController) : (e : Event ι) → Decidable (v.Enabled e)
  | .tap _    => inferInstanceAs <| Decidable True
  | .answer _ => inferInstanceAs <| Decidable (_ ≠ _)

def handle : Event ι → Method Trap ViewController Unit
  | .tap b    => onTap b
  | .answer x => do
    modify fun this => { this with sharedManager := this.sharedManager.answer x.answers }
    onAnswer x

-- A trap stops the process. Going on from what it leaves behind adds runs and takes none away.
def machine (ι : Type) [JSON ι] : Machine ViewController (Event ι) where
  Enabled  := Enabled
  next v e := (handle e).after v

end IOS.ViewController
