import WaltzExample.Method.Basic
import WaltzExample.Requests.Basic
import WaltzExample.IOS.Objects.Basic

namespace IOS

-- `responseTV` is the text of that view, `console` is what has been printed, and `sharedManager`
-- has the requests to the SDK.
structure ViewController where
  responseTV    : String           := ""
  console       : List String      := []
  sharedManager : Requests Request := .empty

namespace ViewController

def setResponse (text : String) : Method Trap ViewController Unit :=
  modify ({ · with responseTV := text })

def print (text : String) : Method Trap ViewController Unit :=
  modify fun this => { this with console := text :: this.console }

def request (q : Request) : Method Trap ViewController Unit :=
  modify fun this => { this with sharedManager := this.sharedManager.issue q }

def getMyGuestsList : Method Trap ViewController Unit := do
  setResponse ""
  request .getMyGuestsWithUUID

def getMyInvitationsList : Method Trap ViewController Unit := do
  setResponse ""
  request .getMyInvitationsWithUUID

-- `now` is the clock that the action reads.
def sendInvitation (now : Nat) : Method Trap ViewController Unit := do
  setResponse ""
  request <| .sendInvitation "iOS SDK first name" "iOS SDK last name" "iossdk@example.com"
    "5145457878" now (now + 30 * 60)

def getUserInfo : Method Trap ViewController Unit :=
  request .getJWT

variable {ι : Type} [JSON ι]

-- The loop that both of the following callbacks have. A text that is nil shows as an empty one.
def didGetInvitations (name : String) (errorCode : SDKResponseCodes)
    (list : Option (List (ι × UUID))) : Method Trap ViewController Unit := do
  print <| "The Get my " ++ name ++ " quit with error code " ++ errorCode.description
  if errorCode = .success then
    let mut newList : List ι := []
    if let some listUUID := list then
      for invitation in listUUID do
        newList := newList ++ [invitation.1]
    setResponse <| (JSON.rawString newList).getD ""

def didGetWaltzMyGuestsWithUUIDWithErrorCode (errorCode : SDKResponseCodes)
    (guests : Option (List (ι × UUID))) : Method Trap ViewController Unit :=
  didGetInvitations "Guests" errorCode guests

def didGetWaltzMyInvitationsWithUUIDWithErrorCode (errorCode : SDKResponseCodes)
    (invitations : Option (List (ι × UUID))) : Method Trap ViewController Unit :=
  didGetInvitations "Invitations" errorCode invitations

def didSendWaltzInvitationWithErrorCode (errorCode : SDKResponseCodes) :
    Method Trap ViewController Unit := do
  print <| "The Send Invitation quit with error code " ++ errorCode.description
  if errorCode = .success then
    setResponse "Success"

def unwrap : Option String → Method Trap ViewController String
  | some s => pure s
  | none   => throw .unwrappedNil

def didGetWaltzJWTWithErrorCode (errorCode : SDKResponseCodes) (jwt : Option JWT) :
    Method Trap ViewController Unit := do
  print <| "The Get JWT quit with error code " ++ errorCode.description
  if errorCode = .success then
    if let some newJWT := jwt then
      let firstName ← unwrap <| newJWT.body "firstName"
      let lastName ← unwrap <| newJWT.body "lastName"
      let userEmail ← unwrap <| newJWT.body "userEmail"
      let uid ← unwrap <| newJWT.body "uid"
      setResponse <| "Name: " ++ firstName ++ " " ++ lastName ++ "\nEmail: " ++ userEmail ++
        "\nID: " ++ uid

end ViewController
end IOS
