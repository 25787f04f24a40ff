import WaltzExample.IOS.Execution.Basic

namespace IOS

-- How the user infos in a token read, if none of them is missing.
def JWT.text (j : JWT) : Option String := do
  let firstName ← j.body "firstName"
  let lastName ← j.body "lastName"
  let userEmail ← j.body "userEmail"
  let uid ← j.body "uid"
  return "Name: " ++ firstName ++ " " ++ lastName ++ "\nEmail: " ++ userEmail ++ "\nID: " ++ uid

namespace ViewController

-- The buttons that clear the response view.
def Tap.Clears : Tap → Prop
  | getUserInfo => False
  | _           => True

instance : (b : Tap) → Decidable b.Clears
  | .getMyGuestsList | .getMyInvitationsList | .sendInvitation _ => .isTrue trivial
  | .getUserInfo                                                 => .isFalse id

variable {ι : Type} [JSON ι]

-- How a list of invitations reads, where nil is read as the empty list.
def renderList (list : Option (List (ι × UUID))) : String :=
  (JSON.rawString <| (list.getD []).map Prod.fst).getD ""

-- How an answer reads that is a success.
def Answer.rendering : Answer ι → Option String
  | guests errorCode list | invitations errorCode list =>
    if errorCode = .success then renderList list else none
  | invitation errorCode => if errorCode = .success then "Success" else none
  | jwt errorCode newJWT => if errorCode = .success then newJWT.bind JWT.text else none

-- What an observer remembers of the last tap: the number of its request, and the answer to it.
structure Last (ι : Type) where
  tap    : Tap
  number : Nat
  answer : Option (Answer ι) := none

-- What the last tap and its answer call for: nothing before the answer is a success.
def Last.expected (t : Last ι) : String :=
  (t.answer.bind Answer.rendering).getD ""

def observe (v : ViewController) : Event ι → Option (Last ι) → Option (Last ι)
  | .tap b,    _ => some { tap := b, number := v.sharedManager.issued }
  | .answer x, g => g.map fun t =>
    if v.sharedManager.oldest? x.answers = some t.number then { t with answer := x } else t

def recorded (ι : Type) [JSON ι] : Machine (ViewController × Option (Last ι)) (Event ι) :=
  (machine ι).record observe

instance (s : ViewController × Option (Last ι)) (e : Event ι) :
    Decidable ((recorded ι).Enabled s e) :=
  inferInstanceAs <| Decidable (s.1.Enabled e)

-- The response view shows what the last tap calls for, if that tap has cleared it.
def Shows (v : ViewController) (g : Option (Last ι)) : Prop :=
  ∀ t, g = some t → t.tap.Clears → v.responseTV = t.expected

-- After a tap that clears the view, a success answers that tap and no earlier one.
def InTurn (s : ViewController × Option (Last ι)) : Event ι → Prop
  | .tap _    => True
  | .answer x => ∀ t, s.2 = some t → t.tap.Clears → x.rendering ≠ none →
    s.1.sharedManager.oldest? x.answers = some t.number

end ViewController
end IOS
