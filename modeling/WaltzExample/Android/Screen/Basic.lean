import Mathlib.Data.List.Basic
import WaltzExample.Android.Navigation.Basic

namespace Android

-- What an activity is for its user, as if each operation took effect at once: the flows that have
-- been entered and not left, the last one first, and the dialogs that are open, in the order in
-- which they were opened. The dialog that callbacks refresh is the `current` one. `repeated` is how
-- often OK was clicked on a dialog that was not open any more.
structure Screen where
  entered  : Nat        := 0
  flows    : List Nat   := []
  opened   : Nat        := 0
  dialogs  : List Ref   := []
  current  : Option Ref := none
  repeated : Nat        := 0

namespace Screen

inductive Event
  | enter
  | leave
  | openDialog
  | dismiss (d : Ref)
  | dismissAgain
  deriving DecidableEq

-- The flow that is entered last is left first, also by a click on OK.
def next (s : Screen) : Event → Screen
  | .enter        => { s with entered := s.entered + 1, flows := s.entered :: s.flows }
  | .leave        => { s with flows := s.flows.tail }
  | .openDialog   => { s with
    opened  := s.opened + 1
    dialogs := s.dialogs ++ [s.opened]
    current := some s.opened }
  | .dismiss d    => { s with
    flows   := s.flows.tail
    dialogs := s.dialogs.erase d
    current := none }
  | .dismissAgain => { s with
    flows    := s.flows.tail
    current  := none
    repeated := s.repeated + 1 }

def Enabled (s : Screen) : Event → Prop
  | .enter | .dismissAgain => True
  | .leave                 => s.flows ≠ []
  | .openDialog            => s.current = none
  | .dismiss d             => d ∈ s.dialogs

def machine : Machine Screen Event where
  Enabled := Enabled
  next    := next

-- The flows are on the screen in the order in which they were entered. Callbacks refresh a dialog
-- that is open, and there is one open dialog more for each time OK was clicked once too often.
structure Valid (s : Screen) : Prop where
  ordered : s.flows.Pairwise (· > ·)
  entered : ∀ f ∈ s.flows, f < s.entered
  current : ∀ d, s.current = some d → d ∈ s.dialogs
  bounded : s.dialogs.length ≤ s.repeated + s.current.toList.length

end Screen

def Content.flow? : Content → Option Nat
  | flow f       => some f
  | mainFragment => none

namespace MainActivity

variable {ι : Type} [Gson ι]

-- The dialogs that have not been dismissed, whether or not their views exist.
def openDialogs (a : MainActivity) : List Ref :=
  a.fm.held.filter fun d => !(a.dialog d).mDismissed

-- The flows whose fragments are on the back stack once all operations have been executed.
def flows (a : MainActivity) : List Nat :=
  a.settled.entries.filterMap Content.flow?

-- An observer counts the clicks on OK that come after the dialog has been dismissed.
def repeats (a : MainActivity) : Event ι → Nat → Nat
  | .clickDismiss d, n => if (a.dialog d).mDismissed then n + 1 else n
  | _,               n => n

def counted (ι : Type) [Gson ι] : Machine (MainActivity × Nat) (Event ι) :=
  (machine ι).record repeats

instance (s : MainActivity × Nat) (e : Event ι) : Decidable ((counted ι).Enabled s e) :=
  inferInstanceAs <| Decidable (s.1.Enabled e)

-- What the activity looks like from outside.
def screen (s : MainActivity × Nat) : Screen where
  entered  := s.1.fragments.length
  flows    := s.1.flows
  opened   := s.1.dialogs.next
  dialogs  := s.1.openDialogs
  current  := s.1.mMyDialog
  repeated := s.2

-- What an event is for the user. The execution of an operation is nothing that the user sees.
def seen (s : MainActivity × Nat) : Event ι → List Screen.Event
  | .clickLogin | .clickStartTransaction => [.enter]
  | .back                                => [.leave]
  | .callback ..                         => if s.1.mMyDialog = none then [.openDialog] else []
  | .clickDismiss d                      =>
    if (s.1.dialog d).mDismissed then [.dismissAgain] else [.dismiss d]
  | .click _ | .answer .. | .execNext    => []

-- The activity with nothing but `MainFragment` on the screen, and nothing to come.
structure Home (a : MainActivity) : Prop where
  pending   : a.fm.pending = []
  content   : a.fm.content = [.mainFragment]
  backStack : a.fm.backStack = []
  dialogs   : a.fm.dialogs = []
  field     : a.mMyDialog = none

-- What the user can do, and what happens by itself, without a flow being started or heard of.
def Event.Retreats : Event ι → Prop
  | .execNext | .clickDismiss _ | .back => True
  | _                                   => False

end MainActivity
end Android
