import WaltzExample.Machine.Basic
import WaltzExample.Android.Objects.MainActivity

namespace Android.MainActivity

-- What can happen to an instance of `MainActivity` while it lives: a click on one of the buttons of
-- `MainFragment`, the answer to one of the requests, a callback of a flow (the flow whose fragment
-- has the number `f`), the execution of the next deferred operation, a click on the OK button of a
-- dialog, and the Back key.
inductive Event (ι : Type)
  | clickLogin
  | clickStartTransaction
  | click (c : MainFragment.Click)
  | answer (q : Request) (code : WaltzCode) (invitationList : Option (List ι))
  | callback (f : Nat) (c : Callback)
  | execNext
  | clickDismiss (d : Ref)
  | back

variable {ι : Type}

-- The events that the SDK brings about.
def Event.OfSdk : Event ι → Prop
  | .callback .. | .answer .. => True
  | _                         => False

-- A dialog on the screen is one whose view exists and that has not been dismissed: dismissing it
-- takes its window down, while the view is only destroyed by the deferred removal.
def Displayed (a : MainActivity) (d : Ref) : Prop :=
  d ∈ a.fm.dialogs ∧ (a.dialog d).mDismissed = false

instance (a : MainActivity) (d : Ref) : Decidable (a.Displayed d) :=
  inferInstanceAs <| Decidable (_ ∧ _)

variable [Gson ι]

-- Callbacks and answers can come at any time and any number of times. Everything else needs the
-- activity in the foreground. The Back key does not get past a dialog on the screen, and with
-- nothing to pop it leaves the activity, so that there is nothing more to say.
def Enabled (a : MainActivity) : Event ι → Prop
  | .clickLogin | .clickStartTransaction | .click _ =>
    a.fm.stateSaved = false ∧ .mainFragment ∈ a.fm.content
  | .answer q _ _   => q ∈ a.mainFragment.requests
  | .callback f c   => ∃ fragment ∈ a.fragments[f]?, c.OfFragment fragment
  | .execNext       => a.fm.stateSaved = false ∧ a.fm.pending ≠ []
  | .clickDismiss d =>
    a.fm.stateSaved = false ∧ d ∈ a.fm.dialogs ∧ (a.dialog d).mDismiss = some ⟨true⟩
  | .back           =>
    a.fm.stateSaved = false ∧ (∀ d ∈ a.fm.dialogs, (a.dialog d).mDismissed = true) ∧
    a.fm.settle.backStack ≠ []

instance (a : MainActivity) : (e : Event ι) → Decidable (a.Enabled e)
  | .clickLogin | .clickStartTransaction | .click _ => inferInstanceAs <| Decidable (_ ∧ _)
  | .answer ..                                      => inferInstanceAs <| Decidable (_ ∈ _)
  | .callback ..                                    => inferInstanceAs <| Decidable (∃ _ ∈ _, _)
  | .execNext                                       => inferInstanceAs <| Decidable (_ ∧ _)
  | .clickDismiss _ | .back                         => inferInstanceAs <| Decidable (_ ∧ _ ∧ _)

def handle : Event ι → Method Throwable MainActivity Unit
  | .clickLogin                   => onClickLogin
  | .clickStartTransaction        => onClickStartTransaction
  | .click c                      => onMainFragment <| MainFragment.onClick c
  | .answer q code invitationList => onMainFragment <| MainFragment.onAnswer code invitationList q
  | .callback _ c                 => onCallback c
  | .execNext                     => execNext
  | .clickDismiss d               => onClickDismiss d
  | .back                         => popBackStackImmediate

-- An exception does not end a run: the SDK may catch what its callback throws. The activity then
-- goes on with what had been assigned before.
def machine (ι : Type) [Gson ι] : Machine MainActivity (Event ι) where
  Enabled  := Enabled
  next a e := (handle e).after a

instance (a : MainActivity) (e : Event ι) : Decidable ((machine ι).Enabled a e) :=
  inferInstanceAs <| Decidable (a.Enabled e)

def Completes (a : MainActivity) (e : Event ι) : Prop :=
  (handle e).Completes a

instance (a : MainActivity) (e : Event ι) : Decidable (a.Completes e) :=
  inferInstanceAs <| Decidable (Method.Completes _ _)

-- The activity as it comes to the foreground for the first time.
def launched : MainActivity :=
  Method.after (onCreate none >>= fun _ => execPendingActions) { }

end Android.MainActivity
