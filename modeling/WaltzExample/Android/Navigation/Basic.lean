import WaltzExample.Android.Execution.Basic

namespace Android.MainActivity

open FragmentManager (Op)

-- What matters for the navigation: how many flows have been started, and where the fragments are.
structure Nav where
  started : Nat
  fm      : FragmentManager Content Ref

def nav (a : MainActivity) : Nav where
  started := a.fragments.length
  fm      := a.fm

-- A flow that is started gets the next number.
inductive Nav.Moves (s : Nav) : Nav → Prop
  | start : Moves s ⟨s.started + 1, s.fm.enqueue <| .replace <| .flow s.started⟩
  | enqueue {op : Op Content Ref} :
    (op.replace? = none) → (op.add? = none) → Moves s ⟨s.started, s.fm.enqueue op⟩
  | execNext : Moves s ⟨s.started, s.fm.execNext⟩

-- The flows on the back stack, and those that are going to be there, have different numbers, and
-- none has the number of the flow that is started next. The container has what the back stack says.
structure Nav.Ordered (s : Nav) : Prop where
  nodup   : s.fm.pushed.Nodup
  started : ∀ c ∈ s.fm.pushed, ∃ f < s.started, c = .flow f
  noAdd   : ∀ c, .add c ∉ s.fm.pending
  stacked : FragmentManager.Stacked [.mainFragment] s.fm.content s.fm.backStack

variable {ι : Type} [Gson ι]

-- The fragments whose entries are on the back stack, the top one first.
def entries (a : MainActivity) : List Content :=
  a.fm.backStack.map BackStackEntry.added

-- An observer keeps record of which flow's callback opened which dialog.
def openedBy (a : MainActivity) : Event ι → (Ref → Nat) → Ref → Nat
  | .callback f _, g => if a.mMyDialog = none then Function.update g a.dialogs.next f else g
  | _,             g => g

def navigation (ι : Type) [Gson ι] : Machine (MainActivity × (Ref → Nat)) (Event ι) :=
  (machine ι).record openedBy

instance (s : MainActivity × (Ref → Nat)) (e : Event ι) : Decidable ((navigation ι).Enabled s e) :=
  inferInstanceAs <| Decidable (s.1.Enabled e)

-- The activity once all pending operations have been executed.
def settled (a : MainActivity) : MainActivity :=
  execPendingActions.after a

-- A click on the OK button of the dialog `d` takes the entry of the flow `f` off the back stack, if
-- it is there, and no other one.
def ClosesOwn (a : MainActivity) (d : Ref) (f : Nat) : Prop :=
  ((onClickDismiss d).after a).settled.entries = a.settled.entries.erase (.flow f)

instance (a : MainActivity) (d : Ref) (f : Nat) : Decidable (a.ClosesOwn d f) :=
  inferInstanceAs <| Decidable (_ = _)

-- The flow `f` is the last one that was started and not left, unless all have been left.
def OnTop (a : MainActivity) (f : Nat) : Prop :=
  a.settled.entries = [] ∨ a.settled.entries.head? = some (.flow f)

instance (a : MainActivity) (f : Nat) : Decidable (a.OnTop f) :=
  inferInstanceAs <| Decidable (_ ∨ _)

end Android.MainActivity
