import WaltzExample.Android.Execution.Basic

namespace Android

namespace MainActivity

-- What is pending is executed before the state is saved.
def onSaveInstanceState : Method Throwable MainActivity Unit := do
  execPendingActions
  modify fun this => { this with fm := { this.fm with stateSaved := true } }

-- From the next start on operations are accepted again.
def onStart : Method Throwable MainActivity Unit :=
  modify fun this => { this with fm := { this.fm with stateSaved := false } }

-- The fragments of an activity that is destroyed are detached.
def onDestroy : Method Throwable MainActivity Unit :=
  onMainFragment MainFragment.onDetach

-- The activity that is made in the place of a destroyed one: all fields have their initial values,
-- and the fragments of the saved state are there anew, from their no-argument constructors.
def renew (a : MainActivity) : MainActivity where
  dialogs   := { a.dialogs with object _ := { } }
  fragments := a.fragments.map fun _ => .restored

-- Restored fragments are attached, and those on the screen get their views. What the fragments of
-- the SDK do then is not known: here they do not throw.
def restore (savedInstanceState : FragmentManager Content Ref) :
    Method Throwable MainActivity Unit := do
  onCreate <| some savedInstanceState
  onMainFragment do
    MainFragment.onAttach
    if .mainFragment ∈ savedInstanceState.content then
      MainFragment.onViewCreated
  savedInstanceState.dialogs.forM fun d => onDialog d MyDialog.create
  onStart

end MainActivity

-- The activities of the app, as long as its process lives. Only the `current` one is on the screen,
-- but callbacks can reach all of them.
structure Host where
  activities : Heap MainActivity
  current    : Ref
  destroyed  : Bool := false

namespace Host

variable {ι : Type} [Gson ι]

inductive Event (ι : Type)
  | activity (i : Ref) (e : MainActivity.Event ι)
  | save
  | start
  | destroy
  | recreate

def activity (s : Host) (i : Ref) : MainActivity :=
  s.activities.object i

def onActivity (s : Host) (i : Ref) (m : Method Throwable MainActivity Unit) : Host :=
  { s with activities := s.activities.set i <| m.after (s.activity i) }

-- The activity in the place of the current one.
def restored (s : Host) : MainActivity :=
  (s.activity s.current).renew

def restore (s : Host) : Method Throwable MainActivity Unit :=
  MainActivity.restore (s.activity s.current).fm

-- When restoring an activity fails then the app has crashed.
def Enabled (s : Host) : Event ι → Prop
  | .activity i e => i < s.activities.next ∧ (s.activity i).Enabled e
  | .save         => s.destroyed = false ∧ (s.activity s.current).fm.stateSaved = false
  | .start        => s.destroyed = false ∧ (s.activity s.current).fm.stateSaved = true
  | .destroy      => s.destroyed = false ∧ (s.activity s.current).fm.stateSaved = true
  | .recreate     => s.destroyed = true ∧ s.restore.Completes s.restored

instance (s : Host) : (e : Event ι) → Decidable (s.Enabled e)
  | .activity .. | .save | .start | .destroy | .recreate => inferInstanceAs <| Decidable (_ ∧ _)

def next (s : Host) : Event ι → Host
  | .activity i e => s.onActivity i <| MainActivity.handle e
  | .save         => s.onActivity s.current MainActivity.onSaveInstanceState
  | .start        => s.onActivity s.current MainActivity.onStart
  | .destroy      => { s.onActivity s.current MainActivity.onDestroy with destroyed := true }
  | .recreate     => {
      activities := s.activities.alloc <| s.restore.after s.restored
      current    := s.activities.next
    }

def machine (ι : Type) [Gson ι] : Machine Host (Event ι) where
  Enabled := Enabled
  next    := next

instance (s : Host) (e : Event ι) : Decidable ((machine ι).Enabled s e) :=
  inferInstanceAs <| Decidable (s.Enabled e)

-- The events that the SDK brings about.
def Event.OfSdk : Event ι → Prop
  | .activity _ e => e.OfSdk
  | _             => False

-- What is called when the event happens does not throw.
def Completes (s : Host) : Event ι → Prop
  | .activity i e => (s.activity i).Completes e
  | .save         => MainActivity.onSaveInstanceState.Completes (s.activity s.current)
  | .start        => MainActivity.onStart.Completes (s.activity s.current)
  | .destroy      => MainActivity.onDestroy.Completes (s.activity s.current)
  | .recreate     => s.restore.Completes s.restored

-- The app with its first activity.
def launched : Host where
  activities := Heap.empty { } |>.alloc MainActivity.launched
  current    := 0

end Host

namespace MainActivity

variable {ι : Type} [Gson ι]

-- A handler returns, and if an operation is refused it leaves `mMyDialog` as it was.
structure Safe (a : MainActivity) (e : Event ι) : Prop where
  completes : a.Completes e
  refused   : (handle e).thrown a = some .illegalState →
    ((handle e).after a).mMyDialog = a.mMyDialog

-- A dialog is not opened once the state has been saved, and not refreshed when it has a code to
-- show infos for but no view. A fragment gets answers while it is attached, and fetched lists are
-- not null.
def Ready (a : MainActivity) : Event ι → Prop
  | .callback _ c =>
    (a.mMyDialog = none → a.fm.stateSaved = false) ∧
    (∀ d, a.mMyDialog = some d → c.infos ≠ none → (a.dialog d).mCode = some .accessGranted →
      (a.dialog d).mDDInfos ≠ none)
  | .answer q code invitationList =>
    a.mainFragment.context = true ∧ (q.Fetches → code = .success → invitationList ≠ none)
  | _ => True

end MainActivity
end Android
