import WaltzExample.Android.Lifecycle.Runs

namespace Android

open FragmentManager (Op)
open Method (Keeps Succeeds)

namespace MainActivity

variable {a a' : MainActivity} {d : Ref}

-- A dialog that is going to be added has a code to show.
def Coded (a : MainActivity) : Prop :=
  ∀ d, .addDialog d ∈ a.fm.pending → (a.dialog d).mCode ≠ none

namespace Coded

theorem enqueue {op : Op Content Ref} (h : a.Coded) (ho : op.addDialog? = none) :
    (a.enqueue op).Coded := by
  intro d hd
  cases List.mem_append.mp hd
  case inl hd => exact h d hd
  case inr hd => simp [← List.mem_singleton.mp hd, Op.addDialog?] at ho

theorem setDialog {o : MyDialog} (h : a.Coded) (ho : o.mCode = (a.dialog d).mCode) :
    (a.setDialog d o).Coded :=
  forall_setDialog (P := (·.mCode ≠ none)) _ h fun _ hc => ho ▸ hc

theorem advance (h : a.Coded) : a.advance.Coded :=
  fun d hd => h d <| List.mem_of_mem_tail (by simpa using hd)

-- A new dialog has the code that it is made with.
theorem alloc (h : a.Coded) (code : WaltzCode) (infos : Option DDInfos) (d : Ref)
    (hd : d = a.dialogs.next ∨ .addDialog d ∈ a.fm.pending) :
    ((a.alloc <| opened code infos).dialog d).mCode ≠ none := by
  by_cases hn : d = a.dialogs.next
  case pos => subst hn; simp [opened]
  case neg => simpa [dialog, MainActivity.alloc, Heap.alloc, hn] using h d <| hd.resolve_left hn

theorem shown {code : WaltzCode} {infos : Option DDInfos} {t : Option Throwable} (h : a.Coded)
    (hs : Shown a code infos t a') : a'.Coded := by
  cases hs
  case same    => exact h
  case failed  => exact h
  case written => exact h.setDialog rfl
  case refused => exact fun d hd => h.alloc code infos d <| .inr hd
  case opened  =>
    refine fun d hd => h.alloc code infos d ?_
    simpa [FragmentManager.enqueue, or_comm] using hd

end Coded

-- An activity in the foreground that can execute what is pending.
structure Going (a : MainActivity) : Prop where
  unsaved : a.fm.stateSaved = false
  coded   : a.Coded

theorem succeeds_commit {op : Op Content Ref} (ho : op.addDialog? = none) :
    Succeeds Going (commit op) :=
  fun _ h => ⟨_, _, run_commit h.unsaved, h.unsaved, h.coded.enqueue ho⟩

theorem succeeds_execNext : Succeeds Going execNext := by
  intro a h
  by_cases hp : ∃ d, a.fm.pending.head? = some (.addDialog d)
  case pos =>
    have ⟨d, hp⟩ := hp
    have ⟨_, hp⟩ := List.head?_eq_some_iff.mp hp
    have ⟨_, hc⟩ := Option.ne_none_iff_exists'.mp <| h.coded d <| by simp [hp]
    refine ⟨_, _, run_execNext_addDialog hp hc, by simpa using h.unsaved, ?_⟩
    exact h.coded.advance.setDialog rfl
  case neg =>
    refine ⟨_, _, run_execNext <| not_exists.mp hp, by simpa using h.unsaved, ?_⟩
    exact h.coded.advance

theorem succeeds_execPendingActions : Succeeds Going execPendingActions :=
  Succeeds.get.bind fun _ => .forM (fun _ => succeeds_execNext) _

theorem succeeds_startFragment (fragment : SdkFragment) : Succeeds Going (startFragment fragment) :=
  Succeeds.get.bind fun _ => Succeeds.modify (fun _ h => ⟨h.unsaved, h.coded⟩) |>.bind fun _ =>
    succeeds_commit rfl

theorem succeeds_callListener {m : Method Throwable MainActivity Unit} (h : Succeeds Going m) :
    Succeeds Going (callListener m) :=
  Succeeds.get.bind fun _ => .ite h <| .pure _

theorem succeeds_onClickDismiss : Succeeds Going (onClickDismiss d) := by
  have hd : Succeeds Going <| onDialog d <| modify ({ · with mDismissed := true }) :=
    fun _ h => ⟨_, _, run_onDialog rfl, h.unsaved, h.coded.setDialog rfl⟩
  refine Succeeds.bind ?_ fun _ => Succeeds.get.bind fun a => ?_
  case refine_1 =>
    exact Succeeds.get.bind fun _ => .ite (hd.bind fun _ => succeeds_commit rfl) <| .pure _
  case refine_2 =>
    cases (a.dialog d).mListener
    case none => exact .pure _
    case some =>
      exact (succeeds_commit rfl).bind fun _ => .modify fun _ h => ⟨h.unsaved, h.coded⟩

variable {ι : Type} [Gson ι] {e : Event ι}

-- What the user and the fragment manager bring about does not fail in the foreground.
theorem succeeds_handle (he : ¬e.OfSdk) : Succeeds Going (handle e) := by
  cases e
  case clickLogin            => exact succeeds_callListener <| succeeds_startFragment _
  case clickStartTransaction => exact succeeds_callListener <| succeeds_startFragment _
  case click c               => exact fun _ h => ⟨_, _, rfl, h.unsaved, h.coded⟩
  case answer                => exact absurd trivial he
  case callback              => exact absurd trivial he
  case execNext              => exact succeeds_execNext
  case clickDismiss          => exact succeeds_onClickDismiss
  case back =>
    exact succeeds_execPendingActions.bind fun _ => (succeeds_commit rfl).bind fun _ =>
      succeeds_execNext

-- Nor does saving the state.
theorem Going.run_onSaveInstanceState (h : a.Going) :
    ∃ a', onSaveInstanceState.run a = .ok () a' ∧ a'.Coded := by
  have ⟨_, a', hr, h'⟩ := succeeds_execPendingActions a h
  have hc : Coded { a' with fm := { a'.fm with stateSaved := true } } := h'.coded
  exact ⟨_, by simp only [onSaveInstanceState, EStateM.run_bind, hr]; rfl, hc⟩

omit [Gson ι] in
theorem unsaved_of_enabled (he : a.Enabled e) (hs : ¬e.OfSdk) : a.fm.stateSaved = false := by
  by_contra hn
  exact hs <| Event.ofSdk_of_saved he <| by simpa using hn

theorem lasting_coded : Lasting ι Coded where
  handle a e he h := by
    by_cases hs : e.OfSdk
    case neg => exact (succeeds_handle hs).keeps a ⟨unsaved_of_enabled he hs, h⟩ |>.coded
    case pos =>
      cases e <;> try exact hs.elim
      case answer => exact after_onMainFragment (a := a) _ ▸ h
      case callback f c =>
        rw [MainActivity.handle, c.onCallback_eq]
        exact h.shown <| MainActivity.shown a c.code c.infos
  save a hs h := by
    obtain ⟨_, hr, h'⟩ := Going.run_onSaveInstanceState ⟨hs, h⟩
    exact Method.after_of_ok hr ▸ h'
  start   := .modify fun _ h => h
  destroy := fun _ h => after_onMainFragment _ ▸ h

end MainActivity

namespace Host

variable {ι : Type} [Gson ι] {s : Host} {e : Event ι}

def Coded (s : Host) : Prop :=
  ∀ i < s.activities.next, (s.activity i).Coded

omit [Gson ι] in
-- An activity that takes the place of a destroyed one has nothing to execute.
theorem Placed.coded_restored (h : s.Placed) (he : s.Enabled (.recreate : Event ι)) :
    (s.restore.after s.restored).Coded := by
  have hp := h.place _ h.current
  have hn := hp.stopped (hp.gone ⟨h.current, fun _ => he.left⟩).saved
  rw [restore, Method.after_of_ok <| MainActivity.run_restore <| restore_completes_iff.mp he.right]
  exact fun d hd => absurd hd <| by simp [hn]

theorem Coded.next (h : s.Coded) (hp : s.Placed) (he : s.Enabled e) : (s.next e).Coded := by
  intro i hi
  by_cases hl : i < s.activities.next
  case pos => exact activity_next MainActivity.lasting_coded hl he <| h i hl
  case neg =>
    cases e
    case recreate =>
      cases Nat.le_antisymm (Nat.le_of_lt_succ hi) (Nat.le_of_not_lt hl)
      exact activity_recreate (ι := ι) ▸ hp.coded_restored he
    all_goals exact absurd hi hl

theorem coded_launched : launched.Coded := by
  intro i hi
  cases Nat.lt_one_iff.mp hi
  exact fun d hd => absurd hd List.not_mem_nil

section Events

-- The dialog of the login flow has been refused, and the flow is left in the second activity.
private abbrev left : List (Event Empty) := [
  .activity 0 .clickLogin,
  .activity 0 .execNext,
  .save,
  .activity 0 <| .callback 0 <| .onComplete .loginFailed,
  .destroy,
  .recreate
]

end Events
end Host
end Android
