import WaltzExample.Android.Execution.Theorems.Sound
import Mathlib.Logic.Relation

namespace Android.MainActivity

open FragmentManager (Op)
open Relation (ReflTransGen)

-- The changes that have nothing to do with the result that is shown.
inductive Silent (a : MainActivity) : MainActivity → Prop
  | main (m : MainFragment) : Silent a (a.setMain m)
  | start (fragment : SdkFragment) :
    Silent a (a.start fragment |>.enqueue <| .replace <| .flow a.fragments.length)
  | pop : Silent a (a.enqueue .popBackStack)
  | addDialog {d : Ref} {ops : List (Op Content Ref)} {code : WaltzCode} :
    (a.fm.pending = .addDialog d :: ops) → ((a.dialog d).mCode = some code) →
    Silent a (a.advance.setDialog d <| (a.dialog d).created ⟨code, (a.dialog d).mData⟩)
  | advance : (∀ d, a.fm.pending.head? ≠ some (.addDialog d)) →
    Silent a (a.advance.setMain a.nextMain)

theorem Sound.silent {a a' : MainActivity} (h : a.Sound) : Silent a a' → a'.Sound
  | .main m         => h.setMain m
  | .start fragment => (h.start fragment).enqueue rfl nofun
  | .pop            => h.enqueue rfl nofun
  | .addDialog hp _ => h.advance_addDialog hp _
  | .advance hp     => h.advance hp |>.setMain _

variable {a a' : MainActivity} {d : Ref}

theorem Silent.next_eq (h : Silent a a') : a'.dialogs.next = a.dialogs.next := by
  cases h <;> rfl

theorem Sound.silents (h : a.Sound) (hs : ReflTransGen Silent a a') : a'.Sound := by
  induction hs
  case refl           => exact h
  case tail _ hs h    => exact h.silent hs

-- A dialog that is going to be added has a code to show, so deferred operations do not throw.
theorem Sound.run_execNext (h : a.Sound) :
    ∃ a', execNext.run a = .ok () a' ∧ Silent a a' ∧ a'.fm = a.fm.execNext := by
  by_cases hp : ∃ d, a.fm.pending.head? = some (.addDialog d)
  case pos =>
    have ⟨d, hp⟩ := hp
    have ⟨ops, hp⟩ := List.head?_eq_some_iff.mp hp
    have hd : d ∈ a.fm.held := FragmentManager.mem_held_iff.mpr <| .inr <| by simp [hp]
    have ⟨code, hc⟩ := h.made d (h.held d hd) |>.code
    exact ⟨_, run_execNext_addDialog hp hc, .addDialog hp hc, rfl⟩
  case neg =>
    have hp := not_exists.mp hp
    exact ⟨_, MainActivity.run_execNext hp, .advance hp, rfl⟩

theorem Sound.run_execNexts {α : Type} (h : a.Sound) (l : List α) :
    ∃ a', (l.forM fun _ => execNext).run a = .ok () a' ∧ ReflTransGen Silent a a' ∧
      a'.fm = FragmentManager.execNext^[l.length] a.fm := by
  induction l generalizing a
  case nil => exact ⟨a, rfl, .refl, rfl⟩
  case cons hd tl hi =>
    have ⟨a₁, hr₁, hs₁, hf₁⟩ := h.run_execNext
    have ⟨a₂, hr₂, hs₂, hf₂⟩ := hi <| h.silent hs₁
    refine ⟨a₂, ?_, .head hs₁ hs₂, ?_⟩
    case refine_1 => simpa [hr₁] using hr₂
    case refine_2 => rw [hf₂, hf₁, List.length_cons, Function.iterate_succ_apply]

theorem Sound.run_execPendingActions (h : a.Sound) :
    ∃ a', execPendingActions.run a = .ok () a' ∧ ReflTransGen Silent a a' ∧
      a'.fm = a.fm.settle := by
  have ⟨a', hr, hs, hf⟩ := h.run_execNexts a.fm.pending
  exact ⟨a', by simpa [execPendingActions] using hr, hs, hf⟩

theorem Sound.run_popBackStackImmediate (h : a.Sound) :
    ∃ a', popBackStackImmediate.run a = .ok () a' ∧ ReflTransGen Silent a a' := by
  have ⟨a₁, hr₁, hs₁, _⟩ := h.run_execPendingActions
  have h₁ := h.silents hs₁
  have hr₂ : popBackStack.run a₁ = .ok () (a₁.enqueue .popBackStack) := run_commit h₁.unsaved
  have ⟨a₃, hr₃, hs₃, _⟩ := h₁.silent .pop |>.run_execNext
  refine ⟨a₃, ?_, hs₁.tail .pop |>.tail hs₃⟩
  simp [popBackStackImmediate, hr₁, hr₂, hr₃]

-- What a call of `showDialog` throws, and what it leaves behind.
inductive Shown (a : MainActivity) (code : WaltzCode) (infos : Option DDInfos) :
    Option Throwable → MainActivity → Prop
  | opened : (a.mMyDialog = none) → (a.fm.stateSaved = false) → Shown a code infos none (
      a.alloc (opened code infos) |>.assign a.dialogs.next |>.enqueue (.addDialog a.dialogs.next))
  | refused : (a.mMyDialog = none) → (a.fm.stateSaved = true) →
      Shown a code infos (some .illegalState) (
        a.alloc (opened code infos) |>.assign a.dialogs.next)
  | same {d : Ref} : (a.mMyDialog = some d) →
      (infos = none ∨ (a.dialog d).mCode ≠ some .accessGranted) → Shown a code infos none a
  | written {d : Ref} {data : DDInfos} : (a.mMyDialog = some d) → (infos = some data) →
      ((a.dialog d).mCode = some .accessGranted) → ((a.dialog d).mDDInfos ≠ none) →
      Shown a code infos none (a.setDialog d <| (a.dialog d).written data)
  | failed {d : Ref} {data : DDInfos} : (a.mMyDialog = some d) → (infos = some data) →
      ((a.dialog d).mCode = some .accessGranted) → ((a.dialog d).mDDInfos = none) →
      Shown a code infos (some <| .nullPointer .view) a

section ShowDialog

variable {code : WaltzCode} {infos : Option DDInfos}

theorem Shown.of_run_ok (h : (showDialog code infos).run a = .ok () a')
    (hs : Shown a code infos none a') :
    Shown a code infos ((showDialog code infos).thrown a) ((showDialog code infos).after a) :=
  Method.thrown_of_ok h ▸ Method.after_of_ok h ▸ hs

theorem shown (a : MainActivity) (code : WaltzCode) (infos : Option DDInfos) :
    Shown a code infos ((showDialog code infos).thrown a) ((showDialog code infos).after a) := by
  cases hm : a.mMyDialog
  case none =>
    cases hs : a.fm.stateSaved
    case false => exact .of_run_ok (run_showDialog_open hm hs) <| .opened hm hs
    case true =>
      have hr := run_showDialog_refused code infos hm hs
      rw [Method.thrown_of_error hr, Method.after_of_error hr]
      exact .refused hm hs
  case some d =>
    cases infos
    case none => exact .of_run_ok (run_showDialog_of_null hm) <| .same hm <| .inl rfl
    case some data =>
      have hr := run_showDialog_refresh code data hm
      by_cases hc : (a.dialog d).mCode = some .accessGranted
      case neg =>
        rw [run_onDialog <| MyDialog.run_refreshDDInfos_of_not_granted hc, setDialog_dialog] at hr
        exact .of_run_ok hr <| .same hm <| .inr hc
      case pos =>
        cases hv : (a.dialog d).mDDInfos
        case none =>
          rw [run_onDialog_of_error <| MyDialog.run_refreshDDInfos_of_null hc hv,
            setDialog_dialog] at hr
          rw [Method.thrown_of_error hr, Method.after_of_error hr]
          exact .failed hm rfl hc hv
        case some view =>
          rw [run_onDialog <| MyDialog.run_refreshDDInfos hc hv] at hr
          exact .of_run_ok hr <| .written hm rfl hc <| by simp [hv]

end ShowDialog

-- The same for a click on the OK button of the dialog `d`.
inductive Clicked (a : MainActivity) (d : Ref) : MainActivity → Prop
  | dismissed : ((a.dialog d).mDismissed = false) → Clicked a d (
      a.setDialog d (a.dialog d).dismissed
        |>.enqueue (.removeDialog d) |>.enqueue .popBackStack |>.assign none)
  | again : ((a.dialog d).mDismissed = true) →
      Clicked a d (a.enqueue .popBackStack |>.assign none)

theorem Sound.clicked (h : a.Sound) (hd : d ∈ a.fm.dialogs) :
    ∃ a', (onClickDismiss d).run a = .ok () a' ∧ Clicked a d a' := by
  have hl := h.made d (h.held d <| FragmentManager.dialogs_subset_held hd) |>.listener
  cases hm : (a.dialog d).mDismissed
  case false => exact ⟨_, run_onClickDismiss h.unsaved hm hl, .dismissed hm⟩
  case true  => exact ⟨_, run_onClickDismiss_of_dismissed h.unsaved hm hl, .again hm⟩

section Sound

variable {code : WaltzCode} {infos : Option DDInfos} {t : Option Throwable}

theorem Shown.sound (hs : Shown a code infos t a') (h : a.Sound) : a'.Sound := by
  cases hs
  case opened => exact h.show_opened code infos
  case same   => exact h
  case failed => exact h
  case refused hs => exact absurd h.unsaved <| by simp [hs]
  case written hv =>
    refine h.setDialog (fun h => ⟨h.code, h.listener⟩) (·.written _) (fun hp => ?_) id
    exact absurd (h.unviewed _ hp).ddInfos hv

theorem Clicked.sound (hc : Clicked a d a') (h : a.Sound) (hd : d ∈ a.fm.dialogs) : a'.Sound := by
  cases hc
  case again => exact (h.silent .pop).assign_none
  case dismissed =>
    have hs : (a.setDialog d (a.dialog d).dismissed).Sound := by
      refine h.setDialog (fun h => ⟨h.code, h.listener⟩) (·.dismissed) (fun hp => ?_) fun _ => rfl
      exact absurd hd <| FragmentManager.not_mem_of_held_nodup h.nodup hp
    have hr : (a.setDialog d (a.dialog d).dismissed |>.enqueue (.removeDialog d)).Sound := by
      refine hs.enqueue rfl fun d' he => ?_
      cases he
      exact ⟨h.held d <| FragmentManager.dialogs_subset_held hd, by simp [MyDialog.dismissed]⟩
    exact (hr.silent .pop).assign_none

end Sound

section Events

variable {ι : Type} [Gson ι] {e : Event ι} {t : Option Throwable}

def Event.IsSilent : Event ι → Prop
  | .callback .. | .clickDismiss _ | .answer .. => False
  | _                                           => True

-- What an event throws, and what it leaves behind, in the foreground.
inductive Stepped (a : MainActivity) : Event ι → Option Throwable → MainActivity → Prop
  | silent {e : Event ι} {a' : MainActivity} :
    e.IsSilent → ReflTransGen Silent a a' → Stepped a e none a'
  | answered {q : Request} {code : WaltzCode} {list : Option (List ι)} : Stepped a
    (.answer q code list) ((MainFragment.onAnswer code list q).thrown a.mainFragment)
    (a.setMain <| (MainFragment.onAnswer code list q).after a.mainFragment)
  | shown {f : Nat} {c : Callback} {t : Option Throwable} {a' : MainActivity} :
    Shown a c.code c.infos t a' → Stepped a (.callback f c) t a'
  | clicked {d : Ref} {a' : MainActivity} :
    (d ∈ a.fm.dialogs) → Clicked a d a' → Stepped a (.clickDismiss d) none a'

theorem Stepped.silent_of_run {m : Method Throwable MainActivity Unit} (he : e.IsSilent)
    (hr : m.run a = .ok () a') (hs : ReflTransGen Silent a a') :
    Stepped a e (m.thrown a) (m.after a) := by
  rw [Method.thrown_of_ok hr, Method.after_of_ok hr]
  exact .silent he hs

theorem Sound.run_callListener (h : a.Sound) (fragment : SdkFragment) :
    ∃ a', (callListener <| startFragment fragment).run a = .ok () a' ∧
      ReflTransGen Silent a a' := by
  by_cases hl : a.mainFragment.mListener
  case pos =>
    have hr := run_startFragment fragment h.unsaved
    exact ⟨_, by simpa [callListener, hl] using hr, .single <| .start fragment⟩
  case neg => exact ⟨a, by simp [callListener, hl], .refl⟩

-- The inversion that every invariant of the foreground rests on.
theorem Sound.stepped (h : a.Sound) (he : a.Enabled e) :
    Stepped a e ((handle e).thrown a) ((handle e).after a) := by
  cases e
  case clickLogin =>
    have ⟨_, hr, hs⟩ := h.run_callListener (.logIn visual)
    exact .silent_of_run trivial hr hs
  case clickStartTransaction =>
    have ⟨_, hr, hs⟩ := h.run_callListener .transaction
    exact .silent_of_run trivial hr hs
  case click c => exact .silent_of_run trivial rfl <| .single <| .main _
  case execNext =>
    have ⟨_, hr, hs, _⟩ := h.run_execNext
    exact .silent_of_run trivial hr <| .single hs
  case back =>
    have ⟨_, hr, hs⟩ := h.run_popBackStackImmediate
    exact .silent_of_run trivial hr hs
  case answer =>
    simp only [handle, onMainFragment, Method.thrown_zoom, Method.after_zoom]
    exact .answered
  case callback f c =>
    simp only [handle, Callback.onCallback_eq]
    exact .shown <| MainActivity.shown ..
  case clickDismiss d =>
    obtain ⟨_, hr, hc⟩ := h.clicked he.right.left
    simp only [handle, Method.thrown_of_ok hr, Method.after_of_ok hr]
    exact .clicked he.right.left hc

theorem Stepped.sound (hs : Stepped a e t a') (h : a.Sound) : a'.Sound := by
  cases hs
  case silent hs     => exact h.silents hs
  case answered      => exact h.setMain _
  case shown hs      => exact hs.sound h
  case clicked hd hc => exact hc.sound h hd

theorem Sound.next (h : a.Sound) (he : a.Enabled e) : ((handle e).after a).Sound :=
  (h.stepped he).sound h

end Events
end Android.MainActivity
