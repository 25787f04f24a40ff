import WaltzExample.Android.Navigation.Basic
import WaltzExample.Android.Execution.Theorems.Runs

namespace Android.MainActivity

open FragmentManager (Op)
open Relation (ReflTransGen)

variable {a a' : MainActivity} {d : Ref}

theorem Silent.moves (h : Silent a a') : ReflTransGen Nav.Moves a.nav a'.nav := by
  cases h
  case main      => exact .refl
  case pop       => exact .single <| .enqueue rfl rfl
  case addDialog => exact .single .execNext
  case advance   => exact .single .execNext
  case start =>
    have hm := Nav.Moves.start (s := a.nav)
    refine .single ?_
    simpa [nav, MainActivity.start, MainActivity.enqueue] using hm

-- The activity refines the navigation: a step of it is a sequence of moves.
theorem Stepped.moves {ι : Type} [Gson ι] {e : Event ι} {t : Option Throwable}
    (h : Stepped a e t a') : ReflTransGen Nav.Moves a.nav a'.nav := by
  cases h
  case answered    => exact .refl
  case silent hs   => exact hs.lift' nav fun _ _ => Silent.moves
  case shown hs =>
    cases hs
    case opened => exact .single <| .enqueue rfl rfl
    all_goals exact .refl
  case clicked d _ hc =>
    cases hc
    case again     => exact .single <| .enqueue rfl rfl
    case dismissed =>
      have hm : Nav.Moves a.nav ⟨a.nav.started, a.nav.fm.enqueue <| .removeDialog d⟩ :=
        .enqueue rfl rfl
      exact .tail (.single hm) <| .enqueue rfl rfl

namespace Nav.Ordered

variable {s s' : Nav}

theorem start (h : s.Ordered) :
    Ordered ⟨s.started + 1, s.fm.enqueue <| .replace <| .flow s.started⟩ := by
  have hp := s.fm.pushed_enqueue_replace <| .flow s.started
  constructor
  case nodup =>
    refine hp.nodup_iff.mpr <| List.nodup_cons.mpr ⟨fun hf => ?_, h.nodup⟩
    have ⟨f, hlt, hf⟩ := h.started _ hf
    exact Nat.ne_of_lt hlt (Content.flow.inj hf).symm
  case started =>
    intro c hc
    cases List.mem_cons.mp <| hp.subset hc
    case inl hc => exact ⟨_, Nat.lt_succ_self _, hc⟩
    case inr hc =>
      have ⟨f, hlt, hf⟩ := h.started c hc
      exact ⟨f, Nat.lt_succ_of_lt hlt, hf⟩
  case noAdd   => simpa [FragmentManager.enqueue] using h.noAdd
  case stacked => exact h.stacked

theorem enqueue {op : Op Content Ref} (h : s.Ordered) (hr : op.replace? = none)
    (ha : op.add? = none) : Ordered ⟨s.started, s.fm.enqueue op⟩ where
  nodup      := by simpa [FragmentManager.pushed_enqueue hr] using h.nodup
  started    := by simpa [FragmentManager.pushed_enqueue hr] using h.started
  stacked    := h.stacked
  noAdd c hc := by
    cases List.mem_append.mp hc
    case inl hc => exact h.noAdd c hc
    case inr hc => simp [← List.mem_singleton.mp hc, Op.add?] at ha

theorem execNext (h : s.Ordered) : Ordered ⟨s.started, s.fm.execNext⟩ where
  nodup := by
    have ⟨_, hp, hs⟩ := s.fm.pushed_execNext_subperm
    exact hp.nodup_iff.mp <| hs.nodup h.nodup
  started c hc := h.started c <| s.fm.pushed_execNext_subperm.subset hc
  noAdd c hc   := h.noAdd c <| List.mem_of_mem_tail (by simpa using hc)
  stacked      := FragmentManager.stacked_execNext h.stacked h.noAdd

theorem moves (h : s.Ordered) (hm : ReflTransGen Nav.Moves s s') : s'.Ordered := by
  induction hm
  case refl         => exact h
  case tail hm hi   =>
    cases hm
    case start         => exact hi.start
    case enqueue hr ha => exact hi.enqueue hr ha
    case execNext      => exact hi.execNext

-- `MainFragment` is on the screen exactly when no flow is on the back stack.
theorem mainFragment_mem_iff (h : s.Ordered) :
    .mainFragment ∈ s.fm.content ↔ s.fm.backStack = [] := by
  have hs := h.stacked
  cases hb : s.fm.backStack
  case nil => simp_all [FragmentManager.Stacked]
  case cons e es =>
    have hm : e.added ∈ s.fm.pushed := FragmentManager.added_subset_pushed <| by simp [hb]
    obtain ⟨f, _, hf⟩ := h.started _ hm
    simp only [hb, FragmentManager.Stacked, hf] at hs
    simp [hs.left]

end Nav.Ordered

-- Executing operations is all that it takes to settle an activity.
theorem Sound.fm_settled (h : a.Sound) : a.settled.fm = a.fm.settle := by
  have ⟨_, hr, _, hf⟩ := h.run_execPendingActions
  rw [settled, Method.after_of_ok hr, hf]

theorem Nav.Ordered.settle {s : Nav} (h : s.Ordered) : Ordered ⟨s.started, s.fm.settle⟩ := by
  refine FragmentManager.settle_induction (P := fun fm => Ordered ⟨s.started, fm⟩) ?_ h
  exact fun _ h => h.execNext

theorem Sound.settled_nodup (hs : a.Sound) (h : a.nav.Ordered) : a.settled.entries.Nodup := by
  have hp : a.fm.settle.pushed = a.fm.settle.backStack.map BackStackEntry.added := by
    simp [FragmentManager.pushed, FragmentManager.pending_settle]
  rw [entries, hs.fm_settled, ← hp]
  exact h.settle.nodup

-- A click on OK pops the top entry, whatever it is the entry of.
theorem Sound.entries_clickDismiss (h : a.Sound) (hd : d ∈ a.fm.dialogs) :
    ((onClickDismiss d).after a).settled.entries = a.settled.entries.tail := by
  have ⟨a', hr, hc⟩ := h.clicked hd
  have h' := hc.sound h hd
  have hb : a'.fm.settle.backStack = a.fm.settle.backStack.tail := by
    cases hc
    case again     => simp [FragmentManager.settle_enqueue]
    case dismissed =>
      simp only [fm_assign, fm_enqueue, fm_setDialog, FragmentManager.settle_enqueue,
        FragmentManager.backStack_apply_popBackStack]
      rfl
  simp [Method.after_of_ok hr, entries, h'.fm_settled, h.fm_settled, hb]

theorem tail_eq_erase_iff {α : Type} [DecidableEq α] {x : α} {l : List α} (h : l.Nodup) :
    l.tail = l.erase x ↔ l = [] ∨ l.head? = some x := by
  cases l
  case nil => simp
  case cons hd tl =>
    by_cases he : hd = x
    case pos => simp [he]
    case neg =>
      have hn : tl ≠ hd :: tl.erase x := by
        intro ht
        exact (List.nodup_cons.mp h).left <| ht ▸ List.mem_cons_self
      simpa [he, List.erase_cons_tail] using hn

theorem closesOwn_iff_onTop (hs : a.Sound) (hn : a.nav.Ordered) (hd : d ∈ a.fm.dialogs) (f : Nat) :
    a.ClosesOwn d f ↔ a.OnTop f := by
  rw [ClosesOwn, OnTop, hs.entries_clickDismiss hd]
  exact tail_eq_erase_iff <| hs.settled_nodup hn

theorem ordered_launched : launched.nav.Ordered where
  nodup        := List.nodup_nil
  started _ hc := absurd hc List.not_mem_nil
  noAdd _ hc   := absurd hc List.not_mem_nil
  stacked      := rfl

section Runs

variable {ι : Type} [Gson ι] {g : Ref → Nat} {s : MainActivity × (Ref → Nat)}

-- A click on OK closes the flow that has opened the dialog exactly when that flow is on top.
theorem closesOwn_iff (r : (navigation ι).Run (launched, g) s) (hd : s.1.Displayed d) :
    s.1.ClosesOwn d (s.2 d) ↔ s.1.OnTop (s.2 d) := by
  have ⟨hs, hn⟩ := r.invariant (I := fun s => s.1.Sound ∧ s.1.nav.Ordered)
    (fun _ _ ⟨hs, hn⟩ he => ⟨hs.next he, hn.moves (hs.stepped he).moves⟩)
    ⟨fresh_launched.sound, ordered_launched⟩
  exact closesOwn_iff_onTop hs hn hd.left _

section Events

private abbrev openDialog : List (Event Empty) := [
  .clickLogin,
  .execNext,
  .callback 0 <| .onComplete .loginCancelled,
  .execNext
]

theorem closesOwn_openDialog :
    let s := openDialog.foldl (navigation Empty).next (launched, fun _ => 0)
    s.1.ClosesOwn 0 (s.2 0) :=
  closesOwn_iff (.ofEvents _ openDialog <| by decide) (by decide) |>.mpr (by decide)

-- The login flow is left with the Back key, and its callback comes while the flow that was started
-- next is on top.
theorem not_closesOwn_late_callback :
    ¬∀ (g : Ref → Nat) (s : MainActivity × (Ref → Nat)) (_ : (navigation Empty).Run (launched, g) s)
      (d : Ref), s.1.Displayed d → s.1.ClosesOwn d (s.2 d) := by
  intro h
  have hc := h (fun _ => 0) _ (.ofEvents _ [
    .clickLogin,
    .execNext,
    .back,
    .clickStartTransaction,
    .execNext,
    .callback 0 <| .onComplete .loginCancelled,
    .execNext
  ] <| by decide) 0 (by decide)
  exact absurd hc <| by decide

end Events
end Runs
end Android.MainActivity
