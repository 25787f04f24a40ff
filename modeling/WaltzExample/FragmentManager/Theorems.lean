import WaltzExample.FragmentManager.Basic
import WaltzExample.Method.Theorems
import Mathlib.Data.List.Nodup
import Mathlib.Data.List.Perm.Subperm

namespace FragmentManager

variable {φ δ ε : Type} {fm : FragmentManager φ δ} {op : Op φ δ}
variable {ops : List (Op φ δ)} {d d' : δ} {base : List φ}

theorem run_enqueueAction (e : ε) (h : fm.stateSaved = false) :
    (enqueueAction e op).run fm = .ok () (fm.enqueue op) := by
  simp [enqueueAction, h]

theorem run_enqueueAction_refused (e : ε) (h : fm.stateSaved = true) :
    (enqueueAction e op).run fm = .error e fm := by
  simp [enqueueAction, h]

section Apply

variable [DecidableEq δ]

@[simp]
theorem pending_apply : (fm.apply op).pending = fm.pending := by
  cases op
  case popBackStack => rcases fm with ⟨_, _, _ | _, _, _⟩ <;> rfl
  all_goals rfl

@[simp]
theorem stateSaved_apply : (fm.apply op).stateSaved = fm.stateSaved := by
  cases op
  case popBackStack => rcases fm with ⟨_, _, _ | _, _, _⟩ <;> rfl
  all_goals rfl

theorem apply_with_pending :
    { fm with pending := ops }.apply op = { fm.apply op with pending := ops } := by
  cases op
  case popBackStack => rcases fm with ⟨_, _, _ | _, _, _⟩ <;> rfl
  all_goals rfl

@[simp]
theorem backStack_apply_popBackStack : (fm.apply .popBackStack).backStack = fm.backStack.tail := by
  cases h : fm.backStack <;> simp [apply, h]

theorem execNext_of_nil (h : fm.pending = []) : fm.execNext = fm := by
  simp [execNext, h]

theorem execNext_of_cons (h : fm.pending = op :: ops) :
    fm.execNext = { fm.apply op with pending := ops } := by
  simp [execNext, h, apply_with_pending]

@[simp]
theorem stateSaved_execNext : fm.execNext.stateSaved = fm.stateSaved := by
  cases h : fm.pending
  case nil  => rw [execNext_of_nil h]
  case cons => simp [execNext_of_cons h]

@[simp]
theorem pending_execNext : fm.execNext.pending = fm.pending.tail := by
  cases h : fm.pending
  case nil  => rw [execNext_of_nil h, h, List.tail_nil]
  case cons => rw [execNext_of_cons h, List.tail_cons]

theorem dialogs_execNext_addDialog (h : fm.pending = .addDialog d :: ops) :
    fm.execNext.dialogs = fm.dialogs ++ [d] := by
  rw [execNext_of_cons h]
  rfl

theorem dialogs_execNext_subset (h : ∀ d, fm.pending.head? ≠ some (.addDialog d)) :
    fm.execNext.dialogs ⊆ fm.dialogs := by
  cases hp : fm.pending
  case nil => simp [execNext_of_nil hp]
  case cons op ops =>
    rw [execNext_of_cons hp]
    cases op
    case addDialog d    => simp [hp] at h
    case removeDialog d => exact List.erase_subset
    case popBackStack   => rcases fm with ⟨_, _, _ | _, _, _⟩ <;> exact List.Subset.refl _
    all_goals exact List.Subset.refl _

end Apply

section Settle

variable [DecidableEq δ]

theorem iterate_execNext : (ops : List (Op φ δ)) → (fm : FragmentManager φ δ) →
    (fm.pending = ops) → execNext^[ops.length] fm = ops.foldl apply { fm with pending := [] }
  | [],        fm, h => by cases fm; cases h; rfl
  | op :: ops, fm, h => by
    rw [List.length_cons, Function.iterate_succ_apply, iterate_execNext ops]
    · have h' : { fm.execNext with pending := [] } = { fm with pending := [] }.apply op := by
        rw [execNext_of_cons h]
        exact apply_with_pending.symm
      rw [h', List.foldl_cons]
    · rw [execNext_of_cons h]

theorem settle_eq_foldl : fm.settle = fm.pending.foldl apply { fm with pending := [] } :=
  iterate_execNext _ _ rfl

theorem settle_enqueue : (fm.enqueue op).settle = fm.settle.apply op := by
  simp [settle_eq_foldl, enqueue]

theorem pending_settle : fm.settle.pending = [] := by
  suffices h : ∀ (ops : List (Op φ δ)) (fm : FragmentManager φ δ),
    fm.pending = [] → (ops.foldl apply fm).pending = [] by simp [settle_eq_foldl, h]
  intro ops
  induction ops <;> simp_all

theorem settle_of_nil (h : fm.pending = []) : fm.settle = fm := by
  rw [settle, h]
  rfl

theorem execNext_enqueue (h : fm.pending ≠ []) :
    (fm.enqueue op).execNext = fm.execNext.enqueue op := by
  obtain ⟨op', ops, h⟩ := List.exists_cons_of_ne_nil h
  have he : (fm.enqueue op).pending = op' :: (ops ++ [op]) := by simp [enqueue, h]
  rw [execNext_of_cons he, execNext_of_cons h, enqueue, enqueue, apply_with_pending]

-- What is enqueued waits for all operations that are pending.
theorem iterate_execNext_enqueue {n : Nat} (h : n ≤ fm.pending.length) :
    execNext^[n] (fm.enqueue op) = (execNext^[n] fm).enqueue op := by
  induction n generalizing fm
  case zero => rfl
  case succ n hi =>
    have hp : fm.pending ≠ [] := fun hp => by simp [hp] at h
    rw [Function.iterate_succ_apply, Function.iterate_succ_apply, execNext_enqueue hp]
    exact hi <| by simp; omega

theorem settle_execNext : fm.execNext.settle = fm.settle := by
  cases h : fm.pending
  case nil => rw [execNext_of_nil h]
  case cons op ops =>
    have ha : { fm with pending := [] }.apply op = { fm.apply op with pending := [] } :=
      apply_with_pending
    rw [settle_eq_foldl, settle_eq_foldl, execNext_of_cons h, h, List.foldl_cons, ha]

theorem settle_induction {P : FragmentManager φ δ → Prop} (h : ∀ fm, P fm → P fm.execNext)
    (hp : P fm) : P fm.settle := by
  suffices h' : ∀ n, P (execNext^[n] fm) from h' _
  intro n
  induction n
  case zero      => exact hp
  case succ n hi => exact Function.iterate_succ_apply' .. ▸ h _ hi

end Settle

section Held

theorem held_enqueue_addDialog : (fm.enqueue (.addDialog d)).held = fm.held ++ [d] := by
  simp [held, enqueue, Op.addDialog?]

theorem held_enqueue (h : op.addDialog? = none) : (fm.enqueue op).held = fm.held := by
  simp [held, enqueue, h]

theorem dialogs_subset_held : fm.dialogs ⊆ fm.held :=
  List.subset_append_left ..

theorem addDialog?_eq_some_iff : op.addDialog? = some d ↔ op = .addDialog d := by
  cases op <;> simp [Op.addDialog?]

theorem mem_held_iff : d ∈ fm.held ↔ d ∈ fm.dialogs ∨ .addDialog d ∈ fm.pending := by
  simp [held, List.mem_filterMap, addDialog?_eq_some_iff]

-- A dialog is not held twice: it is added once, and not when it is there already.
theorem not_mem_of_held_nodup (h : fm.held.Nodup) (hp : .addDialog d ∈ fm.pending) :
    d ∉ fm.dialogs := by
  intro hd
  refine List.disjoint_of_nodup_append h hd ?_
  exact List.mem_filterMap.mpr ⟨_, hp, rfl⟩

theorem not_mem_tail_of_held_nodup (h : fm.held.Nodup) (hp : fm.pending = .addDialog d :: ops) :
    .addDialog d ∉ ops := by
  intro hd
  have hn := (List.nodup_append.mp h).right.left
  simp only [hp, List.filterMap_cons, Op.addDialog?, List.nodup_cons] at hn
  exact hn.left <| List.mem_filterMap.mpr ⟨_, hd, rfl⟩

variable [DecidableEq δ]

-- Adding a dialog moves it from the queue to the dialogs, so only a removal takes one away.
theorem held_execNext_sublist : fm.execNext.held.Sublist fm.held := by
  cases h : fm.pending
  case nil => rw [execNext_of_nil h]
  case cons op ops =>
    rw [execNext_of_cons h]
    cases op <;> simp only [held, apply, h, List.filterMap_cons, Op.addDialog?]
    case addDialog d    => simp
    case removeDialog d => exact (List.erase_sublist ..).append_right _
    case popBackStack   => split <;> simp
    all_goals exact .refl _

theorem mem_held_execNext (h : d ∈ fm.held) (hr : .removeDialog d ∉ fm.pending) :
    d ∈ fm.execNext.held := by
  cases hp : fm.pending
  case nil => rwa [execNext_of_nil hp]
  case cons op ops =>
    rw [execNext_of_cons hp]
    simp only [hp, List.mem_cons, not_or] at hr
    cases op <;> simp only [held, apply, hp, List.filterMap_cons, Op.addDialog?] at h ⊢
    case addDialog d'    => simpa using h
    case popBackStack    => split <;> exact h
    case removeDialog d' =>
      have hn : d ≠ d' := by simpa using hr.left
      simpa [List.mem_erase_of_ne hn] using h
    all_goals exact h

theorem mem_dialogs_execNext (hn : fm.held.Nodup) (hp : fm.pending = op :: ops)
    (hd : d ∈ fm.execNext.dialogs) :
    op = .addDialog d ∨ (d ∈ fm.dialogs ∧ op ≠ .removeDialog d) := by
  rw [execNext_of_cons hp] at hd
  cases op
  case addDialog d' =>
    cases List.mem_append.mp hd
    case inl hd => exact .inr ⟨hd, nofun⟩
    case inr hd => exact .inl <| List.mem_singleton.mp hd ▸ rfl
  case removeDialog d' =>
    have hn' : fm.dialogs.Nodup := hn.sublist <| List.sublist_append_left ..
    have ⟨hne, hd⟩ := hn'.mem_erase_iff.mp hd
    exact .inr ⟨hd, fun he => hne (Op.removeDialog.inj he).symm⟩
  case popBackStack =>
    refine .inr ⟨?_, nofun⟩
    simp only [apply] at hd
    split at hd <;> exact hd
  all_goals exact .inr ⟨hd, nofun⟩

-- Among the dialogs with `p` nothing changes when no such dialog is going to be removed.
theorem filter_held_execNext {p : δ → Bool} (h : ∀ d, .removeDialog d ∈ fm.pending → p d = false) :
    fm.execNext.held.filter p = fm.held.filter p := by
  cases hp : fm.pending
  case nil => rw [execNext_of_nil hp]
  case cons op ops =>
    rw [execNext_of_cons hp]
    cases op <;> simp only [held, apply, hp, List.filterMap_cons, Op.addDialog?]
    case addDialog d    => simp
    case removeDialog d =>
      have hd := h d <| hp ▸ List.mem_cons_self
      have he : (fm.dialogs.erase d).filter p = fm.dialogs.filter p := by
        rw [← List.erase_filter, List.erase_of_not_mem]
        simp [hd]
      rw [List.filter_append, List.filter_append, he]
    case popBackStack   => split <;> simp

end Held

section Pushed

theorem pushed_enqueue_replace (f : φ) :
    (fm.enqueue (.replace f)).pushed.Perm (f :: fm.pushed) := by
  simp [pushed, enqueue, Op.replace?, List.perm_middle]

theorem pushed_enqueue (h : op.replace? = none) : (fm.enqueue op).pushed = fm.pushed := by
  simp [pushed, enqueue, h]

theorem added_subset_pushed : fm.backStack.map BackStackEntry.added ⊆ fm.pushed :=
  List.subset_append_right ..

variable [DecidableEq δ]

theorem pushed_execNext_subperm : fm.execNext.pushed.Subperm fm.pushed := by
  cases h : fm.pending
  case nil => rw [execNext_of_nil h]
  case cons op ops =>
    rw [execNext_of_cons h]
    cases op <;> simp only [pushed, h, List.filterMap_cons, Op.replace?]
    case replace f    => exact List.perm_middle.subperm
    case popBackStack =>
      rw [backStack_apply_popBackStack]
      exact ((List.tail_sublist _).map _ |>.append_left _).subperm
    all_goals exact .refl _

end Pushed

theorem stacked_execNext [DecidableEq δ] (hs : Stacked base fm.content fm.backStack)
    (h : ∀ f, .add f ∉ fm.pending) :
    Stacked base fm.execNext.content fm.execNext.backStack := by
  cases hp : fm.pending
  case nil => rwa [execNext_of_nil hp]
  case cons op ops =>
    rw [execNext_of_cons hp]
    cases op <;> simp only [apply]
    case add f        => exact absurd (hp ▸ List.mem_cons_self ..) (h f)
    case replace f    => exact ⟨rfl, hs⟩
    case addDialog    => exact hs
    case removeDialog => exact hs
    case popBackStack =>
      cases hb : fm.backStack <;> simp only [hb, Stacked] at hs ⊢
      case nil  => exact hs
      case cons => exact hs.right

end FragmentManager
