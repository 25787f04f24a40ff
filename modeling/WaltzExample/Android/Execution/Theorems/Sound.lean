import WaltzExample.Android.Execution.Theorems.Methods

namespace Android

open FragmentManager (Op)

-- A dialog as `showDialog` makes them, whatever has happened to it since.
structure MyDialog.Made (o : MyDialog) : Prop where
  code     : ∃ code, o.mCode = some code
  listener : o.mListener = some .showDialog

-- A dialog that has no view yet. It cannot have been dismissed either.
structure MyDialog.Unviewed (o : MyDialog) : Prop where
  ddInfos   : o.mDDInfos = none
  dismissed : o.mDismissed = false

-- A dialog with a view: the fields that refer to it are set, OK can be clicked, and the Back key
-- cannot cancel the dialog.
structure MyDialog.HasView (o : MyDialog) : Prop where
  title   : o.mTitle ≠ none
  ddInfos : o.mDDInfos ≠ none
  dismiss : o.mDismiss = some ⟨true⟩
  locked  : o.mCancelable = false

namespace MyDialog.HasView

variable {o : MyDialog}

theorem created (r : Result) : (o.created r).HasView where
  title   := nofun
  ddInfos := nofun
  dismiss := rfl
  locked  := rfl

theorem written (h : o.HasView) (data : DDInfos) : (o.written data).HasView where
  title   := h.title
  ddInfos := nofun
  dismiss := h.dismiss
  locked  := h.locked

theorem dismissed (h : o.HasView) : o.dismissed.HasView :=
  ⟨h.title, h.ddInfos, h.dismiss, h.locked⟩

end MyDialog.HasView

namespace MainActivity

-- What holds of an activity in the foreground whatever has happened to it.
structure Sound (a : MainActivity) : Prop where
  unsaved  : a.fm.stateSaved = false
  nodup    : a.fm.held.Nodup
  held     : ∀ d ∈ a.fm.held, d < a.dialogs.next
  assigned : ∀ d, a.mMyDialog = some d → d < a.dialogs.next
  made     : ∀ d < a.dialogs.next, (a.dialog d).Made
  viewed   : ∀ d ∈ a.fm.dialogs, (a.dialog d).HasView
  unviewed : ∀ d, .addDialog d ∈ a.fm.pending → (a.dialog d).Unviewed
  removed  : ∀ d, .removeDialog d ∈ a.fm.pending → d < a.dialogs.next
  leaving  : ∀ d, .removeDialog d ∈ a.fm.pending → (a.dialog d).mDismissed = true

theorem opened_made (code : WaltzCode) (infos : Option DDInfos) : (opened code infos).Made :=
  ⟨⟨code, rfl⟩, rfl⟩

theorem opened_unviewed (code : WaltzCode) (infos : Option DDInfos) :
    (opened code infos).Unviewed :=
  ⟨rfl, rfl⟩

namespace Sound

variable {a a' : MainActivity} {d : Ref} {o : MyDialog} {op : Op Content Ref}

theorem of_eq (h : a.Sound) (hf : a'.fm = a.fm) (hd : a'.dialogs = a.dialogs)
    (hm : a'.mMyDialog = a.mMyDialog) : a'.Sound := by
  have hd' (d : Ref) : a'.dialog d = a.dialog d := congrArg (Heap.object · d) hd
  constructor <;> simp only [hf, hd, hm, hd']
  exacts [h.unsaved, h.nodup, h.held, h.assigned, h.made, h.viewed, h.unviewed,
    h.removed, h.leaving]

theorem assign_none (h : a.Sound) : (a.assign none).Sound :=
  { h with assigned := nofun }

-- An operation that has nothing to do with dialogs, or that removes a dismissed one.
theorem enqueue (h : a.Sound) (ho : op.addDialog? = none)
    (hr : ∀ d, op = .removeDialog d → d < a.dialogs.next ∧ (a.dialog d).mDismissed = true) :
    (a.enqueue op).Sound where
  unsaved  := h.unsaved
  nodup    := by simpa [FragmentManager.held_enqueue ho] using h.nodup
  held     := by simpa [FragmentManager.held_enqueue ho] using h.held
  assigned := h.assigned
  made     := h.made
  viewed   := h.viewed
  unviewed d hd := by
    have hn : .addDialog d ≠ op := by
      rintro rfl
      simp [Op.addDialog?] at ho
    simp [FragmentManager.enqueue, hn] at hd
    exact h.unviewed d hd
  removed d hd := by
    simp [FragmentManager.enqueue] at hd
    exact hd.elim (h.removed d) (hr d ·.symm |>.left)
  leaving d hd := by
    simp [FragmentManager.enqueue] at hd
    exact hd.elim (h.leaving d) (hr d ·.symm |>.right)

theorem setDialog (h : a.Sound) (hm : (a.dialog d).Made → o.Made)
    (hv : (a.dialog d).HasView → o.HasView) (hu : .addDialog d ∈ a.fm.pending → o.Unviewed)
    (hr : (a.dialog d).mDismissed = true → o.mDismissed = true) : (a.setDialog d o).Sound where
  unsaved  := h.unsaved
  nodup    := h.nodup
  held     := h.held
  assigned := h.assigned
  made     := forall_setDialog _ h.made fun _ => hm
  viewed   := forall_setDialog _ h.viewed fun _ => hv
  unviewed := forall_setDialog _ h.unviewed fun hd _ => hu hd
  removed  := h.removed
  leaving  := forall_setDialog _ (P := (·.mDismissed = true)) h.leaving fun _ => hr

theorem not_held_next (h : a.Sound) : a.dialogs.next ∉ a.fm.held :=
  fun hd => Nat.lt_irrefl _ (h.held _ hd)

-- A new dialog that `mMyDialog` refers to and that is going to be added.
theorem show_opened (h : a.Sound) (code : WaltzCode) (infos : Option DDInfos) : Sound (
      a.alloc (opened code infos) |>.assign a.dialogs.next |>.enqueue (.addDialog a.dialogs.next)
    ) where
  unsaved  := h.unsaved
  nodup    := by
    rw [fm_enqueue, FragmentManager.held_enqueue_addDialog]
    exact h.nodup.append (List.nodup_singleton _) (by simpa using h.not_held_next)
  held d hd := by
    simp [FragmentManager.held_enqueue_addDialog] at hd
    cases hd
    case inl hd => exact Nat.lt_succ_of_lt <| h.held d hd
    case inr hd => subst hd; exact Nat.lt_succ_self a.dialogs.next
  assigned d hd := by
    cases hd
    exact Nat.lt_succ_self a.dialogs.next
  made d hd := by
    cases Nat.lt_succ_iff_lt_or_eq.mp hd
    case inl hd => simpa [dialog_alloc_of_lt _ hd] using h.made d hd
    case inr hd => subst hd; simpa using opened_made code infos
  viewed   := forall_alloc _ h.viewed fun d hd => h.held d <| FragmentManager.dialogs_subset_held hd
  unviewed d hd := by
    simp [FragmentManager.enqueue] at hd
    cases hd
    case inl hd =>
      have hd' := h.held d <| FragmentManager.mem_held_iff.mpr (.inr hd)
      simpa [dialog_alloc_of_lt _ hd'] using h.unviewed d hd
    case inr hd => subst hd; simpa using opened_unviewed code infos
  removed d hd := by
    simp [FragmentManager.enqueue] at hd
    exact Nat.lt_succ_of_lt <| h.removed d hd
  leaving d hd := by
    simp [FragmentManager.enqueue] at hd
    simpa [dialog_alloc_of_lt _ <| h.removed d hd] using h.leaving d hd

-- The next operation, except for the view that an added dialog gets.
theorem advance (h : a.Sound) (hp : ∀ d, a.fm.pending.head? ≠ some (.addDialog d)) :
    a.advance.Sound where
  unsaved    := by simpa using h.unsaved
  nodup      := FragmentManager.held_execNext_sublist.nodup h.nodup
  held d hd  := h.held d <| FragmentManager.held_execNext_sublist.mem hd
  assigned   := h.assigned
  made       := h.made
  viewed d hd := h.viewed d <| FragmentManager.dialogs_execNext_subset hp hd
  unviewed d hd := h.unviewed d <| List.mem_of_mem_tail (by simpa using hd)
  removed d hd  := h.removed d <| List.mem_of_mem_tail (by simpa using hd)
  leaving d hd  := h.leaving d <| List.mem_of_mem_tail (by simpa using hd)

theorem advance_addDialog {ops : List (Op Content Ref)} (h : a.Sound)
    (hp : a.fm.pending = .addDialog d :: ops) (r : Result) :
    (a.advance.setDialog d <| (a.dialog d).created r).Sound where
  unsaved    := by simpa using h.unsaved
  nodup      := FragmentManager.held_execNext_sublist.nodup h.nodup
  held d hd  := h.held d <| FragmentManager.held_execNext_sublist.mem hd
  assigned   := h.assigned
  made       := forall_setDialog _ h.made fun _ hm => ⟨hm.code, hm.listener⟩
  viewed d' hd := by
    by_cases he : d' = d
    case pos => subst he; simpa using .created r
    case neg =>
      simp [FragmentManager.dialogs_execNext_addDialog hp, he] at hd
      simpa [he] using h.viewed d' hd
  unviewed d' hd := by
    simp [hp] at hd
    have he : d' ≠ d := by
      rintro rfl
      exact FragmentManager.not_mem_tail_of_held_nodup h.nodup hp hd
    simpa [he] using h.unviewed d' <| hp ▸ List.mem_cons_of_mem _ hd
  removed d hd  := h.removed d <| List.mem_of_mem_tail (by simpa using hd)
  leaving  := forall_setDialog _ (P := (·.mDismissed = true))
    (fun d hd => h.leaving d <| List.mem_of_mem_tail (by simpa using hd)) fun _ => id

theorem setMain (h : a.Sound) (m : MainFragment) : (a.setMain m).Sound :=
  h.of_eq rfl rfl rfl

theorem start (h : a.Sound) (fragment : SdkFragment) : (a.start fragment).Sound :=
  h.of_eq rfl rfl rfl

end Sound
end MainActivity
end Android
