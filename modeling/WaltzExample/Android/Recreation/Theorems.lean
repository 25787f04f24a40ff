import WaltzExample.Android.Recreation.Basic
import WaltzExample.Android.Dialog.Theorems

namespace Android.MainActivity

open Relation (ReflTransGen)

variable {a a' : MainActivity} {d : Ref}

-- A restored dialog has no code, so the first one whose view is made throws.
theorem thrown_restore {fm : FragmentManager Content Ref} (hd : fm.dialogs ≠ [])
    (hc : ∀ d, (a.dialog d).mCode = none) : (restore fm).thrown a = some (.nullPointer .code) := by
  have hr₁ : (onCreate <| some fm).run a = .ok () { a with fm := fm } := rfl
  rw [restore, Method.thrown_bind_of_ok hr₁]
  have ⟨d, ds, hd⟩ := List.exists_cons_of_ne_nil hd
  by_cases hm : .mainFragment ∈ fm.content
  all_goals
    rw [Method.thrown_bind_of_ok (by simp [hm, onMainFragment, Method.run_zoom]; rfl), hd]
    refine Method.thrown_bind <| Method.thrown_bind ?_
    exact (Method.thrown_zoom ..).trans <| MyDialog.thrown_create_of_null <| hc d

-- What becomes of `MainFragment` when the fragments in the container are restored.
def reattached (m : MainFragment) (content : List Content) : MainFragment :=
  let m := MainFragment.onAttach.after m
  if .mainFragment ∈ content then MainFragment.onViewCreated.after m else m

-- Without a dialog there is nothing that fails.
theorem run_restore {fm : FragmentManager Content Ref} (hd : fm.dialogs = []) :
    (restore fm).run a = .ok () { a with
      fm           := { fm with stateSaved := false }
      mainFragment := reattached a.mainFragment fm.content } := by
  by_cases hm : .mainFragment ∈ fm.content
  all_goals
    simp [restore, onCreate, onMainFragment, Method.run_zoom, onStart, reattached, Method.after, hm,
      hd, MainFragment.onAttach, MainFragment.onViewCreated]

theorem restore_completes_iff {fm : FragmentManager Content Ref}
    (hc : ∀ d, (a.dialog d).mCode = none) : (restore fm).Completes a ↔ fm.dialogs = [] := by
  constructor
  case mp =>
    intro h
    by_contra hd
    exact absurd ((thrown_restore hd hc).symm.trans h) nofun
  case mpr => exact fun hd => Method.thrown_of_ok <| run_restore hd

-- A dialog on the screen stays there when the activity is stopped, so its state is saved.
theorem Sound.mem_dialogs_stopped (h : a.Sound) (hd : a.Displayed d) :
    d ∈ a.stopped.fm.dialogs := by
  have ⟨a', hr, hs, hf⟩ := h.run_execPendingActions
  have hl : a'.Live d := h.live_iff_of_silents hs |>.mpr hd.live
  have hn : .addDialog d ∉ a'.fm.pending := by simp [hf, FragmentManager.pending_settle]
  have hd' := (FragmentManager.mem_held_iff.mp hl.left).resolve_right hn
  rw [stopped, onSaveInstanceState, Method.after_bind_of_ok hr]
  exact hd'

theorem not_preserves {ι : Type} [Gson ι] (r : (machine ι).Run launched a) (hd : a.Displayed d) :
    ¬a.Preserves d := by
  intro hp
  have hs := fresh_launched.invariant r |>.left
  have ht : a.recreate.thrown a.stopped.renew = some (.nullPointer .code) :=
    thrown_restore (List.ne_nil_of_mem <| hs.mem_dialogs_stopped hd) fun _ => rfl
  exact absurd (ht.symm.trans hp.completes) nofun

private abbrev granted : List (Event Empty) := [
  .clickStartTransaction,
  .execNext,
  .callback 0 <| .onTransactionDone .accessGranted,
  .execNext
]

theorem not_preserves_granted : ¬(granted.foldl (machine Empty).next launched).Preserves 0 :=
  not_preserves (.ofEvents _ granted <| by decide) (by decide)

-- The activity crashes.
theorem not_preserves_all :
    ¬∀ (a : MainActivity) (_ : (machine Empty).Run launched a) (d : Ref),
      a.Displayed d → a.Preserves d := by
  intro h
  have hp := h _ (.ofEvents _ granted <| by decide) 0 (by decide)
  exact absurd hp.completes <| by decide

end Android.MainActivity
