import WaltzExample.Android.Recreation.Theorems
import WaltzExample.Android.Screen.Runs

namespace Android.MainActivity

variable {ι : Type} [Gson ι] {a : MainActivity} {s : MainActivity × Nat} {n : Nat}

-- The activity once all operations have been executed.
structure Homeward.Settled (a : MainActivity) : Prop where
  sound   : a.settled.Sound
  pending : a.settled.fm.pending = []
  stopped : a.stopped = { a.settled with fm := { a.settled.fm with stateSaved := true } }
  screen  : ∀ n, screen (a.settled, n) = screen (a, n)
  dialogs : a.settled.fm.dialogs = a.openDialogs

theorem Homeward.settle (h : a.Homeward) : Homeward.Settled a := by
  have hs := h.watched.sound
  have ⟨a', hr, hsi, hf⟩ := hs.run_execPendingActions
  have hx (n : Nat) : screen (a', n) = screen (a, n) := by
    have ⟨_, hr', _, _, hx⟩ := hs.screen_settled (n := n)
    cases hr.symm.trans hr'
    exact hx
  have hp : a'.fm.pending = [] := hf ▸ FragmentManager.pending_settle
  have he : a.settled = a' := Method.after_of_ok hr
  constructor <;> try rw [he]
  case sound   => exact hs.silents hsi
  case pending => exact hp
  case screen  => exact hx
  case stopped => rw [stopped, onSaveInstanceState, Method.after_bind_of_ok hr]; rfl
  case dialogs =>
    -- A dialog that has been dismissed would still have an operation to come.
    have ht : a'.Tidy := h.tidy.silents hs hsi
    have hh : a'.fm.held = a'.fm.dialogs := by simp [FragmentManager.held, hp]
    have ho : a'.openDialogs = a.openDialogs := congrArg Screen.dialogs (hx 0)
    rw [← ho, openDialogs, hh, eq_comm, List.filter_eq_self]
    intro d hd
    by_contra hm
    simpa [hp] using ht d hd (by simpa using hm)

theorem homeward_of_run (r : (machine ι).Run launched a) : a.Homeward :=
  r.invariant (fun _ _ h he => h.next he) homeward_launched

variable {restorable : Nat → Bool}

theorem thrown_restoreFragments {cs : List Content} (h : ¬∀ f, .flow f ∈ cs → restorable f) :
    (cs.forM <| restoreFragment restorable).thrown a = some .sdk := by
  induction cs
  case nil => exact absurd nofun h
  case cons c cs ih =>
    have hn (hc : ∀ f, .flow f = c → restorable f) : ¬∀ f, .flow f ∈ cs → restorable f :=
      fun hcs => h fun f hf => (List.mem_cons.mp hf).elim (hc f) (hcs f)
    cases c
    case mainFragment =>
      have ih := ih <| hn nofun
      simpa [restoreFragment, Method.thrown] using ih
    case flow f =>
      by_cases hf : restorable f
      case pos =>
        have ih := ih <| hn fun f' he => Content.flow.inj he ▸ hf
        simpa [restoreFragment, Method.thrown, hf] using ih
      case neg => simp [restoreFragment, Method.thrown, hf]

theorem run_restoreFragments {cs : List Content} (h : ∀ f, .flow f ∈ cs → restorable f) :
    (cs.forM <| restoreFragment restorable).run a = .ok () a := by
  induction cs
  case nil => rfl
  case cons c cs ih =>
    have ih := ih fun f hf => h f <| List.mem_cons_of_mem _ hf
    cases c
    case mainFragment => simpa [restoreFragment] using ih
    case flow f       => simpa [restoreFragment, h f List.mem_cons_self] using ih

-- The fragments that are made anew with the back stack are those of the flows.
theorem Homeward.mem_flows {f : Nat} (h : a.Homeward) :
    f ∈ a.flows ↔ .flow f ∈ a.stopped.entries := by
  have he : a.stopped.entries = a.settled.entries := by rw [h.settle.stopped]; rfl
  rw [he]
  refine List.mem_filterMap.trans ⟨fun ⟨c, hc, hf⟩ => ?_, fun h => ⟨_, h, rfl⟩⟩
  cases c
  case mainFragment => cases hf
  case flow         => cases hf; exact hc

-- Recreating the activity succeeds as long as no dialog is open and the fragments of the flows can
-- be made anew.
theorem recreates_iff (r : (machine ι).Run launched a) :
    (a.recreateAll restorable).Completes a.stopped.renew ↔
      a.openDialogs = [] ∧ ∀ f ∈ a.flows, restorable f := by
  have h := homeward_of_run r
  have hr : a.recreate.Completes a.stopped.renew ↔ a.openDialogs = [] := by
    rw [recreate, restore_completes_iff fun _ => rfl, h.settle.stopped, ← h.settle.dialogs]
  simp only [recreateAll, h.mem_flows]
  by_cases hf : ∀ f, .flow f ∈ a.stopped.entries → restorable f
  case pos =>
    rw [Method.Completes, Method.thrown_bind_of_ok (run_restoreFragments hf)]
    exact hr.trans (and_iff_left hf).symm
  case neg =>
    have ht := Method.thrown_bind (f := fun _ => a.recreate) <|
      thrown_restoreFragments (a := a.stopped.renew) hf
    exact iff_of_false (fun hc => absurd (ht.symm.trans hc) nofun) fun hc => hf hc.right

theorem recreatedAll_eq (h : a.Homeward) (hf : ∀ f ∈ a.flows, restorable f) :
    a.recreatedAll restorable = a.recreated :=
  Method.after_bind_of_ok <| run_restoreFragments fun f hm => hf f <| h.mem_flows.mpr hm

theorem flows_of_nil (h : a.fm.pending = []) : a.flows = flowsOf a.fm := by
  have hs : a.settled = a := by simp [settled, execPendingActions, Method.after, h]
  rw [flows, hs, entries, flowsOf, FragmentManager.settle_of_nil h]

-- What there is after the activity has been recreated without a dialog.
theorem Homeward.recreated_eq (h : a.Homeward) (ho : a.openDialogs = []) :
    a.recreated = { a.settled.renew with
      fm           := a.settled.fm
      mainFragment := reattached { } a.settled.fm.content } := by
  have hs := h.settle
  have hd : a.stopped.fm.dialogs = [] := by rw [hs.stopped, ← ho, ← hs.dialogs]
  refine (Method.after_of_ok <| run_restore hd).trans ?_
  rw [hs.stopped]
  simp only [← hs.sound.unsaved]
  rfl

theorem screen_recreated_of_nil (h : s.1.Homeward) (hv : (screen s).Valid)
    (ho : s.1.openDialogs = []) : screen (s.1.recreated, s.2) = screen s := by
  have hs := h.settle
  have hr := h.recreated_eq ho
  have hd : s.1.settled.fm.dialogs = [] := hs.dialogs.trans ho
  have hf : s.1.recreated.fm = s.1.settled.fm := by rw [hr]
  have hl : s.1.recreated.flows = s.1.settled.flows := by
    rw [flows_of_nil (hf ▸ hs.pending), flows_of_nil hs.pending, hf]
  have hh : s.1.recreated.openDialogs = s.1.settled.openDialogs := by
    simp [openDialogs, FragmentManager.held, hf, hs.pending, hd]
  -- No callback has a dialog to refresh, since it would be open.
  have hc : s.1.settled.mMyDialog = none := by
    have hx := congrArg Screen.current <| hs.screen s.2
    refine hx.trans <| Option.eq_none_iff_forall_ne_some.mpr fun d hm => ?_
    simpa [screen, ho] using hv.current d hm
  rw [← hs.screen, screen, screen, hl, hh, hc, hr]
  simp [renew]

-- `MainFragment` is on the screen exactly when there is no flow to go back from.
theorem Homeward.mainFragment_mem_settled (h : a.Homeward) :
    .mainFragment ∈ a.settled.fm.content ↔ a.flows = [] := by
  have ho := h.watched.ordered
  have hm := ho.eq_map_flow
  have hb : .mainFragment ∈ a.fm.settle.content ↔ a.fm.settle.backStack = [] :=
    ho.settle.mainFragment_mem_iff
  rw [h.watched.sound.fm_settled, h.watched.sound.flows_eq, hb,
    ← List.map_eq_nil_iff (f := BackStackEntry.added)]
  exact hm ▸ List.map_eq_nil_iff

private abbrev closed : List (Event Empty) := [
  .clickStartTransaction,
  .execNext,
  .callback 0 <| .onTransactionDone .accessGranted,
  .execNext,
  .clickDismiss 0,
  .execNext,
  .execNext,
  .clickLogin
]

end Android.MainActivity
