import WaltzExample.Machine.Refinement
import WaltzExample.Android.Screen.Basic
import WaltzExample.Android.Dialog.Theorems
import WaltzExample.Android.Navigation.Theorems
import WaltzExample.Android.Reports.Theorems

namespace Android

open FragmentManager (Op)
open Method (Keeps)

namespace Screen

variable {s : Screen}

theorem Valid.next (h : s.Valid) (e : Event) (he : s.Enabled e) : (s.next e).Valid := by
  have hc : s.current.toList.length ≤ 1 := Option.length_toList_le
  have ho := h.ordered.tail
  have hf (f : Nat) (hf : f ∈ s.flows.tail) := h.entered f <| List.mem_of_mem_tail hf
  cases e
  case enter =>
    refine ⟨List.pairwise_cons.mpr ⟨h.entered, h.ordered⟩, fun f hf => ?_, h.current, h.bounded⟩
    cases List.mem_cons.mp hf
    case inl hf => exact hf ▸ Nat.lt_succ_self _
    case inr hf => exact Nat.lt_succ_of_lt <| h.entered f hf
  case leave => exact ⟨ho, hf, h.current, h.bounded⟩
  case openDialog =>
    have he : s.current = none := he
    refine ⟨h.ordered, h.entered, fun d hd => ?_, ?_⟩
    case refine_1 => simp [Screen.next, Option.some.inj hd]
    case refine_2 => simpa [Screen.next, he] using h.bounded
  case dismiss d =>
    refine ⟨ho, hf, nofun, ?_⟩
    have hl := List.length_erase_of_mem (show d ∈ s.dialogs from he)
    have hb := h.bounded
    simp [Screen.next, hl]
    omega
  case dismissAgain =>
    refine ⟨ho, hf, nofun, ?_⟩
    have hb := h.bounded
    simp [Screen.next]
    omega

theorem valid_default : Valid {} where
  ordered     := .nil
  entered _ h := absurd h List.not_mem_nil
  current     := nofun
  bounded     := Nat.le_refl _

end Screen

namespace MainActivity

variable {ι : Type} [Gson ι] {a a' : MainActivity} {d : Ref}

section Dialogs

theorem openDialogs_congr (hh : a'.fm.held = a.fm.held)
    (hd : ∀ d ∈ a.fm.held, (a'.dialog d).mDismissed = (a.dialog d).mDismissed) :
    a'.openDialogs = a.openDialogs := by
  rw [openDialogs, hh]
  exact List.filter_congr fun d h => by rw [hd d h]

theorem openDialogs_enqueue {op : Op Content Ref} (h : op.addDialog? = none) :
    (a.enqueue op).openDialogs = a.openDialogs :=
  openDialogs_congr (FragmentManager.held_enqueue h) fun _ _ => rfl

theorem openDialogs_assign (r : Option Ref) : (a.assign r).openDialogs = a.openDialogs :=
  rfl

theorem mem_openDialogs : d ∈ a.openDialogs ↔ d ∈ a.fm.held ∧ (a.dialog d).mDismissed = false := by
  simp [openDialogs]

theorem Sound.openDialogs_execNext (h : a.Sound) (hf : a'.fm = a.fm.execNext)
    (hd : ∀ d, (a'.dialog d).mDismissed = (a.dialog d).mDismissed) :
    a'.openDialogs = a.openDialogs := by
  have hr (d : Ref) (hr : .removeDialog d ∈ a.fm.pending) : (!(a.dialog d).mDismissed) = false := by
    simp [h.leaving d hr]
  simp only [openDialogs, hf, hd]
  exact FragmentManager.filter_held_execNext hr

end Dialogs

section Flows

-- The flows of an activity, when all there is to execute are the operations of a fragment manager.
def flowsOf (fm : FragmentManager Content Ref) : List Nat :=
  fm.settle.backStack.map BackStackEntry.added |>.filterMap Content.flow?

variable {fm : FragmentManager Content Ref}

theorem Sound.flows_eq (h : a.Sound) : a.flows = flowsOf a.fm := by
  rw [flows, entries, h.fm_settled, flowsOf]

theorem flowsOf_execNext : flowsOf fm.execNext = flowsOf fm := by
  rw [flowsOf, FragmentManager.settle_execNext, flowsOf]

theorem flowsOf_start (f : Nat) :
    flowsOf (fm.enqueue <| .replace <| .flow f) = f :: flowsOf fm := by
  rw [flowsOf, FragmentManager.settle_enqueue]
  rfl

theorem flowsOf_addDialog : flowsOf (fm.enqueue <| .addDialog d) = flowsOf fm := by
  rw [flowsOf, FragmentManager.settle_enqueue]
  rfl

theorem flowsOf_removeDialog : flowsOf (fm.enqueue <| .removeDialog d) = flowsOf fm := by
  rw [flowsOf, FragmentManager.settle_enqueue]
  rfl

theorem filterMap_flow (fs : List Nat) : (fs.map Content.flow).filterMap Content.flow? = fs := by
  simp [List.filterMap_map, Function.comp_def, Content.flow?]

-- There is nothing but flows on the back stack.
theorem Nav.Ordered.eq_map_flow {s : Nav} (h : s.Ordered) :
    s.fm.settle.backStack.map BackStackEntry.added = (flowsOf s.fm).map .flow := by
  have hs : ∀ c ∈ s.fm.settle.backStack.map BackStackEntry.added, ∃ f, c = .flow f := by
    intro c hc
    have ⟨f, _, hf⟩ := h.settle.started c <| FragmentManager.added_subset_pushed hc
    exact ⟨f, hf⟩
  rw [flowsOf]
  generalize s.fm.settle.backStack.map BackStackEntry.added = cs at hs
  induction cs
  case nil => rfl
  case cons c cs ih =>
    obtain ⟨f, rfl⟩ := hs c List.mem_cons_self
    have ih := ih fun c hc => hs c <| List.mem_cons_of_mem _ hc
    simpa [Content.flow?] using ih

theorem Nav.Ordered.flowsOf_pop {s : Nav} (h : s.Ordered) :
    flowsOf (s.fm.enqueue .popBackStack) = (flowsOf s.fm).tail := by
  have hm := h.eq_map_flow
  rw [flowsOf, FragmentManager.settle_enqueue, FragmentManager.backStack_apply_popBackStack,
    List.map_tail, hm, ← List.map_tail]
  exact filterMap_flow _

end Flows

section Operations

variable {n : Nat}

theorem quiet_fragments (fragments : List SdkFragment) : Quiet (·.fragments = fragments) where
  enqueue _ _ _ h := h
  advance _ h     := h
  dialogs _ _ h   := h
  attach _ h      := h
  view _ h        := h

theorem Sound.screen_eq (h : a.Sound) : screen (a, n) = {
    entered  := a.fragments.length
    flows    := flowsOf a.fm
    opened   := a.dialogs.next
    dialogs  := a.openDialogs
    current  := a.mMyDialog
    repeated := n } := by
  rw [screen, h.flows_eq]

-- Nobody sees that an operation is executed.
theorem keeps_screen (x : Screen) : Keeps (fun a => a.Sound ∧ screen (a, n) = x) execNext := by
  intro a ⟨h, hx⟩
  have ⟨a', hr, hs, hf⟩ := h.run_execNext
  have ha := Method.after_of_ok hr
  have h' := h.silent hs
  have hfr : a'.fragments = a.fragments :=
    ha ▸ (quiet_fragments a.fragments).keeps_execNext a rfl
  refine ha ▸ ⟨h', ?_⟩
  rw [← hx, h.screen_eq, h'.screen_eq, hf, flowsOf_execNext, hfr, hs.next_eq, hs.mMyDialog_eq,
    h.openDialogs_execNext hf hs.mDismissed_eq]

theorem Sound.screen_settled (h : a.Sound) :
    ∃ a', execPendingActions.run a = .ok () a' ∧ a'.Sound ∧ a'.fm = a.fm.settle ∧
      screen (a', n) = screen (a, n) := by
  have ⟨a', hr, _, hf⟩ := h.run_execPendingActions
  have hk : Keeps (fun a' => a'.Sound ∧ screen (a', n) = screen (a, n)) execPendingActions :=
    Keeps.get.bind fun _ => .forM (fun _ => keeps_screen _) _
  have ⟨h', hs⟩ := Method.after_of_ok hr ▸ hk a ⟨h, rfl⟩
  exact ⟨a', hr, h', hf, hs⟩

end Operations

section Events

variable {n : Nat}

theorem openDialogs_setDialog {o : MyDialog} (h : o.mDismissed = (a.dialog d).mDismissed) :
    (a.setDialog d o).openDialogs = a.openDialogs := by
  refine openDialogs_congr rfl fun d' _ => ?_
  by_cases he : d' = d
  case pos => simp [he, h]
  case neg => simp [he]

theorem Sound.openDialogs_show (h : a.Sound) (code : WaltzCode) (infos : Option DDInfos) :
    openDialogs (
      a.alloc (opened code infos) |>.assign a.dialogs.next |>.enqueue (.addDialog a.dialogs.next)
    ) = a.openDialogs ++ [a.dialogs.next] := by
  simp only [openDialogs, fm_enqueue, FragmentManager.held_enqueue_addDialog, fm_assign, fm_alloc,
    dialog_enqueue, dialog_assign, List.filter_append]
  congr 1
  case e_a => exact List.filter_congr fun d hd => by rw [dialog_alloc_of_lt _ <| h.held d hd]
  case e_a => simp [opened]

theorem Sound.openDialogs_dismiss (h : a.Sound) (d : Ref) :
    (a.setDialog d (a.dialog d).dismissed).openDialogs = a.openDialogs.erase d := by
  have hn : a.openDialogs.Nodup := h.nodup.filter _
  rw [hn.erase_eq_filter, openDialogs, openDialogs, List.filter_filter, fm_setDialog]
  refine List.filter_congr fun d' _ => ?_
  by_cases he : d' = d
  case pos => simp [he, MyDialog.dismissed]
  case neg => simp [he]

theorem Sound.screen_main {m : MainFragment} (h : a.Sound) (h' : a'.Sound) (hm : a' = a.setMain m) :
    screen (a', n) = screen (a, n) := by
  rw [h.screen_eq, h'.screen_eq, hm]
  rfl

theorem Sound.screen_shown {code : WaltzCode} {infos : Option DDInfos} {t : Option Throwable}
    (h : a.Sound) (hs : Shown a code infos t a') : screen (a', n) =
      if a.mMyDialog = none then (screen (a, n)).next .openDialog else screen (a, n) := by
  have h' := hs.sound h
  rw [h.screen_eq, h'.screen_eq]
  cases hs
  case opened hm _ =>
    simp only [hm, if_true, h.openDialogs_show, fm_enqueue, fm_assign, fm_alloc, flowsOf_addDialog]
    rfl
  case refused hst      => exact absurd h.unsaved <| by simp [hst]
  case same hm _        => simp [hm]
  case failed hm _ _ _  => simp [hm]
  case written d data hm _ _ _ =>
    have ho := openDialogs_setDialog (a := a) (d := d) (o := (a.dialog d).written data) rfl
    rw [if_neg (by simp [hm]), ho, fm_setDialog]
    rfl

omit [Gson ι] in
theorem Sound.screen_clicked (h : a.Sound) (hn : a.nav.Ordered) (hd : d ∈ a.fm.dialogs)
    (hc : Clicked a d a') : screen (a', repeats a (.clickDismiss d : Event ι) n) =
      (screen (a, n)).next (if (a.dialog d).mDismissed then .dismissAgain else .dismiss d) := by
  have h' := hc.sound h hd
  have hp : flowsOf (a.fm.enqueue .popBackStack) = (flowsOf a.fm).tail := hn.flowsOf_pop
  rw [h.screen_eq, h'.screen_eq]
  cases hc
  case again hm =>
    have ho : (a.enqueue .popBackStack).openDialogs = a.openDialogs := openDialogs_enqueue rfl
    simp only [hm, repeats, if_true, openDialogs_assign, fm_assign, fm_enqueue, hp, ho]
    rfl
  case dismissed hm =>
    have hr : Nav.Ordered ⟨a.nav.started, a.fm.enqueue <| .removeDialog d⟩ := hn.enqueue rfl rfl
    have hp : flowsOf (a.fm.enqueue (.removeDialog d) |>.enqueue .popBackStack) =
        (flowsOf a.fm).tail := hr.flowsOf_pop.trans <| congrArg List.tail flowsOf_removeDialog
    have ho : openDialogs (
          a.setDialog d (a.dialog d).dismissed |>.enqueue (.removeDialog d) |>.enqueue .popBackStack
        ) = a.openDialogs.erase d :=
      (openDialogs_enqueue rfl).trans <| (openDialogs_enqueue rfl).trans <| h.openDialogs_dismiss d
    simp only [hm, repeats, openDialogs_assign, fm_assign, fm_enqueue, fm_setDialog, hp, ho]
    rfl

-- What holds of an activity in the foreground from its launch on.
structure Watched (a : MainActivity) : Prop where
  sound    : a.Sound
  ordered  : a.nav.Ordered
  attached : a.mainFragment.Attached

theorem watched_launched : launched.Watched :=
  ⟨fresh_launched.sound, ordered_launched, attached_launched⟩

namespace Watched

variable (h : a.Watched)
include h

theorem next {e : Event ι} (he : a.Enabled e) : ((handle e).after a).Watched :=
  ⟨h.sound.next he, h.ordered.moves (h.sound.stepped he).moves, attached_handle h.attached e⟩

theorem screen_start (fragment : SdkFragment) :
    screen ((callListener <| startFragment fragment).after a, n) = (screen (a, n)).next .enter := by
  have hr : (callListener <| startFragment fragment).run a = (startFragment fragment).run a := by
    simp [callListener, h.attached.listener]
  have h' := h.sound.silent <| .start fragment
  rw [Method.after_of_ok <| hr.trans <| run_startFragment _ h.sound.unsaved, h'.screen_eq,
    h.sound.screen_eq, fm_enqueue, flowsOf_start, openDialogs_enqueue rfl]
  simp [Screen.next, MainActivity.start, MainActivity.enqueue]
  rfl

theorem screen_back : screen (popBackStackImmediate.after a, n) = (screen (a, n)).next .leave := by
  have ⟨a₁, hr₁, h₁, hf, hs₁⟩ := h.sound.screen_settled (n := n)
  have hr₂ : popBackStack.run a₁ = .ok () (a₁.enqueue .popBackStack) := run_commit h₁.unsaved
  have ⟨_, hs₃⟩ := keeps_screen (n := n) _ _ ⟨h₁.silent .pop, rfl⟩
  rw [popBackStackImmediate, Method.after_bind_of_ok hr₁, Method.after_bind_of_ok hr₂, hs₃, ← hs₁,
    (h₁.silent .pop).screen_eq, h₁.screen_eq, openDialogs_enqueue rfl, fm_enqueue]
  have hp : flowsOf (a₁.fm.enqueue .popBackStack) = (flowsOf a₁.fm).tail := by
    have ho : Nav.Ordered ⟨a.nav.started, a₁.fm⟩ := hf ▸ h.ordered.settle
    exact ho.flowsOf_pop
  rw [hp]
  rfl

-- Each event is to its user what `seen` says.
theorem screen_next {e : Event ι} (he : a.Enabled e) :
    screen ((counted ι).next (a, n) e) = (seen (a, n) e).foldl Screen.next (screen (a, n)) := by
  have h' := h.next he
  cases e
  case clickLogin            => exact h.screen_start _
  case clickStartTransaction => exact h.screen_start _
  case back                  => exact h.screen_back
  case execNext              => exact keeps_screen _ a ⟨h.sound, rfl⟩ |>.right
  case click c =>
    exact h.sound.screen_main h'.sound <| after_onMainFragment <| MainFragment.onClick c
  case answer q code list =>
    exact h.sound.screen_main h'.sound <| after_onMainFragment <| MainFragment.onAnswer code list q
  case callback f c =>
    have hs := h.sound.screen_shown (n := n) <| MainActivity.shown a c.code c.infos
    simp only [counted, Machine.record, machine, handle, c.onCallback_eq, repeats, seen, hs]
    split_ifs <;> rfl
  case clickDismiss d =>
    obtain ⟨a', hr, hc⟩ := h.sound.clicked he.right.left
    have hs := h.sound.screen_clicked (n := n) (ι := ι) h.ordered he.right.left hc
    simp only [counted, Machine.record, machine, handle, Method.after_of_ok hr, hs, seen]
    split_ifs <;> rfl

omit [Gson ι] in
theorem takes_seen {e : Event ι} (he : a.Enabled e) :
    Screen.machine.CanTake (screen (a, n)) (seen (a, n) e) := by
  rw [h.sound.screen_eq]
  cases e
  case clickLogin            => exact ⟨trivial, trivial⟩
  case clickStartTransaction => exact ⟨trivial, trivial⟩
  case back =>
    refine ⟨fun hn => he.right.right ?_, trivial⟩
    have hm := h.ordered.eq_map_flow
    rw [show flowsOf a.nav.fm = [] from hn] at hm
    exact List.map_eq_nil_iff.mp hm
  case callback f c =>
    by_cases hm : a.mMyDialog = none
    case pos => simpa [seen, hm] using ⟨rfl, trivial⟩
    case neg => simp [seen, hm, Machine.CanTake]
  case clickDismiss d =>
    cases hm : (a.dialog d).mDismissed
    case true  => simpa [seen, hm] using ⟨trivial, trivial⟩
    case false =>
      have hd := mem_openDialogs.mpr ⟨FragmentManager.dialogs_subset_held he.right.left, hm⟩
      simpa [seen, hm] using ⟨hd, trivial⟩
  all_goals trivial

end Watched

-- The activity, with all its deferred operations, is a screen on which they are executed at once.
theorem refines_screen : (counted ι).Refines Screen.machine (·.1.Watched) screen seen where
  keeps _ _ h he := h.next he
  takes _ _ h he := h.takes_seen he
  next _ _ h he  := h.screen_next he |>.symm

end Events

end MainActivity
end Android
