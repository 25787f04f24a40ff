import WaltzExample.Android.Screen.Theorems
import Mathlib.Data.Prod.Lex

namespace Android.MainActivity

open FragmentManager (Op)
open Relation (ReflTransGen)

variable {ι : Type} [Gson ι] {a a' : MainActivity} {d : Ref}

section Runs

variable {s : MainActivity × Nat}

theorem screen_launched : screen (launched, 0) = {} :=
  watched_launched.sound.screen_eq

-- What the user sees of a run is a run of the screen.
theorem screen_of_run (r : (counted ι).Run (launched, 0) s) :
    Screen.machine.CanTake {} (r.labels seen) ∧ (r.labels seen).foldl Screen.next {} = screen s :=
  screen_launched ▸ refines_screen.run watched_launched r

theorem valid_of_run (r : (counted ι).Run (launched, 0) s) : (screen s).Valid := by
  refine refines_screen.invariant (fun _ e h he => h.next e he) watched_launched ?_ r
  exact screen_launched ▸ Screen.valid_default

-- However callbacks, clicks and deferred operations are interleaved, a second dialog can only be
-- open after OK has been clicked on a dialog that was dismissed already, and so on.
theorem length_openDialogs_le (r : (counted ι).Run (launched, 0) s) :
    s.1.openDialogs.length ≤ s.2 + 1 := by
  have hc : s.1.mMyDialog.toList.length ≤ 1 := Option.length_toList_le
  exact (valid_of_run r).bounded.trans <| Nat.add_le_add_left hc _

-- The flows are on the back stack in the order in which they were started, so that the one that a
-- pop leaves is the last one of those that have not been left.
theorem entries_of_run (r : (counted ι).Run (launched, 0) s) :
    ∃ fs : List Nat, s.1.settled.entries = fs.map .flow ∧ fs.Pairwise (· > ·) ∧
      ∀ f ∈ fs, f < s.1.fragments.length := by
  have h := r.invariant (I := (·.1.Watched)) (fun _ _ h he => h.next he) watched_launched
  have hv := valid_of_run r
  refine ⟨s.1.flows, ?_, hv.ordered, hv.entered⟩
  rw [h.sound.flows_eq, entries, h.sound.fm_settled]
  exact h.ordered.eq_map_flow

end Runs

-- A dialog that has been dismissed is on its way out.
def Tidy (a : MainActivity) : Prop :=
  ∀ d ∈ a.fm.dialogs, (a.dialog d).mDismissed = true → .removeDialog d ∈ a.fm.pending

section Tidy

theorem Tidy.enqueue (h : a.Tidy) (op : Op Content Ref) : (a.enqueue op).Tidy :=
  fun d hd hm => List.mem_append_left _ <| h d hd hm

theorem Tidy.execNext (h : a.Tidy) (hs : a.Sound) (hf : a'.fm = a.fm.execNext)
    (hm : ∀ d, (a'.dialog d).mDismissed = (a.dialog d).mDismissed) : a'.Tidy := by
  intro d hd hm'
  rw [hm] at hm'
  rw [hf] at hd ⊢
  cases hp : a.fm.pending
  case nil =>
    rw [FragmentManager.execNext_of_nil hp] at hd ⊢
    exact h d hd hm'
  case cons op ops =>
    -- A dialog that has just been added has not been dismissed.
    have hne : op ≠ .addDialog d := by
      rintro rfl
      have hu := hs.unviewed d <| hp ▸ List.mem_cons_self
      simp [hu.dismissed] at hm'
    have ⟨hd, hr⟩ := (FragmentManager.mem_dialogs_execNext hs.nodup hp hd).resolve_left hne
    have hr' := hp ▸ h d hd hm'
    simpa [hp] using (List.mem_cons.mp hr').resolve_left hr.symm

theorem Tidy.silent (h : a.Tidy) (hs : a.Sound) (hsi : Silent a a') : a'.Tidy := by
  have hm := hsi.mDismissed_eq
  cases hsi
  case main             => exact h
  case start            => exact Tidy.enqueue (a := a.start _) h _
  case pop              => exact h.enqueue _
  case addDialog        => exact h.execNext hs rfl hm
  case advance          => exact h.execNext hs rfl hm

theorem Tidy.silents (h : a.Tidy) (hs : a.Sound) (hsi : ReflTransGen Silent a a') : a'.Tidy := by
  induction hsi
  case refl              => exact h
  case tail hsi' hsi hi  => exact hi.silent (hs.silents hsi') hsi

theorem Tidy.shown {code : WaltzCode} {infos : Option DDInfos} {t : Option Throwable} (h : a.Tidy)
    (hs : a.Sound) (hsh : Shown a code infos t a') : a'.Tidy := by
  cases hsh
  case refused hst => exact absurd hs.unsaved <| by simp [hst]
  case same        => exact h
  case failed      => exact h
  case opened =>
    intro d hd hm
    have hlt := hs.held d <| FragmentManager.dialogs_subset_held hd
    simp only [dialog_enqueue, dialog_assign, dialog_alloc_of_lt _ hlt] at hm
    exact List.mem_append_left _ <| h d hd hm
  case written d' data _ _ _ _ =>
    intro d hd hm
    refine h d hd ?_
    by_cases he : d = d'
    case pos => subst he; simpa [MyDialog.written] using hm
    case neg => simpa [he] using hm

theorem Tidy.clicked (h : a.Tidy) (hc : Clicked a d a') : a'.Tidy := by
  cases hc
  case again     => exact h.enqueue .popBackStack
  case dismissed =>
    intro d' hd hm
    refine List.mem_append_left _ ?_
    by_cases he : d' = d
    case pos => exact he ▸ List.mem_append_right _ (List.mem_singleton_self _)
    case neg => exact List.mem_append_left _ <| h d' hd <| by simpa [he] using hm

theorem Tidy.stepped {e : Event ι} {t : Option Throwable} (h : a.Tidy) (hs : a.Sound)
    (hst : Stepped a e t a') : a'.Tidy := by
  cases hst
  case silent hsi => exact h.silents hs hsi
  case answered   => exact h
  case shown hsh     => exact h.shown hs hsh
  case clicked hd hc => exact h.clicked hc

end Tidy

section Home

-- What keeps the way home open. The number of clicks that have been counted has no part in it.
structure Homeward (a : MainActivity) : Prop where
  watched : a.Watched
  tidy    : a.Tidy
  valid   : ∃ n, (screen (a, n)).Valid

theorem Watched.valid_next {n : Nat} {e : Event ι} (h : a.Watched) (hv : (screen (a, n)).Valid)
    (he : a.Enabled e) : (screen ((counted ι).next (a, n) e)).Valid := by
  rw [h.screen_next he]
  exact Machine.invariant_of_canTake (n := Screen.machine) (fun _ e hv he => hv.next e he) hv <|
    h.takes_seen he

theorem Homeward.next {e : Event ι} (h : a.Homeward) (he : a.Enabled e) :
    ((handle e).after a).Homeward where
  watched := h.watched.next he
  tidy    := h.tidy.stepped h.watched.sound <| h.watched.sound.stepped he
  valid   :=
    have ⟨_, hv⟩ := h.valid
    ⟨_, h.watched.valid_next hv he⟩

theorem homeward_launched : launched.Homeward where
  watched     := watched_launched
  tidy _ hd _ := absurd hd List.not_mem_nil
  valid       := ⟨0, screen_launched ▸ Screen.valid_default⟩

-- How far it is to `Home`: a dialog takes a click, a flow takes the Back key, and each of them
-- brings about some operations.
def distance (a : MainActivity) : ℕ ×ₗ ℕ ×ₗ ℕ :=
  toLex (a.openDialogs.length, toLex (a.flows.length, a.fm.pending.length))

theorem distance_lt_of_dialogs (h : a'.openDialogs.length < a.openDialogs.length) :
    distance a' < distance a :=
  Prod.Lex.toLex_lt_toLex.mpr <| .inl h

theorem distance_lt_of_flows (hd : a'.openDialogs = a.openDialogs)
    (h : a'.flows.length < a.flows.length) : distance a' < distance a := by
  refine Prod.Lex.toLex_lt_toLex.mpr <| .inr ⟨congrArg List.length hd, ?_⟩
  exact Prod.Lex.toLex_lt_toLex.mpr <| .inl h

theorem distance_lt_of_pending (hd : a'.openDialogs = a.openDialogs) (hf : a'.flows = a.flows)
    (h : a'.fm.pending.length < a.fm.pending.length) : distance a' < distance a := by
  refine Prod.Lex.toLex_lt_toLex.mpr <| .inr ⟨congrArg List.length hd, ?_⟩
  exact Prod.Lex.toLex_lt_toLex.mpr <| .inr ⟨congrArg List.length hf, h⟩

theorem Homeward.home (h : a.Homeward) (hp : a.fm.pending = []) (hd : a.fm.dialogs = [])
    (hb : a.fm.backStack = []) : a.Home where
  pending   := hp
  dialogs   := hd
  backStack := hb
  content   := by simpa [nav, hb, FragmentManager.Stacked] using h.watched.ordered.stacked
  field     := by
    obtain ⟨_, hv⟩ := h.valid
    refine Option.eq_none_iff_forall_ne_some.mpr fun d hm => ?_
    have hh := mem_openDialogs.mp (hv.current d hm) |>.left
    simp [FragmentManager.held, hp, hd] at hh

-- On the way home there is always something to do, and it brings home closer.
theorem Homeward.step (h : a.Homeward) (hn : ¬a.Home) : ∃ e : Event ι, a.Enabled e ∧ e.Retreats ∧
    distance ((handle e).after a) < distance a := by
  have hs := h.watched.sound
  have hx {e : Event ι} (he : a.Enabled e) := h.watched.screen_next (n := 0) he
  cases hp : a.fm.pending
  case cons op ops =>
    have he : a.Enabled (.execNext : Event ι) := ⟨hs.unsaved, by simp [hp]⟩
    have ⟨a', hr, _, hf⟩ := hs.run_execNext
    refine ⟨.execNext, he, trivial, distance_lt_of_pending ?_ ?_ ?_⟩
    case refine_1 => exact congrArg Screen.dialogs (hx he)
    case refine_2 => exact congrArg Screen.flows (hx he)
    case refine_3 => simp [handle, Method.after_of_ok hr, hf, hp]
  case nil =>
    cases hd : a.fm.dialogs
    case cons d ds =>
      have hd : d ∈ a.fm.dialogs := hd ▸ List.mem_cons_self
      have hm : (a.dialog d).mDismissed = false := by
        by_contra hm
        simpa [hp] using h.tidy d hd (by simpa using hm)
      have he : a.Enabled (.clickDismiss d : Event ι) := ⟨hs.unsaved, hd, (hs.viewed d hd).dismiss⟩
      have hx : ((handle (.clickDismiss d : Event ι)).after a).openDialogs =
          a.openDialogs.erase d :=
        (congrArg Screen.dialogs (hx he)).trans <| by simp [seen, hm, Screen.next, screen]
      have ho := mem_openDialogs.mpr ⟨FragmentManager.dialogs_subset_held hd, hm⟩
      refine ⟨.clickDismiss d, he, trivial, distance_lt_of_dialogs ?_⟩
      rw [hx, List.length_erase_of_mem ho]
      exact Nat.sub_lt (List.length_pos_of_mem ho) Nat.one_pos
    case nil =>
      have hb : a.fm.backStack ≠ [] := fun hb => hn <| h.home hp hd hb
      have he : a.Enabled (.back : Event ι) :=
        ⟨hs.unsaved, by simp [hd], by rwa [FragmentManager.settle_of_nil hp]⟩
      refine ⟨.back, he, trivial, distance_lt_of_flows ?_ ?_⟩
      case refine_1 => exact congrArg Screen.dialogs (hx he)
      case refine_2 =>
        have hx : ((handle (.back : Event ι)).after a).flows = a.flows.tail :=
          congrArg Screen.flows (hx he)
        have hf : a.flows ≠ [] := (h.watched.takes_seen (n := 0) he).left
        rw [hx, List.length_tail]
        exact Nat.sub_lt (List.length_pos_iff.mpr hf) Nat.one_pos

end Home
end Android.MainActivity
