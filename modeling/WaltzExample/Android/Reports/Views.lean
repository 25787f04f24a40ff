import WaltzExample.Android.Reports.Basic
import WaltzExample.Android.Execution.Theorems.Runs

namespace Android

open FragmentManager (Op)

namespace MainFragment

def results (m : MainFragment) : Option TextView × Option TextView :=
  (m.mInvitationsResult, m.mUserInfosResult)

-- The results as they are when their views have just been made.
def unreported : Option TextView × Option TextView :=
  (result none, result none)

end MainFragment

namespace MainActivity

variable {a a' : MainActivity} {fm : FragmentManager Content Ref} {n : Nat}

section Returns

theorem not_returns_zero : ¬Returns fm 0 :=
  fun ⟨k, hk, _⟩ => absurd hk <| Nat.not_lt_zero k

theorem returns_succ : Returns fm (n + 1) ↔
    (.mainFragment ∉ fm.content ∧ .mainFragment ∈ fm.execNext.content) ∨ Returns fm.execNext n :=
  Nat.exists_lt_succ_left

theorem returns_one : Returns fm 1 ↔
    .mainFragment ∉ fm.content ∧ .mainFragment ∈ fm.execNext.content :=
  returns_succ.trans <| or_iff_left not_returns_zero

-- `MainFragment` does not get into the container in any other way.
theorem returns_or_mem (h : .mainFragment ∈ (FragmentManager.execNext^[n] fm).content) :
    Returns fm n ∨ .mainFragment ∈ fm.content := by
  induction n generalizing fm
  case zero => exact .inr h
  case succ n hi =>
    rw [returns_succ]
    by_cases hm : .mainFragment ∈ fm.content
    case pos => exact .inr hm
    case neg =>
      cases hi h
      case inl hr => exact .inl <| .inr hr
      case inr hr => exact .inl <| .inl ⟨hm, hr⟩

-- An operation that is enqueued has its turn after those that are pending.
theorem returns_enqueue (op : Op Content Ref) :
    Returns (fm.enqueue op) (fm.pending.length + 1) ↔
      Returns fm fm.pending.length ∨ Returns (fm.settle.enqueue op) 1 := by
  have hc (k : Nat) (hk : k ≤ fm.pending.length) : FragmentManager.execNext^[k] (fm.enqueue op) =
      (FragmentManager.execNext^[k] fm).enqueue op := FragmentManager.iterate_execNext_enqueue hk
  rw [returns_one, Returns, Nat.exists_lt_succ_right]
  refine or_congr (exists_congr fun k => and_congr_right fun hk => ?_) ?_
  case refine_1 =>
    rw [hc k <| Nat.le_of_lt hk, hc (k + 1) hk]
    rfl
  case refine_2 =>
    rw [Function.iterate_succ_apply', hc _ <| Nat.le_refl _]
    rfl

end Returns

section ExecNext

theorem results_nextMain_of_returns (h : Returns a.fm 1) :
    a.nextMain.results = MainFragment.unreported := by
  rw [nextMain, if_pos <| returns_one.mp h]
  rfl

theorem results_nextMain (h : ¬Returns a.fm 1) : a.nextMain.results = a.mainFragment.results := by
  rw [nextMain, if_neg <| mt returns_one.mpr h]
  split <;> rfl

end ExecNext

-- What becomes of the results while the next `n` operations of `fm` are executed.
structure Viewed (fm : FragmentManager Content Ref) (n : Nat) (a a' : MainActivity) : Prop where
  executed : a'.fm = FragmentManager.execNext^[n] fm
  made     : Returns fm n → a'.mainFragment.results = MainFragment.unreported
  kept     : ¬Returns fm n → a'.mainFragment.results = a.mainFragment.results

section Viewed

theorem Viewed.content (hv : Viewed fm n a a') (h : .mainFragment ∈ a'.fm.content) :
    Returns fm n ∨ .mainFragment ∈ fm.content :=
  returns_or_mem <| hv.executed ▸ h

theorem viewed_execNext (a : MainActivity) : Viewed a.fm 1 a (execNext.after a) := by
  by_cases hp : ∃ d, a.fm.pending.head? = some (.addDialog d)
  case neg =>
    rw [Method.after_of_ok <| run_execNext <| not_exists.mp hp]
    exact ⟨rfl, results_nextMain_of_returns, results_nextMain⟩
  case pos =>
    have ⟨d, hp⟩ := hp
    have ⟨_, hp⟩ := List.head?_eq_some_iff.mp hp
    have hn : ¬Returns a.fm 1 := by
      rw [returns_one, FragmentManager.execNext_of_cons hp]
      exact fun h => h.left h.right
    exact after_execNext_addDialog hp ▸ ⟨rfl, fun hr => absurd hr hn, fun _ => rfl⟩

theorem Sound.viewed_execNexts {α : Type} (h : a.Sound) (l : List α) :
    Viewed a.fm l.length a ((l.forM fun _ => execNext).after a) := by
  induction l generalizing a
  case nil => exact ⟨rfl, fun hr => absurd hr not_returns_zero, fun _ => rfl⟩
  case cons x l hi =>
    have ⟨a₁, hr, hs, hf⟩ := h.run_execNext
    have h₁ := Method.after_of_ok hr ▸ viewed_execNext a
    have h₂ := hf ▸ hi (h.silent hs)
    have hb : ((x :: l).forM fun _ => execNext).after a = (l.forM fun _ => execNext).after a₁ :=
      Method.after_bind_of_ok (f := fun _ => l.forM fun _ => execNext) hr
    rw [hb, List.length_cons]
    constructor
    case executed => rw [h₂.executed, Function.iterate_succ_apply]
    case made =>
      intro hm
      by_cases hl : Returns a.fm.execNext l.length
      case pos => exact h₂.made hl
      case neg =>
        have hm := returns_one.mpr <| (returns_succ.mp hm).resolve_right hl
        exact (h₂.kept hl).trans <| h₁.made hm
    case kept =>
      intro hm
      have ⟨hm, hl⟩ := not_or.mp <| mt returns_succ.mpr hm
      exact (h₂.kept hl).trans <| h₁.kept <| mt returns_one.mp hm

theorem Sound.viewed_popBackStackImmediate (h : a.Sound) :
    Viewed (a.fm.enqueue .popBackStack) (a.fm.pending.length + 1) a
      (popBackStackImmediate.after a) := by
  have ⟨a₁, hr₁, hs₁, hf₁⟩ := h.run_execPendingActions
  have h₁ : Viewed a.fm a.fm.pending.length a a₁ :=
    Method.after_of_ok hr₁ ▸ h.viewed_execNexts a.fm.pending
  have hr₂ : popBackStack.run a₁ = .ok () (a₁.enqueue .popBackStack) :=
    run_commit <| (h.silents hs₁).unsaved
  have h₂ := viewed_execNext <| a₁.enqueue .popBackStack
  rw [fm_enqueue, hf₁] at h₂
  rw [popBackStackImmediate, Method.after_bind_of_ok hr₁, Method.after_bind_of_ok hr₂]
  constructor
  case executed =>
    rw [Function.iterate_succ_apply', FragmentManager.iterate_execNext_enqueue <| Nat.le_refl _]
    exact h₂.executed
  case made =>
    intro hm
    by_cases hl : Returns (a.fm.settle.enqueue .popBackStack) 1
    case pos => exact h₂.made hl
    case neg =>
      have hm := ((returns_enqueue _).mp hm).resolve_right hl
      exact (h₂.kept hl).trans <| h₁.made hm
  case kept =>
    intro hm
    obtain ⟨hm, hl⟩ := not_or.mp <| mt (returns_enqueue _).mpr hm
    exact (h₂.kept hl).trans <| h₁.kept hm

end Viewed

section Handle

variable {ι : Type} {e : Event ι}

-- What an event means for the results, if it is not an answer: their views are made anew or they
-- are left alone, and `MainFragment` does not get on the screen without new views.
structure Renewed (a : MainActivity) (e : Event ι) (a' : MainActivity) : Prop where
  made    : a.Remakes e → a'.mainFragment.results = MainFragment.unreported
  kept    : ¬a.Remakes e → a'.mainFragment.results = a.mainFragment.results
  content : .mainFragment ∈ a'.fm.content → a.Remakes e ∨ .mainFragment ∈ a.fm.content

theorem Renewed.of_eq (hr : a'.mainFragment.results = a.mainFragment.results)
    (hc : a'.fm.content = a.fm.content) (he : ¬a.Remakes e) : a.Renewed e a' where
  made hm   := absurd hm he
  kept _    := hr
  content h := .inr <| hc ▸ h

theorem Sound.renewed_start (h : a.Sound) (fragment : SdkFragment) (he : ¬a.Remakes e) :
    a.Renewed e ((callListener <| startFragment fragment).after a) := by
  by_cases hl : a.mainFragment.mListener
  case pos =>
    have hr := run_startFragment fragment h.unsaved
    have ha : (callListener <| startFragment fragment).after a = _ :=
      Method.after_of_ok <| by simpa [callListener, hl] using hr
    exact ha ▸ .of_eq rfl rfl he
  case neg =>
    have ha : (callListener <| startFragment fragment).after a = a :=
      Method.after_of_ok (a := ()) <| by simp [callListener, hl]
    exact .of_eq (by rw [ha]) (by rw [ha]) he

theorem Shown.renewed {code : WaltzCode} {infos : Option DDInfos} {t : Option Throwable}
    (h : Shown a code infos t a') (he : ¬a.Remakes e) : a.Renewed e a' := by
  cases h <;> exact .of_eq rfl rfl he

theorem Sound.renewed [Gson ι] (h : a.Sound) (he : a.Enabled e)
    (hn : ∀ q code list, e ≠ .answer q code list) : a.Renewed e ((handle e).after a) := by
  cases e
  case clickLogin            => exact h.renewed_start _ id
  case clickStartTransaction => exact h.renewed_start _ id
  case click c               => exact after_onMainFragment (a := a) _ ▸ .of_eq rfl rfl id
  case answer q code list    => exact absurd rfl <| hn q code list
  case callback f c =>
    rw [handle, c.onCallback_eq]
    exact (shown a c.code c.infos).renewed id
  case execNext =>
    have hv := viewed_execNext a
    exact ⟨hv.made, hv.kept, hv.content⟩
  case clickDismiss d =>
    obtain ⟨_, hr, hc⟩ := h.clicked he.right.left
    rw [handle, Method.after_of_ok hr]
    cases hc <;> exact .of_eq rfl rfl id
  case back =>
    have hv := h.viewed_popBackStackImmediate
    exact ⟨hv.made, hv.kept, hv.content⟩

end Handle
end MainActivity
end Android
