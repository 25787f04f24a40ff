import WaltzExample.Android.Lifecycle.Basic
import WaltzExample.Android.Execution.Theorems.Runs

namespace Android

open Method (Keeps)

namespace MainActivity

variable {a a' : MainActivity}

section Homed

theorem keeps_onSaveInstanceState : Keeps Homed onSaveInstanceState :=
  keeps_execPendingActions.bind fun _ => .modify fun _ h => h.of_eq rfl rfl

theorem keeps_onStart : Keeps Homed onStart :=
  .modify fun _ h => h.of_eq rfl rfl

theorem keeps_onDestroy : Keeps Homed onDestroy :=
  fun _ h => h.answer <| .modify fun _ ha => ⟨ha.view, ha.requests⟩

-- An activity that has been restored is at home as well, whether or not its dialogs are back.
theorem homed_restore (fm : FragmentManager Content Ref) (h : a.mainFragment.requests = []) :
    ((restore fm).after a).Homed := by
  have hr₁ : (onCreate <| some fm).run a = .ok () { a with fm := fm } := rfl
  rw [restore, Method.after_bind_of_ok hr₁]
  have hd : Keeps Homed (fm.dialogs.forM fun d => onDialog d MyDialog.create) :=
    .forM (fun _ => keeps_onDialog _) _
  have hk := hd.bind fun _ => keeps_onStart
  by_cases hc : .mainFragment ∈ fm.content
  all_goals
    rw [Method.after_bind_of_ok (by simp [hc, onMainFragment, Method.run_zoom]; rfl)]
    refine hk _ ?_
  case pos => exact ⟨fun _ => Option.some_ne_none _, fun _ => Option.some_ne_none _⟩
  case neg => exact ⟨fun h => absurd h hc, fun hr => absurd h hr⟩

end Homed

section Safe

variable {code : WaltzCode} {infos : Option DDInfos} {t : Option Throwable}

-- Whatever happens to the dialog, `mMyDialog` is not null afterwards.
theorem Shown.mMyDialog_ne_none (h : Shown a code infos t a') : a'.mMyDialog ≠ none := by
  cases h
  case opened           => exact nofun
  case refused          => exact nofun
  case same hm _        => simp [hm]
  case written hm _ _ _ => simp [hm]
  case failed hm _ _ _  => simp [hm]

theorem Shown.refused_iff (h : Shown a code infos t a') :
    t = some .illegalState ↔ a.mMyDialog = none ∧ a.fm.stateSaved = true := by
  cases h
  case opened hm hs     => simp [hs]
  case refused hm hs    => simp [hm, hs]
  case same hm _        => simp [hm]
  case written hm _ _ _ => simp [hm]
  case failed hm _ _ _  => simp [hm]

-- A callback that is refused always changes `mMyDialog`, so it leaves it alone exactly when there
-- is nothing to refuse.
theorem refused_onCallback_iff (c : Callback) :
    ((onCallback c).thrown a = some .illegalState →
      ((onCallback c).after a).mMyDialog = a.mMyDialog) ↔
      (a.mMyDialog = none → a.fm.stateSaved = false) := by
  rw [c.onCallback_eq]
  have hs := shown a c.code c.infos
  rw [hs.refused_iff]
  constructor
  case mp =>
    intro h hm
    by_contra hn
    exact hs.mMyDialog_ne_none <| (h ⟨hm, by simpa using hn⟩).trans hm
  case mpr => exact fun h hr => absurd hr.right <| by simp [h hr.left]

theorem Shown.returns_iff (h : Shown a code infos t a') :
    t = none ↔
      (a.mMyDialog = none → a.fm.stateSaved = false) ∧
      (∀ d, a.mMyDialog = some d → infos ≠ none → (a.dialog d).mCode = some .accessGranted →
        (a.dialog d).mDDInfos ≠ none) := by
  cases h
  case opened hm hs        => simp [hm, hs]
  case refused hm hs       => simp [hm, hs]
  case written hm hi hc hv => simp [hm, hv]
  case failed hm hi hc hv  => simp [hm, hi, hc, hv]
  case same hm hi =>
    simp only [hm, reduceCtorEq, false_implies, Option.some.injEq, forall_eq', true_and, true_iff]
    exact fun hn hc => absurd hc <| hi.resolve_left hn

variable {ι : Type} [Gson ι] {e : Event ι}

-- A handler that returns was not refused anything.
theorem safe_iff_completes : a.Safe e ↔ a.Completes e :=
  ⟨Safe.completes, fun h => ⟨h, fun ht => absurd (h.symm.trans ht) nofun⟩⟩

theorem Homed.safe_iff (hh : a.Homed) (he : a.Enabled e) (hs : e.OfSdk) :
    a.Safe e ↔ a.Ready e := by
  rw [safe_iff_completes]
  cases e <;> try exact hs.elim
  case callback f c =>
    simp only [Completes, Method.Completes, handle, c.onCallback_eq]
    exact (shown a c.code c.infos).returns_iff
  case answer q code list =>
    have hv := hh.requests <| List.ne_nil_of_mem he
    simp only [Completes, Method.Completes, handle, onMainFragment, Method.thrown_zoom,
      MainFragment.thrown_onAnswer hv, Ready]
    cases a.mainFragment.context <;> simp

end Safe
end MainActivity

namespace Host

variable {ι : Type} [Gson ι] {s s' : Host} {i : Ref}

-- All activities are at home, also those that have been destroyed.
def Homed (s : Host) : Prop :=
  ∀ i < s.activities.next, (s.activity i).Homed

theorem Homed.onActivity {m : Method Throwable MainActivity Unit} (h : s.Homed)
    (hm : (s.activity i).Homed → (m.after (s.activity i)).Homed) : (s.onActivity i m).Homed := by
  intro j hj
  by_cases he : j = i
  case pos =>
    subst he
    simpa [activity, Host.onActivity] using hm <| h j hj
  case neg => simpa [activity, Host.onActivity, he] using h j hj

theorem Homed.next {e : Event ι} (h : s.Homed) (he : s.Enabled e) : (s.next e).Homed := by
  cases e
  case activity i e => exact h.onActivity fun h => h.next he.right
  case save         => exact h.onActivity <| MainActivity.keeps_onSaveInstanceState _
  case start        => exact h.onActivity <| MainActivity.keeps_onStart _
  case destroy      => exact h.onActivity <| MainActivity.keeps_onDestroy _
  case recreate =>
    intro i hi
    cases Nat.lt_succ_iff_lt_or_eq.mp hi
    case inl hi => simpa [activity, Host.next, Heap.object_alloc_of_lt _ _ hi] using h i hi
    case inr hi =>
      subst hi
      have hr := MainActivity.homed_restore (a := s.restored) (s.activity s.current).fm rfl
      simpa [activity, Host.next, Host.restore] using hr

theorem homed_launched : launched.Homed := by
  intro i hi
  cases Nat.lt_one_iff.mp hi
  exact MainActivity.fresh_launched.homed

-- Wherever the app is in its lifecycle, a callback or an answer to one of its activities is handled
-- safely exactly when that activity is ready for it.
theorem safe_iff_ready (r : (machine ι).Run launched s) {e : MainActivity.Event ι}
    (he : s.Enabled (.activity i e)) (hs : e.OfSdk) :
    (s.activity i).Safe e ↔ (s.activity i).Ready e := by
  have h := r.invariant (I := Homed) (fun _ _ h he => h.next he) homed_launched
  exact (h i he.left).safe_iff he.right hs

section Events

-- The second activity asks, and is in the background when the answer comes.
private abbrev fetching : List (Event Empty) := [
  .activity 0 .clickLogin,
  .save,
  .destroy,
  .recreate,
  .activity 1 .back,
  .activity 1 <| .click .myGuests,
  .save
]

private abbrev fetched : MainActivity.Event Empty :=
  .answer .fetchMyGuests .success <| some []

theorem safe_attached : (fetching.foldl (machine Empty).next launched).activity 1 |>.Safe fetched :=
  safe_iff_ready (.ofEvents _ fetching <| by decide) (i := 1) (e := fetched) (by decide) trivial
    |>.mpr ⟨rfl, fun _ _ => nofun⟩

-- After a stop the dialog of a callback is refused, and `mMyDialog` is changed.
theorem not_safe_stopped :
    ¬∀ (s : Host) (_ : (machine Empty).Run launched s) (i : Ref) (e : MainActivity.Event Empty),
      s.Enabled (.activity i e) → e.OfSdk → (s.activity i).Safe e := by
  intro h
  have hs := h _ (.ofEvents _ [
    .activity 0 .clickLogin,
    .activity 0 .execNext,
    .save
  ] <| by decide) 0 (.callback 0 <| .onComplete .loginFailed) (by decide) trivial
  exact absurd (hs.refused rfl) <| by decide

-- After the activity has been destroyed the toast of an answer has no context.
example :
    let s := (fetching ++ [Event.destroy]).foldl (machine Empty).next launched
    ¬(s.activity 1).Completes fetched := by
  decide

end Events
end Host
end Android
