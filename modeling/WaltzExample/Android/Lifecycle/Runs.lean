import WaltzExample.Android.Lifecycle.Lasting

namespace Android

open MainActivity (Lasting Frozen Callback)

variable {ι : Type} [Gson ι]

namespace Host

variable {s s' : Host} {i : Ref} {e : Event ι}

-- A destroyed activity does not come back.
def Retired (s : Host) (i : Ref) : Prop :=
  i < s.activities.next ∧ (i = s.current → s.destroyed = true)

instance (s : Host) (i : Ref) : Decidable (s.Retired i) :=
  inferInstanceAs <| Decidable (_ ∧ _)

structure Placed (s : Host) : Prop where
  current : s.current < s.activities.next
  place   : ∀ i < s.activities.next, (s.activity i).Place (s.Retired i)

section OnActivity

variable {m : Method Throwable MainActivity Unit} {j : Ref}

theorem activity_onActivity_self : (s.onActivity i m).activity i = m.after (s.activity i) :=
  Heap.object_set_self ..

theorem of_onActivity {P : MainActivity → Prop} (h : P (s.activity i))
    (hm : i = j → P (m.after <| s.activity i)) : P ((s.onActivity j m).activity i) := by
  by_cases hj : i = j
  case pos => exact hj ▸ activity_onActivity_self ▸ hm hj
  case neg => simpa [activity, onActivity, hj] using h

end OnActivity

theorem activity_recreate_of_lt (hi : i < s.activities.next) :
    (s.next (.recreate : Event ι)).activity i = s.activity i :=
  Heap.object_alloc_of_lt _ _ hi

theorem activity_recreate :
    (s.next (.recreate : Event ι)).activity s.activities.next = s.restore.after s.restored :=
  Heap.object_alloc_next ..

theorem Retired.next (h : s.Retired i) (e : Event ι) : (s.next e).Retired i := by
  cases e
  case recreate => exact ⟨Nat.lt_succ_of_lt h.left, fun hi => absurd hi <| Nat.ne_of_lt h.left⟩
  case destroy  => exact ⟨h.left, fun _ => rfl⟩
  all_goals exact h

theorem not_retired_current (h : s.destroyed = false) : ¬s.Retired s.current :=
  fun hr => absurd (hr.right rfl) <| by simp [h]

theorem Placed.onActivity {m : Method Throwable MainActivity Unit} (h : s.Placed)
    (hm : i < s.activities.next → (s.activity i).Place (s.Retired i) →
      (m.after <| s.activity i).Place (s.Retired i)) : (s.onActivity i m).Placed := by
  refine ⟨h.current, fun j hj => of_onActivity (P := (·.Place <| s.Retired j)) (h.place j hj) ?_⟩
  rintro rfl
  exact hm hj <| h.place j hj

theorem restore_completes_iff :
    s.restore.Completes s.restored ↔ (s.activity s.current).fm.dialogs = [] :=
  MainActivity.restore_completes_iff fun _ => rfl

theorem Placed.next (h : s.Placed) (he : s.Enabled e) : (s.next e).Placed := by
  cases e
  case activity i e => exact h.onActivity fun _ hp => hp.handle he.right
  case save         => exact h.onActivity fun _ hp => hp.save (not_retired_current he.left) he.right
  case start        => exact h.onActivity fun _ hp => hp.start <| not_retired_current he.left
  case destroy =>
    refine ⟨h.current, fun i hi => ?_⟩
    have hr : (s.next (.destroy : Event ι)).Retired i := ⟨hi, fun _ => rfl⟩
    by_cases hc : i = s.current
    case pos =>
      subst hc
      have hp := (h.place _ hi).destroy hr he.right
      simpa [Host.next, Host.onActivity, activity] using hp
    case neg =>
      have hp := (h.place i hi).of_iff (iff_of_true ⟨hi, fun he => absurd he hc⟩ hr)
      simpa [Host.next, Host.onActivity, activity, hc] using hp
  case recreate =>
    refine ⟨Nat.lt_succ_self _, fun i hi => ?_⟩
    cases Nat.lt_succ_iff_lt_or_eq.mp hi
    case inl hi =>
      have hr : s.Retired i := ⟨hi, fun _ => he.left⟩
      rw [activity_recreate_of_lt hi]
      exact (h.place i hi).of_iff <| iff_of_true hr <| hr.next _
    case inr hi =>
      subst hi
      rw [activity_recreate]
      exact .restore (restore_completes_iff.mp he.right) <| not_retired_current rfl

theorem placed_launched : launched.Placed := by
  refine ⟨Nat.one_pos, fun i hi => ?_⟩
  cases Nat.lt_one_iff.mp hi
  exact ⟨fun _ => MainActivity.attached_launched, fun h => absurd (h.right rfl) nofun, nofun⟩

theorem le_next (s : Host) (e : Event ι) : s.activities.next ≤ (s.next e).activities.next := by
  cases e
  case recreate => exact Nat.le_succ _
  all_goals exact Nat.le_refl _

theorem activity_next {P : MainActivity → Prop} (h : Lasting ι P) (hi : i < s.activities.next)
    (he : s.Enabled e) (ha : P (s.activity i)) : P ((s.next e).activity i) := by
  cases e
  case activity j e =>
    refine of_onActivity ha ?_
    rintro rfl
    exact h.handle _ e he.right ha
  case save     =>
    refine of_onActivity ha ?_
    rintro rfl
    exact h.save _ he.right ha
  case start    => exact of_onActivity ha fun _ => h.start _ ha
  case destroy  => exact of_onActivity ha fun _ => h.destroy _ ha
  case recreate => exact activity_recreate_of_lt (ι := ι) hi ▸ ha

theorem activity_of_run {P : MainActivity → Prop} (h : Lasting ι P) (hi : i < s.activities.next)
    (ha : P (s.activity i)) (r : (machine ι).Run s s') : P (s'.activity i) := by
  refine r.invariant (I := fun s => i < s.activities.next ∧ P (s.activity i)) ?_ ⟨hi, ha⟩ |>.right
  exact fun s e ⟨hi, ha⟩ he => ⟨Nat.lt_of_lt_of_le hi <| s.le_next e, activity_next h hi he ha⟩

theorem Placed.frozen_next (h : s.Placed) (hr : s.Retired i) (he : s.Enabled e) :
    Frozen (s.activity i) ((s.next e).activity i) := by
  have hn (hd : s.destroyed = false) : i ≠ s.current := by
    rintro rfl
    exact not_retired_current hd hr
  cases e
  case activity j e =>
    refine of_onActivity (.refl _) ?_
    rintro rfl
    exact (h.place i hr.left).gone hr |>.handle he.right
  case save     => exact of_onActivity (.refl _) fun hi => absurd hi <| hn he.left
  case start    => exact of_onActivity (.refl _) fun hi => absurd hi <| hn he.left
  case destroy  => exact of_onActivity (.refl _) fun hi => absurd hi <| hn he.left
  case recreate => exact activity_recreate_of_lt (ι := ι) hr.left ▸ .refl _

section Runs

variable (r : (machine ι).Run launched s)
include r

theorem placed_of_run : s.Placed :=
  r.invariant (fun _ _ h he => h.next he) placed_launched

-- An answer is handled as long as the activity that asked is not destroyed, and a list is not
-- missing.
theorem completes_answer_iff {q : Request} {code : WaltzCode} {list : Option (List ι)}
    (he : s.Enabled <| .activity i <| .answer q code list) :
    (s.activity i).Completes (.answer q code list) ↔
      ¬s.Retired i ∧ (q.Fetches → code = .success → list ≠ none) := by
  have hp := placed_of_run r |>.place i he.left
  have hh := r.invariant (I := Homed) (fun _ _ h he => h.next he) homed_launched i he.left
  rw [← MainActivity.safe_iff_completes, hh.safe_iff he.right trivial]
  refine and_congr_left' ⟨fun hc hr => ?_, fun hr => (hp.attached hr).context⟩
  exact absurd hc <| by simp [(hp.gone hr).detached]

-- Nothing that comes later changes what a destroyed activity had on the screen, but for the infos
-- of the dialog that `mMyDialog` refers to.
theorem frozen_of_run (hr : s.Retired i) (r' : (machine ι).Run s s') :
    Frozen (s.activity i) (s'.activity i) := by
  refine r'.invariant
    (I := fun s' => s'.Placed ∧ s'.Retired i ∧ Frozen (s.activity i) (s'.activity i))
    (fun s' e ⟨hp, hr, hf⟩ he => ?_) ⟨placed_of_run r, hr, .refl _⟩ |>.right.right
  exact ⟨hp.next he, hr.next e, hf.trans <| hp.frozen_next hr he⟩

-- Once the dialog of a callback has been refused, this activity never shows a dialog again, also
-- when it is back in the foreground.
theorem lost_of_run {f : Nat} {c : Callback}
    (he : s.Enabled (.activity i <| .callback f c : Event ι))
    (hs : (s.activity i).fm.stateSaved = true) (hd : (s.activity i).fm.dialogs = [])
    (hm : (s.activity i).mMyDialog = none)
    (r' : (machine ι).Run (s.next (.activity i <| .callback f c : Event ι)) s') :
    (s'.activity i).fm.held = [] ∧
      ∀ c, ((MainActivity.onCallback c).after <| s'.activity i).fm = (s'.activity i).fm := by
  have hp := placed_of_run r |>.place i he.left |>.stopped hs
  have hh : (s.activity i).fm.held = [] := by simp [FragmentManager.held, hp, hd]
  have hl : ((s.next (.activity i <| .callback f c : Event ι)).activity i).Lost := by
    exact activity_onActivity_self (s := s) ▸ MainActivity.lost_of_saved hs hm hh c
  have hi := Nat.lt_of_lt_of_le he.left <| s.le_next (.activity i <| .callback f c : Event ι)
  have hl := activity_of_run MainActivity.lasting_lost hi hl r'
  refine ⟨hl.held, fun c => ?_⟩
  rw [c.onCallback_eq]
  exact hl.fm_shown <| MainActivity.shown _ c.code c.infos

end Runs

section Events

private abbrev ended : List (Event Empty) := [
  .activity 0 <| .click .myGuests,
  .activity 0 .clickStartTransaction,
  .activity 0 .execNext,
  .activity 0 <| .callback 0 <| .onTransactionDone .accessGranted,
  .save,
  .destroy
]

private abbrev answered : MainActivity.Event Empty :=
  .answer .fetchMyGuests .success <| some []

theorem not_completes_destroyed :
    ¬((ended.foldl (machine Empty).next launched).activity 0).Completes answered := by
  have he : (ended.foldl (machine Empty).next launched).Enabled (.activity 0 answered) := by decide
  have hc := completes_answer_iff (.ofEvents _ ended <| by decide) he
  exact fun h => hc.mp h |>.left <| by decide

private abbrev afterwards : List (Event Empty) := [
  .activity 0 answered,
  .activity 0 <| .callback 0 <| .onTransactionDoneWith .accessGranted <| some ⟨"B", "12"⟩
]

theorem frozen_destroyed :
    let s := ended.foldl (machine Empty).next launched
    Frozen (s.activity 0) ((afterwards.foldl (machine Empty).next s).activity 0) :=
  frozen_of_run (.ofEvents _ ended <| by decide) (by decide) <|
    .ofEvents _ afterwards <| by decide

private abbrev stopped : List (Event Empty) := [
  .activity 0 .clickLogin,
  .activity 0 .execNext,
  .save
]

private abbrev refused : Event Empty :=
  .activity 0 <| .callback 0 <| .onComplete .loginFailed

-- The user comes back and tries again, in vain.
private abbrev started : List (Event Empty) := [
  .start,
  .activity 0 .back,
  .activity 0 .clickLogin,
  .activity 0 .execNext,
  .activity 0 <| .callback 1 <| .onComplete .success
]

theorem not_held_refused :
    let s := started.foldl (machine Empty).next <|
      (stopped.foldl (machine Empty).next launched).next refused
    (s.activity 0).fm.held = [] ∧
      ∀ c, ((MainActivity.onCallback c).after <| s.activity 0).fm = (s.activity 0).fm :=
  lost_of_run (s := stopped.foldl (machine Empty).next launched)
    (.ofEvents _ stopped <| by decide) (by decide) (by decide) (by decide) (by decide)
    (.ofEvents _ started <| by decide)

end Events
end Host
end Android
