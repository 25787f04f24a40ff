import WaltzExample.Android.Lifecycle.Theorems
import WaltzExample.Android.Recreation.Theorems
import WaltzExample.Android.Reports.Theorems

namespace Android

open Method (Keeps)

variable {ι : Type} [Gson ι]

-- Without a context an answer gets no further than the log.
theorem MainFragment.after_onAnswer_of_null {m : MainFragment} (code : WaltzCode)
    (list : Option (List ι)) (q : Request) (h : m.context = false) :
    ∃ lines, (onAnswer code list q).after m = { m with log := lines ++ m.log } := by
  cases q
  case startGeofencing    => exact ⟨[], Method.after_of_error <| run_makeToast_of_null _ h⟩
  case stopGeofencing     => exact ⟨[], Method.after_of_error <| run_makeToast_of_null _ h⟩
  case fetchMyGuests      => exact ⟨[], Method.after_bind_of_error <| run_makeToast_of_null _ h⟩
  case fetchMyInvitations => exact ⟨[], Method.after_bind_of_error <| run_makeToast_of_null _ h⟩
  case sendInvitation =>
    refine ⟨["onInvitationSent() code : " ++ code.toString], ?_⟩
    simp [onAnswer, onInvitationSent, logD, Method.after, run_makeToast_of_null, h]

namespace MainActivity

variable {a a' : MainActivity} {e : Event ι}

section Gone

-- A destroyed activity, to which the SDK still has references.
structure Gone (a : MainActivity) : Prop where
  detached : a.mainFragment.context = false
  saved    : a.fm.stateSaved = true

-- What a late callback can make of the dialog `d`: if it is the one that `mMyDialog` refers to, and
-- it has a view for the infos of an `ACCESS_GRANTED`, then these can be written there.
def Rewritten (a a' : MainActivity) (d : Ref) : Prop :=
  a.mMyDialog = some d ∧ (a.dialog d).mCode = some .accessGranted ∧
    (a.dialog d).mDDInfos ≠ none ∧ ∃ data, a'.dialog d = (a.dialog d).written data

-- All that was on the screen is as it was, and so is all that has ever been put there, but for the
-- infos of one dialog. `mMyDialog` does not get to refer to another dialog that was there.
structure Frozen (a a' : MainActivity) : Prop where
  fm        : a'.fm = a.fm
  fragments : a'.fragments = a.fragments
  main      : ∃ lines, a'.mainFragment = { a.mainFragment with log := lines ++ a.mainFragment.log }
  next      : a.dialogs.next ≤ a'.dialogs.next
  dialogs   : ∀ d < a.dialogs.next, a'.dialog d = a.dialog d ∨ Rewritten a a' d
  field     : ∀ d < a.dialogs.next, a'.mMyDialog = some d → a.mMyDialog = some d

namespace Frozen

theorem refl (a : MainActivity) : Frozen a a where
  fm          := rfl
  fragments   := rfl
  main        := ⟨[], rfl⟩
  next        := Nat.le_refl _
  dialogs _ _ := .inl rfl
  field _ _ h := h

theorem trans {a'' : MainActivity} (h : Frozen a a') (h' : Frozen a' a'') : Frozen a a'' where
  fm        := h'.fm.trans h.fm
  fragments := h'.fragments.trans h.fragments
  main := by
    have ⟨lines, hm⟩ := h.main
    have ⟨lines', hm'⟩ := h'.main
    exact ⟨lines' ++ lines, by rw [hm', hm, List.append_assoc]⟩
  next := Nat.le_trans h.next h'.next
  dialogs d hd := by
    have hd' := Nat.lt_of_lt_of_le hd h.next
    cases h'.dialogs d hd'
    case inl he =>
      cases h.dialogs d hd
      case inl he' => exact .inl <| he.trans he'
      case inr hr  => exact .inr <| by simpa only [Rewritten, he] using hr
    case inr hr =>
      obtain ⟨hm, hc, hv, data, he⟩ := hr
      have hm := h.field d hd hm
      cases h.dialogs d hd
      case inl he' => exact .inr ⟨hm, he' ▸ hc, he' ▸ hv, data, he' ▸ he⟩
      case inr hr' =>
        -- What was written first is written over.
        obtain ⟨-, hc, hv, _, he'⟩ := hr'
        exact .inr ⟨hm, hc, hv, data, by rw [he, he']; rfl⟩
  field d hd hm := h.field d hd <| h'.field d (Nat.lt_of_lt_of_le hd h.next) hm

theorem gone (h : Frozen a a') (hg : a.Gone) : a'.Gone := by
  have ⟨_, hm⟩ := h.main
  exact ⟨hm ▸ hg.detached, h.fm ▸ hg.saved⟩

end Frozen

omit [Gson ι] in
-- In the background there is nothing but what the SDK brings about.
theorem Event.ofSdk_of_saved (he : a.Enabled e) (hs : a.fm.stateSaved = true) : e.OfSdk := by
  cases e
  case answer   => trivial
  case callback => trivial
  all_goals exact absurd he.left <| by simp [hs]

-- A refused callback makes a dialog that is not shown, and any other writes infos at most.
theorem Shown.frozen {code : WaltzCode} {infos : Option DDInfos} {t : Option Throwable}
    (h : Shown a code infos t a') (hs : a.fm.stateSaved = true) : Frozen a a' := by
  cases h
  case opened hs' => exact absurd hs <| by simp [hs']
  case same       => exact .refl a
  case failed     => exact .refl a
  case refused =>
    refine ⟨rfl, rfl, ⟨[], rfl⟩, Nat.le_succ _, fun d hd => .inl ?_, fun d hd hm => ?_⟩
    case refine_1 => exact dialog_alloc_of_lt _ hd
    case refine_2 => exact absurd (Option.some.inj hm).symm <| Nat.ne_of_lt hd
  case written d data hm _ hc hv =>
    refine ⟨rfl, rfl, ⟨[], rfl⟩, Nat.le_refl _, fun d' _ => ?_, fun _ _ hm => hm⟩
    by_cases hd : d' = d
    case pos => subst hd; exact .inr ⟨hm, hc, hv, data, dialog_setDialog_self ..⟩
    case neg => exact .inl <| dialog_setDialog_of_ne _ hd

theorem Gone.handle (h : a.Gone) (he : a.Enabled e) : Frozen a ((handle e).after a) := by
  have hs := Event.ofSdk_of_saved he h.saved
  cases e <;> try exact hs.elim
  case answer q code list =>
    have hl := MainFragment.after_onAnswer_of_null code list q h.detached
    rw [MainActivity.handle, after_onMainFragment]
    exact { Frozen.refl a with main := hl }
  case callback f c =>
    rw [MainActivity.handle, c.onCallback_eq]
    exact (shown a c.code c.infos).frozen h.saved

end Gone

section Stopped

-- Between two stops there can be operations to execute, but not while the activity is stopped.
def Stopped (a : MainActivity) : Prop :=
  a.fm.stateSaved = true → a.fm.pending = []

theorem stable_stateSaved (saved : Bool) : Stable (·.fm.stateSaved = saved) where
  enqueue _ _ _ h := h
  advance _ h     := by simpa using h
  dialogs _ _ h   := h
  addDialog _ _ h := h
  field _ _ h     := h
  attach _ h      := h
  view _ h        := h

theorem stateSaved_handle (e : Event ι) :
    ((handle e).after a).fm.stateSaved = a.fm.stateSaved := by
  refine (stable_stateSaved _).keeps_handle (fun _ _ h => h) ?_ ?_ a rfl
  case refine_1 =>
    rintro c rfl a' h
    exact after_onMainFragment (a := a') _ ▸ h
  case refine_2 =>
    rintro q code list rfl a' h
    exact after_onMainFragment (a := a') _ ▸ h

theorem fm_handle_of_saved (he : a.Enabled e) (hs : a.fm.stateSaved = true) :
    ((handle e).after a).fm = a.fm := by
  have ho := Event.ofSdk_of_saved he hs
  cases e <;> try exact ho.elim
  case answer => exact after_onMainFragment (a := a) _ ▸ rfl
  case callback f c =>
    rw [handle, c.onCallback_eq]
    exact (shown a c.code c.infos).frozen hs |>.fm

theorem Stopped.handle (h : a.Stopped) (he : a.Enabled e) : ((handle e).after a).Stopped := by
  intro hs
  rw [stateSaved_handle] at hs
  exact fm_handle_of_saved he hs ▸ h hs

theorem fm_execNexts {α : Type} {l : List α} (h : (l.forM fun _ => execNext).run a = .ok () a') :
    a'.fm = FragmentManager.execNext^[l.length] a.fm := by
  induction l generalizing a
  case nil => cases h; rfl
  case cons ih =>
    cases hr : execNext.run a
    case error => simp [hr] at h
    case ok a₁ =>
      have hf : a₁.fm = a.fm.execNext := Method.after_of_ok hr ▸ (viewed_execNext a).executed
      rw [List.length_cons, Function.iterate_succ_apply, ← hf]
      exact ih <| by simpa [hr] using h

theorem stopped_onSaveInstanceState (h : a.fm.stateSaved = false) :
    (onSaveInstanceState.after a).Stopped := by
  cases hr : execPendingActions.run a
  case error a' =>
    -- The state is only saved once all operations have been executed.
    have hs := (stable_stateSaved false).keeps_execPendingActions a h
    rw [Method.after_of_error hr] at hs
    rw [onSaveInstanceState, Method.after_bind_of_error hr]
    exact fun h => absurd hs <| by simp [h]
  case ok a' =>
    have hf : a'.fm = a.fm.settle := fm_execNexts <| by simpa [execPendingActions] using hr
    have hp : a'.fm.pending = [] := hf ▸ FragmentManager.pending_settle
    rw [onSaveInstanceState, Method.after_bind_of_ok hr]
    exact fun _ => hp

end Stopped

section Place

-- What there is to know about an activity.
structure Place (a : MainActivity) (retired : Prop) : Prop where
  attached : ¬retired → a.mainFragment.Attached
  gone     : retired → a.Gone
  stopped  : a.Stopped

theorem quiet_attached : Quiet (·.mainFragment.Attached) where
  enqueue _ _ _ h := h
  advance _ h     := h
  dialogs _ _ h   := h
  attach _ _      := ⟨rfl, rfl⟩
  view _ h        := ⟨h.context, h.listener⟩

namespace Place

variable {retired : Prop}

theorem handle (h : a.Place retired) (he : a.Enabled e) :
    ((handle e).after a).Place retired where
  attached hr := attached_handle (h.attached hr) e
  gone hr     := (h.gone hr).handle he |>.gone <| h.gone hr
  stopped     := h.stopped.handle he

theorem save (h : a.Place retired) (hr : ¬retired) (hs : a.fm.stateSaved = false) :
    (onSaveInstanceState.after a).Place retired where
  attached hr :=
    have hk : Keeps (·.mainFragment.Attached) onSaveInstanceState :=
      quiet_attached.keeps_execPendingActions.bind fun _ => .modify fun _ h => h
    hk a <| h.attached hr
  gone h  := absurd h hr
  stopped := stopped_onSaveInstanceState hs

theorem start (h : a.Place retired) (hr : ¬retired) : (onStart.after a).Place retired where
  attached := h.attached
  gone h   := absurd h hr
  stopped  := nofun

theorem destroy {retired' : Prop} (h : a.Place retired) (hr : retired')
    (hs : a.fm.stateSaved = true) : (onDestroy.after a).Place retired' where
  attached h := absurd hr h
  gone _     := ⟨rfl, hs⟩
  stopped    := h.stopped

theorem of_iff {retired' : Prop} (h : a.Place retired) (hr : retired ↔ retired') :
    a.Place retired' :=
  propext hr ▸ h

theorem restore {fm : FragmentManager Content Ref} (hd : fm.dialogs = []) (hr : ¬retired) :
    ((restore fm).after a).Place retired := by
  rw [Method.after_of_ok <| run_restore hd]
  refine ⟨fun _ => ?_, fun h => absurd h hr, nofun⟩
  by_cases hm : .mainFragment ∈ fm.content <;>
    simp only [reattached, hm, if_true, if_false] <;> exact ⟨rfl, rfl⟩

end Place
end Place

section Lasting

-- A property that an activity keeps wherever it is in its lifecycle.
structure Lasting (ι : Type) [Gson ι] (P : MainActivity → Prop) : Prop where
  handle  : ∀ a (e : Event ι), a.Enabled e → P a → P ((handle e).after a)
  save    : ∀ a, a.fm.stateSaved = false → P a → P (onSaveInstanceState.after a)
  start   : Keeps P onStart
  destroy : Keeps P onDestroy

-- The dialog that `mMyDialog` refers to is not on the screen and not going to be.
structure Lost (a : MainActivity) : Prop where
  field : a.mMyDialog ≠ none
  held  : a.fm.held = []

theorem quiet_lost : Quiet Lost where
  enqueue _ _ ho h := ⟨h.field, FragmentManager.held_enqueue ho |>.trans h.held⟩
  advance _ h      :=
    ⟨h.field, List.sublist_nil.mp <| h.held ▸ FragmentManager.held_execNext_sublist⟩
  dialogs _ _ h    := ⟨h.field, h.held⟩
  attach _ h       := ⟨h.field, h.held⟩
  view _ h         := ⟨h.field, h.held⟩

-- Nothing is shown, and the field is kept.
theorem Lost.fm_shown {code : WaltzCode} {infos : Option DDInfos} {t : Option Throwable}
    (h : a.Lost) (hs : Shown a code infos t a') : a'.fm = a.fm := by
  cases hs
  case opened hm _  => exact absurd hm h.field
  case refused hm _ => exact absurd hm h.field
  all_goals rfl

theorem Lost.callback (h : a.Lost) (c : Callback) : ((onCallback c).after a).Lost := by
  rw [c.onCallback_eq]
  have hs := shown a c.code c.infos
  exact ⟨hs.mMyDialog_ne_none, h.fm_shown hs ▸ h.held⟩

-- The field is assigned although the dialog is not shown.
theorem lost_of_saved (hs : a.fm.stateSaved = true) (hm : a.mMyDialog = none)
    (hh : a.fm.held = []) (c : Callback) : ((onCallback c).after a).Lost := by
  rw [c.onCallback_eq, Method.after_of_error <| run_showDialog_refused c.code c.infos hm hs]
  exact ⟨Option.some_ne_none _, hh⟩

theorem lasting_lost : Lasting ι Lost where
  save a _ h :=
    have hk : Keeps Lost onSaveInstanceState :=
      quiet_lost.keeps_execPendingActions.bind fun _ => .modify fun _ h => ⟨h.field, h.held⟩
    hk a h
  start   := .modify fun _ h => ⟨h.field, h.held⟩
  destroy := fun _ h => after_onMainFragment _ ▸ ⟨h.field, h.held⟩
  handle a e he h := by
    by_cases hd : ∃ d, e = .clickDismiss d
    case pos =>
      -- There is no dialog to click on.
      obtain ⟨d, rfl⟩ := hd
      have hd := FragmentManager.dialogs_subset_held he.right.left
      simp [h.held] at hd
    case neg =>
      refine quiet_lost.keeps_handle (fun _ _ h => ⟨h.field, h.held⟩) ?_ ?_ ?_ ?_ a h
      case refine_1 => exact fun c hc _ h => hc ▸ after_onMainFragment _ ▸ ⟨h.field, h.held⟩
      case refine_2 =>
        exact fun q code list hq _ h => hq ▸ after_onMainFragment _ ▸ ⟨h.field, h.held⟩
      case refine_3 => exact fun f c hc _ h => hc ▸ h.callback c
      case refine_4 => exact fun d hc => absurd ⟨d, hc⟩ hd

end Lasting

end MainActivity
end Android
