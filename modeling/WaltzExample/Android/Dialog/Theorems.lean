import WaltzExample.Android.Dialog.Basic
import WaltzExample.Android.Execution.Theorems.Runs

namespace Android

open FragmentManager (Op)
open Relation (ReflTransGen)

-- A dialog stands for a result before its view exists as well: by then the infos are in its fields.
structure MyDialog.StandsFor (o : MyDialog) (r : Result) : Prop where
  code  : o.mCode = some r.code
  infos : o.mDDInfos = none → r.code = .accessGranted → o.mData = r.infos
  shows : o.mDDInfos ≠ none → o.Shows r

namespace MyDialog.StandsFor

variable {o : MyDialog} {r : Result} {code : WaltzCode} {infos : Option DDInfos} {data : DDInfos}

theorem opened : (MainActivity.opened code infos).StandsFor ⟨code, infos⟩ where
  code      := rfl
  infos _ _ := rfl
  shows h   := absurd rfl h

theorem created (h : o.StandsFor r) (hv : o.mDDInfos = none) :
    (o.created ⟨r.code, o.mData⟩).StandsFor r where
  code    := h.code
  infos h := absurd h <| by simp [MyDialog.created]
  shows _ := by
    refine ⟨rfl, ?_⟩
    by_cases hg : r.code = .accessGranted
    case pos => simp [MyDialog.created, h.infos hv hg]
    case neg => simp [MyDialog.created, Result.ddInfos_of_not_granted, hg]

theorem written (h : o.StandsFor r) (hg : r.code = .accessGranted) (hv : o.mDDInfos ≠ none) :
    (o.written data).StandsFor { r with infos := some data } where
  code    := h.code
  infos h := absurd h <| by simp [MyDialog.written]
  shows _ := by
    refine ⟨(h.shows hv).left, ?_⟩
    simp [MyDialog.written, hg, Result.ddInfos_of_granted]

-- Infos that come without an `ACCESS_GRANTED` change nothing.
theorem deliver (h : o.StandsFor r) (hs : infos = none ∨ r.code ≠ .accessGranted) :
    o.StandsFor (Result.deliver code infos r) := by
  cases hs
  case inl hi => simpa [hi, Result.deliver] using h
  case inr hg =>
    refine ⟨h.code, fun _ hg' => absurd hg' hg, fun hv => ⟨(h.shows hv).left, ?_⟩⟩
    rw [(h.shows hv).right, Result.ddInfos_deliver_of_not_granted _ _ hg]

end MyDialog.StandsFor

namespace MainActivity

variable {a a' : MainActivity} {d : Ref} {g : Option Result}

theorem Displayed.live (h : a.Displayed d) : a.Live d :=
  ⟨FragmentManager.dialogs_subset_held h.left, h.right⟩

-- The dialogs of an activity, and what an observer expects to be shown.
structure Faithful (a : MainActivity) (g : Option Result) : Prop where
  unique   : ∀ d d', a.Live d → a.Live d' → d = d'
  assigned : ∀ d, a.mMyDialog = some d → a.Live d
  idle     : (∀ d, ¬a.Live d) → g = none
  result   : ∀ d, a.Live d → ∃ r, g = some r ∧ (a.dialog d).StandsFor r

section Silent

theorem Silent.mMyDialog_eq (h : Silent a a') : a'.mMyDialog = a.mMyDialog := by
  cases h <;> rfl

-- A live dialog is not one of those that are going to be removed.
theorem Sound.live_execNext (h : a.Sound) (hd : (a.dialog d).mDismissed = false) :
    d ∈ a.fm.execNext.held ↔ d ∈ a.fm.held := by
  refine ⟨FragmentManager.held_execNext_sublist.mem, fun hh => ?_⟩
  refine FragmentManager.mem_held_execNext hh fun hr => ?_
  simp [h.leaving d hr] at hd

theorem live_enqueue {op : Op Content Ref} (h : op.addDialog? = none) :
    (a.enqueue op).Live d ↔ a.Live d := by
  rw [Live, fm_enqueue, FragmentManager.held_enqueue h]
  rfl

-- The one thing that silently happens to a dialog is that it gets its view.
theorem Silent.dialog_cases (h : Silent a a') (d : Ref) :
    (a'.dialog d = a.dialog d) ∨ (.addDialog d ∈ a.fm.pending ∧ ∃ code,
      (a.dialog d).mCode = some code ∧
      a'.dialog d = (a.dialog d).created ⟨code, (a.dialog d).mData⟩) := by
  cases h
  case addDialog d' _ code hp hc =>
    by_cases hd : d = d'
    case pos => subst hd; exact .inr ⟨by simp [hp], code, hc, by simp⟩
    case neg => exact .inl <| by simp [hd]
  all_goals exact .inl rfl

theorem Silent.mDismissed_eq (h : Silent a a') (d : Ref) :
    (a'.dialog d).mDismissed = (a.dialog d).mDismissed := by
  cases h.dialog_cases d
  case inl h => rw [h]
  case inr h =>
    have ⟨_, _, _, h⟩ := h
    rw [h]
    rfl

theorem Silent.live_iff (hs : a.Sound) (h : Silent a a') : a'.Live d ↔ a.Live d := by
  rw [Live, Live, h.mDismissed_eq]
  refine and_congr_left fun hd => ?_
  cases h
  case main      => rfl
  case start     => rw [fm_enqueue, FragmentManager.held_enqueue rfl, fm_start]
  case pop       => rw [fm_enqueue, FragmentManager.held_enqueue rfl]
  case advance   => exact hs.live_execNext hd
  case addDialog => exact hs.live_execNext hd

theorem Sound.live_iff_of_silents (hs : a.Sound) (h : ReflTransGen Silent a a') :
    a'.Live d ↔ a.Live d := by
  induction h
  case refl           => rfl
  case tail h' hsi hi => exact hsi.live_iff (hs.silents h') |>.trans hi

theorem Silent.standsFor {r : Result} (hs : a.Sound) (h : Silent a a')
    (hr : (a.dialog d).StandsFor r) : (a'.dialog d).StandsFor r := by
  cases h.dialog_cases d
  case inl h => rwa [h]
  case inr h =>
    have ⟨hp, code, hc, h⟩ := h
    have hc : code = r.code := Option.some.inj <| hc.symm.trans hr.code
    rw [h, hc]
    exact hr.created (hs.unviewed d hp).ddInfos

theorem Faithful.silent (hs : a.Sound) (h : a.Faithful g) (hsi : Silent a a') : a'.Faithful g where
  unique d d' hd hd' := h.unique d d' (hsi.live_iff hs |>.mp hd) (hsi.live_iff hs |>.mp hd')
  assigned d hd      := hsi.live_iff hs |>.mpr <| h.assigned d <| hsi.mMyDialog_eq ▸ hd
  idle hn            := h.idle fun d hd => hn d <| hsi.live_iff hs |>.mpr hd
  result d hd        :=
    have ⟨r, hg, hr⟩ := h.result d <| hsi.live_iff hs |>.mp hd
    ⟨r, hg, hsi.standsFor hs hr⟩

theorem Faithful.silents (hs : a.Sound) (h : a.Faithful g) (hsi : ReflTransGen Silent a a') :
    a'.Faithful g := by
  induction hsi
  case refl             => exact h
  case tail hsi' hsi hi => exact hi.silent (hs.silents hsi') hsi

end Silent

section Callback

variable {code : WaltzCode} {infos : Option DDInfos} {t : Option Throwable}

theorem live_show_opened_iff (code : WaltzCode) (infos : Option DDInfos) (hs : a.Sound) : Live (
      a.alloc (opened code infos) |>.assign a.dialogs.next |>.enqueue (.addDialog a.dialogs.next)
    ) d ↔ a.Live d ∨ d = a.dialogs.next := by
  simp only [Live, fm_enqueue, FragmentManager.held_enqueue_addDialog, fm_assign, fm_alloc,
    dialog_enqueue, dialog_assign, List.mem_append, List.mem_singleton]
  by_cases hd : d = a.dialogs.next
  case pos => subst hd; simp [opened]
  case neg =>
    simp only [hd, or_false]
    exact and_congr_right fun hh => by rw [dialog_alloc_of_lt _ <| hs.held d hh]

-- Opening a dialog when there is none.
theorem Faithful.opened (hs : a.Sound) (h : a.Faithful g) (hn : ∀ d, ¬a.Live d) : Faithful (
      a.alloc (opened code infos) |>.assign a.dialogs.next |>.enqueue (.addDialog a.dialogs.next)
    ) (Result.deliver code infos g) := by
  have hl {d : Ref} := (live_show_opened_iff code infos (d := d) hs).trans <|
    or_iff_right (hn d)
  constructor
  case unique   => exact fun _ _ hd hd' => hl.mp hd |>.trans (hl.mp hd').symm
  case assigned => exact fun _ hd => hl.mpr (Option.some.inj hd).symm
  case idle     => exact fun hn => absurd (hl.mpr rfl) (hn _)
  case result =>
    intro d hd
    refine ⟨⟨code, infos⟩, by simp [h.idle hn, Result.deliver], ?_⟩
    cases hl.mp hd
    simpa using .opened

-- A callback changes at most the view of the dialog that `mMyDialog` refers to.
theorem Faithful.setDialog {o : MyDialog} (h : a.Faithful g) (hm : a.mMyDialog = some d)
    (hd : o.mDismissed = (a.dialog d).mDismissed)
    (ho : ∀ r, (a.dialog d).StandsFor r → o.StandsFor (Result.deliver code infos r)) :
    (a.setDialog d o).Faithful (Result.deliver code infos g) := by
  have hl := h.assigned d hm
  have hl' (d' : Ref) : (a.setDialog d o).Live d' ↔ a.Live d' := by
    by_cases he : d' = d
    case pos => subst he; simp [Live, hd]
    case neg => simp [Live, he]
  constructor
  case unique   => exact fun d d' hd hd' => h.unique d d' ((hl' d).mp hd) ((hl' d').mp hd')
  case assigned => exact fun d hd => (hl' d).mpr <| h.assigned d hd
  case idle     => exact fun hn => absurd ((hl' d).mpr hl) (hn d)
  case result =>
    intro d' hd'
    have he := h.unique d' d ((hl' d').mp hd') hl
    have ⟨r, hg, hr⟩ := h.result d hl
    subst he
    exact ⟨_, by rw [hg], by simpa using ho r hr⟩

theorem Faithful.shown (hs : a.Sound) (h : a.Faithful g) (hr : a.ReadyFor infos)
    (hc : Shown a code infos t a') :
    t ≠ some (.nullPointer .view) ∧ a'.Faithful (Result.deliver code infos g) := by
  cases hc
  case opened hm _ => exact ⟨nofun, h.opened hs <| hr.field hm⟩
  case refused hst => exact absurd hs.unsaved <| by simp [hst]
  case failed hv => exact absurd hv <| hr.view _ ‹_› (by simp [‹infos = _›]) ‹_›
  case same d hm hi =>
    have hd (r : Result) (hr : (a.dialog d).StandsFor r) :
        (a.dialog d).StandsFor (Result.deliver code infos r) :=
      hr.deliver <| hi.imp_right fun hc hg => hc <| hg ▸ hr.code
    exact ⟨nofun, by simpa using h.setDialog hm rfl hd⟩
  case written d data hm hi hc hv =>
    refine ⟨nofun, h.setDialog hm rfl fun r hr => ?_⟩
    have hg : r.code = .accessGranted := Option.some.inj <| hr.code.symm.trans hc
    simpa [hi, Result.deliver] using hr.written hg hv

theorem Faithful.shows (h : a.Faithful g) (hs : a.Sound) : a.Shows g where
  unique := h.unique
  result d hd :=
    have ⟨r, hg, hr⟩ := h.result d hd.live
    ⟨r, hg, hr.shows (hs.viewed d hd.left).ddInfos⟩

-- A callback that is not ready for either opens a second dialog or looks for a view in vain.
theorem ReadyFor.of_shown (hs : a.Sound) (hc : Shown a code infos t a')
    (ht : t ≠ some (.nullPointer .view)) (hs' : a'.Shows g) : a.ReadyFor infos := by
  cases hc
  case refused hst => exact absurd hs.unsaved <| by simp [hst]
  case opened hm _ =>
    refine ⟨fun _ d hd => ?_, fun d hd => absurd (hm.symm.trans hd) nofun⟩
    have hl {d : Ref} := live_show_opened_iff code infos (d := d) hs
    have he := hs'.unique d a.dialogs.next (hl.mpr <| .inl hd) (hl.mpr <| .inr rfl)
    exact hs.not_held_next <| he ▸ hd.left
  case failed => exact absurd rfl ht
  case same d hm hi =>
    refine ⟨fun hn => absurd (hn.symm.trans hm) nofun, fun d' hd' hn hc => ?_⟩
    cases Option.some.inj <| hm.symm.trans hd'
    exact hi.elim (absurd · hn) (absurd hc)
  case written d data hm hi hc hv =>
    refine ⟨fun hn => absurd (hn.symm.trans hm) nofun, fun d' hd' _ _ => ?_⟩
    cases Option.some.inj <| hm.symm.trans hd'
    exact hv

end Callback

section Click

theorem Faithful.clicked (h : a.Faithful g) (hd : d ∈ a.fm.dialogs) (hc : Clicked a d a') :
    a'.Faithful (if (a.dialog d).mDismissed then g else none) := by
  cases hc
  case again hm =>
    simp only [hm, if_true]
    have hl (d : Ref) : Live (a.enqueue .popBackStack |>.assign none) d ↔ a.Live d :=
      live_enqueue rfl
    constructor
    case unique   => exact fun d d' hd hd' => h.unique d d' ((hl d).mp hd) ((hl d').mp hd')
    case assigned => simp
    case idle     => exact fun hn => h.idle fun d hd => hn d <| (hl d).mpr hd
    case result   => exact fun d hd => h.result d <| (hl d).mp hd
  case dismissed hm =>
    simp only [hm, Bool.false_eq_true, if_false]
    have hl := Displayed.live ⟨hd, hm⟩
    have hn (d' : Ref) : ¬Live (
        a.setDialog d (a.dialog d).dismissed
          |>.enqueue (.removeDialog d) |>.enqueue .popBackStack |>.assign none) d' := by
      intro hd'
      by_cases he : d' = d
      case pos => subst he; simp [Live, MyDialog.dismissed] at hd'
      case neg =>
        have hl' : (a.setDialog d (a.dialog d).dismissed).Live d' :=
          (live_enqueue rfl).mp <| (live_enqueue rfl).mp hd'
        simp [Live, he] at hl'
        exact he <| h.unique d' d hl' hl
    constructor
    case unique   => exact fun _ d' hd => absurd hd <| hn _
    case assigned => simp
    case idle     => exact fun _ => rfl
    case result   => exact fun _ hd => absurd hd <| hn _

end Click

section Runs

variable {ι : Type} [Gson ι] {e : Event ι} {t : Option Throwable}

omit [Gson ι] in
theorem expect_of_silent (he : e.IsSilent) : expect a e g = g := by
  cases e
  case callback     => exact he.elim
  case clickDismiss => exact he.elim
  all_goals rfl

-- What one step does to an activity whose dialog shows what is expected.
theorem Faithful.stepped (hs : a.Sound) (hh : a.Homed) (h : a.Faithful g) (he : a.Enabled e)
    (ht : a.Timely e) (hst : Stepped a e t a') :
    t ≠ some (.nullPointer .view) ∧ a'.Faithful (expect a e g) := by
  cases hst
  case shown hsh      => exact h.shown hs ht hsh
  case clicked hd hc  => exact ⟨by simp, h.clicked hd hc⟩
  case silent hsi hs' =>
    rw [expect_of_silent hsi]
    exact ⟨by simp, h.silents hs hs'⟩
  case answered =>
    refine ⟨?_, h.silent hs <| .main _⟩
    rw [MainFragment.thrown_onAnswer <| hh.requests <| List.ne_nil_of_mem he]
    split_ifs <;> simp

theorem delivers_iff_timely (hs : a.Sound) (hh : a.Homed) (h : a.Faithful g) (he : a.Enabled e) :
    a.Delivers e g ↔ a.Timely e := by
  constructor
  case mpr =>
    intro ht
    have ⟨hv, hf⟩ := h.stepped hs hh he ht <| hs.stepped he
    exact ⟨hv, hf.shows <| hs.next he⟩
  case mp =>
    intro hd
    cases e <;> try trivial
    case callback f c =>
      have ⟨hv, hs'⟩ := hd
      simp only [handle, Callback.onCallback_eq] at hv hs'
      exact .of_shown hs (MainActivity.shown ..) hv hs'

theorem Fresh.faithful (h : a.Fresh) : a.Faithful none := by
  have hn (d : Ref) : ¬a.Live d := by simp [Live, h.held]
  constructor
  case unique   => exact fun _ _ hd => absurd hd (hn _)
  case assigned => simp [h.field]
  case idle     => exact fun _ => rfl
  case result   => exact fun _ hd => absurd hd (hn _)

-- A run shows the results of its callbacks, in one dialog at a time and without using a view that
-- is not there, exactly when its callbacks are timely.
theorem delivers_iff {s : MainActivity × Option Result} (h : a.Fresh)
    (r : (recorded ι).Run (a, none) s) :
    (r.Steps fun s e => s.1.Delivers e s.2) ↔ (r.Steps fun s e => s.1.Timely e) := by
  refine r.steps_iff_steps (I := fun s => s.1.Sound ∧ s.1.Homed ∧ s.1.Faithful s.2) ?_ ?_ ?_
  case refine_1 =>
    intro s e ⟨hs, hh, hf⟩ he ht
    exact ⟨hs.next he, hh.next he, hf.stepped hs hh he ht (hs.stepped he) |>.right⟩
  case refine_2 => exact fun s e ⟨hs, hh, hf⟩ he => delivers_iff_timely hs hh hf he
  case refine_3 => exact ⟨h.sound, h.homed, h.faithful⟩

section Infos

private abbrev infos : DDInfos := ⟨"B", "12"⟩

-- Infos that come once the dialog's view exists.
theorem delivers_late_infos :
    Machine.Run.Steps (fun s e => s.1.Delivers e s.2) <|
      Machine.Run.ofEvents (m := recorded Empty) (launched, none) [
        .clickStartTransaction,
        .callback 0 <| .onTransactionDone .accessGranted,
        .execNext,
        .execNext,
        .callback 0 <| .onTransactionDoneWith .accessGranted infos,
        .clickDismiss 0
      ] (by decide) := by
  refine delivers_iff fresh_launched _ |>.mpr ?_
  simp only [Machine.Run.steps_ofEvents_cons, Machine.Run.steps_ofEvents_nil, and_true]
  refine ⟨trivial, ?_, trivial, trivial, ?_, trivial⟩
  case refine_1 =>
    refine ⟨fun _ _ hd => absurd hd.left List.not_mem_nil, fun _ hd => ?_⟩
    exact absurd hd.symm <| Option.some_ne_none _
  case refine_2 =>
    refine ⟨fun hn => absurd hn (Option.some_ne_none _), fun d hd _ _ => ?_⟩
    cases hd
    exact Option.some_ne_none _

-- Infos that come between `show` and its operation, when the flow has long been on the screen: the
-- dialog's view is dereferenced, and it is null.
theorem not_delivers_early_infos :
    ¬∀ (a : MainActivity) (s : MainActivity × Option Result) (r : (recorded Empty).Run (a, none) s),
      a.Fresh → r.Steps fun s e => s.1.Delivers e s.2 := by
  intro h
  have hr := h launched _ (.ofEvents _ [
    .clickStartTransaction,
    .execNext,
    .callback 0 <| .onTransactionDone .accessGranted,
    .callback 0 <| .onTransactionDoneWith .accessGranted infos
  ] (by decide)) fresh_launched
  simp only [Machine.Run.steps_ofEvents_cons, Machine.Run.steps_ofEvents_nil, and_true] at hr
  exact hr.right.right.right.view rfl

end Infos
end Runs

end MainActivity
end Android
