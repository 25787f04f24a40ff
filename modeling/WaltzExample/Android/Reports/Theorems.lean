import WaltzExample.Android.Reports.Views
import WaltzExample.Android.Execution.Theorems.Stable

namespace Android

open Method (Keeps)

variable {ι : Type} [Gson ι]

namespace MainFragment

variable {m m' : MainFragment} {g : Reported ι} {recent : List (Report ι)}

structure Attached (m : MainFragment) : Prop where
  context  : m.context = true
  listener : m.mListener = true

-- The text that a result shows once a report has come, if the report is about that result.
def shown (view : Option TextView) (text : Option String) : Option TextView :=
  view.map fun v => text.elim v ({ text := ·, visibility := .visible })

-- What a report makes of a fragment that is attached.
def told (m : MainFragment) (x : Report ι) : MainFragment :=
  { m with
    toasts             := x.toast.toList ++ m.toasts
    log                := x.line.toList ++ m.log
    mInvitationsResult := shown m.mInvitationsResult x.invitations
    mUserInfosResult   := shown m.mUserInfosResult x.userInfos }

theorem shown_none (view : Option TextView) : shown view none = view := by
  cases view <;> rfl

theorem told_of_nothing {x : Report ι} (ht : x.toast = none) (hl : x.line = none)
    (hi : x.invitations = none) (hu : x.userInfos = none) : m.told x = m := by
  simp [told, ht, hl, hi, hu, shown_none]

theorem after_onInvitationsReceived (name : String) {q : Request} {code : WaltzCode}
    {list : Option (List ι)} (h : m.context = true) (hq : q.Fetches)
    (ht : (Report.answer q code list).toast = some ("Code: " ++ code.toString))
    (hl : (Report.answer q code list).line = Report.listLine name code list) :
    (onInvitationsReceived name code list).after m = m.told (.answer q code list) := by
  by_cases hc : code = .success
  case neg =>
    simp [onInvitationsReceived, Method.after, run_makeToast _ h, hc, logD, told, ht, hl,
      Report.listLine, Report.invitations, Report.userInfos, shown_none]
  case pos =>
    subst hc
    cases list
    case none =>
      simp [onInvitationsReceived, Method.after, run_makeToast _ h, deref, told, ht, hl,
        Report.listLine, Report.invitations, Report.userInfos, shown_none]
    case some list =>
      cases hv : m.mInvitationsResult <;>
        simp [onInvitationsReceived, Method.after, run_makeToast _ h, deref, logD, told, ht, hl,
          Report.listLine, Report.invitations, Report.userInfos, hq, shown, hv]

theorem after_onAnswer (code : WaltzCode) (list : Option (List ι)) (q : Request)
    (h : m.context = true) : (onAnswer code list q).after m = m.told (.answer q code list) := by
  cases q
  case fetchMyGuests      => exact after_onInvitationsReceived _ h trivial rfl rfl
  case fetchMyInvitations => exact after_onInvitationsReceived _ h trivial rfl rfl
  all_goals
    simp [onAnswer, onTransactionDone, onInvitationSent, Method.after, run_makeToast, h, logD, told,
      Report.toast, Report.line, Report.invitations, Report.userInfos, shown_none, Request.Fetches]

theorem after_onTap (t : Tap) (h : m.context = true) :
    (onTap t).after m = m.told (.tap t : Report ι) := by
  cases t
  case logout => exact (told_of_nothing rfl rfl rfl rfl).symm
  case cameraPermission granted =>
    cases granted
    case false => exact (told_of_nothing rfl rfl rfl rfl).symm
    case true  =>
      simp [onTap, Method.after, run_makeToast, h, told, Report.toast, Report.line,
        Report.invitations, Report.userInfos, shown_none]
  case userInfos infos jwt =>
    cases infos
    case none       => exact (told_of_nothing rfl rfl rfl rfl).symm
    case some infos =>
      cases hv : m.mUserInfosResult
      case none =>
        cases m
        simp_all [onTap, Method.after, deref, told, Report.toast, Report.line, Report.invitations,
          shown]
      case some =>
        simp [onTap, Method.after, deref, hv, told, Report.toast, Report.line, Report.invitations,
          Report.userInfos, shown]

theorem ShowsLatest.told (h : m.ShowsLatest recent) (x : Report ι) :
    (m.told x).ShowsLatest (x :: recent) := by
  have hs {f : Report ι → Option String} {view : Option TextView}
      (hv : view = some (result (recent.filterMap f).head?)) :
      shown view (f x) = some (result ((x :: recent).filterMap f).head?) := by
    subst hv
    cases hf : f x
    case none      => simp [shown_none, hf]
    case some text => simp [shown, hf, result]
  exact ⟨hs h.invitations, hs h.userInfos⟩

theorem Reports.told (h : m.Reports g) (x : Report ι) :
    (m.told x).Reports { all := x :: g.all, recent := x :: g.recent } where
  toasts := by cases ht : x.toast <;> simp [MainFragment.told, ht, h.toasts]
  log    := by cases hl : x.line <;> simp [MainFragment.told, hl, h.log]
  latest := List.cons_prefix_cons.mpr ⟨rfl, h.latest⟩
  shows  := h.shows.told x

theorem showsLatest_congr (h : m'.results = m.results) :
    m'.ShowsLatest recent ↔ m.ShowsLatest recent := by
  have ⟨hi, hu⟩ := Prod.mk.inj h
  exact ⟨fun h => ⟨hi ▸ h.invitations, hu ▸ h.userInfos⟩,
    fun h => ⟨hi ▸ h.invitations, hu ▸ h.userInfos⟩⟩

theorem showsLatest_nil (h : m.results = unreported) : m.ShowsLatest ([] : List (Report ι)) :=
  have ⟨hi, hu⟩ := Prod.mk.inj h
  ⟨hi, hu⟩

-- As long as there is nothing to report, there is no toast and no line in the log.
structure Untold (m m' : MainFragment) : Prop where
  toasts   : m'.toasts = m.toasts
  log      : m'.log = m.log
  attached : m.Attached → m'.Attached

theorem Untold.refl (m : MainFragment) : Untold m m :=
  ⟨rfl, rfl, id⟩

end MainFragment

namespace MainActivity

open MainFragment (Untold)

variable {a : MainActivity} {s s' : MainActivity × Reported ι}

theorem stable_untold (m : MainFragment) : Stable fun a => Untold m a.mainFragment where
  enqueue _ _ _ h := h
  advance _ h     := h
  dialogs _ _ h   := h
  addDialog _ _ h := h
  field _ _ h     := h
  attach _ h      := ⟨h.toasts, h.log, fun _ => ⟨rfl, rfl⟩⟩
  view _ h        :=
    have ha h' := h.attached h'
    ⟨h.toasts, h.log, fun h' => ⟨(ha h').context, (ha h').listener⟩⟩

theorem untold_handle {e : Event ι} (he : ∀ q code list, e ≠ .answer q code list) :
    Untold a.mainFragment ((handle e).after a).mainFragment := by
  refine (stable_untold a.mainFragment).keeps_handle (fun _ _ h => h) ?_ ?_ a <| .refl _
  case refine_1 =>
    rintro c rfl a' h
    simp only [handle, after_onMainFragment]
    refine ⟨h.toasts, h.log, fun h' => ?_⟩
    have ha := h.attached h'
    exact ⟨ha.context, ha.listener⟩
  case refine_2 => exact fun q code list hq => absurd hq <| he q code list

theorem main_answer (q : Request) (code : WaltzCode) (list : Option (List ι))
    (h : a.mainFragment.Attached) : ((handle <| .answer q code list).after a).mainFragment =
      a.mainFragment.told (.answer q code list) := by
  rw [handle, after_onMainFragment, MainFragment.after_onAnswer _ _ _ h.context]
  rfl

theorem attached_handle (h : a.mainFragment.Attached) (e : Event ι) :
    ((handle e).after a).mainFragment.Attached := by
  by_cases he : ∃ q code list, e = .answer q code list
  case pos =>
    obtain ⟨q, code, list, rfl⟩ := he
    exact main_answer q code list h ▸ ⟨h.context, h.listener⟩
  case neg => exact untold_handle (fun q code list hq => he ⟨q, code, list, hq⟩) |>.attached h

theorem main_tap (t : MainFragment.Tap) (h : a.mainFragment.Attached) :
    ((accept (.tap t : Input ι)).after a).mainFragment =
      a.mainFragment.told (.tap t : Report ι) := by
  rw [accept, after_onMainFragment, MainFragment.after_onTap (ι := ι) t h.context]
  rfl

-- What an input is to those who listen: a report, or something that may make new views.
inductive Heard (a : MainActivity) : Input ι → Prop
  | told {i : Input ι} (x : Report ι) :
    (((accept i).after a).mainFragment = a.mainFragment.told x) →
    (((accept i).after a).fm = a.fm) →
    (∀ g, report a i g = { all := x :: g.all, recent := x :: g.recent }) → Heard a i
  | event {e : Event ι} :
    Untold a.mainFragment ((handle e).after a).mainFragment →
    a.Renewed e ((handle e).after a) →
    (∀ g, report a (.event e) g = if a.Remakes e then { g with recent := [] } else g) →
    Heard a (.event e)

theorem Sound.heard (h : a.Sound) (ha : a.mainFragment.Attached) {i : Input ι} (hi : a.Accepts i) :
    a.Heard i := by
  cases i
  case tap t =>
    have hf : ((MainActivity.accept (ι := ι) <| .tap t).after a).fm = a.fm :=
      after_onMainFragment (a := a) _ ▸ rfl
    exact .told (.tap t) (main_tap t ha) hf fun _ => rfl
  case event e =>
    by_cases he : ∃ q code list, e = .answer q code list
    case pos =>
      obtain ⟨q, code, list, rfl⟩ := he
      have hf : ((MainActivity.accept <| .event <| .answer q code list).after a).fm = a.fm :=
        after_onMainFragment (a := a) _ ▸ rfl
      exact .told _ (main_answer q code list ha) hf fun _ => rfl
    case neg =>
      have he q code list (hq : e = .answer q code list) := he ⟨q, code, list, hq⟩
      refine .event (untold_handle he) (h.renewed hi he) fun g => ?_
      cases e
      case answer => exact absurd rfl <| he _ _ _
      all_goals rfl

theorem Sound.accept {i : Input ι} (h : a.Sound) (hi : a.Accepts i) :
    ((MainActivity.accept i).after a).Sound := by
  cases i
  case event => exact h.next hi
  case tap   => exact after_onMainFragment (a := a) _ ▸ h.setMain _

-- An activity in the foreground.
structure Listening (a : MainActivity) : Prop where
  sound    : a.Sound
  attached : a.mainFragment.Attached

theorem Listening.next {i : Input ι} (h : a.Listening) (hi : a.Accepts i) :
    ((accept i).after a).Listening := by
  refine ⟨h.sound.accept hi, ?_⟩
  cases h.sound.heard h.attached hi
  case told hm _ _ => exact hm ▸ ⟨h.attached.context, h.attached.listener⟩
  case event hu _ _ => exact hu.attached h.attached

theorem attached_launched : launched.mainFragment.Attached :=
  ⟨rfl, rfl⟩

theorem listening_launched : launched.Listening :=
  ⟨fresh_launched.sound, attached_launched⟩

-- What an input is about is reported, and nothing else is.
theorem Listening.reports {g : Reported ι} {i : Input ι} (h : a.Listening)
    (hr : a.mainFragment.Reports g) (hi : a.Accepts i) :
    ((accept i).after a).mainFragment.Reports (report a i g) := by
  cases h.sound.heard h.attached hi
  case told x hm _ hg => exact hm ▸ hg g ▸ hr.told x
  case event hu hv hg =>
    rw [hg]
    split
    case isTrue hm =>
      exact ⟨hu.toasts ▸ hr.toasts, hu.log ▸ hr.log, List.nil_prefix,
        MainFragment.showsLatest_nil <| hv.made hm⟩
    case isFalse hm =>
      exact ⟨hu.toasts ▸ hr.toasts, hu.log ▸ hr.log, hr.latest,
        (MainFragment.showsLatest_congr <| hv.kept hm).mpr hr.shows⟩

-- While `MainFragment` is on the screen the results are those of the reports since it got there.
theorem Listening.showsLatest {g : Reported ι} {i : Input ι} (h : a.Listening)
    (hs : .mainFragment ∈ a.fm.content → a.mainFragment.ShowsLatest g.recent) (hi : a.Accepts i)
    (hc : .mainFragment ∈ ((accept i).after a).fm.content) :
    ((accept i).after a).mainFragment.ShowsLatest (report a i g).recent := by
  cases h.sound.heard h.attached hi
  case told x hm hf hg => exact hm ▸ hg g ▸ (hs <| hf ▸ hc).told x
  case event hu hv hg =>
    rw [hg]
    split
    case isTrue hm => exact MainFragment.showsLatest_nil <| hv.made hm
    case isFalse hm =>
      have hc := (hv.content hc).resolve_left hm
      exact (MainFragment.showsLatest_congr <| hv.kept hm).mpr <| hs hc

section Runs

variable (r : (reported ι).Run (launched, {}) s)
include r

theorem listening_reports_of_run : s.1.Listening ∧ s.1.mainFragment.Reports s.2 :=
  r.invariant (I := fun s => s.1.Listening ∧ s.1.mainFragment.Reports s.2)
    (fun _ _ ⟨h, hr⟩ hi => ⟨h.next hi, h.reports hr hi⟩)
    ⟨listening_launched, rfl, rfl, List.prefix_rfl, rfl, rfl⟩

-- Every answer and every tap is reported on the screen and in the log, once and in order, and what
-- the two results show is the latest one that has been reported since their views were made.
theorem reports_of_run : s.1.mainFragment.Reports s.2 :=
  listening_reports_of_run r |>.right

end Runs

section Events

private abbrev asked : List (Input Empty) := [
  .event <| .click .myGuests,
  .event .clickLogin,
  .event .execNext
]

private abbrev guests : Event Empty :=
  .answer .fetchMyGuests .success <| some []

end Events
end MainActivity
end Android
