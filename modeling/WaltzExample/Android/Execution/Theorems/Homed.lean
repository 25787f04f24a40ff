import WaltzExample.Android.Execution.Theorems.Answers

namespace Android

open Method (Keeps)

namespace MainActivity

-- The view of the result exists whenever `MainFragment` is in the container, and from its first
-- request on. This does not depend on whether the activity is in the foreground.
structure Homed (a : MainActivity) : Prop where
  content  : .mainFragment ∈ a.fm.content → a.mainFragment.mInvitationsResult ≠ none
  requests : a.mainFragment.requests ≠ [] → a.mainFragment.mInvitationsResult ≠ none

variable {a a' : MainActivity} {d : Ref}

theorem Homed.of_eq (h : a.Homed) (hm : a'.mainFragment = a.mainFragment)
    (hc : a'.fm.content = a.fm.content) : a'.Homed :=
  ⟨hm ▸ hc ▸ h.content, hm ▸ h.requests⟩

theorem keeps_commit (op : FragmentManager.Op Content Ref) : Keeps Homed (commit op) := by
  intro a h
  cases hs : a.fm.stateSaved
  case false => exact Method.after_of_ok (run_commit hs) ▸ h.of_eq rfl rfl
  case true  => rwa [Method.after_of_error <| run_commit_refused hs]

theorem keeps_onDialog (m : Method Throwable MyDialog Unit) : Keeps Homed (onDialog d m) :=
  fun _ h => after_onDialog m ▸ h.of_eq rfl rfl

theorem Homed.advance (h : a.Homed) : (a.advance.setMain a.nextMain).Homed := by
  by_cases hc : .mainFragment ∉ a.fm.content ∧ .mainFragment ∈ a.fm.execNext.content
  case pos =>
    have hv : a.nextMain.mInvitationsResult ≠ none := by
      simp [nextMain, hc, MainFragment.onViewCreated, Method.after]
    exact ⟨fun _ => hv, fun _ => hv⟩
  case neg =>
    have hm : a.nextMain.mInvitationsResult = a.mainFragment.mInvitationsResult ∧
        a.nextMain.requests = a.mainFragment.requests := by
      simp only [nextMain, if_neg hc]
      split <;> simp [MainFragment.onAttach, Method.after]
    refine ⟨fun hc' => ?_, fun hr => ?_⟩
    case refine_1 =>
      have hn : .mainFragment ∈ a.fm.content := by
        by_contra hn
        exact hc ⟨hn, hc'⟩
      exact (congrArg (· ≠ none) hm.left).mpr <| h.content hn
    case refine_2 =>
      have hn : a.mainFragment.requests ≠ [] := hm.right ▸ hr
      exact (congrArg (· ≠ none) hm.left).mpr <| h.requests hn

theorem keeps_execNext : Keeps Homed execNext := by
  intro a h
  by_cases hp : ∃ d, a.fm.pending.head? = some (.addDialog d)
  case neg => exact Method.after_of_ok (run_execNext <| not_exists.mp hp) ▸ h.advance
  case pos =>
    have ⟨d, hp⟩ := hp
    have ⟨_, hp⟩ := List.head?_eq_some_iff.mp hp
    have hc : a.fm.execNext.content = a.fm.content := by
      rw [FragmentManager.execNext_of_cons hp]
      rfl
    exact after_execNext_addDialog hp ▸ h.of_eq rfl hc

theorem keeps_execPendingActions : Keeps Homed execPendingActions :=
  Keeps.get.bind fun _ => .forM (fun _ => keeps_execNext) _

theorem keeps_popBackStackImmediate : Keeps Homed popBackStackImmediate :=
  keeps_execPendingActions.bind fun _ => (keeps_commit _).bind fun _ => keeps_execNext

theorem keeps_startFragment (fragment : SdkFragment) : Keeps Homed (startFragment fragment) :=
  Keeps.get.bind fun _ => Keeps.modify (fun _ h => h.of_eq rfl rfl) |>.bind fun _ => keeps_commit _

theorem keeps_callListener {m : Method Throwable MainActivity Unit} (hm : Keeps Homed m) :
    Keeps Homed (callListener m) :=
  Keeps.get.bind fun _ => .ite hm <| .pure _

theorem keeps_showDialog (code : WaltzCode) (infos : Option DDInfos) :
    Keeps Homed (showDialog code infos) := by
  refine Keeps.get.bind fun a => ?_
  cases a.mMyDialog
  case none =>
    refine Keeps.modifyGet (fun _ h => h.of_eq rfl rfl) |>.bind fun _ => ?_
    exact Keeps.modify (fun _ h => h.of_eq rfl rfl) |>.bind fun _ => keeps_commit _
  case some =>
    cases infos
    case none => exact .pure _
    case some => exact keeps_onDialog _

theorem keeps_onClickDismiss : Keeps Homed (onClickDismiss d) := by
  refine Keeps.bind ?_ fun _ => Keeps.get.bind fun a => ?_
  case refine_1 =>
    refine Keeps.get.bind fun _ => .ite ?_ <| .pure _
    exact (keeps_onDialog _).bind fun _ => keeps_commit _
  case refine_2 =>
    cases (a.dialog d).mListener
    case none => exact .pure _
    case some =>
      exact (keeps_commit _).bind fun _ => .modify fun _ h => h.of_eq rfl rfl

theorem Homed.answer {m : Method Throwable MainFragment Unit} (h : a.Homed)
    (hm : Keeps (MainFragment.Answered a.mainFragment) m) : ((onMainFragment m).after a).Homed := by
  have ha := hm a.mainFragment ⟨id, rfl⟩
  rw [after_onMainFragment]
  exact ⟨ha.view ∘ h.content, fun hr => ha.view <| h.requests <| ha.requests ▸ hr⟩

theorem Homed.next {ι : Type} [Gson ι] {e : Event ι} (h : a.Homed) (he : a.Enabled e) :
    ((handle e).after a).Homed := by
  cases e
  case clickLogin            => exact keeps_callListener (keeps_startFragment _) a h
  case clickStartTransaction => exact keeps_callListener (keeps_startFragment _) a h
  case click c =>
    have hv := h.content he.right
    exact after_onMainFragment _ ▸ ⟨fun _ => hv, fun _ => hv⟩
  case answer       => exact h.answer <| MainFragment.keeps_onAnswer _ _ _
  case callback _ c =>
    simp only [handle, c.onCallback_eq]
    exact keeps_showDialog _ _ a h
  case execNext     => exact keeps_execNext a h
  case clickDismiss => exact keeps_onClickDismiss a h
  case back         => exact keeps_popBackStackImmediate a h

end MainActivity
end Android
