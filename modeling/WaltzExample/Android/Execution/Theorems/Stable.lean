import WaltzExample.Android.Execution.Theorems.Answers

namespace Android.MainActivity

open Method (Keeps)

-- A property that deferred operations have no influence on.
structure Quiet (P : MainActivity → Prop) : Prop where
  enqueue : ∀ a op, op.addDialog? = none → P a → P (a.enqueue op)
  advance : ∀ a, P a → P a.advance
  dialogs : ∀ a dialogs, P a → P { a with dialogs := dialogs }
  attach  : ∀ a, P a → P (a.setMain <| MainFragment.onAttach.after a.mainFragment)
  view    : ∀ a, P a → P (a.setMain <| MainFragment.onViewCreated.after a.mainFragment)

-- The dialogs that callbacks open have no influence either, whether or not the activity is in the
-- foreground.
structure Stable (P : MainActivity → Prop) : Prop extends Quiet P where
  addDialog : ∀ a d, P a → P (a.enqueue <| .addDialog d)
  field     : ∀ a d, P a → P (a.assign d)

theorem keeps_commit_of {P : MainActivity → Prop} {op : FragmentManager.Op Content Ref}
    (h : ∀ a, P a → P (a.enqueue op)) : Keeps P (commit op) := by
  intro a ha
  cases hs : a.fm.stateSaved
  case false => exact Method.after_of_ok (run_commit hs) ▸ h _ ha
  case true  => rwa [Method.after_of_error <| run_commit_refused hs]

namespace Quiet

variable {P : MainActivity → Prop} {d : Ref} (h : Quiet P)
include h

theorem keeps_onDialog (m : Method Throwable MyDialog Unit) : Keeps P (onDialog d m) :=
  fun _ ha => after_onDialog m ▸ h.dialogs _ _ ha

theorem keeps_execNext : Keeps P execNext := by
  have ha : Keeps P <| onMainFragment MainFragment.onAttach :=
    fun _ ha => after_onMainFragment _ ▸ h.attach _ ha
  have hv : Keeps P <| onMainFragment MainFragment.onViewCreated :=
    fun _ ha => after_onMainFragment _ ▸ h.view _ ha
  -- The view is made at the end, whatever the operation was.
  have hj (c : Prop) [Decidable c] :
      Keeps P (if c then onMainFragment MainFragment.onViewCreated else pure ()) :=
    hv.ite <| .pure ()
  intro a hp
  rw [execNext, Method.after_bind_of_ok (EStateM.run_get _)]
  dsimp only
  rw [Method.after_bind_of_ok (EStateM.run_modify _ _)]
  suffices hk : Keeps P _ from hk _ <| h.advance a hp
  cases a.fm.pending.head?
  case none => exact hj _
  case some op =>
    cases op
    case addDialog => exact (h.keeps_onDialog _).bind fun _ => hj _
    case add c =>
      cases c
      case mainFragment => exact ha.bind fun _ => hj _
      case flow         => exact hj _
    all_goals exact hj _

theorem keeps_execPendingActions : Keeps P execPendingActions :=
  Keeps.get.bind fun _ => .forM (fun _ => h.keeps_execNext) _

theorem keeps_popBackStack : Keeps P popBackStack :=
  keeps_commit_of fun _ ha => h.enqueue _ _ rfl ha

theorem keeps_popBackStackImmediate : Keeps P popBackStackImmediate :=
  h.keeps_execPendingActions.bind fun _ => h.keeps_popBackStack.bind fun _ => h.keeps_execNext

theorem keeps_callListener_start (fragment : SdkFragment)
    (hs : ∀ a fragment, P a → P (a.start fragment)) :
    Keeps P (callListener <| startFragment fragment) := by
  refine Keeps.get.bind fun _ => .ite (Keeps.get.bind fun _ => Keeps.bind ?_ fun _ => ?_) <| .pure _
  case refine_1 => exact .modify fun _ ha => hs _ _ ha
  case refine_2 => exact keeps_commit_of fun _ ha => h.enqueue _ _ rfl ha

-- What is left are the events that have something to do with dialogs or with `MainFragment`.
theorem keeps_handle {ι : Type} [Gson ι] {e : Event ι}
    (hs : ∀ a fragment, P a → P (a.start fragment))
    (hc : ∀ c, e = .click c → Keeps P (handle e))
    (ha : ∀ q code list, e = .answer q code list → Keeps P (handle e))
    (hb : ∀ f c, e = .callback f c → Keeps P (handle e))
    (hd : ∀ d, e = .clickDismiss d → Keeps P (handle e)) : Keeps P (handle e) := by
  cases e
  case clickLogin            => exact h.keeps_callListener_start _ hs
  case clickStartTransaction => exact h.keeps_callListener_start _ hs
  case click c               => exact hc c rfl
  case answer q code list    => exact ha q code list rfl
  case callback f c          => exact hb f c rfl
  case execNext              => exact h.keeps_execNext
  case clickDismiss d        => exact hd d rfl
  case back                  => exact h.keeps_popBackStackImmediate

end Quiet

namespace Stable

variable {P : MainActivity → Prop} {d : Ref} (h : Stable P)
include h

theorem keeps_showDialog (code : WaltzCode) (infos : Option DDInfos) :
    Keeps P (showDialog code infos) := by
  refine Keeps.get.bind fun a => ?_
  cases a.mMyDialog
  case none =>
    refine Keeps.modifyGet (fun a ha => h.dialogs a _ ha) |>.bind fun _ => ?_
    refine Keeps.modify (fun _ ha => h.field _ _ ha) |>.bind fun _ => ?_
    exact keeps_commit_of fun _ ha => h.addDialog _ _ ha
  case some =>
    cases infos
    case none => exact .pure _
    case some => exact h.keeps_onDialog _

theorem keeps_onClickDismiss : Keeps P (onClickDismiss d) := by
  refine Keeps.bind ?_ fun _ => Keeps.get.bind fun a => ?_
  case refine_1 =>
    refine Keeps.get.bind fun _ => .ite (h.keeps_onDialog _ |>.bind fun _ => ?_) <| .pure _
    exact keeps_commit_of fun _ ha => h.enqueue _ _ rfl ha
  case refine_2 =>
    cases (a.dialog d).mListener
    case none => exact .pure _
    case some => exact h.keeps_popBackStack.bind fun _ => .modify fun _ ha => h.field _ _ ha

theorem keeps_handle {ι : Type} [Gson ι] {e : Event ι}
    (hs : ∀ a fragment, P a → P (a.start fragment))
    (hc : ∀ c, e = .click c → Keeps P (handle e))
    (ha : ∀ q code list, e = .answer q code list → Keeps P (handle e)) : Keeps P (handle e) := by
  refine h.toQuiet.keeps_handle hs hc ha ?_ ?_
  case refine_1 =>
    rintro _ c rfl
    simpa only [handle, c.onCallback_eq] using h.keeps_showDialog c.code c.infos
  case refine_2 =>
    rintro d rfl
    exact h.keeps_onClickDismiss

end Stable
end Android.MainActivity
