import WaltzExample.Android.Execution.Theorems.Methods

namespace Android

open Method (Keeps)

theorem keeps_deref {σ α : Type} {P : σ → Prop} (null : Null) :
    (x : Option α) → Keeps P (deref null x)
  | some a => .pure a
  | none   => fun _ h => h

namespace MainFragment

variable {ι : Type} [Gson ι] {m : MainFragment}

-- What an answer to a request of `m` leaves alone: the requests, and that the result's view exists.
structure Answered (m m' : MainFragment) : Prop where
  view     : m.mInvitationsResult ≠ none → m'.mInvitationsResult ≠ none
  requests : m'.requests = m.requests

theorem keeps_makeToast (text : String) : Keeps (Answered m) (makeToast text) := by
  intro m' h
  cases hc : m'.context
  case false => simpa [makeToast, Method.after, hc] using h
  case true  => simpa [makeToast, Method.after, hc] using ⟨h.view, h.requests⟩

theorem keeps_logD (text : String) : Keeps (Answered m) (logD text) :=
  .modify fun _ h => ⟨h.view, h.requests⟩

theorem keeps_onInvitationsReceived (name : String) (code : WaltzCode)
    (invitationList : Option (List ι)) :
    Keeps (Answered m) (onInvitationsReceived name code invitationList) := by
  refine keeps_makeToast _ |>.bind fun _ => ?_
  by_cases hc : code = .success
  case neg => simpa [hc] using keeps_logD _
  case pos =>
    simp only [hc, if_true]
    refine keeps_deref .list invitationList |>.bind fun _ => keeps_logD _ |>.bind fun _ => ?_
    refine Keeps.get.bind fun m' => keeps_deref .view m'.mInvitationsResult |>.bind fun _ => ?_
    exact .modify fun _ h => ⟨fun _ => nofun, h.requests⟩

theorem keeps_onAnswer (code : WaltzCode) (invitationList : Option (List ι)) (q : Request) :
    Keeps (Answered m) (onAnswer code invitationList q) := by
  cases q
  case startGeofencing    => exact keeps_makeToast _
  case stopGeofencing     => exact keeps_makeToast _
  case sendInvitation     => exact keeps_logD _ |>.bind fun _ => keeps_makeToast _
  case fetchMyGuests      => exact keeps_onInvitationsReceived _ _ invitationList
  case fetchMyInvitations => exact keeps_onInvitationsReceived _ _ invitationList

section Thrown

variable {code : WaltzCode} {invitationList : Option (List ι)} {q : Request}

theorem run_makeToast (text : String) (h : m.context = true) :
    (makeToast text).run m = .ok () { m with toasts := text :: m.toasts } := by
  simp [makeToast, h]

theorem run_makeToast_of_null (text : String) (h : m.context = false) :
    (makeToast text).run m = .error (.nullPointer .context) m := by
  simp [makeToast, h]

theorem thrown_onInvitationsReceived (name : String) (h : m.context = true)
    (hv : m.mInvitationsResult ≠ none) :
    (onInvitationsReceived name code invitationList).thrown m =
      if code = .success ∧ invitationList = none then some (.nullPointer .list) else none := by
  have ⟨_, hv⟩ := Option.ne_none_iff_exists'.mp hv
  by_cases hc : code = .success
  case neg => simp [onInvitationsReceived, Method.thrown, run_makeToast _ h, hc, logD]
  case pos =>
    cases invitationList <;>
      simp [onInvitationsReceived, Method.thrown, run_makeToast _ h, hc, logD, deref, hv]

-- Exactly what an answer throws: without a context there is nothing to show the toast with, and
-- the size of a list is read without looking whether there is one.
theorem thrown_onAnswer (hv : m.mInvitationsResult ≠ none) :
    (onAnswer code invitationList q).thrown m =
      if m.context = false then some (.nullPointer .context)
      else if q.Fetches ∧ code = .success ∧ invitationList = none then some (.nullPointer .list)
      else none := by
  cases hc : m.context
  case false =>
    cases q <;>
      simp [onAnswer, onTransactionDone, onInvitationSent, onInvitationsReceived, logD,
        Method.thrown, run_makeToast_of_null, hc]
  case true =>
    cases q
    case fetchMyGuests =>
      simp [onAnswer, thrown_onInvitationsReceived _ hc, hv, Request.Fetches]
    case fetchMyInvitations =>
      simp [onAnswer, thrown_onInvitationsReceived _ hc, hv, Request.Fetches]
    all_goals
      simp [onAnswer, onTransactionDone, onInvitationSent, logD, Method.thrown, run_makeToast, hc,
        Request.Fetches]

end Thrown
end MainFragment
end Android
