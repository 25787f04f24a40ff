import WaltzExample.Android.Execution.Basic

namespace Android

-- What `WaltzSDK.getUserInfos` returns. The fields may be null.
structure WaltzUserInfos where
  name  : Option String
  email : Option String
  uid   : Option String
  deriving DecidableEq

def WaltzUserInfos.text (infos : WaltzUserInfos) (jwt : Option String) : String :=
  "Name  : " ++ infos.name.getD "null" ++ "\n" ++
  "Email : " ++ infos.email.getD "null" ++ "\n" ++
  "Uid   : " ++ infos.uid.getD "null" ++ "\n" ++
  "Token : " ++ jwt.getD "null"

namespace MainFragment

-- The buttons that neither start a flow nor issue a request, with what their click handlers learn
-- from the system and from the SDK.
inductive Tap
  | cameraPermission (granted : Bool)
  | userInfos (infos : Option WaltzUserInfos) (jwt : Option String)
  | logout
  deriving DecidableEq

-- Asking for the permission and logging out are left to others.
def onTap : Tap → Method Throwable MainFragment Unit
  | .cameraPermission granted => if granted then makeToast "Camera Permission Granted" else pure ()
  | .userInfos infos jwt      => do
    let infos ← deref .infos infos
    let view ← deref .view (← get).mUserInfosResult
    modify ({ · with
      mUserInfosResult := some { view with text := infos.text jwt, visibility := .visible } })
  | .logout                   => pure ()

end MainFragment

-- What `MainFragment` has to report: an answer to one of its requests, or what a tap has brought.
inductive Report (ι : Type)
  | answer (q : Request) (code : WaltzCode) (invitationList : Option (List ι))
  | tap (t : MainFragment.Tap)

namespace Report

variable {ι : Type}

def toast : Report ι → Option String
  | answer .startGeofencing code _ | answer .stopGeofencing code _ =>
    some <| "Status code: " ++ code.toString
  | answer _ code _                                                =>
    some <| "Code: " ++ code.toString
  | tap (.cameraPermission true)                                   =>
    some "Camera Permission Granted"
  | tap _                                                          => none

-- The line about a list has its length, so there is none about a list that is null.
def listLine (name : String) (code : WaltzCode) (invitationList : Option (List ι)) :
    Option String :=
  let line := name ++ " - onInvitationsReceived() code : " ++ code.toString
  if code = .success then
    invitationList.map fun list => line ++ ", item count: " ++ toString list.length
  else
    some line

def line : Report ι → Option String
  | answer (.sendInvitation ..) code _        =>
    some <| "onInvitationSent() code : " ++ code.toString
  | answer .fetchMyGuests code list           => listLine "fetchMyGuests" code list
  | answer .fetchMyInvitations code list      => listLine "fetchMyInvitations" code list
  | answer .startGeofencing _ _ | answer .stopGeofencing _ _ | tap _ => none

def invitations [Gson ι] : Report ι → Option String
  | answer q code list => if q.Fetches ∧ code = .success then list.map Gson.toJson else none
  | tap _              => none

def userInfos : Report ι → Option String
  | tap (.userInfos infos jwt) => infos.map (·.text jwt)
  | _                          => none

end Report

namespace MainActivity

-- All that can happen to an activity that lives.
inductive Input (ι : Type)
  | event (e : Event ι)
  | tap (t : MainFragment.Tap)

variable {ι : Type} [Gson ι]

def Accepts (a : MainActivity) : Input ι → Prop
  | .event e => a.Enabled e
  | .tap _   => a.fm.stateSaved = false ∧ .mainFragment ∈ a.fm.content

instance (a : MainActivity) : (i : Input ι) → Decidable (a.Accepts i)
  | .event e => inferInstanceAs <| Decidable (a.Enabled e)
  | .tap _   => inferInstanceAs <| Decidable (_ ∧ _)

def accept : Input ι → Method Throwable MainActivity Unit
  | .event e => handle e
  | .tap t   => onMainFragment <| MainFragment.onTap t

def inputs (ι : Type) [Gson ι] : Machine MainActivity (Input ι) where
  Enabled  := Accepts
  next a i := (accept i).after a

-- Whether `MainFragment` gets into the container while the next `n` operations are executed.
def Returns (fm : FragmentManager Content Ref) (n : Nat) : Prop :=
  ∃ k < n, .mainFragment ∉ (FragmentManager.execNext^[k] fm).content ∧
    .mainFragment ∈ (FragmentManager.execNext^[k + 1] fm).content

instance (fm : FragmentManager Content Ref) (n : Nat) : Decidable (Returns fm n) :=
  inferInstanceAs <| Decidable (∃ k < n, _)

-- The events that make the views of `MainFragment` anew. The Back key executes all operations that
-- are pending, and then its own.
def Remakes (a : MainActivity) : Event ι → Prop
  | .execNext => Returns a.fm 1
  | .back     => Returns (a.fm.enqueue .popBackStack) (a.fm.pending.length + 1)
  | _         => False

instance (a : MainActivity) : (e : Event ι) → Decidable (a.Remakes e)
  | .execNext | .back => inferInstanceAs <| Decidable (Returns _ _)
  | .clickLogin | .clickStartTransaction | .click _ | .answer .. | .callback .. | .clickDismiss _ =>
    inferInstanceAs <| Decidable False

end MainActivity

-- What an observer has heard of `MainFragment`, the latest report first: all reports, and those
-- since the views of the results were made.
structure Reported (ι : Type) where
  all    : List (Report ι) := []
  recent : List (Report ι) := []

namespace MainActivity

variable {ι : Type} [Gson ι]

def report (a : MainActivity) : Input ι → Reported ι → Reported ι
  | .event (.answer q code list), g =>
    { all := .answer q code list :: g.all, recent := .answer q code list :: g.recent }
  | .tap t, g                       => { all := .tap t :: g.all, recent := .tap t :: g.recent }
  | .event e, g                     => if a.Remakes e then { g with recent := [] } else g

def reported (ι : Type) [Gson ι] : Machine (MainActivity × Reported ι) (Input ι) :=
  (inputs ι).record report

instance (s : MainActivity × Reported ι) (i : Input ι) : Decidable ((reported ι).Enabled s i) :=
  inferInstanceAs <| Decidable (s.1.Accepts i)

end MainActivity

namespace MainActivity

-- A list that can be seen on the screen.
def Sees (a : MainActivity) (list : String) : Prop :=
  .mainFragment ∈ a.fm.content ∧ a.mainFragment.mInvitationsResult = some { text := list }

end MainActivity

namespace MainFragment

-- The view of a result that a text has been reported for, or none since the view was made.
def result : Option String → TextView
  | some text => { text }
  | none      => { visibility := .gone }

variable {ι : Type} [Gson ι]

-- The two results that are shown are the latest ones among the given reports.
structure ShowsLatest (m : MainFragment) (recent : List (Report ι)) : Prop where
  invitations : m.mInvitationsResult = some (result (recent.filterMap Report.invitations).head?)
  userInfos   : m.mUserInfosResult = some (result (recent.filterMap Report.userInfos).head?)

-- All that is to be reported has been, in order, and each result is shown from its report until a
-- later one replaces it or the view is made anew.
structure Reports (m : MainFragment) (g : Reported ι) : Prop where
  toasts : m.toasts = g.all.filterMap Report.toast
  log    : m.log = g.all.filterMap Report.line
  latest : g.recent <+: g.all
  shows  : m.ShowsLatest g.recent

end MainFragment
end Android
