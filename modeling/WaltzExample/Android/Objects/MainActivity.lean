import WaltzExample.Heap.Basic
import WaltzExample.FragmentManager.Basic
import WaltzExample.Android.Objects.MyDialog
import WaltzExample.Android.Objects.MainFragment

namespace Android

-- What `setVisual` is given: two drawables by name, and a color.
structure Visual where
  image : String
  logo  : String
  color : Nat
  deriving DecidableEq

-- The fragments of the SDK that `MainActivity` starts, each with a callback that calls that
-- activity. One that the framework has restored is not given a callback: if it still has one, then
-- that calls the activity that it was made by, which has been destroyed.
inductive SdkFragment
  | logIn (visual : Visual)
  | transaction
  | restored
  deriving DecidableEq

-- A fragment of `R.id.main_content`. The fragments of the SDK are numbered in the order in which
-- they were started.
inductive Content
  | mainFragment
  | flow (f : Nat)
  deriving DecidableEq

-- An instance of `MainActivity` with the objects that it owns: `dialogs` are the `MyDialog` objects
-- it has made and `fragments` the fragments it has started.
structure MainActivity where
  mMyDialog    : Option Ref                  := none
  dialogs      : Heap MyDialog               := .empty { }
  mainFragment : MainFragment                := { }
  fragments    : List SdkFragment            := []
  fm           : FragmentManager Content Ref := { }

namespace MainActivity

def dialog (a : MainActivity) (d : Ref) : MyDialog :=
  a.dialogs.object d

def onDialog (d : Ref) (m : Method Throwable MyDialog Unit) : Method Throwable MainActivity Unit :=
  m.zoom (·.dialog d) fun o this => { this with dialogs := this.dialogs.set d o }

def onMainFragment (m : Method Throwable MainFragment Unit) : Method Throwable MainActivity Unit :=
  m.zoom mainFragment fun f this => { this with mainFragment := f }

def commit (op : FragmentManager.Op Content Ref) : Method Throwable MainActivity Unit :=
  Method.zoom fm (fun fm this => { this with fm := fm }) <|
    FragmentManager.enqueueAction .illegalState op

def popBackStack : Method Throwable MainActivity Unit :=
  commit .popBackStack

-- The next deferred operation, with the lifecycle calls that it brings about. Whenever
-- `MainFragment` gets into the container it gets a new view.
def execNext : Method Throwable MainActivity Unit := do
  let fm := (← get).fm
  modify ({ · with fm := fm.execNext })
  match fm.pending.head? with
  | some (.addDialog d)       => onDialog d MyDialog.create
  | some (.add .mainFragment) => onMainFragment MainFragment.onAttach
  | _                         => pure ()
  if .mainFragment ∉ fm.content ∧ .mainFragment ∈ fm.execNext.content then
    onMainFragment MainFragment.onViewCreated

def execPendingActions : Method Throwable MainActivity Unit := do
  (← get).fm.pending.forM fun _ => execNext

def popBackStackImmediate : Method Throwable MainActivity Unit := do
  execPendingActions
  popBackStack
  execNext

def DialogFragment.show (d : Ref) : Method Throwable MainActivity Unit :=
  commit (.addDialog d)

def DialogFragment.dismiss (d : Ref) : Method Throwable MainActivity Unit := do
  if !((← get).dialog d).mDismissed then
    onDialog d <| modify ({ · with mDismissed := true })
    commit (.removeDialog d)

-- What is kept of an activity in its `savedInstanceState` is what `super.onCreate` brings back.
def onCreate (savedInstanceState : Option (FragmentManager Content Ref)) :
    Method Throwable MainActivity Unit := do
  match savedInstanceState with
  | none    => commit (.add .mainFragment)
  | some fm => modify ({ · with fm := fm })

def startFragment (fragment : SdkFragment) : Method Throwable MainActivity Unit := do
  let f := (← get).fragments.length
  modify fun this => { this with fragments := this.fragments ++ [fragment] }
  commit (.replace (.flow f))

-- The custom visual of the login flow, in `Color.RED`.
def visual : Visual where
  image := "login_image"
  logo  := "login_logo"
  color := 0xFFFF0000

def onLogin : Method Throwable MainActivity Unit :=
  startFragment <| .logIn visual

def onStartTransaction : Method Throwable MainActivity Unit :=
  startFragment .transaction

def newDialog (dialog : MyDialog) : Method Throwable MainActivity Ref :=
  modifyGet fun this => (this.dialogs.next, { this with dialogs := this.dialogs.alloc dialog })

def showDialog (waltzCode : WaltzCode) (ddInfos : Option DDInfos) :
    Method Throwable MainActivity Unit := do
  match (← get).mMyDialog with
  | none =>
    let d ← newDialog <| MyDialog.with waltzCode |>.setListener .showDialog |>.setDDInfos ddInfos
    modify ({ · with mMyDialog := some d })
    DialogFragment.show d
  | some d =>
    match ddInfos with
    | some data => onDialog d <| MyDialog.refreshDDInfos data
    | none      => pure ()

-- `onDismiss` of the listener that `showDialog` makes.
def onDismiss : Method Throwable MainActivity Unit := do
  popBackStack
  modify ({ · with mMyDialog := none })

-- The click listener of a dialog's OK button.
def onClickDismiss (d : Ref) : Method Throwable MainActivity Unit := do
  DialogFragment.dismiss d
  match ((← get).dialog d).mListener with
  | some .showDialog => onDismiss
  | none             => pure ()

-- A call on the listener of `MainFragment`, which is this activity while the fragment is attached.
def callListener (m : Method Throwable MainActivity Unit) : Method Throwable MainActivity Unit := do
  if (← get).mainFragment.mListener then
    m

-- The click listeners of the two buttons of `MainFragment` that start a flow.
def onClickLogin : Method Throwable MainActivity Unit :=
  callListener onLogin

def onClickStartTransaction : Method Throwable MainActivity Unit :=
  callListener onStartTransaction

-- The callbacks that the fragments of the SDK are given: `onComplete` is that of `LogInCallback`,
-- and the other two are those of `TransactionCallback`.
inductive Callback
  | onComplete (waltzCode : WaltzCode)
  | onTransactionDone (waltzCode : WaltzCode)
  | onTransactionDoneWith (waltzCode : WaltzCode) (ddInfos : Option DDInfos)
  deriving DecidableEq

def onCallback : Callback → Method Throwable MainActivity Unit
  | .onComplete waltzCode                    => showDialog waltzCode none
  | .onTransactionDone waltzCode             => showDialog waltzCode none
  | .onTransactionDoneWith waltzCode ddInfos => showDialog waltzCode ddInfos

namespace Callback

def code : Callback → WaltzCode
  | onComplete c | onTransactionDone c | onTransactionDoneWith c _ => c

def infos : Callback → Option DDInfos
  | onComplete _ | onTransactionDone _ => none
  | onTransactionDoneWith _ i          => i

def OfFragment : Callback → SdkFragment → Prop
  | onComplete _, .logIn _              => True
  | onTransactionDone _, .transaction   => True
  | onTransactionDoneWith .., .transaction => True
  | _, _                                => False

instance : (c : Callback) → (f : SdkFragment) → Decidable (c.OfFragment f)
  | onComplete _, .logIn _ | onTransactionDone _, .transaction
  | onTransactionDoneWith .., .transaction => .isTrue trivial
  | onComplete _, .transaction | onTransactionDone _, .logIn _
  | onTransactionDoneWith .., .logIn _
  | onComplete _, .restored | onTransactionDone _, .restored
  | onTransactionDoneWith .., .restored    => .isFalse id

theorem onCallback_eq (c : Callback) : onCallback c = showDialog c.code c.infos := by
  cases c <;> rfl

end Callback
end MainActivity
end Android
