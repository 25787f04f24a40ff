import WaltzExample.Method.Theorems
import WaltzExample.FragmentManager.Theorems
import WaltzExample.Android.Objects.Result
import WaltzExample.Android.Execution.Basic

namespace Android

open FragmentManager (Op)

namespace MyDialog

variable {o : MyDialog} {data : DDInfos} {view : TextView} {code : WaltzCode}

def dismissed (o : MyDialog) : MyDialog :=
  { o with mDismissed := true }

-- The dialog once infos have been written to its view.
def written (o : MyDialog) (data : DDInfos) : MyDialog :=
  { o with mDDInfos := some { text := data.text } }

-- The dialog once its view exists.
def created (o : MyDialog) (r : Result) : MyDialog :=
  { o with
    mTitle      := r.title
    mDDInfos    := r.ddInfos
    mDismiss    := some ⟨true⟩
    mCancelable := false }

theorem run_writeDDInfos (h : o.mDDInfos = some view) :
    (writeDDInfos data).run o = .ok () (o.written data) := by
  simp [writeDDInfos, deref, h, written]

theorem run_writeDDInfos_of_null (h : o.mDDInfos = none) :
    (writeDDInfos data).run o = .error (.nullPointer .view) o := by
  simp [writeDDInfos, deref, h]

theorem run_create (h : o.mCode = some code) :
    create.run o = .ok () (o.created ⟨code, o.mData⟩) := by
  cases hd : o.mData
  case none =>
    simp [create, onViewCreated, onCreateView, onStart, deref, created, h, hd, Result.title,
      Result.ddInfos_of_none]
  case some data =>
    by_cases hc : code = .accessGranted
    case pos =>
      simp [create, onViewCreated, onCreateView, onStart, deref, created, h, hd, hc, Result.title,
        Result.ddInfos_of_granted, writeDDInfos]
    case neg =>
      simp [create, onViewCreated, onCreateView, onStart, deref, created, h, hd, hc, Result.title,
        Result.ddInfos_of_not_granted]

theorem thrown_create_of_null (h : o.mCode = none) :
    create.thrown o = some (.nullPointer .code) := by
  simp [create, onViewCreated, onCreateView, Method.thrown, deref, h]

theorem run_refreshDDInfos (h : o.mCode = some .accessGranted) (hv : o.mDDInfos = some view) :
    (refreshDDInfos data).run o = .ok () (o.written data) := by
  simp [refreshDDInfos, h, run_writeDDInfos hv]

theorem run_refreshDDInfos_of_null (h : o.mCode = some .accessGranted) (hv : o.mDDInfos = none) :
    (refreshDDInfos data).run o = .error (.nullPointer .view) o := by
  simp [refreshDDInfos, h, run_writeDDInfos_of_null hv]

theorem run_refreshDDInfos_of_not_granted (h : o.mCode ≠ some .accessGranted) :
    (refreshDDInfos data).run o = .ok () o := by
  simp [refreshDDInfos, h]

end MyDialog

namespace MainActivity

variable {a : MainActivity} {d d' : Ref} {o : MyDialog} {e : Throwable} {op : Op Content Ref}

section Updates

def setDialog (a : MainActivity) (d : Ref) (o : MyDialog) : MainActivity :=
  { a with dialogs := a.dialogs.set d o }

def alloc (a : MainActivity) (o : MyDialog) : MainActivity :=
  { a with dialogs := a.dialogs.alloc o }

def assign (a : MainActivity) (d : Option Ref) : MainActivity :=
  { a with mMyDialog := d }

def enqueue (a : MainActivity) (op : Op Content Ref) : MainActivity :=
  { a with fm := a.fm.enqueue op }

def advance (a : MainActivity) : MainActivity :=
  { a with fm := a.fm.execNext }

def setMain (a : MainActivity) (m : MainFragment) : MainActivity :=
  { a with mainFragment := m }

def start (a : MainActivity) (fragment : SdkFragment) : MainActivity :=
  { a with fragments := a.fragments ++ [fragment] }

variable (a d o op) (r : Option Ref) (m : MainFragment) (fragment : SdkFragment)

@[simp] theorem fm_setDialog : (a.setDialog d o).fm = a.fm := rfl
@[simp] theorem fm_alloc : (a.alloc o).fm = a.fm := rfl
@[simp] theorem fm_assign : (a.assign r).fm = a.fm := rfl
@[simp] theorem fm_enqueue : (a.enqueue op).fm = a.fm.enqueue op := rfl
@[simp] theorem fm_advance : a.advance.fm = a.fm.execNext := rfl
@[simp] theorem fm_setMain : (a.setMain m).fm = a.fm := rfl
@[simp] theorem fm_start : (a.start fragment).fm = a.fm := rfl

@[simp] theorem mMyDialog_setDialog : (a.setDialog d o).mMyDialog = a.mMyDialog := rfl
@[simp] theorem mMyDialog_alloc : (a.alloc o).mMyDialog = a.mMyDialog := rfl
@[simp] theorem mMyDialog_assign : (a.assign r).mMyDialog = r := rfl
@[simp] theorem mMyDialog_enqueue : (a.enqueue op).mMyDialog = a.mMyDialog := rfl
@[simp] theorem mMyDialog_advance : a.advance.mMyDialog = a.mMyDialog := rfl
@[simp] theorem mMyDialog_setMain : (a.setMain m).mMyDialog = a.mMyDialog := rfl
@[simp] theorem mMyDialog_start : (a.start fragment).mMyDialog = a.mMyDialog := rfl

@[simp] theorem next_setDialog : (a.setDialog d o).dialogs.next = a.dialogs.next := rfl
@[simp] theorem next_alloc : (a.alloc o).dialogs.next = a.dialogs.next + 1 := rfl
@[simp] theorem dialogs_assign : (a.assign r).dialogs = a.dialogs := rfl
@[simp] theorem dialogs_enqueue : (a.enqueue op).dialogs = a.dialogs := rfl
@[simp] theorem dialogs_advance : a.advance.dialogs = a.dialogs := rfl
@[simp] theorem dialogs_setMain : (a.setMain m).dialogs = a.dialogs := rfl
@[simp] theorem dialogs_start : (a.start fragment).dialogs = a.dialogs := rfl

@[simp] theorem dialog_assign : (a.assign r).dialog d = a.dialog d := rfl
@[simp] theorem dialog_enqueue : (a.enqueue op).dialog d = a.dialog d := rfl
@[simp] theorem dialog_advance : a.advance.dialog d = a.dialog d := rfl
@[simp] theorem dialog_setMain : (a.setMain m).dialog d = a.dialog d := rfl
@[simp] theorem dialog_start : (a.start fragment).dialog d = a.dialog d := rfl

@[simp]
theorem dialog_setDialog_self : (a.setDialog d o).dialog d = o :=
  a.dialogs.object_set_self ..

@[simp]
theorem dialog_alloc_next : (a.alloc o).dialog a.dialogs.next = o :=
  a.dialogs.object_alloc_next ..

variable {a d}

@[simp]
theorem dialog_setDialog_of_ne (h : d' ≠ d) : (a.setDialog d o).dialog d' = a.dialog d' :=
  a.dialogs.object_set_of_ne _ h

theorem dialog_alloc_of_lt (h : d < a.dialogs.next) : (a.alloc o).dialog d = a.dialog d :=
  a.dialogs.object_alloc_of_lt _ h

@[simp]
theorem setDialog_dialog : a.setDialog d (a.dialog d) = a := by
  simp [setDialog, dialog]

-- What is true of each dialog `d'` with `S d'` stays true when `d` is set to an object of which it
-- is true.
theorem forall_setDialog {S : Ref → Prop} {P : MyDialog → Prop} (h : ∀ d', S d' → P (a.dialog d'))
    (ho : S d → P (a.dialog d) → P o) (d' : Ref) (hs : S d') : P ((a.setDialog d o).dialog d') := by
  by_cases hd : d' = d
  case pos => subst hd; simpa using ho hs (h d' hs)
  case neg => simpa [hd] using h d' hs

theorem forall_alloc {S : Ref → Prop} {P : MyDialog → Prop} (h : ∀ d', S d' → P (a.dialog d'))
    (hn : ∀ d', S d' → d' < a.dialogs.next) (d' : Ref) (hs : S d') : P ((a.alloc o).dialog d') := by
  rw [dialog_alloc_of_lt o <| hn d' hs]
  exact h d' hs

end Updates

theorem after_onDialog (m : Method Throwable MyDialog Unit) :
    (onDialog d m).after a = a.setDialog d (m.after <| a.dialog d) := by
  simp [onDialog, setDialog]

theorem after_onMainFragment (m : Method Throwable MainFragment Unit) :
    (onMainFragment m).after a = a.setMain (m.after a.mainFragment) := by
  simp [onMainFragment, setMain]

theorem run_onDialog {m : Method Throwable MyDialog Unit} (h : m.run (a.dialog d) = .ok () o) :
    (onDialog d m).run a = .ok () (a.setDialog d o) := by
  simp [onDialog, Method.run_zoom, h, setDialog]

theorem run_onDialog_of_error {m : Method Throwable MyDialog Unit}
    (h : m.run (a.dialog d) = .error e o) :
    (onDialog d m).run a = .error e (a.setDialog d o) := by
  simp [onDialog, Method.run_zoom, h, setDialog]

theorem run_commit (h : a.fm.stateSaved = false) : (commit op).run a = .ok () (a.enqueue op) := by
  simp [commit, Method.run_zoom, FragmentManager.run_enqueueAction _ h, enqueue]

theorem run_commit_refused (h : a.fm.stateSaved = true) :
    (commit op).run a = .error .illegalState a := by
  simp [commit, Method.run_zoom, FragmentManager.run_enqueueAction_refused _ h]

section ShowDialog

variable {code : WaltzCode} {infos : Option DDInfos}

-- The dialog that `showDialog` makes.
def opened (code : WaltzCode) (infos : Option DDInfos) : MyDialog where
  mCode     := code
  mData     := infos
  mListener := some .showDialog

theorem run_showDialog_open (h : a.mMyDialog = none) (hs : a.fm.stateSaved = false) :
    (showDialog code infos).run a = .ok () (
      a.alloc (opened code infos) |>.assign a.dialogs.next |>.enqueue (.addDialog a.dialogs.next)
    ) := by
  simp [showDialog, h, newDialog, DialogFragment.show, run_commit, hs]
  rfl

-- The field is assigned before the operation that is refused.
theorem run_showDialog_refused (code : WaltzCode) (infos : Option DDInfos)
    (h : a.mMyDialog = none) (hs : a.fm.stateSaved = true) :
    (showDialog code infos).run a = .error .illegalState (
      a.alloc (opened code infos) |>.assign a.dialogs.next
    ) := by
  simp [showDialog, h, newDialog, DialogFragment.show, run_commit_refused, hs]
  rfl

theorem run_showDialog_of_null (h : a.mMyDialog = some d) :
    (showDialog code none).run a = .ok () a := by
  simp [showDialog, h]

theorem run_showDialog_refresh (code : WaltzCode) (data : DDInfos) (h : a.mMyDialog = some d) :
    (showDialog code (some data)).run a =
      (onDialog d <| MyDialog.refreshDDInfos data).run a := by
  simp [showDialog, h]

end ShowDialog

section Dismiss

variable (hs : a.fm.stateSaved = false)
include hs

theorem run_dismiss (h : (a.dialog d).mDismissed = false) :
    (DialogFragment.dismiss d).run a = .ok () (
      a.setDialog d (a.dialog d).dismissed |>.enqueue (.removeDialog d)
    ) := by
  have hd : (onDialog d <| modify ({ · with mDismissed := true })).run a =
      .ok () (a.setDialog d (a.dialog d).dismissed) := run_onDialog rfl
  simp only [DialogFragment.dismiss, EStateM.run_bind, EStateM.run_get, h, Bool.not_false, if_true,
    hd]
  exact run_commit hs

theorem run_onDismiss :
    onDismiss.run a = .ok () (a.enqueue .popBackStack |>.assign none) := by
  simp [onDismiss, popBackStack, run_commit hs]
  rfl

theorem run_onClickDismiss (h : (a.dialog d).mDismissed = false)
    (hl : (a.dialog d).mListener = some .showDialog) :
    (onClickDismiss d).run a = .ok () (
      a.setDialog d (a.dialog d).dismissed
        |>.enqueue (.removeDialog d) |>.enqueue .popBackStack |>.assign none
    ) := by
  have hs' : (a.setDialog d (a.dialog d).dismissed |>.enqueue (.removeDialog d)).fm.stateSaved =
      false := hs
  have hl' : (a.dialog d).dismissed.mListener = some .showDialog := hl
  simp [onClickDismiss, run_dismiss hs h, hl', run_onDismiss hs']

theorem run_onClickDismiss_of_dismissed (h : (a.dialog d).mDismissed = true)
    (hl : (a.dialog d).mListener = some .showDialog) :
    (onClickDismiss d).run a = .ok () (a.enqueue .popBackStack |>.assign none) := by
  simp [onClickDismiss, DialogFragment.dismiss, h, hl, run_onDismiss hs]

end Dismiss

theorem run_startFragment (fragment : SdkFragment) (hs : a.fm.stateSaved = false) :
    (startFragment fragment).run a = .ok () (
      a.start fragment |>.enqueue (.replace (.flow a.fragments.length))
    ) := by
  have hs' : (a.start fragment).fm.stateSaved = false := hs
  simp only [startFragment, EStateM.run_bind, EStateM.run_get, EStateM.run_modify]
  exact run_commit hs'

section ExecNext

variable {code : WaltzCode} {ops : List (Op Content Ref)}

theorem run_execNext_addDialog (h : a.fm.pending = .addDialog d :: ops)
    (hc : (a.dialog d).mCode = some code) :
    execNext.run a = .ok () (
      a.advance.setDialog d <| (a.dialog d).created ⟨code, (a.dialog d).mData⟩
    ) := by
  have hr : (onDialog d MyDialog.create).run a.advance = _ := run_onDialog (MyDialog.run_create hc)
  have hf : a.fm.execNext.content = a.fm.content := by
    rw [FragmentManager.execNext_of_cons h]
    rfl
  rw [advance] at hr
  simp [execNext, h, hr, hf]
  rfl

-- Whether or not the dialog gets its view, nothing else than the dialog changes.
theorem after_execNext_addDialog (h : a.fm.pending = .addDialog d :: ops) :
    execNext.after a = a.advance.setDialog d (MyDialog.create.after <| a.dialog d) := by
  have hf : a.fm.execNext.content = a.fm.content := by
    rw [FragmentManager.execNext_of_cons h]
    rfl
  rw [← dialog_advance, ← after_onDialog]
  cases hr : (onDialog d MyDialog.create).run a.advance
  all_goals
    rw [advance] at hr
    simp [execNext, Method.after, advance, h, hr, hf]

-- What an operation makes of `MainFragment`.
def nextMain (a : MainActivity) : MainFragment :=
  let m :=
    if a.fm.pending.head? = some (.add .mainFragment) then
      MainFragment.onAttach.after a.mainFragment
    else
      a.mainFragment
  if .mainFragment ∉ a.fm.content ∧ .mainFragment ∈ a.fm.execNext.content then
    MainFragment.onViewCreated.after m
  else
    m

theorem run_execNext (h : ∀ d, a.fm.pending.head? ≠ some (.addDialog d)) :
    execNext.run a = .ok () (a.advance.setMain a.nextMain) := by
  cases hp : a.fm.pending.head?
  case' some op    => cases op
  case' some.add c => cases c
  case some.addDialog d => exact absurd hp (h d)
  all_goals
    by_cases hc : .mainFragment ∉ a.fm.content ∧ .mainFragment ∈ a.fm.execNext.content
    all_goals
      simp [execNext, nextMain, hp, hc, onMainFragment, Method.run_zoom, Method.after, advance,
        setMain, MainFragment.onAttach, MainFragment.onViewCreated]

end ExecNext

end MainActivity
end Android
