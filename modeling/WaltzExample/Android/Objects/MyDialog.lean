import WaltzExample.Android.Objects.Basic

namespace Android

-- The listener that `MainActivity.showDialog` hands to its dialogs. There is no other one.
inductive MyDialog.Listener
  | showDialog
  deriving DecidableEq

-- The views of `R.layout.my_dialog`.
structure MyDialog.Layout where
  dialogTitle   : TextView := { }
  dialogDDInfos : TextView := { visibility := .gone }
  dialogDismiss : Button   := { }

-- A `MyDialog` as its no-argument constructor leaves it, unless fields are given. `mDismissed` and
-- `mCancelable` are fields of `DialogFragment`.
structure MyDialog where
  mCode       : Option WaltzCode         := none
  mData       : Option DDInfos           := none
  mTitle      : Option TextView          := none
  mDDInfos    : Option TextView          := none
  mDismiss    : Option Button            := none
  mListener   : Option MyDialog.Listener := none
  mDismissed  : Bool                     := false
  mCancelable : Bool                     := true

namespace MyDialog

def «with» (code : WaltzCode) : MyDialog where
  mCode := code

def setListener (dialog : MyDialog) (l : Listener) : MyDialog :=
  { dialog with mListener := l }

def setDDInfos (dialog : MyDialog) (data : Option DDInfos) : MyDialog :=
  { dialog with mData := data }

def onCreateView : Layout :=
  { }

-- The three statements that `onViewCreated` and `refreshDDInfos` share.
def writeDDInfos (data : DDInfos) : Method Throwable MyDialog Unit := do
  let view ← deref .view (← get).mDDInfos
  modify ({ · with mDDInfos := some { view with text := data.text, visibility := .visible } })

def onViewCreated (view : Layout) : Method Throwable MyDialog Unit := do
  modify ({ · with
    mTitle   := view.dialogTitle
    mDDInfos := view.dialogDDInfos
    mDismiss := some { view.dialogDismiss with onClickListener := true } })
  let code ← deref .code (← get).mCode
  modify ({ · with mTitle := some { view.dialogTitle with text := code.toString } })
  match (← get).mData with
  | some data => if code = .accessGranted then writeDDInfos data
  | none      => pure ()

def onStart : Method Throwable MyDialog Unit :=
  modify ({ · with mCancelable := false })

def refreshDDInfos (data : DDInfos) : Method Throwable MyDialog Unit := do
  if (← get).mCode = some .accessGranted then
    writeDDInfos data

-- What the fragment manager calls when it adds the dialog.
def create : Method Throwable MyDialog Unit := do
  onViewCreated onCreateView
  onStart

end MyDialog
end Android
