import WaltzExample.Android.Navigation.Basic
import WaltzExample.Android.Lifecycle.Basic

namespace Android.MainActivity

-- The activity in the background, with its state saved.
def stopped (a : MainActivity) : MainActivity :=
  onSaveInstanceState.after a

-- What is called on the activity that takes the place of `a`, and what that makes of it.
def recreate (a : MainActivity) : Method Throwable MainActivity Unit :=
  restore a.stopped.fm

def recreated (a : MainActivity) : MainActivity :=
  a.recreate.after a.stopped.renew

section Sdk

-- Whether the fragment of the flow `f` can be made anew, which depends on the SDK.
variable (restorable : Nat → Bool)

def restoreFragment : Content → Method Throwable MainActivity Unit
  | .mainFragment => pure ()
  | .flow f       => if restorable f then pure () else throw .sdk

-- Recreating the activity takes that all fragments on the back stack are made anew as well.
def recreateAll (a : MainActivity) : Method Throwable MainActivity Unit := do
  a.stopped.entries.forM <| restoreFragment restorable
  a.recreate

def recreatedAll (a : MainActivity) : MainActivity :=
  (a.recreateAll restorable).after a.stopped.renew

end Sdk

-- Recreating the activity makes no difference to the user of the dialog `d`.
structure Preserves (a : MainActivity) (d : Ref) : Prop where
  completes : a.recreate.Completes a.stopped.renew
  title     : (a.recreated.dialog d).mTitle = (a.dialog d).mTitle
  ddInfos   : (a.recreated.dialog d).mDDInfos = (a.dialog d).mDDInfos
  dismiss   : ((onClickDismiss d).after a.recreated).settled.entries =
    ((onClickDismiss d).after a).settled.entries
  refresh   : ∀ code infos,
    ((showDialog code infos).after a.recreated).fm.held = a.recreated.fm.held

end Android.MainActivity
