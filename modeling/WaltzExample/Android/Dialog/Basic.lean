import WaltzExample.Android.Objects.Result
import WaltzExample.Android.Execution.Basic

namespace Android

def MyDialog.Shows (o : MyDialog) (r : Result) : Prop :=
  o.mTitle = some r.title ∧ o.mDDInfos = some r.ddInfos

namespace MainActivity

variable {ι : Type} [Gson ι]

-- A dialog that is shown or pending and has not been dismissed.
def Live (a : MainActivity) (d : Ref) : Prop :=
  d ∈ a.fm.held ∧ (a.dialog d).mDismissed = false

-- What an observer expects to be shown: the result that the callbacks have delivered since a dialog
-- was dismissed.
def expect (a : MainActivity) : Event ι → Option Result → Option Result
  | .callback _ c,   g => Result.deliver c.code c.infos g
  | .clickDismiss d, g => if (a.dialog d).mDismissed then g else none
  | _,               g => g

def recorded (ι : Type) [Gson ι] : Machine (MainActivity × Option Result) (Event ι) :=
  (machine ι).record expect

instance (s : MainActivity × Option Result) (e : Event ι) : Decidable ((recorded ι).Enabled s e) :=
  inferInstanceAs <| Decidable (s.1.Enabled e)

-- There is one dialog at most, and on the screen it shows what is expected.
structure Shows (a : MainActivity) (g : Option Result) : Prop where
  unique : ∀ d d', a.Live d → a.Live d' → d = d'
  result : ∀ d, a.Displayed d → ∃ r, g = some r ∧ (a.dialog d).Shows r

-- The step does not use a view that does not exist, and leaves behind what is expected.
structure Delivers (a : MainActivity) (e : Event ι) (g : Option Result) : Prop where
  view  : (handle e).thrown a ≠ some (.nullPointer .view)
  shows : Shows ((handle e).after a) (expect a e g)

-- A callback comes while `mMyDialog` refers to the dialog if there is one, and if it has infos for
-- an `ACCESS_GRANTED` it comes when that dialog's view exists.
structure ReadyFor (a : MainActivity) (infos : Option DDInfos) : Prop where
  field : a.mMyDialog = none → ∀ d, ¬a.Live d
  view  : ∀ d, a.mMyDialog = some d → infos ≠ none → (a.dialog d).mCode = some .accessGranted →
    (a.dialog d).mDDInfos ≠ none

def Timely (a : MainActivity) : Event ι → Prop
  | .callback _ c => a.ReadyFor c.infos
  | _             => True

end MainActivity
end Android
