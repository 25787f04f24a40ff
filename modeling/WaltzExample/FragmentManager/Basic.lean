import WaltzExample.Method.Basic
import Mathlib.Logic.Function.Iterate

-- A `replace` transaction that was added to the back stack: popping it takes `added` out of the
-- container and puts `removed` back.
structure BackStackEntry (φ : Type) where
  added   : φ
  removed : List φ

-- The operations that are enqueued when they are requested and executed later.
inductive FragmentManager.Op (φ δ : Type)
  | add (fragment : φ)
  | replace (fragment : φ)
  | addDialog (dialog : δ)
  | removeDialog (dialog : δ)
  | popBackStack
  deriving DecidableEq

-- A fragment manager with one container for the fragments `φ`, and dialog fragments `δ`, which have
-- windows of their own. `dialogs` are the dialogs that have been added, so that their views exist.
-- The top of the back stack is the list's head. `pending` is a queue: its head is executed next.
structure FragmentManager (φ δ : Type) where
  content    : List φ := []
  dialogs    : List δ := []
  backStack  : List (BackStackEntry φ) := []
  pending    : List (FragmentManager.Op φ δ) := []
  stateSaved : Bool := false

namespace FragmentManager

variable {φ δ ε : Type} [DecidableEq δ]

-- `add?`, `addDialog?` and `replace?` pick out the operations that will bring in a fragment.
def Op.add? : Op φ δ → Option φ
  | .add f => f
  | _      => none

def Op.addDialog? : Op φ δ → Option δ
  | .addDialog d => d
  | _            => none

def Op.replace? : Op φ δ → Option φ
  | .replace f => f
  | _          => none

def apply (fm : FragmentManager φ δ) : Op φ δ → FragmentManager φ δ
  | .add f          => { fm with content := fm.content ++ [f] }
  | .replace f      => { fm with content := [f], backStack := ⟨f, fm.content⟩ :: fm.backStack }
  | .addDialog d    => { fm with dialogs := fm.dialogs ++ [d] }
  | .removeDialog d => { fm with dialogs := fm.dialogs.erase d }
  | .popBackStack   =>
    match fm.backStack with
    | []      => fm
    | e :: es => { fm with content := e.removed, backStack := es }

def enqueue (fm : FragmentManager φ δ) (op : Op φ δ) : FragmentManager φ δ :=
  { fm with pending := fm.pending ++ [op] }

-- An operation is refused once the state has been saved, since it would be lost.
def enqueueAction (refused : ε) (op : Op φ δ) : Method ε (FragmentManager φ δ) Unit := do
  if (← get).stateSaved then
    throw refused
  modify (·.enqueue op)

def execNext (fm : FragmentManager φ δ) : FragmentManager φ δ :=
  match fm.pending with
  | []        => fm
  | op :: ops => { fm with pending := ops }.apply op

-- All pending operations executed.
def settle (fm : FragmentManager φ δ) : FragmentManager φ δ :=
  execNext^[fm.pending.length] fm

-- The dialogs that have been added or are going to be.
def held (fm : FragmentManager φ δ) : List δ :=
  fm.dialogs ++ fm.pending.filterMap Op.addDialog?

-- The fragments that are on the back stack or are going to be.
def pushed (fm : FragmentManager φ δ) : List φ :=
  fm.pending.filterMap Op.replace? ++ fm.backStack.map BackStackEntry.added

-- The container holds what the back stack says: the fragment of the top entry, or `base` when the
-- stack is empty. The same is true of what each entry puts back.
def Stacked (base : List φ) : List φ → List (BackStackEntry φ) → Prop
  | content, []      => content = base
  | content, e :: es => content = [e.added] ∧ Stacked base e.removed es

end FragmentManager
