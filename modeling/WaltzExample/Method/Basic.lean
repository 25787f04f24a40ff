import Mathlib.Logic.Basic

-- A method of an object with state `σ`: it may assign fields, and it either returns or throws. What
-- it assigned before it threw stays assigned.
abbrev Method (ε σ α : Type) := EStateM ε σ α

namespace Method

variable {ε σ τ α β : Type}

-- The object's state after the call, however the call ended.
def after (m : Method ε σ α) (s : σ) : σ :=
  match m.run s with
  | .ok _ s'    => s'
  | .error _ s' => s'

def thrown (m : Method ε σ α) (s : σ) : Option ε :=
  match m.run s with
  | .ok ..     => none
  | .error e _ => some e

def Completes (m : Method ε σ α) (s : σ) : Prop :=
  m.thrown s = none

instance (m : Method ε σ α) (s : σ) : Decidable (m.Completes s) :=
  inferInstanceAs <| Decidable (m.thrown s = none)

-- A call on an object that is a part of a bigger one: `get` reads the part and `set` puts it back.
def zoom (get : σ → τ) (set : τ → σ → σ) (m : Method ε τ α) : Method ε σ α :=
  fun s =>
    match m.run (get s) with
    | .ok a t    => .ok a (set t s)
    | .error e t => .error e (set t s)

-- The method keeps `P`, also when it throws.
def Keeps (P : σ → Prop) (m : Method ε σ α) : Prop :=
  ∀ s, P s → P (m.after s)

-- Wherever `P` is true the method returns, and keeps `P`.
def Succeeds (P : σ → Prop) (m : Method ε σ α) : Prop :=
  ∀ s, P s → ∃ a s', m.run s = .ok a s' ∧ P s'

end Method
