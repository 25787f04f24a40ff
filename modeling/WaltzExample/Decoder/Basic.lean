import Mathlib.Data.Nat.Notation

-- Decoders take what they need from the front of a list.
abbrev Decoder (ε β α : Type) := StateT (List β) (Except ε) α

namespace Decoder

variable {ε β α σ : Type}

-- Whatever comes after `xs`, the decoder takes exactly `xs`.
def Reads (d : Decoder ε β α) (xs : List β) (a : α) : Prop :=
  ∀ s, d.run (xs ++ s) = .ok (a, s)

def Shrinks (d : Decoder ε β α) : Prop :=
  ∀ s a t, d.run s = .ok (a, t) → t.length ≤ s.length

-- Something is taken, unless there is nothing.
def Consumes (d : Decoder ε β α) : Prop :=
  ∀ s a t, d.run s = .ok (a, t) → t.length ≤ s.length - 1

-- What is made out of something of the size `k` has only grown by what has been taken.
def Bounded (size : α → ℕ) (k : ℕ) (d : Decoder ε β α) : Prop :=
  ∀ s a t, d.run s = .ok (a, t) → size a + t.length ≤ k + s.length

-- What comes after `s` makes no difference, unless the decoder fails because `s` is too short.
structure LocalAt (Short : ε → Prop) (d : Decoder ε β α) (s : List β) : Prop where
  ok    : d.run s = .ok (a, t) → ∀ u, d.run (s ++ u) = .ok (a, t ++ u)
  error : d.run s = .error e → ∀ u, Short e ∨ d.run (s ++ u) = .error e

def Local (Short : ε → Prop) (d : Decoder ε β α) : Prop :=
  ∀ s, LocalAt Short d s

def iterate (step : σ → Decoder ε β (ForInStep σ)) : ℕ → σ → Decoder ε β σ
  | 0, a     => pure a
  | n + 1, a => do
    if (← get).isEmpty then
      return a
    else
      match ← step a with
      | .done a  => return a
      | .yield a => iterate step n a

-- The step is repeated until nothing is left or the step says that it is done. No step that takes
-- something is repeated more often than there are elements.
def exhaust (step : σ → Decoder ε β (ForInStep σ)) (a : σ) : Decoder ε β σ := do
  iterate step (← get).length a

-- What is taken by steps that are repeated.
inductive Steps (step : σ → Decoder ε β (ForInStep σ)) : σ → List β → σ → Prop
  | nil  : Steps step a [] a
  | cons : Reads (step a) xs (.yield b) → xs ≠ [] → Steps step b ys c → Steps step a (xs ++ ys) c

end Decoder
