import Mathlib.Logic.Basic

-- A machine is a system that reacts to events: `Enabled s e` says that `e` can happen in `s`, and
-- `next s e` is the state that it leaves behind.
structure Machine (σ ε : Type) where
  Enabled : σ → ε → Prop
  next    : σ → ε → σ

namespace Machine

variable {σ ε γ : Type} {m : Machine σ ε}

inductive Run (m : Machine σ ε) : σ → σ → Type
  | refl {s : σ} : Run m s s
  | step {s₁ s₂ : σ} (e : ε) (h : m.Enabled s₁ e) (r : Run m (m.next s₁ e) s₂) : Run m s₁ s₂

namespace Run

-- Each step of the run has `G` of the state it starts in and the event it takes.
def Steps (G : σ → ε → Prop) {s₁ s₂ : σ} : m.Run s₁ s₂ → Prop
  | refl       => True
  | step e _ r => G s₁ e ∧ r.Steps G

end Run

-- The events can happen one after the other.
def CanTake (m : Machine σ ε) (s : σ) : List ε → Prop
  | []      => True
  | e :: es => m.Enabled s e ∧ m.CanTake (m.next s e) es

instance decidableCanTake [∀ s e, Decidable (m.Enabled s e)] :
    (s : σ) → (es : List ε) → Decidable (m.CanTake s es)
  | _, []      => .isTrue trivial
  | _, _ :: es => @instDecidableAnd _ _ _ <| decidableCanTake _ es

def Run.ofEvents : (s : σ) → (es : List ε) → m.CanTake s es → m.Run s (es.foldl m.next s)
  | _, [],      _ => refl
  | _, e :: es, h => step e h.left <| ofEvents _ es h.right

-- The machine beside an observer who remembers a `γ`: `upd` is what a step makes of that memory.
-- The observer has no influence on what can happen.
def record (m : Machine σ ε) (upd : σ → ε → γ → γ) : Machine (σ × γ) ε where
  Enabled s e := m.Enabled s.1 e
  next s e    := (m.next s.1 e, upd s.1 e s.2)

end Machine
