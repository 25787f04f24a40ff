import WaltzExample.Machine.Theorems
import Mathlib.Order.WellFounded

namespace Machine

variable {σ τ ε α : Type} {m : Machine σ ε} {n : Machine τ α}

-- What the steps of a run are called, one after the other.
def Run.labels (l : σ → ε → List α) {s₁ s₂ : σ} : m.Run s₁ s₂ → List α
  | refl       => []
  | step e _ r => l s₁ e ++ r.labels l

-- Every step of `m` is, seen through `abs`, a sequence of steps of `n`: the events that `l` calls
-- it. This needs to be true where the invariant `I` holds, which the steps of `m` keep.
structure Refines (m : Machine σ ε) (n : Machine τ α) (I : σ → Prop) (abs : σ → τ)
    (l : σ → ε → List α) : Prop where
  keeps : ∀ s e, I s → m.Enabled s e → I (m.next s e)
  takes : ∀ s e, I s → m.Enabled s e → n.CanTake (abs s) (l s e)
  next  : ∀ s e, I s → m.Enabled s e → (l s e).foldl n.next (abs s) = abs (m.next s e)

section CanTake

theorem canTake_append {s : τ} : {as bs : List α} → n.CanTake s as →
    n.CanTake (as.foldl n.next s) bs → n.CanTake s (as ++ bs)
  | [],     _, _, hb => hb
  | _ :: _, _, ha, hb => ⟨ha.left, canTake_append ha.right hb⟩

theorem invariant_of_canTake {I : τ → Prop} (step_inv : ∀ s e, I s → n.Enabled s e → I (n.next s e))
    {s : τ} (hi : I s) {as : List α} (h : n.CanTake s as) : I (as.foldl n.next s) :=
  Run.invariant step_inv hi <| .ofEvents s as h

end CanTake

namespace Refines

variable {I : σ → Prop} {abs : σ → τ} {l : σ → ε → List α}
variable (h : m.Refines n I abs l)
include h

-- A run of `m` is a run of `n`.
theorem run {s₁ s₂ : σ} (hi : I s₁) : (r : m.Run s₁ s₂) →
    n.CanTake (abs s₁) (r.labels l) ∧ (r.labels l).foldl n.next (abs s₁) = abs s₂
  | .refl       => ⟨trivial, rfl⟩
  | .step e he r => by
    have ⟨ht, hf⟩ := run (h.keeps _ e hi he) r
    have hn := h.next _ e hi he
    constructor
    case left  => exact canTake_append (h.takes _ e hi he) <| hn ▸ ht
    case right => rw [Run.labels, List.foldl_append, hn, hf]

-- So what `n` keeps is kept in `m`.
theorem invariant {J : τ → Prop} (step_inv : ∀ s e, J s → n.Enabled s e → J (n.next s e))
    {s₁ s₂ : σ} (hi : I s₁) (hj : J (abs s₁)) (r : m.Run s₁ s₂) : J (abs s₂) := by
  have ⟨ht, hf⟩ := h.run hi r
  exact hf ▸ invariant_of_canTake step_inv hj ht

end Refines

-- When under the invariant `I`, as long as `P` is not true, there is a step with `G` that makes `f`
-- smaller, then such steps lead to where `P` is true.
theorem exists_run_of_lt {β : Type} [Preorder β] [WellFoundedLT β] {I P : σ → Prop}
    {G : σ → ε → Prop} (f : σ → β)
    (step : ∀ s, I s → ¬P s →
      ∃ e, m.Enabled s e ∧ G s e ∧ I (m.next s e) ∧ f (m.next s e) < f s) (s : σ) (hi : I s) :
    ∃ s', P s' ∧ ∃ r : m.Run s s', r.Steps G := by
  induction hf : f s using WellFoundedLT.induction generalizing s
  case ind b ih =>
    by_cases hp : P s
    case pos => exact ⟨s, hp, .refl, trivial⟩
    case neg =>
      have ⟨e, he, hg, hi', hlt⟩ := step s hi hp
      have ⟨s', hp', r, hr⟩ := ih _ (hf ▸ hlt) _ hi' rfl
      exact ⟨s', hp', .step e he r, hg, hr⟩

end Machine
