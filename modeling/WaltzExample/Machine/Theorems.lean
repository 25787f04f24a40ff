import WaltzExample.Machine.Basic

namespace Machine.Run

variable {σ ε : Type} {m : Machine σ ε} {I : σ → Prop} {G H : σ → ε → Prop}

@[simp]
theorem steps_ofEvents_nil {s : σ} (h : m.CanTake s []) : (ofEvents s [] h).Steps G :=
  trivial

@[simp]
theorem steps_ofEvents_cons {s : σ} {e : ε} {es : List ε} (h : m.CanTake s (e :: es)) :
    (ofEvents s (e :: es) h).Steps G ↔ G s e ∧ (ofEvents (m.next s e) es h.right).Steps G :=
  .rfl

theorem steps_true {s₁ s₂ : σ} : (r : m.Run s₁ s₂) → r.Steps fun _ _ => True
  | refl       => trivial
  | step _ _ r => ⟨trivial, r.steps_true⟩

section Invariants

variable (step_inv : ∀ s e, I s → m.Enabled s e → G s e → I (m.next s e))
include step_inv

-- The induction behind every invariant: the first state has it, and each step that has `G` keeps
-- it.
theorem invariant_of_steps {s₁ s₂ : σ} (hi : I s₁) : (r : m.Run s₁ s₂) → r.Steps G → I s₂
  | refl,       _  => hi
  | step e h r, hr => r.invariant_of_steps (step_inv _ e hi h hr.left) hr.right

-- When steps with `G` keep the invariant, and under the invariant `G` is exactly what it takes for
-- a step to have `H`, then it is exactly what it takes for a run.
theorem steps_iff_steps {s₁ s₂ : σ} (hh : ∀ s e, I s → m.Enabled s e → (H s e ↔ G s e))
    (hi : I s₁) : (r : m.Run s₁ s₂) → (r.Steps H ↔ r.Steps G)
  | refl       => .rfl
  | step e h r => by
    refine and_congr_right_iff.mpr (fun hg => ?_) |>.trans <| and_congr_left' <| hh _ e hi h
    exact r.steps_iff_steps hh <| step_inv _ e hi h <| (hh _ e hi h).mp hg

end Invariants

-- The same for an invariant that every step keeps.
theorem invariant {s₁ s₂ : σ}
    (step_inv : ∀ s e, I s → m.Enabled s e → I (m.next s e)) (hi : I s₁)
    (r : m.Run s₁ s₂) : I s₂ :=
  r.invariant_of_steps (G := fun _ _ => True) (fun s e hi h _ => step_inv s e hi h) hi r.steps_true

end Machine.Run
