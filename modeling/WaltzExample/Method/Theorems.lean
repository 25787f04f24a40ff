import WaltzExample.Method.Basic

namespace Method

variable {ε σ τ α β : Type} {m : Method ε σ α} {s s' : σ} {a : α} {e : ε}

-- The library has this for methods that return nothing.
@[simp]
theorem run_throw (e : ε) (s : σ) : (throw e : Method ε σ α).run s = .error e s :=
  rfl

theorem after_of_ok (h : m.run s = .ok a s') : m.after s = s' := by
  simp [after, h]

theorem after_of_error (h : m.run s = .error e s') : m.after s = s' := by
  simp [after, h]

theorem thrown_of_ok (h : m.run s = .ok a s') : m.thrown s = none := by
  simp [thrown, h]

theorem thrown_of_error (h : m.run s = .error e s') : m.thrown s = some e := by
  simp [thrown, h]

theorem run_zoom (get : σ → τ) (set : τ → σ → σ) (m : Method ε τ α) (s : σ) :
    (m.zoom get set).run s =
      match m.run (get s) with
      | .ok a t    => .ok a (set t s)
      | .error e t => .error e (set t s) :=
  rfl

@[simp]
theorem after_zoom (get : σ → τ) (set : τ → σ → σ) (m : Method ε τ α) (s : σ) :
    (m.zoom get set).after s = set (m.after (get s)) s := by
  cases h : m.run (get s) <;> simp [after, run_zoom, h]

@[simp]
theorem thrown_zoom (get : σ → τ) (set : τ → σ → σ) (m : Method ε τ α) (s : σ) :
    (m.zoom get set).thrown s = m.thrown (get s) := by
  cases h : m.run (get s) <;> simp [thrown, run_zoom, h]

theorem after_bind_of_ok {f : α → Method ε σ β} (h : m.run s = .ok a s') :
    (m >>= f).after s = (f a).after s' := by
  simp [after, h]

theorem after_bind_of_error {f : α → Method ε σ β} (h : m.run s = .error e s') :
    (m >>= f).after s = s' := by
  simp [after, h]

theorem thrown_bind_of_ok {f : α → Method ε σ β} (h : m.run s = .ok a s') :
    (m >>= f).thrown s = (f a).thrown s' := by
  simp [thrown, h]

theorem thrown_bind {f : α → Method ε σ β} (h : m.thrown s = some e) :
    (m >>= f).thrown s = some e := by
  cases hm : m.run s
  case ok      => simp [thrown_of_ok hm] at h
  case error e => simpa [thrown, hm] using h

namespace Keeps

variable {P : σ → Prop}

theorem pure (a : α) : Keeps P (Pure.pure a : Method ε σ α) :=
  fun _ h => h

theorem get : Keeps P (MonadState.get : Method ε σ σ) :=
  fun _ h => h

theorem modify {f : σ → σ} (h : ∀ s, P s → P (f s)) :
    Keeps P (modify f : Method ε σ PUnit) :=
  h

theorem modifyGet {f : σ → α × σ} (h : ∀ s, P s → P (f s).2) :
    Keeps P (MonadState.modifyGet f : Method ε σ α) :=
  h

theorem ite {c : Prop} [Decidable c] {m' : Method ε σ α} (hm : Keeps P m) (hm' : Keeps P m') :
    Keeps P (if c then m else m') := by
  split
  case isTrue  => exact hm
  case isFalse => exact hm'

theorem bind {f : α → Method ε σ β} (hm : Keeps P m) (hf : ∀ a, Keeps P (f a)) :
    Keeps P (m >>= f) := by
  intro s hs
  have hm := hm s hs
  cases h : m.run s
  case ok a s' =>
    have hf := hf a s' (after_of_ok h ▸ hm)
    simpa [after, h] using hf
  case error e s' =>
    simpa [after, h] using hm

-- A call once for each element of a list keeps what a single call keeps.
theorem forM {f : β → Method ε σ PUnit} (hf : ∀ b, Keeps P (f b)) :
    (l : List β) → Keeps P (l.forM f)
  | []     => pure _
  | b :: l => (hf b).bind fun _ => forM hf l

end Keeps

namespace Succeeds

variable {P : σ → Prop}

theorem keeps (h : Succeeds P m) : Keeps P m := by
  intro s hs
  have ⟨_, _, hr, hp⟩ := h s hs
  exact after_of_ok hr ▸ hp

theorem completes (h : Succeeds P m) (hs : P s) : m.Completes s :=
  have ⟨_, _, hr, _⟩ := h s hs
  thrown_of_ok hr

theorem pure (a : α) : Succeeds P (Pure.pure a : Method ε σ α) :=
  fun s hs => ⟨a, s, rfl, hs⟩

theorem get : Succeeds P (MonadState.get : Method ε σ σ) :=
  fun s hs => ⟨s, s, rfl, hs⟩

theorem modify {f : σ → σ} (h : ∀ s, P s → P (f s)) :
    Succeeds P (modify f : Method ε σ PUnit) :=
  fun s hs => ⟨_, f s, rfl, h s hs⟩

theorem ite {c : Prop} [Decidable c] {m' : Method ε σ α} (hm : Succeeds P m)
    (hm' : Succeeds P m') : Succeeds P (if c then m else m') := by
  split
  case isTrue  => exact hm
  case isFalse => exact hm'

theorem bind {f : α → Method ε σ β} (hm : Succeeds P m) (hf : ∀ a, Succeeds P (f a)) :
    Succeeds P (m >>= f) := by
  intro s hs
  have ⟨a, s₁, hr, hs₁⟩ := hm s hs
  have ⟨b, s₂, hr', hs₂⟩ := hf a s₁ hs₁
  exact ⟨b, s₂, by simpa [hr] using hr', hs₂⟩

theorem forM {f : β → Method ε σ PUnit} (hf : ∀ b, Succeeds P (f b)) :
    (l : List β) → Succeeds P (l.forM f)
  | []     => pure _
  | b :: l => (hf b).bind fun _ => forM hf l

end Succeeds

end Method
