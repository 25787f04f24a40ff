import WaltzExample.Decoder.Basic

namespace Decoder

variable {ε β α γ σ : Type} {d : Decoder ε β α} {f : α → Decoder ε β γ} {xs ys s t : List β}
variable {a : α} {b : γ} {e : ε}

section Bind

theorem run_bind_of_ok (h : d.run s = .ok (a, t)) : (d >>= f).run s = (f a).run t := by
  simp only [StateT.run_bind, h]
  rfl

theorem run_bind_of_error (h : d.run s = .error e) : (d >>= f).run s = .error e := by
  simp only [StateT.run_bind, h]
  rfl

theorem run_bind_eq_ok (h : (d >>= f).run s = .ok (b, t)) :
    ∃ a s', d.run s = .ok (a, s') ∧ (f a).run s' = .ok (b, t) := by
  cases hd : d.run s
  case error e => simp [run_bind_of_error hd] at h
  case ok r    => exact ⟨r.fst, r.snd, rfl, by rwa [run_bind_of_ok hd] at h⟩

end Bind

section Reads

theorem Reads.pure (a : α) : Reads (pure a : Decoder ε β α) [] a :=
  fun _ => rfl

theorem Reads.bind (hd : Reads d xs a) (hf : Reads (f a) ys b) : Reads (d >>= f) (xs ++ ys) b := by
  intro s
  rw [List.append_assoc, run_bind_of_ok <| hd _, hf]

theorem Reads.map {f : α → γ} (hd : Reads d xs a) : Reads (f <$> d) xs (f a) := by
  intro s
  rw [StateT.run_map, hd]
  rfl

end Reads

section Shrinks

theorem Consumes.shrinks (h : Consumes d) : Shrinks d :=
  fun s a t hd => Nat.le_trans (h s a t hd) (Nat.sub_le _ _)

theorem Shrinks.pure (a : α) : Shrinks (pure a : Decoder ε β α) := by
  intro s _ t h
  cases h
  exact Nat.le_refl _

theorem Shrinks.throw (e : ε) : Shrinks (throw e : Decoder ε β α) := by
  intro s a t h
  contradiction

theorem Shrinks.bind (hd : Shrinks d) (hf : ∀ a, Shrinks (f a)) : Shrinks (d >>= f) := by
  intro s b t h
  obtain ⟨a, s', hs, ht⟩ := run_bind_eq_ok h
  exact Nat.le_trans (hf _ _ _ _ ht) (hd _ _ _ hs)

theorem Shrinks.map {f : α → γ} (hd : Shrinks d) : Shrinks (f <$> d) := by
  rw [map_eq_pure_bind]
  exact hd.bind fun _ => .pure _

theorem Consumes.ne_nil [Inhabited β] (hd : Consumes d) (h : Reads d xs a) : xs ≠ [] := by
  intro hx
  have hl := hd _ _ _ <| h [default]
  simp [hx] at hl

theorem Consumes.bind (hd : Consumes d) (hf : ∀ a, Shrinks (f a)) : Consumes (d >>= f) := by
  intro s b t h
  obtain ⟨a, s', hs, ht⟩ := run_bind_eq_ok h
  exact Nat.le_trans (hf _ _ _ _ ht) (hd _ _ _ hs)

theorem Consumes.map {f : α → γ} (hd : Consumes d) : Consumes (f <$> d) := by
  rw [map_eq_pure_bind]
  exact hd.bind fun _ => .pure _

end Shrinks

section Bounded

variable {size : α → ℕ} {size' : γ → ℕ} {k : ℕ}

theorem Bounded.pure (h : size a ≤ k) : Bounded size k (pure a : Decoder ε β α) := by
  intro s _ t ht
  cases ht
  exact Nat.add_le_add_right h _

theorem Bounded.throw (e : ε) : Bounded size k (throw e : Decoder ε β α) := by
  intro s a t h
  contradiction

theorem Bounded.bind (hd : Bounded size k d) (hf : ∀ a, Bounded size' (size a) (f a)) :
    Bounded size' k (d >>= f) := by
  intro s b t h
  obtain ⟨a, s', hs, ht⟩ := run_bind_eq_ok h
  exact Nat.le_trans (hf _ _ _ _ ht) (hd _ _ _ hs)

theorem Bounded.map {f : α → γ} (hd : Bounded (size' ∘ f) k d) : Bounded size' k (f <$> d) := by
  rw [map_eq_pure_bind]
  exact hd.bind fun _ => .pure <| Nat.le_refl _

theorem Shrinks.bounded (h : Shrinks d) (k : ℕ) : Bounded (fun _ => k) k d :=
  fun s a t hd => Nat.add_le_add_left (h s a t hd) k

theorem Bounded.add (h : Bounded size k d) (n : ℕ) : Bounded (n + size ·) (n + k) d := by
  intro s a t hd
  have hl := h s a t hd
  show n + size a + t.length ≤ n + k + s.length
  omega

theorem Bounded.mono {size' : α → ℕ} {k' : ℕ} (h : Bounded size k d) (hs : ∀ a, size' a ≤ size a)
    (hk : k ≤ k') : Bounded size' k' d := by
  intro s a t hd
  have hl := h s a t hd
  have hs := hs a
  omega

-- What is taken counts when there has to be something.
theorem Consumes.bounded (h : Consumes d) (hn : ∀ r, d.run [] ≠ .ok r) :
    Bounded (fun _ => 1) 0 d := by
  intro s a t hd
  have hl := h s a t hd
  have hs : s ≠ [] := fun hs => hn _ (hs ▸ hd)
  have hp := List.length_pos_iff.mpr hs
  show 1 + t.length ≤ 0 + s.length
  omega

theorem Bounded.shrinks (h : Bounded size 0 d) : Shrinks d := by
  intro s a t hd
  have hl := h s a t hd
  omega

theorem Bounded.consumes (h : Bounded (1 + size ·) 0 d) : Consumes d := by
  intro s a t hd
  have hl : 1 + size a + t.length ≤ 0 + s.length := h s a t hd
  omega

end Bounded

section Local

variable {Short : ε → Prop} {u : List β}

theorem Local.pure (a : α) : Local Short (pure a : Decoder ε β α) := by
  refine fun s => ⟨fun h u => ?_, fun h => ?_⟩
  case refine_1 => cases h; rfl
  case refine_2 => contradiction

theorem Local.throw (e : ε) : Local Short (throw e : Decoder ε β α) := by
  refine fun s => ⟨fun h => ?_, fun h u => .inr ?_⟩
  case refine_1 => contradiction
  case refine_2 => cases h; rfl

theorem LocalAt.bind (hd : LocalAt Short d s) (hf : ∀ a, Local Short (f a)) :
    LocalAt Short (d >>= f) s := by
  constructor
  case ok =>
    intro b t h u
    obtain ⟨a, s', hs, ht⟩ := run_bind_eq_ok h
    rw [run_bind_of_ok <| hd.ok hs u, (hf a s').ok ht]
  case error =>
    intro e h u
    cases hs : d.run s
    case error e' =>
      rw [run_bind_of_error hs] at h
      cases h
      exact (hd.error hs u).imp_right run_bind_of_error
    case ok r =>
      rw [run_bind_of_ok hs] at h
      rw [run_bind_of_ok <| hd.ok hs u]
      exact (hf _ _).error h u

theorem LocalAt.map {f : α → γ} (hd : LocalAt Short d s) : LocalAt Short (f <$> d) s := by
  rw [map_eq_pure_bind]
  exact hd.bind fun _ => .pure _

theorem LocalAt.cons {g : Decoder ε β α} {x : β} (h : ∀ s, d.run (x :: s) = g.run s)
    (hd : LocalAt Short g s) : LocalAt Short d (x :: s) where
  ok hs u    := (h _).trans <| hd.ok ((h s).symm.trans hs) u
  error hs u := (hd.error ((h s).symm.trans hs) u).imp_right (h _).trans

theorem LocalAt.nil (h : d.run [] = .error e) (he : Short e) : LocalAt Short d [] where
  ok hs      := by rw [h] at hs; contradiction
  error hs _ := by rw [h] at hs; cases hs; exact .inl he

-- A decoder that needs `n` elements, and takes them.
theorem Local.of_take {n : ℕ} {f : List β → α} (he : Short e)
    (h : ∀ s, d.run s = if s.length < n then .error e else .ok (f <| s.take n, s.drop n)) :
    Local Short d := by
  refine fun s => ⟨fun hs u => ?_, fun hs u => .inl ?_⟩
  all_goals
    rw [h] at hs
    split at hs
  case refine_1.isTrue  => contradiction
  case refine_2.isFalse => contradiction
  case refine_2.isTrue  => cases hs; exact he
  case refine_1.isFalse hl =>
    cases hs
    have hl := Nat.le_of_not_lt hl
    rw [h, if_neg <| by simp; omega, List.take_append_of_le_length hl,
      List.drop_append_of_le_length hl]

-- Nothing is made of a part of what is read.
theorem LocalAt.error_of_reads (hd : LocalAt Short d s) (h : Reads d (s ++ u) a) (hu : u ≠ []) :
    ∃ e, Short e ∧ d.run s = .error e := by
  have h := h []
  rw [List.append_nil] at h
  cases hs : d.run s
  case ok r =>
    have ht := (hd.ok hs u).symm.trans h
    simp [hu] at ht
  case error e =>
    refine ⟨e, (hd.error hs u).resolve_right fun he => ?_, rfl⟩
    rw [he] at h
    contradiction

end Local

section Exhaust

variable {step : σ → Decoder ε β (ForInStep σ)} {a b c : σ} {n m : ℕ}

theorem iterate_nil (n : ℕ) : (iterate step n a).run [] = .ok (a, []) := by
  cases n <;> rfl

theorem iterate_succ (h : s ≠ []) :
    (iterate step (n + 1) a).run s =
      (do match ← step a with
        | .done a  => pure a
        | .yield a => iterate step n a).run s := by
  cases s
  case nil  => contradiction
  case cons => rfl

theorem iterate_of_yield (h : s ≠ []) (ha : (step a).run s = .ok (.yield b, t)) :
    (iterate step (n + 1) a).run s = (iterate step n b).run t := by
  rw [iterate_succ h, run_bind_of_ok ha]

theorem iterate_of_done (h : s ≠ []) (ha : (step a).run s = .ok (.done b, t)) :
    (iterate step (n + 1) a).run s = .ok (b, t) := by
  rw [iterate_succ h, run_bind_of_ok ha]
  rfl

theorem iterate_of_error (h : s ≠ []) (ha : (step a).run s = .error e) :
    (iterate step (n + 1) a).run s = .error e := by
  rw [iterate_succ h, run_bind_of_error ha]

-- The bound on the number of steps makes no difference as long as it is large enough.
theorem iterate_eq (hs : ∀ a, Consumes (step a)) (hn : s.length ≤ n) (hm : s.length ≤ m) :
    (iterate step n a).run s = (iterate step m a).run s := by
  induction n generalizing a m s
  case zero =>
    obtain rfl := List.eq_nil_of_length_eq_zero <| Nat.le_zero.mp hn
    rw [iterate_nil, iterate_nil]
  case succ n hi =>
    by_cases h : s = []
    case pos => rw [h, iterate_nil, iterate_nil]
    case neg =>
      have hl := List.length_pos_iff.mpr h
      obtain ⟨m, rfl⟩ := Nat.exists_eq_succ_of_ne_zero <| Nat.ne_of_gt <| Nat.lt_of_lt_of_le hl hm
      cases ha : (step a).run s
      case error e => rw [iterate_of_error h ha, iterate_of_error h ha]
      case ok r =>
        obtain ⟨r, t⟩ := r
        have ht := hs a s r t ha
        cases r
        case done b  => rw [iterate_of_done h ha, iterate_of_done h ha]
        case yield b =>
          rw [iterate_of_yield h ha, iterate_of_yield h ha]
          exact hi (by omega) (by omega)

theorem run_exhaust (step : σ → Decoder ε β (ForInStep σ)) (a : σ) (s : List β) :
    (exhaust step a).run s = (iterate step s.length a).run s :=
  rfl

theorem exhaust_nil : (exhaust step a).run [] = .ok (a, []) :=
  rfl

theorem exhaust_of_yield (hs : ∀ a, Consumes (step a)) (h : s ≠ [])
    (ha : (step a).run s = .ok (.yield b, t)) :
    (exhaust step a).run s = (exhaust step b).run t := by
  have ht := hs a s _ t ha
  obtain ⟨x, s, rfl⟩ := List.exists_cons_of_ne_nil h
  rw [run_exhaust, List.length_cons, iterate_of_yield h ha, run_exhaust]
  exact iterate_eq hs ht (Nat.le_refl _)

theorem exhaust_of_done (h : s ≠ []) (ha : (step a).run s = .ok (.done b, t)) :
    (exhaust step a).run s = .ok (b, t) := by
  obtain ⟨x, s, rfl⟩ := List.exists_cons_of_ne_nil h
  rw [run_exhaust, List.length_cons, iterate_of_done h ha]

theorem exhaust_of_error (h : s ≠ []) (ha : (step a).run s = .error e) :
    (exhaust step a).run s = .error e := by
  obtain ⟨x, s, rfl⟩ := List.exists_cons_of_ne_nil h
  rw [run_exhaust, List.length_cons, iterate_of_error h ha]

theorem exhaust_append (hs : ∀ a, Consumes (step a)) (h : Steps step a xs b) (s : List β) :
    (exhaust step a).run (xs ++ s) = (exhaust step b).run s := by
  induction h
  case nil => rfl
  case cons xs _ ys _ hr hx _ hi =>
    have hn : xs ++ (ys ++ s) ≠ [] := List.append_ne_nil_of_left_ne_nil hx _
    rw [List.append_assoc, exhaust_of_yield hs hn <| hr _, hi]

theorem exhaust_of_steps (hs : ∀ a, Consumes (step a)) (h : Steps step a xs b) :
    (exhaust step a).run xs = .ok (b, []) := by
  simpa [exhaust_nil] using exhaust_append hs h []

variable {size : σ → ℕ}

theorem Bounded.iterate (hs : ∀ a, Bounded (size ·.value) (size a) (step a)) (n : ℕ) (a : σ) :
    Bounded size (size a) (iterate step n a) := by
  induction n generalizing a
  case zero => exact .pure <| Nat.le_refl _
  case succ n hi =>
    intro s b t h
    by_cases hn : s = []
    case pos =>
      rw [hn, iterate_nil] at h
      cases h
      exact Nat.add_le_add_left (Nat.zero_le _) _
    case neg =>
      rw [iterate_succ hn] at h
      refine Bounded.bind (hs a) (fun r => ?_) s b t h
      cases r
      case done  => exact .pure <| Nat.le_refl _
      case yield => exact hi _

theorem Bounded.exhaust (hs : ∀ a, Bounded (size ·.value) (size a) (step a)) (a : σ) :
    Bounded size (size a) (exhaust step a) :=
  fun s => Bounded.iterate hs s.length a s

end Exhaust

end Decoder
