import Mathlib.Data.List.Nodup

-- The requests of a client that a server answers later, numbered in the order in which they were
-- issued. The oldest of those that are still unanswered comes first.
structure Requests (ρ : Type) where
  issued     : Nat
  unanswered : List (Nat × ρ)
  nodup      : (unanswered.map Prod.fst).Nodup
  lt_issued  : ∀ r ∈ unanswered, r.1 < issued

namespace Requests

variable {ρ : Type} {s : Requests ρ} {q q' : ρ} {n : Nat} {p : ρ → Bool}

def empty : Requests ρ where
  issued     := 0
  unanswered := []
  nodup      := List.nodup_nil
  lt_issued  := nofun

def issue (s : Requests ρ) (q : ρ) : Requests ρ where
  issued     := s.issued + 1
  unanswered := s.unanswered ++ [(s.issued, q)]
  nodup := by
    have hn : s.issued ∉ s.unanswered.map Prod.fst := by
      intro hm
      have ⟨r, hr, he⟩ := List.mem_map.mp hm
      exact Nat.ne_of_lt (s.lt_issued r hr) he
    rw [List.map_append]
    exact s.nodup.append (List.nodup_singleton _) <| by simpa using hn
  lt_issued r hr := by
    cases List.mem_append.mp hr
    case inl hr => exact Nat.lt_succ_of_lt <| s.lt_issued r hr
    case inr hr => simp [List.mem_singleton.mp hr]

-- The request that an answer to one with `p` belongs to, when such requests are answered in order.
def oldest? (s : Requests ρ) (p : ρ → Bool) : Option Nat :=
  s.unanswered.find? (p ·.2) |>.map Prod.fst

def answer (s : Requests ρ) (p : ρ → Bool) : Requests ρ where
  issued     := s.issued
  unanswered := s.unanswered.eraseP (p ·.2)
  nodup          := s.nodup.sublist <| List.eraseP_sublist.map _
  lt_issued r hr := s.lt_issued r <| List.mem_of_mem_eraseP hr

theorem unanswered_answer : (s.answer p).unanswered = s.unanswered.eraseP (p ·.2) :=
  rfl

theorem mem_unanswered_issue {r : Nat × ρ} :
    r ∈ (s.issue q).unanswered ↔ r ∈ s.unanswered ∨ r = (s.issued, q) := by
  simp [issue]

theorem issued_not_mem : (s.issued, q) ∉ s.unanswered :=
  fun hq => Nat.lt_irrefl _ <| s.lt_issued _ hq

theorem mem_of_oldest? (h : s.oldest? p = some n) : ∃ q, p q ∧ (n, q) ∈ s.unanswered := by
  have ⟨⟨n, q⟩, hf, he⟩ := Option.map_eq_some_iff.mp h
  subst he
  exact ⟨q, by simpa using List.find?_some hf, List.mem_of_find?_eq_some hf⟩

-- A request is answered once.
theorem not_mem_answer (h : s.oldest? p = some n) : (n, q) ∉ (s.answer p).unanswered := by
  intro hq
  have ⟨⟨n, q'⟩, hf, he⟩ := Option.map_eq_some_iff.mp h
  subst he
  have ⟨hp, l₁, l₂, hl, hn⟩ := List.find?_eq_some_iff_append.mp hf
  have he : (s.answer p).unanswered = l₁ ++ l₂ := by
    rw [unanswered_answer, hl, List.eraseP_append_right _ (by simpa using hn)]
    simp [hp]
  have hd := s.nodup
  rw [hl, List.map_append, List.map_cons, List.nodup_middle, ← List.map_append] at hd
  exact (List.nodup_cons.mp hd).left <| List.mem_map.mpr ⟨(n, q), he ▸ hq, rfl⟩

theorem answer_subset : (s.answer p).unanswered ⊆ s.unanswered :=
  List.eraseP_subset

end Requests
