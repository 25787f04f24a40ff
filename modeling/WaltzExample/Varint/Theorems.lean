import WaltzExample.Varint.Basic

namespace Varint

variable {b : Byte} {bs : List Byte} {n k : ℕ}

theorem payload_of_not_more (h : ¬More b) : payload b = b.toNat :=
  Nat.mod_eq_of_lt <| Nat.lt_of_not_le h

section Encode

theorem encode_of_lt (h : n < 128) : encode n = [BitVec.ofNat 8 n] := by
  rw [encode, if_pos h]

theorem encode_of_le (h : 128 ≤ n) :
    encode n = BitVec.ofNat 8 (n % 128 + 128) :: encode (n / 128) := by
  rw [encode, if_neg <| Nat.not_lt.mpr h]

theorem terminated_encode (n : ℕ) : Terminated (encode n) := by
  induction n using encode.induct
  case case1 n h =>
    rw [encode_of_lt h]
    exact .last <| by simp [More]; omega
  case case2 n h hi =>
    rw [encode_of_le <| Nat.le_of_not_lt h]
    exact .more (by simp [More]; omega) hi

theorem value_encode (n : ℕ) : value (encode n) = n := by
  induction n using encode.induct
  case case1 n h =>
    rw [encode_of_lt h]
    simp [value, payload]
    omega
  case case2 n h hi =>
    rw [encode_of_le <| Nat.le_of_not_lt h]
    simp [value, payload, hi]
    omega

theorem encode_ne_nil : encode n ≠ [] := by
  rw [encode]
  split <;> simp

theorem length_encode_le (h : n < 128 ^ (k + 1)) : (encode n).length ≤ k + 1 := by
  induction k generalizing n
  case zero => simp [encode_of_lt (n := n) <| by simpa using h]
  case succ k hi =>
    by_cases hn : n < 128
    case pos => simp [encode_of_lt hn]
    case neg =>
      have hd : n / 128 < 128 ^ (k + 1) := Nat.div_lt_of_lt_mul <| by rwa [Nat.mul_comm]
      rw [encode_of_le <| Nat.le_of_not_lt hn]
      simpa using hi hd

end Encode

section Terminated

theorem Terminated.ne_nil (h : Terminated bs) : bs ≠ [] := by
  cases h <;> simp

-- Where at most `k` bytes are looked at, either a number ends there, or none of them ends one.
theorem split (k : ℕ) (s : List Byte) :
    (∃ bs t, Terminated bs ∧ bs.length ≤ k ∧ s = bs ++ t) ∨ ∀ b ∈ s.take k, More b := by
  induction k generalizing s
  case zero => simp
  case succ k hi =>
    cases s
    case nil => simp
    case cons b s =>
      by_cases hb : More b
      case neg => exact .inl ⟨[b], s, .last hb, by simp, rfl⟩
      case pos =>
        obtain ⟨bs, t, ht, hk, rfl⟩ | h := hi s
        case inl => exact .inl ⟨b :: bs, t, .more hb ht, by simpa, rfl⟩
        case inr => exact .inr <| by simpa [hb] using h

end Terminated

end Varint
