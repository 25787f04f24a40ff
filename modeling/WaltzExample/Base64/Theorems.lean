import WaltzExample.Base64.Basic

namespace Base64

variable {cs : List Ascii} {c : Ascii} {bs : List Byte}

theorem octets_sextets (bs : List Byte) : octets (sextets bs) = some bs := by
  induction bs using sextets.induct
  case case1 => rfl
  case case2 a => simp [sextets, octets, Fin.ext_iff]; omega
  case case3 a b => simp [sextets, octets, Fin.ext_iff]; omega
  case case4 a b c bs ih => simp [sextets, octets, ih, Fin.ext_iff]; omega

section Characters

theorem sextet?_digit (s : Sextet) : sextet? (digit s) = some s := by
  revert s
  decide

theorem digit_ne_pad (s : Sextet) : digit s ≠ ascii '=' := by
  revert s
  decide

theorem known_digit (s : Sextet) : Known (digit s) = true := by
  simp [Known, sextet?_digit]

end Characters

section Padding

theorem length_pad : 4 ∣ (pad cs).length := by
  simp [pad]
  omega

theorem pad_of_dvd (h : 4 ∣ cs.length) : pad cs = cs := by
  have hn : (4 - cs.length % 4) % 4 = 0 := by omega
  simp [pad, hn]

end Padding

section Decode

theorem filter_known_pad (h : ∀ c ∈ cs, Known c = true) : (pad cs).filter Known = pad cs := by
  rw [List.filter_eq_self]
  intro c hc
  cases List.mem_append.mp hc
  case inl hc => exact h c hc
  case inr hc => rw [List.eq_of_mem_replicate hc]; rfl

theorem known_of_mem_unpadded (h : c ∈ unpadded bs) : Known c = true := by
  have ⟨s, _, hs⟩ := List.mem_map.mp h
  exact hs ▸ known_digit s

theorem filter_known_encode : (encode bs).filter Known = encode bs :=
  filter_known_pad fun _ => known_of_mem_unpadded

theorem takeWhile_encode : (encode bs).takeWhile (· ≠ ascii '=') = unpadded bs := by
  have h : ∀ c ∈ unpadded bs, decide (c ≠ ascii '=') = true := by
    intro c hc
    have ⟨s, _, hs⟩ := List.mem_map.mp hc
    exact hs ▸ decide_eq_true (digit_ne_pad s)
  rw [encode, pad, List.takeWhile_append_of_pos h, List.takeWhile_replicate]
  simp

theorem mapM_sextet?_unpadded : (unpadded bs).mapM sextet? = some (sextets bs) := by
  rw [unpadded]
  induction sextets bs
  case nil          => rfl
  case cons s ss ih => simp [sextet?_digit, ih]

theorem decodes_decode : Decodes decode where
  encode bs := by
    simp only [decode, filter_known_encode, takeWhile_encode]
    simp [encode, mapM_sextet?_unpadded, octets_sextets, guard]
  ignore cs := by simp [decode]
  aligned cs bs h := by
    have h : cs.filter Known = pad ((cs.filter Known).takeWhile (· ≠ ascii '=')) := by
      by_contra hn
      rw [decode, guard, if_neg hn] at h
      exact absurd h <| Option.some_ne_none bs |>.symm
    exact h ▸ length_pad

end Decode
end Base64
