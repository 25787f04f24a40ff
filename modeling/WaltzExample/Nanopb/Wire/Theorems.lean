import Mathlib.Tactic.Ring
import WaltzExample.Varint.Theorems
import WaltzExample.Decoder.Theorems
import WaltzExample.Nanopb.Wire.Basic

namespace Nanopb

open Varint (Byte More Terminated encode payload value)
open Decoder (Reads Shrinks Consumes Bounded)

variable {b : Byte} {bs body : List Byte} {s t : IStream} {bitpos k n : ℕ}

section Bytes

theorem and_high_eq_zero_iff (b : Byte) : b &&& 0x80 = 0 ↔ ¬More b := by
  unfold More
  revert b
  decide +kernel

theorem and_top_eq_zero (h : b.toNat < 16) : b &&& 0x70 = 0 := by
  revert b
  decide +kernel

theorem toNat_and_low (b : Byte) : (b &&& 0x7F).toNat = payload b :=
  Nat.and_two_pow_sub_one_eq_mod b.toNat 7

theorem or_shift {w : ℕ} {result : BitVec w} (h : result.toNat < 2 ^ bitpos) (b : Byte) :
    result ||| (b &&& 0x7F).setWidth w <<< bitpos =
      result + BitVec.ofNat w (2 ^ bitpos * payload b) := by
  apply BitVec.eq_of_toNat_eq
  have hr : result.toNat ||| payload b <<< bitpos = result.toNat + 2 ^ bitpos * payload b := by
    rw [Nat.or_comm, ← Nat.shiftLeft_add_eq_or_of_lt h, Nat.shiftLeft_eq]
    ring
  calc
    _ = result.toNat ||| (payload b <<< bitpos) % 2 ^ w := by
      simp only [BitVec.toNat_or, BitVec.toNat_shiftLeft, BitVec.toNat_setWidth, toNat_and_low]
      simp [Nat.shiftLeft_eq]
    _ = result.toNat % 2 ^ w ||| (payload b <<< bitpos) % 2 ^ w := by
      rw [Nat.mod_eq_of_lt result.isLt]
    _ = (result.toNat + 2 ^ bitpos * payload b) % 2 ^ w := by
      rw [← Nat.or_mod_two_pow, hr]
    _ = _ := by simp

theorem toNat_add_payload_le {w : ℕ} (bitpos : ℕ) (result : BitVec w) (b : Byte) :
    (result + BitVec.ofNat w (2 ^ bitpos * payload b)).toNat ≤
      result.toNat + 2 ^ bitpos * payload b := by
  simpa using Nat.mod_le _ _

theorem toNat_add_payload_lt {w : ℕ} {result : BitVec w} (h : result.toNat < 2 ^ bitpos)
    (b : Byte) : (result + BitVec.ofNat w (2 ^ bitpos * payload b)).toNat < 2 ^ (bitpos + 7) := by
  have hl := toNat_add_payload_le bitpos result b
  have hb : payload b < 128 := Nat.mod_lt _ (by decide)
  have hb : 2 ^ bitpos * payload b ≤ 2 ^ bitpos * 127 := Nat.mul_le_mul_left _ <| by omega
  rw [Nat.pow_add]
  omega

theorem mul_value_cons (b : Byte) (bs : List Byte) :
    2 ^ bitpos * value (b :: bs) = 2 ^ bitpos * payload b + 2 ^ (bitpos + 7) * value bs := by
  rw [value, Nat.pow_add]
  ring

theorem or_high (value : BitVec 64) :
    (value &&& 0x7F).setWidth 8 ||| 0x80 = BitVec.ofNat 8 (value.toNat % 128 + 128) := by
  apply BitVec.eq_of_toNat_eq
  have h : (value &&& 0x7F).toNat = value.toNat % 128 := Nat.and_two_pow_sub_one_eq_mod _ 7
  have hl : value.toNat % 128 < 2 ^ 7 := Nat.mod_lt _ (by decide)
  calc
    _ = value.toNat % 128 % 256 ||| 128 := by rw [← h]; rfl
    _ = 1 <<< 7 ||| value.toNat % 128 := by
      rw [Nat.mod_eq_of_lt (a := value.toNat % 128) <| by omega, Nat.or_comm]
      rfl
    _ = 1 <<< 7 + value.toNat % 128 := (Nat.shiftLeft_add_eq_or_of_lt hl 1).symm
    _ = _ := by simp; omega

end Bytes

section Write

variable {stream : OStream}

@[simp]
theorem write_nil : write [] = pure () := by
  funext ⟨state, left, bytesWritten⟩
  cases state <;> simp [write] <;> rfl

theorem run_write (stream : OStream) (buf : List Byte) :
    (write buf).run stream =
      match stream.state with
      | none       => .ok ((), { stream with bytesWritten := stream.bytesWritten + buf.length })
      | some state =>
        if stream.left < buf.length then .error .streamFull else .ok ((), {
          state        := some <| state ++ buf
          left         := stream.left - buf.length
          bytesWritten := stream.bytesWritten + buf.length
        }) := by
  obtain ⟨state, left, bytesWritten⟩ := stream
  cases state
  case none => rfl
  case some state => by_cases h : left < buf.length <;> simp [write, h] <;> rfl

-- What is written in two parts could be written at once.
theorem write_append (a b : List Byte) : write (a ++ b) = (do write a; write b) := by
  funext stream
  change (write (a ++ b)).run stream = (do write a; write b : Encode).run stream
  rw [StateT.run_bind, run_write, run_write]
  obtain ⟨state, left, bytesWritten⟩ := stream
  cases state
  case none => simp [run_write, bind, Except.bind, Nat.add_assoc]
  case some state =>
    by_cases ha : left < a.length
    case pos => simp [ha, Nat.lt_add_right, bind, Except.bind]
    case neg =>
      have hs : left < a.length + b.length ↔ left - a.length < b.length := by omega
      simp [ha, hs, run_write, bind, Except.bind, Nat.sub_sub, Nat.add_assoc]

theorem encodeVarint_loop_eq {value : BitVec 64} (h₀ : value ≠ 0) (h : value.toNat < 128 ^ n) :
    (encodeVarint.loop n value).modifyLast (· &&& 0x7F) = encode value.toNat := by
  induction n generalizing value
  case zero => exact absurd (BitVec.eq_of_toNat_eq <| by simpa using h) h₀
  case succ n hi =>
    have hs : (value >>> 7).toNat = value.toNat / 128 := by
      simp [Nat.shiftRight_eq_div_pow]
    rw [encodeVarint.loop, if_neg h₀, or_high]
    by_cases hv : value.toNat < 128
    case pos =>
      have hz : value >>> 7 = 0 := BitVec.eq_of_toNat_eq <| by simp [hs]; omega
      have hl : encodeVarint.loop n (value >>> 7) = [] := by
        cases n <;> simp [encodeVarint.loop, hz]
      rw [hl, Varint.encode_of_lt hv]
      apply congrArg (fun b : Byte => [b])
      apply BitVec.eq_of_toNat_eq
      rw [toNat_and_low]
      simp [payload]
      omega
    case neg =>
      have hz : value >>> 7 ≠ 0 := by
        intro hz
        have hz := hs ▸ congrArg BitVec.toNat hz
        simp at hz
        omega
      have hd : (value >>> 7).toNat < 128 ^ n := by
        rw [hs]
        exact Nat.div_lt_of_lt_mul <| by rwa [Nat.mul_comm]
      have hn : encodeVarint.loop n (value >>> 7) ≠ [] := by
        intro hn
        have hi := hi hz hd
        rw [hn] at hi
        exact Varint.encode_ne_nil hi.symm
      rw [Varint.encode_of_le <| Nat.le_of_not_lt hv, ← hs, ← hi hz hd]
      exact List.modifyLast_append_of_right_ne_nil _ [_] _ hn

theorem encodeVarint_eq (v : BitVec 64) : encodeVarint v = write (encode v.toNat) := by
  unfold encodeVarint
  split
  case isTrue h =>
    have h : v.toNat < 128 := Nat.lt_succ_of_le h
    rw [Varint.encode_of_lt h]
    rfl
  case isFalse h =>
    have h₀ : v ≠ 0 := fun h₀ => h <| h₀ ▸ by decide
    rw [encodeVarint_loop_eq h₀ <| by omega]

def tag (wireType : WireType) (number : BitVec 32) : List Byte :=
  encode <| number.toNat * 8 + wireType.toNat

theorem encodeTag_eq (wireType : WireType) (number : BitVec 32) :
    encodeTag wireType number = write (tag wireType number) := by
  have hl : wireType.toNat < 2 ^ 3 := wireType.isLt
  have hn : (number.setWidth 64 <<< 3 ||| wireType.setWidth 64).toNat =
      number.toNat * 8 + wireType.toNat := by
    have ho := Nat.shiftLeft_add_eq_or_of_lt hl number.toNat
    rw [Nat.shiftLeft_eq] at ho
    rw [BitVec.toNat_or, BitVec.toNat_shiftLeft, BitVec.toNat_setWidth, BitVec.toNat_setWidth]
    rw [Nat.mod_eq_of_lt (a := number.toNat) <| by omega, Nat.shiftLeft_eq,
      Nat.mod_eq_of_lt (a := number.toNat * 2 ^ 3) <| by omega,
      Nat.mod_eq_of_lt (a := wireType.toNat) <| by omega]
    exact ho.symm
  rw [encodeTag, encodeVarint_eq, hn, tag]

def delimited (body : List Byte) : List Byte :=
  encode (BitVec.ofNat 64 body.length).toNat ++ body

theorem encodeString_eq (body : List Byte) : encodeString body = write (delimited body) := by
  rw [delimited, write_append, ← encodeVarint_eq]
  rfl

end Write

section DecodeVarint

variable {result : BitVec 64}

theorem decodeVarint_loop_of_terminated (h : Terminated bs) (hr : result.toNat < 2 ^ bitpos)
    (hb : bitpos + 7 * bs.length ≤ 70) :
    decodeVarint.loop bitpos result (bs ++ s) =
      .ok (result + BitVec.ofNat 64 (2 ^ bitpos * value bs), s) := by
  induction h generalizing bitpos result
  case last b hm =>
    have hp : ¬64 ≤ bitpos := by simp at hb; omega
    have hm := (and_high_eq_zero_iff b).mpr hm
    simp only [List.singleton_append, decodeVarint.loop, if_neg hp, hm, or_shift hr, value]
    simp
  case more b bs hm ht hi =>
    have hn : 0 < bs.length := List.length_pos_iff.mpr ht.ne_nil
    simp at hb
    have hp : ¬64 ≤ bitpos := by omega
    have hm := mt (and_high_eq_zero_iff b).mp <| not_not.mpr hm
    have hw : (bitpos + 7) % 256 = bitpos + 7 := Nat.mod_eq_of_lt <| by omega
    have hv : BitVec.ofNat 64 (2 ^ bitpos * value (b :: bs)) =
        BitVec.ofNat 64 (2 ^ bitpos * payload b) +
          BitVec.ofNat 64 (2 ^ (bitpos + 7) * value bs) := by
      rw [← BitVec.ofNat_add, mul_value_cons]
    have hi := hi (toNat_add_payload_lt hr b) <| by omega
    simp only [List.cons_append, decodeVarint.loop, if_neg hp, ne_eq, hm, not_false_eq_true,
      if_true, or_shift hr, hw, hi, hv, BitVec.add_assoc]

theorem decodeVarint_loop_of_more (hb : bitpos + 7 * k = 70) (h : ∀ b ∈ s.take k, More b) :
    decodeVarint.loop bitpos result s =
      .error (if k ≤ s.length then .varintOverflow else .endOfStream) := by
  induction k generalizing bitpos result s
  case zero => cases s <;> simp_all [decodeVarint.loop]
  case succ k hi =>
    cases s
    case nil => simp [decodeVarint.loop]; omega
    case cons b s =>
      simp at h
      have hm := mt (and_high_eq_zero_iff b).mp <| not_not.mpr h.left
      have hp : ¬64 ≤ bitpos := by omega
      have hw : (bitpos + 7) % 256 = bitpos + 7 := Nat.mod_eq_of_lt <| by omega
      have hb : bitpos + 7 + 7 * k = 70 := by omega
      simp only [decodeVarint.loop, if_neg hp, ne_eq, hm, not_false_eq_true, if_true, hw,
        hi hb h.right, List.length_cons, Nat.succ_le_succ_iff]

theorem reads_decodeVarint (h : Terminated bs) (hl : bs.length ≤ 10) :
    Reads decodeVarint bs (BitVec.ofNat 64 (value bs)) := by
  intro s
  have h : decodeVarint.loop 0 0 (bs ++ s) = .ok (0 + BitVec.ofNat 64 (2 ^ 0 * value bs), s) :=
    decodeVarint_loop_of_terminated h (by simp) (by omega)
  have hz : (0 : BitVec 64) + BitVec.ofNat 64 (value bs) = BitVec.ofNat 64 (value bs) :=
    BitVec.zero_add _
  rwa [Nat.pow_zero, Nat.one_mul, hz] at h

theorem decodeVarint_of_more (h : ∀ b ∈ s.take 10, More b) :
    decodeVarint.run s = .error (if 10 ≤ s.length then .varintOverflow else .endOfStream) :=
  decodeVarint_loop_of_more rfl h

theorem exists_of_decodeVarint {v : BitVec 64} (h : decodeVarint.run s = .ok (v, t)) :
    ∃ bs, Terminated bs ∧ bs.length ≤ 10 ∧ s = bs ++ t ∧ v = BitVec.ofNat 64 (value bs) := by
  obtain ⟨bs, t', ht, hl, rfl⟩ | hm := Varint.split 10 s
  case inl =>
    rw [reads_decodeVarint ht hl] at h
    simp at h
    exact ⟨bs, ht, hl, h.right ▸ rfl, h.left.symm⟩
  case inr =>
    rw [decodeVarint_of_more hm] at h
    contradiction

-- A number is read from its bytes, of which there are not more than ten, and nothing else is read.
-- There is no number when the first ten bytes all say that another one follows.
theorem decodeVarint_iff (s : IStream) :
    (∀ v t, decodeVarint.run s = .ok (v, t) ↔
      ∃ bs, Terminated bs ∧ bs.length ≤ 10 ∧ s = bs ++ t ∧ v = BitVec.ofNat 64 (value bs)) ∧
    ∀ e, decodeVarint.run s = .error e ↔
      (∀ b ∈ s.take 10, More b) ∧ e = if 10 ≤ s.length then .varintOverflow else .endOfStream := by
  constructor
  case left =>
    intro v t
    refine ⟨exists_of_decodeVarint, ?_⟩
    intro ⟨bs, ht, hl, hs, hv⟩
    rw [hs, hv, reads_decodeVarint ht hl]
  case right =>
    intro e
    constructor
    case mp =>
      intro h
      obtain ⟨bs, t, ht, hl, rfl⟩ | hm := Varint.split 10 s
      case inl =>
        rw [reads_decodeVarint ht hl] at h
        contradiction
      case inr =>
        rw [decodeVarint_of_more hm] at h
        exact ⟨hm, by injection h with h; exact h.symm⟩
    case mpr =>
      intro ⟨hm, he⟩
      rw [decodeVarint_of_more hm, he]

theorem reads_encode (v : BitVec 64) : Reads decodeVarint (encode v.toNat) v := by
  have hl : (encode v.toNat).length ≤ 9 + 1 := Varint.length_encode_le <| by omega
  have h := reads_decodeVarint (Varint.terminated_encode _) hl
  rwa [Varint.value_encode, BitVec.ofNat_toNat, BitVec.setWidth_eq] at h

theorem consumes_decodeVarint : Consumes decodeVarint := by
  intro s v t h
  obtain ⟨bs, ht, -, rfl, -⟩ := exists_of_decodeVarint h
  have hb := List.length_pos_iff.mpr ht.ne_nil
  rw [List.length_append]
  omega

end DecodeVarint

section Zigzag

variable {v : BitVec 64}

theorem lowest_of_neg (v : BitVec 64) : ~~~(v <<< 1) &&& 1 = 1 := by
  ext i hi
  by_cases h : i = 0 <;> simp [h, BitVec.getElem_one]

theorem lowest_of_nonneg (v : BitVec 64) : v <<< 1 &&& 1 = 0 := by
  ext i hi
  by_cases h : i = 0 <;> simp [h, BitVec.getElem_one]

theorem shift_back_of_neg (h : v.msb = true) : ~~~(~~~(v <<< 1) >>> 1) = v := by
  ext i hi
  by_cases hl : i = 63
  case pos => subst hl; simp; grind [BitVec.msb]
  case neg => simp; grind

theorem shift_back_of_nonneg (h : v.msb = false) : (v <<< 1) >>> 1 = v := by
  ext i hi
  by_cases hl : i = 63
  case pos => subst hl; simp; grind [BitVec.msb]
  case neg => simp; grind

theorem unzigzag_zigzag (v : BitVec 64) : unzigzag (zigzag v) = v := by
  cases h : v.msb
  case false =>
    have hn : ¬v.slt 0 := by simp [BitVec.slt_zero_iff_msb_cond, h]
    have hz : ¬v <<< 1 &&& 1 ≠ 0 := not_not.mpr <| lowest_of_nonneg v
    rw [zigzag, if_neg hn, unzigzag, if_neg hz, shift_back_of_nonneg h]
  case true =>
    have hn : v.slt 0 := by simp [BitVec.slt_zero_iff_msb_cond, h]
    have hz : ~~~(v <<< 1) &&& 1 ≠ 0 := by rw [lowest_of_neg v]; decide
    rw [zigzag, if_pos hn, unzigzag, if_pos hz, shift_back_of_neg h]

theorem reads_encode_zigzag (v : BitVec 64) :
    Reads decodeSvarint (encode (zigzag v).toNat) v := by
  have h := (reads_encode (zigzag v)).map (f := unzigzag)
  rwa [unzigzag_zigzag] at h

end Zigzag

section DecodeVarint32

variable {result : BitVec 32}

theorem decodeVarint32_loop_of_terminated (h : Terminated bs) (hr : result.toNat < 2 ^ bitpos)
    (hb : bitpos + 7 * bs.length ≤ 35) (hv : result.toNat + 2 ^ bitpos * value bs < 2 ^ 32) :
    decodeVarint32.loop bitpos result (bs ++ s) =
      .ok (result + BitVec.ofNat 32 (2 ^ bitpos * value bs), s) := by
  induction h generalizing bitpos result
  case last b hm =>
    simp at hb
    have hp : ¬32 ≤ bitpos := by omega
    have hw : (bitpos + 7) % 256 = bitpos + 7 := Nat.mod_eq_of_lt <| by omega
    have ht : ¬(bitpos + 7 = 35 ∧ b &&& 0x70 ≠ 0) := by
      intro ⟨hb, ht⟩
      obtain rfl : bitpos = 28 := by omega
      refine ht <| and_top_eq_zero ?_
      simp [value, Varint.payload_of_not_more hm] at hv
      omega
    have hm := (and_high_eq_zero_iff b).mpr hm
    simp only [List.singleton_append, decodeVarint32.loop, hp, false_and, if_false, hm, ne_eq,
      not_true_eq_false, hw, ht, or_shift hr, value]
    simp
  case more b bs hm ht hi =>
    have hn : 0 < bs.length := List.length_pos_iff.mpr ht.ne_nil
    simp at hb
    have hp : ¬32 ≤ bitpos := by omega
    have hm := mt (and_high_eq_zero_iff b).mp <| not_not.mpr hm
    have hw : (bitpos + 7) % 256 = bitpos + 7 := Nat.mod_eq_of_lt <| by omega
    rw [mul_value_cons] at hv
    have hl := toNat_add_payload_le bitpos result b
    have he : BitVec.ofNat 32 (2 ^ bitpos * value (b :: bs)) =
        BitVec.ofNat 32 (2 ^ bitpos * payload b) +
          BitVec.ofNat 32 (2 ^ (bitpos + 7) * value bs) := by
      rw [← BitVec.ofNat_add, mul_value_cons]
    have hi := hi (toNat_add_payload_lt hr b) (by omega) (by omega)
    simp only [List.cons_append, decodeVarint32.loop, hp, false_and, if_false, ne_eq, hm,
      not_false_eq_true, if_true, or_shift hr, hw, hi, he, BitVec.add_assoc]

theorem run_decodeVarint32Eof_cons (b : Byte) (s : IStream) :
    decodeVarint32Eof.run (b :: s) =
      (if b &&& 0x80 = 0 then
        pure <| some <| b.setWidth 32
      else
        some <$> StateT.mk (decodeVarint32.loop 7 <| (b &&& 0x7F).setWidth 32) : Decode _).run s :=
  rfl

theorem reads_decodeVarint32Eof (h : n < 2 ^ 32) :
    Reads decodeVarint32Eof (encode n) (some <| BitVec.ofNat 32 n) := by
  intro s
  have hl : (encode n).length ≤ 4 + 1 := Varint.length_encode_le <| by omega
  have hv := Varint.value_encode n
  have ht := Varint.terminated_encode n
  generalize encode n = bs at hl hv ht
  subst hv
  cases ht
  case last b hm =>
    have hb := (and_high_eq_zero_iff b).mpr hm
    have hs : b.setWidth 32 = BitVec.ofNat 32 (value [b]) :=
      BitVec.eq_of_toNat_eq <| by simp [value, Varint.payload_of_not_more hm]
    rw [List.singleton_append, run_decodeVarint32Eof_cons, if_pos hb, hs]
    rfl
  case more b bs hm ht =>
    have hm := mt (and_high_eq_zero_iff b).mp <| not_not.mpr hm
    simp at hl
    have hs : (b &&& 0x7F).setWidth 32 = BitVec.ofNat 32 (payload b) :=
      BitVec.eq_of_toNat_eq <| by rw [BitVec.toNat_setWidth, toNat_and_low, BitVec.toNat_ofNat]
    have hp : payload b < 128 := Nat.mod_lt _ (by decide)
    have hn : (BitVec.ofNat 32 (payload b)).toNat = payload b := Nat.mod_eq_of_lt <| by omega
    have hr : (BitVec.ofNat 32 (payload b)).toNat < 2 ^ 7 := by rw [hn]; exact hp
    have hv : (BitVec.ofNat 32 (payload b)).toNat + 2 ^ 7 * value bs < 2 ^ 32 := by
      rw [hn]
      exact h
    have hi := decodeVarint32_loop_of_terminated (s := s) ht hr (by omega) hv
    rw [List.cons_append, run_decodeVarint32Eof_cons, if_neg hm, hs, StateT.run_map,
      StateT.run_mk, hi, ← BitVec.ofNat_add]
    rfl

theorem reads_decodeVarint32 (h : n < 2 ^ 32) :
    Reads decodeVarint32 (encode n) (BitVec.ofNat 32 n) := by
  rw [← List.append_nil (encode n)]
  exact (reads_decodeVarint32Eof h).bind <| .pure _

-- What a byte can make of the loop's state.
theorem decodeVarint32_loop_cons (bitpos : ℕ) (result : BitVec 32) (b : Byte) :
    (∀ s, decodeVarint32.loop bitpos result (b :: s) = .error .varintOverflow) ∨
    (∃ p r, ∀ s, decodeVarint32.loop bitpos result (b :: s) = decodeVarint32.loop p r s) ∨
    ∃ r, ∀ s, decodeVarint32.loop bitpos result (b :: s) = .ok (r, s) := by
  simp only [decodeVarint32.loop]
  generalize (if bitpos < 63 then 0xFF else 0x01 : Byte) = signExtension
  split
  case isTrue => exact .inl fun _ => rfl
  case isFalse =>
    split
    case isTrue => exact .inr <| .inl ⟨_, _, fun _ => rfl⟩
    case isFalse =>
      split
      case isTrue  => exact .inl fun _ => rfl
      case isFalse => exact .inr <| .inr ⟨_, fun _ => rfl⟩

theorem length_le_of_decodeVarint32_loop {v : BitVec 32}
    (h : decodeVarint32.loop bitpos result s = .ok (v, t)) : t.length ≤ s.length := by
  induction s generalizing bitpos result
  case nil => contradiction
  case cons b s hi =>
    obtain hb | ⟨p, r, hb⟩ | ⟨r, hb⟩ := decodeVarint32_loop_cons bitpos result b
    all_goals rw [hb] at h
    case inl     => contradiction
    case inr.inl => exact Nat.le_succ_of_le <| hi h
    case inr.inr => cases h; simp

theorem consumes_decodeVarint32Eof : Consumes decodeVarint32Eof := by
  intro s v t h
  cases s
  case nil => cases h; simp
  case cons b s =>
    rw [run_decodeVarint32Eof_cons] at h
    split at h
    case isTrue => cases h; simp
    case isFalse =>
      have hs : Shrinks <| StateT.mk (decodeVarint32.loop 7 <| (b &&& 0x7F).setWidth 32) :=
        fun _ _ _ => length_le_of_decodeVarint32_loop
      exact hs.map s v t h

theorem consumes_decodeVarint32 : Consumes decodeVarint32 := by
  refine consumes_decodeVarint32Eof.bind fun v => ?_
  cases v
  case none => exact .throw _
  case some => exact .pure _

theorem bounded_decodeVarint32 : Bounded (fun _ => 1) 0 decodeVarint32 :=
  consumes_decodeVarint32.bounded fun _ h => by contradiction

end DecodeVarint32

section Read

theorem run_read (n : ℕ) (s : IStream) :
    (read n).run s = if s.length < n then .error .endOfStream else .ok (s.take n, s.drop n) := by
  change (if s.length < n then throw .endOfStream else do
    set <| s.drop n
    return s.take n : Decode _).run s = _
  split <;> rfl

theorem reads_read (body : List Byte) : Reads (read body.length) body body := by
  intro s
  simp [run_read]

theorem shrinks_read : Shrinks (read n) := by
  intro s a t h
  rw [run_read] at h
  split at h
  case isTrue  => contradiction
  case isFalse => cases h; simp

theorem delimited_eq (h : body.length < 2 ^ 32) : delimited body = encode body.length ++ body := by
  rw [delimited, BitVec.toNat_ofNat, Nat.mod_eq_of_lt <| by omega]

theorem run_makeStringSubstream {size : BitVec 32} (h : decodeVarint32.run s = .ok (size, t)) :
    makeStringSubstream.run s =
      if t.length < size.toNat then
        .error .parentStreamTooShort
      else
        .ok (t.take size.toNat, t.drop size.toNat) := by
  rw [makeStringSubstream, Decoder.run_bind_of_ok h]
  change (if t.length < size.toNat then throw .parentStreamTooShort else do
    set <| t.drop size.toNat
    return t.take size.toNat : Decode _).run t = _
  split <;> rfl

theorem reads_makeStringSubstream (h : body.length < 2 ^ 32) :
    Reads makeStringSubstream (delimited body) body := by
  intro s
  rw [delimited_eq h, List.append_assoc, run_makeStringSubstream <| reads_decodeVarint32 h _,
    BitVec.toNat_ofNat, Nat.mod_eq_of_lt h]
  simp

theorem bounded_makeStringSubstream : Bounded (1 + ·.length) 0 makeStringSubstream := by
  intro s substream t h
  obtain ⟨size, s', hs, -⟩ := Decoder.run_bind_eq_ok h
  have hl := bounded_decodeVarint32 _ _ _ hs
  rw [run_makeStringSubstream hs] at h
  split at h
  case isTrue  => contradiction
  case isFalse =>
    cases h
    simp at hl ⊢
    omega

theorem reads_onSubstream {α : Type} {d : Decode α} {a : α} (h : body.length < 2 ^ 32)
    (hd : d.run body = .ok (a, t)) : Reads (onSubstream d) (delimited body) a := by
  rw [← List.append_nil (delimited body)]
  refine (reads_makeStringSubstream h).bind fun s => ?_
  rw [hd]
  rfl

theorem shrinks_onSubstream {α : Type} (d : Decode α) : Shrinks (onSubstream d) := by
  refine bounded_makeStringSubstream.shrinks.bind fun body => ?_
  intro s a t h
  cases hd : d.run body
  case error e => rw [hd] at h; contradiction
  case ok r    => rw [hd] at h; cases h; exact Nat.le_refl _

end Read

section Skip

theorem reads_skipVarint (h : Terminated bs) : Reads skipVarint bs () := by
  intro s
  change skipVarint.loop (bs ++ s) = _
  induction h
  case last b hm =>
    have hb := (and_high_eq_zero_iff b).mpr hm
    rw [List.singleton_append, skipVarint.loop, if_neg <| not_not.mpr hb]
  case more b bs hm _ hi =>
    have hm := mt (and_high_eq_zero_iff b).mp <| not_not.mpr hm
    rw [List.cons_append, skipVarint.loop, if_pos hm, hi]

theorem shrinks_skipVarint : Shrinks skipVarint := by
  intro s a t h
  change skipVarint.loop s = _ at h
  induction s
  case nil => contradiction
  case cons b s hi =>
    rw [skipVarint.loop] at h
    split at h
    case isTrue  => exact Nat.le_succ_of_le <| hi h
    case isFalse => cases h; simp

theorem reads_skipString (h : body.length < 2 ^ 32) : Reads skipString (delimited body) () := by
  rw [delimited_eq h]
  refine (reads_decodeVarint32 h).bind ?_
  rw [BitVec.toNat_ofNat, Nat.mod_eq_of_lt h]
  exact (reads_read body).map

theorem shrinks_skipString : Shrinks skipString :=
  consumes_decodeVarint32.shrinks.bind fun _ => shrinks_read.map

theorem shrinks_skipField (wireType : WireType) : Shrinks (skipField wireType) := by
  unfold skipField
  split
  case isTrue => exact shrinks_skipVarint
  case isFalse =>
    split
    case isTrue => exact shrinks_read.map
    case isFalse =>
      split
      case isTrue => exact shrinks_skipString
      case isFalse =>
        split
        case isTrue  => exact shrinks_read.map
        case isFalse => exact .throw _

end Skip

section Tag

variable {wireType : WireType} {number : BitVec 32}

theorem reads_decodeTag (h₀ : 0 < number.toNat) (h : number.toNat < 2 ^ 29) :
    Reads decodeTag (tag wireType number) (some (wireType, number)) := by
  have hw : wireType.toNat < 2 ^ 3 := wireType.isLt
  have hl : number.toNat * 8 + wireType.toNat < 2 ^ 32 := by omega
  have hm : (number.toNat * 8 + wireType.toNat) % 4294967296 = number.toNat * 8 + wireType.toNat :=
    Nat.mod_eq_of_lt hl
  have ht : BitVec.ofNat 32 (number.toNat * 8 + wireType.toNat) ≠ 0 := by
    intro ht
    have ht := congrArg BitVec.toNat ht
    simp at ht
    omega
  have hx : (BitVec.ofNat 32 (number.toNat * 8 + wireType.toNat)).setWidth 3 = wireType := by
    apply BitVec.eq_of_toNat_eq
    simp
    omega
  have hy : BitVec.ofNat 32 (number.toNat * 8 + wireType.toNat) >>> 3 = number := by
    apply BitVec.eq_of_toNat_eq
    simp [Nat.shiftRight_eq_div_pow]
    omega
  rw [tag, ← List.append_nil (encode _)]
  refine (reads_decodeVarint32Eof hl).bind ?_
  simp only [if_neg ht, hx, hy]
  exact .pure _

theorem consumes_decodeTag : Consumes decodeTag := by
  refine consumes_decodeVarint32Eof.bind fun v => ?_
  cases v
  case none => exact .pure _
  case some => exact .pure _

end Tag

end Nanopb
