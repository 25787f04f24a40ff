import WaltzExample.Nanopb.Wire.Theorems

namespace Nanopb

open Varint (Byte)
open Decoder (Local LocalAt)

variable {α : Type} {s : IStream}

-- The errors of streams that are too short.
def Error.Short : Error → Prop
  | endOfStream | parentStreamTooShort => True
  | _                                  => False

theorem Error.short_endOfStream : Short endOfStream :=
  trivial

theorem Error.short_parentStreamTooShort : Short parentStreamTooShort :=
  trivial

section Varint

theorem local_decodeVarint : Local Error.Short decodeVarint := by
  intro s
  constructor
  case ok =>
    intro v t h u
    obtain ⟨bs, ht, hl, rfl, rfl⟩ := exists_of_decodeVarint h
    rw [List.append_assoc, reads_decodeVarint ht hl]
  case error =>
    intro e h u
    obtain ⟨bs, t, ht, hl, rfl⟩ | hm := Varint.split 10 s
    case inl =>
      rw [reads_decodeVarint ht hl] at h
      contradiction
    case inr =>
      rw [decodeVarint_of_more hm] at h
      by_cases hl : 10 ≤ s.length
      case neg =>
        rw [if_neg hl] at h
        cases h
        exact .inl Error.short_endOfStream
      case pos =>
        have hm : ∀ b ∈ (s ++ u).take 10, Varint.More b := by
          rwa [List.take_append_of_le_length hl]
        rw [decodeVarint_of_more hm, ← h, if_pos hl, if_pos <| by simp; omega]
        exact .inr rfl

theorem local_decodeVarint32_loop (bitpos : ℕ) (result : BitVec 32) :
    Local Error.Short <| StateT.mk <| decodeVarint32.loop bitpos result := by
  intro s
  induction s generalizing bitpos result
  case nil => exact .nil rfl Error.short_endOfStream
  case cons b s hi =>
    obtain h | ⟨p, r, h⟩ | ⟨r, h⟩ := decodeVarint32_loop_cons bitpos result b
    case inl     => exact .cons h <| Local.throw Error.varintOverflow s
    case inr.inl => exact .cons h <| hi p r
    case inr.inr => exact .cons h <| Local.pure r s

theorem local_decodeVarint32Eof (h : s ≠ []) : LocalAt Error.Short decodeVarint32Eof s := by
  cases s
  case nil => contradiction
  case cons b s =>
    refine .cons (run_decodeVarint32Eof_cons b) ?_
    split
    case isTrue  => exact Local.pure _ s
    case isFalse => exact (local_decodeVarint32_loop _ _ s).map

theorem local_decodeVarint32 : Local Error.Short decodeVarint32 := by
  intro s
  by_cases h : s = []
  case pos => exact h ▸ .nil rfl Error.short_endOfStream
  case neg =>
    refine (local_decodeVarint32Eof h).bind fun v => ?_
    cases v
    case none => exact .throw _
    case some => exact .pure _

end Varint

section Read

theorem local_read (n : ℕ) : Local Error.Short (read n) :=
  .of_take (f := id) Error.short_endOfStream <| run_read n

theorem local_makeStringSubstream : Local Error.Short makeStringSubstream := by
  refine fun s => (local_decodeVarint32 s).bind fun size => ?_
  refine .of_take (n := size.toNat) (f := id) Error.short_parentStreamTooShort fun s => ?_
  change (if s.length < size.toNat then throw .parentStreamTooShort else do
    set <| s.drop size.toNat
    return s.take size.toNat : Decode _).run s = _
  split <;> rfl

theorem local_onSubstream (d : Decode α) : Local Error.Short (onSubstream d) := by
  refine fun s => (local_makeStringSubstream s).bind fun substream => ?_
  cases d.run substream
  case error e => exact .throw e
  case ok r    => exact .pure r.fst

end Read

section Skip

theorem local_skipVarint : Local Error.Short skipVarint := by
  intro s
  change LocalAt Error.Short (StateT.mk skipVarint.loop) s
  induction s
  case nil => exact .nil rfl Error.short_endOfStream
  case cons b s hi =>
    by_cases hm : b &&& 0x80 ≠ 0
    case pos =>
      have h s : skipVarint.loop (b :: s) = skipVarint.loop s := if_pos hm
      exact .cons h hi
    case neg =>
      have h s : skipVarint.loop (b :: s) = .ok ((), s) := if_neg hm
      exact .cons h <| Local.pure () s

theorem local_skipString : Local Error.Short skipString :=
  fun s => (local_decodeVarint32 s).bind fun _ s => (local_read _ s).map

theorem local_skipField (wireType : WireType) : Local Error.Short (skipField wireType) := by
  unfold skipField
  split
  case isTrue => exact local_skipVarint
  case isFalse =>
    split
    case isTrue => exact fun s => (local_read 8 s).map
    case isFalse =>
      split
      case isTrue => exact local_skipString
      case isFalse =>
        split
        case isTrue  => exact fun s => (local_read 4 s).map
        case isFalse => exact .throw _

end Skip

theorem local_decodeTag (h : s ≠ []) : LocalAt Error.Short decodeTag s := by
  refine (local_decodeVarint32Eof h).bind fun v => ?_
  cases v
  case none => exact .pure _
  case some => exact .pure _

end Nanopb
