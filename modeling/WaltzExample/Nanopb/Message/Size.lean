import WaltzExample.Nanopb.Message.Decode

namespace Nanopb

open Decoder (Bounded)

variable {α σ τ : Type}

-- The number of values that are part of a message, where every message in it and every byte of a
-- byte array is a value as well.
section Size

def LType.size : (ltype : LType) → ltype.Data → ℕ
  | varint _, _  => 1
  | uvarint _, _ => 1
  | svarint _, _ => 1
  | bytes, x     => 1 + x.val.length

def HType.size (size : α → ℕ) : (htype : HType) → htype.Slot α → ℕ
  | optional, none   => 0
  | optional, some x => size x
  | repeated, xs     => (xs.val.map size).sum

def Fields.size : (fields : Fields) → fields.Message → ℕ
  | last, _ => 0
  | value _ htype ltype next, (x, xs) => htype.size ltype.size x + next.size xs
  | submessage _ htype ptr next, (x, xs) => htype.size (1 + ptr.size ·) x + next.size xs

theorem size_absent (size : α → ℕ) (htype : HType) : htype.size size htype.absent = 0 := by
  cases htype <;> rfl

theorem Fields.size_default (fields : Fields) : fields.size fields.setToDefaults = 0 := by
  induction fields
  case last => rfl
  case value hi        => rw [setToDefaults, size, size_absent, hi]
  case submessage _ hi => rw [setToDefaults, size, size_absent, hi]

theorem size_push (size : α → ℕ) (xs : Counted α) (x : α) (h : xs.val.length ≠ 2 ^ 32 - 1) :
    HType.repeated.size size (xs.push x h) = HType.repeated.size size xs + size x := by
  simp [HType.size, Counted.push]

end Size

section Bounded

variable {size : α → ℕ} {func : α → Decode α} {init : α} {packable : Bool} {wireType : WireType}

theorem bounded_decodeVarint : Bounded (fun _ => 1) 0 decodeVarint :=
  consumes_decodeVarint.bounded fun _ h => by contradiction

theorem bounded_decodeSvarint : Bounded (fun _ => 1) 0 decodeSvarint := by
  refine .map ?_
  exact bounded_decodeVarint

theorem bounded_clamp {dataSize : ℕ} {widen : BitVec (8 * dataSize) → BitVec 64}
    {value : BitVec 64} : Bounded (fun _ => 1) 1 (clamp widen value) :=
  shrinks_clamp.bounded 1

theorem bounded_decode (ltype : LType) : Bounded ltype.size 0 ltype.decode := by
  cases ltype
  case varint  => exact bounded_decodeVarint.bind fun _ => bounded_clamp
  case uvarint => exact bounded_decodeVarint.bind fun _ => bounded_clamp
  case svarint => exact bounded_decodeSvarint.bind fun _ => bounded_clamp
  case bytes   => exact bounded_decBytes

theorem bounded_onSubstream {d : Decode α} {k : ℕ} (h : Bounded size k d) :
    Bounded (1 + size ·) k (onSubstream d) := by
  intro s a t ha
  obtain ⟨substream, s', hs, ha⟩ := Decoder.run_bind_eq_ok ha
  have hl := bounded_makeStringSubstream _ _ _ hs
  cases hd : d.run substream
  case error e => rw [hd] at ha; contradiction
  case ok r =>
    have hr := h _ _ _ hd
    rw [hd] at ha
    cases ha
    simp at hl ⊢
    omega

theorem bounded_decodePacked {func : Decode α} (h : Bounded size 0 func) (xs : Counted α) :
    Bounded (HType.repeated.size size) (HType.repeated.size size xs) (decodePacked func xs) := by
  refine Decoder.Bounded.exhaust (fun xs => ?_) xs
  refine (h.add <| HType.repeated.size size xs).bind fun x => ?_
  split
  case isTrue    => exact .throw _
  case isFalse h => exact .pure <| Nat.le_of_eq <| size_push size xs x h

theorem bounded_decodeField {htype : HType} (x : htype.Slot α) (h : ∀ x : Option α,
    Bounded size (HType.optional.size size x) (func <| x.getD init)) :
    Bounded (htype.size size) (htype.size size x)
      (decodeField wireType packable func init htype x) := by
  cases htype
  case optional => exact .map <| h x
  case repeated =>
    rw [decodeField]
    split
    case isTrue =>
      have hs := bounded_onSubstream <| bounded_decodePacked (h none) x
      exact hs.mono (fun _ => Nat.le_add_left ..) (Nat.le_refl _)
    case isFalse =>
      split
      case isTrue    => exact .throw _
      case isFalse hl =>
        have hp y := Nat.le_of_eq <| size_push size x y hl
        exact .map <| ((h none).add <| HType.repeated.size size x).mono hp <| Nat.le_refl _

end Bounded

section Decode

-- No field makes more than what it is read from.
def Find.Bounded (find : Find σ) (size : σ → ℕ) : Prop :=
  ∀ wireType number x decode, find wireType number x = some decode →
    Decoder.Bounded size (size x) decode

theorem bounded_field {size : α → ℕ} {func : α → Decode α} {init : α} (tag : BitVec 32)
    (packable : Bool) (htype : HType)
    (h : ∀ x : Option α, Bounded size (HType.optional.size size x) (func <| x.getD init)) :
    (Find.field tag packable func init htype).Bounded (htype.size size) :=
  fun _ _ x _ hd => field_eq_some hd ▸ bounded_decodeField x h

theorem bounded_append {f : Find σ} {g : Find τ} {size : σ → ℕ} {size' : τ → ℕ}
    (hf : f.Bounded size) (hg : g.Bounded size') :
    (f.append g).Bounded fun x => size x.fst + size' x.snd := by
  intro wireType number (x, y) decode hd
  obtain ⟨d, h, rfl⟩ | ⟨d, h, rfl⟩ := append_eq_some hd
  case inl =>
    have hb := (hf _ _ _ _ h).add <| size' y
    refine .map <| hb.mono (fun x => Nat.le_of_eq ?_) (Nat.le_of_eq ?_)
    all_goals exact Nat.add_comm ..
  case inr =>
    refine .map ?_
    exact (hg _ _ _ _ h).add <| size x

theorem bounded_decodeFields {find : Find σ} {size : σ → ℕ} (h : find.Bounded size) (dest : σ) :
    Bounded size (size dest) (decodeFields find dest) := by
  refine Decoder.Bounded.exhaust (fun dest => ?_) dest
  refine (consumes_decodeTag.shrinks.bounded <| size dest).bind fun r => ?_
  cases r
  case none => exact .pure <| Nat.le_refl _
  case some r =>
    refine .map ?_
    unfold Find.decodeOrSkip
    split
    case h_1 hd => exact h _ _ _ _ hd
    case h_2    =>
      exact ((shrinks_skipField _).bounded <| size dest).bind fun _ => .pure <| Nat.le_refl _

theorem Fields.bounded_find (fields : Fields) : fields.find.Bounded fields.size := by
  induction fields
  case last => intro _ _ _ _ h; contradiction
  case value tag htype ltype next hi =>
    refine bounded_append (bounded_field tag _ htype fun x => ?_) hi
    cases x
    case none   => exact bounded_decode ltype
    case some x => exact (bounded_decode ltype).mono (fun _ => Nat.le_refl _) (Nat.zero_le _)
  case submessage tag htype ptr next hp hi =>
    refine bounded_append (bounded_field tag _ htype fun x => ?_) hi
    have h := bounded_onSubstream <| bounded_decodeFields hp (x.getD ptr.setToDefaults)
    cases x
    case none =>
      rw [Option.getD_none, ptr.size_default] at h
      exact h
    case some x => exact h.mono (fun _ => Nat.le_refl _) (Nat.le_add_left ..)

-- The values of a message that is decoded are no more than the bytes it is decoded from. For
-- descriptions without fields, or with equal tags, this is about `Fields.find` and not the source.
theorem size_of_decode {fields : Fields} {m : fields.Message} {s t : IStream}
    (h : (decode fields).run s = .ok (m, t)) : fields.size m + t.length ≤ s.length := by
  have hb := bounded_decodeFields fields.bounded_find fields.setToDefaults s m t h
  rwa [fields.size_default, Nat.zero_add] at hb

theorem size_of_decode_packed :
    (Fields.value 7 .repeated (.uvarint 4) .last).size (⟨[1, 2], by decide⟩, ()) + 1 ≤ 6 := by
  have h : (decode <| .value 7 .repeated (.uvarint 4) .last).run [58, 2, 1, 2, 0, 255] =
      .ok ((⟨[1, 2], by decide⟩, ()), [255]) := rfl
  exact size_of_decode h

end Decode

end Nanopb
