import Mathlib.Data.List.Forall2
import WaltzExample.Nanopb.Message.Format

namespace Nanopb

open Varint (Byte)
open Decoder (Reads Shrinks Consumes Bounded Steps)

variable {α σ τ : Type}

section Values

variable {dataSize : ℕ} {ltype : LType}

theorem setWidth_signExtend (h : ValidDataSize dataSize) (x : BitVec (8 * dataSize)) :
    (x.signExtend 64).setWidth (8 * dataSize) = x := by
  have h : 8 * dataSize ≤ 64 := by simp [ValidDataSize] at h; omega
  ext i hi
  have hl : i < 64 := Nat.lt_of_lt_of_le hi h
  simp [BitVec.getElem_signExtend, hi, hl]

theorem signExtend_setWidth (h : 8 * dataSize ≤ 32) (x : BitVec (8 * dataSize)) :
    ((x.signExtend 64).setWidth 32).signExtend 64 = x.signExtend 64 := by
  apply BitVec.eq_of_getLsbD_eq
  intro i hi
  simp only [BitVec.getLsbD_signExtend, BitVec.msb_eq_getLsbD_last, BitVec.getLsbD_setWidth]
  grind

theorem svalue_eq (h : ValidDataSize dataSize) (x : BitVec (8 * dataSize)) :
    (if dataSize = 8 then x.signExtend 64 else ((x.signExtend 64).setWidth 32).signExtend 64) =
      x.signExtend 64 := by
  split
  case isTrue  => rfl
  case isFalse => exact signExtend_setWidth (by simp [ValidDataSize] at h; omega) x

theorem setWidth_setWidth (h : ValidDataSize dataSize) (x : BitVec (8 * dataSize)) :
    (x.setWidth 64).setWidth (8 * dataSize) = x := by
  have h : 8 * dataSize ≤ 64 := by simp [ValidDataSize] at h; omega
  simp [BitVec.setWidth_setWidth_of_le _ h]

section Clamp

variable {widen : BitVec (8 * dataSize) → BitVec 64} {value : BitVec 64}

theorem clamp_eq (h : ValidDataSize dataSize) {x : BitVec (8 * dataSize)}
    (hx : value.setWidth (8 * dataSize) = x) (hw : widen x = value) :
    clamp widen value = pure x := by
  simp only [clamp, if_pos h, hx, hw, ne_eq, not_true_eq_false, if_false]

theorem shrinks_clamp : Shrinks (clamp widen value) := by
  unfold clamp
  split
  case isFalse => exact .throw _
  case isTrue =>
    dsimp only
    split
    case isTrue  => exact .throw _
    case isFalse => exact .pure _

end Clamp

theorem reads_decVarint (h : ValidDataSize dataSize) (x : BitVec (8 * dataSize)) :
    Reads decVarint (Varint.encode (x.signExtend 64).toNat) x := by
  rw [← List.append_nil (Varint.encode _)]
  refine (reads_encode _).bind ?_
  rw [svalue_eq h, clamp_eq h (setWidth_signExtend h x) rfl]
  exact .pure x

theorem reads_decUvarint (h : ValidDataSize dataSize) (x : BitVec (8 * dataSize)) :
    Reads decUvarint (Varint.encode (x.setWidth 64).toNat) x := by
  rw [← List.append_nil (Varint.encode _)]
  refine (reads_encode _).bind ?_
  rw [clamp_eq h (setWidth_setWidth h x) rfl]
  exact .pure x

theorem reads_decSvarint (h : ValidDataSize dataSize) (x : BitVec (8 * dataSize)) :
    Reads decSvarint (Varint.encode (zigzag <| x.signExtend 64).toNat) x := by
  rw [← List.append_nil (Varint.encode _)]
  refine (reads_encode_zigzag _).bind ?_
  rw [clamp_eq h (setWidth_signExtend h x) rfl]
  exact .pure x

theorem run_decBytes {size : BitVec 32} {s t : IStream} (h : decodeVarint32.run s = .ok (size, t)) :
    decBytes.run s =
      if t.length < size.toNat then
        .error .endOfStream
      else
        .ok (.take size t, t.drop size.toNat) := by
  rw [decBytes, Decoder.run_bind_of_ok h]
  change (if t.length < size.toNat then throw .endOfStream else do
    set <| t.drop size.toNat
    return Counted.take size t : Decode _).run t = _
  split <;> rfl

theorem reads_decBytes (x : Counted Byte) : Reads decBytes (delimited x.val) x := by
  intro s
  have hn : (BitVec.ofNat 32 x.val.length).toNat = x.val.length := Nat.mod_eq_of_lt x.property
  have hx : Counted.take (BitVec.ofNat 32 x.val.length) (x.val ++ s) = x :=
    Subtype.ext <| by simp only [Counted.take, hn, List.take_left]
  rw [delimited_eq x.property, List.append_assoc, run_decBytes <| reads_decodeVarint32 x.property _,
    hx, hn, if_neg <| by simp, List.drop_left]

theorem reads_decode (h : ltype.Valid) (x : ltype.Data) :
    Reads ltype.decode (ltype.payload x) x := by
  cases ltype
  case varint  => exact reads_decVarint h x
  case uvarint => exact reads_decUvarint h x
  case svarint => exact reads_decSvarint h x
  case bytes   => exact reads_decBytes x

theorem bounded_decBytes : Bounded (1 + ·.val.length) 0 decBytes := by
  intro s x t h
  obtain ⟨size, s', hs, -⟩ := Decoder.run_bind_eq_ok h
  have hl := bounded_decodeVarint32 _ _ _ hs
  rw [run_decBytes hs] at h
  split at h
  case isTrue  => contradiction
  case isFalse =>
    cases h
    simp [Counted.take] at hl ⊢
    omega

theorem consumes_decode (ltype : LType) : Consumes ltype.decode := by
  cases ltype
  case varint  => exact consumes_decodeVarint.bind fun _ => shrinks_clamp
  case uvarint => exact consumes_decodeVarint.bind fun _ => shrinks_clamp
  case svarint => exact consumes_decodeVarint.map.bind fun _ => shrinks_clamp
  case bytes   => exact bounded_decBytes.consumes

end Values

section Fields

variable {func : α → Decode α} {init : α} {find : Find σ} {packable : Bool} {wireType : WireType}

theorem consumes_decodePacked_step {func : Decode α} (h : Consumes func) (xs : Counted α) :
    Consumes (decodePacked.step func xs) := by
  refine h.bind fun x => ?_
  split
  case isTrue  => exact .throw _
  case isFalse => exact .pure _

-- A property that all decoders of fields have when those of values have it.
structure Inherited (P : (α : Type) → Decode α → Prop) : Prop where
  map {α β : Type} {d : Decode α} (f : α → β) : P α d → P β (f <$> d)
  throw {α : Type} (e : Error)                : P α (throw e)
  onSubstream {α : Type} (d : Decode α)       : P α (onSubstream d)

variable {P : (α : Type) → Decode α → Prop}

theorem Inherited.of_decodeField (hP : Inherited P) (h : ∀ x, P α (func x)) (htype : HType)
    (x : htype.Slot α) : P _ (decodeField wireType packable func init htype x) := by
  cases htype
  case optional => exact hP.map _ <| h _
  case repeated =>
    rw [decodeField]
    split
    case isTrue => exact hP.onSubstream _
    case isFalse =>
      split
      case isTrue  => exact hP.throw _
      case isFalse => exact hP.map _ <| h _

theorem field_eq_some {tag number : BitVec 32} {htype : HType} {x : htype.Slot α}
    {decode : Decode (htype.Slot α)}
    (h : Find.field tag packable func init htype wireType number x = some decode) :
    decode = decodeField wireType packable func init htype x := by
  unfold Find.field at h
  split at h
  case isTrue  => cases h; rfl
  case isFalse => contradiction

theorem append_eq_some {f : Find σ} {g : Find τ} {number : BitVec 32} {x : σ} {y : τ}
    {decode : Decode (σ × τ)} (h : f.append g wireType number (x, y) = some decode) :
    (∃ d, f wireType number x = some d ∧ decode = (·, y) <$> d) ∨
      ∃ d, g wireType number y = some d ∧ decode = (x, ·) <$> d := by
  simp only [Find.append] at h
  split at h
  case h_1 d hf => cases h; exact .inl ⟨d, hf, rfl⟩
  case h_2 =>
    obtain ⟨d, hg, rfl⟩ := Option.map_eq_some_iff.mp h
    exact .inr ⟨d, hg, rfl⟩

theorem Inherited.of_find (hP : Inherited P) (h : ∀ ltype : LType, P _ ltype.decode)
    {fields : Fields} {number : BitVec 32} {m : fields.Message} {decode : Decode fields.Message}
    (hd : fields.find wireType number m = some decode) : P _ decode := by
  induction fields
  case last => contradiction
  case value ltype next hi =>
    obtain ⟨d, hf, rfl⟩ | ⟨d, hf, rfl⟩ := append_eq_some hd
    case inl => exact hP.map _ <| field_eq_some hf ▸ hP.of_decodeField (fun _ => h ltype) _ _
    case inr => exact hP.map _ <| hi hf
  case submessage ptr next _ hi =>
    obtain ⟨d, hf, rfl⟩ | ⟨d, hf, rfl⟩ := append_eq_some hd
    case inl =>
      exact hP.map _ <| field_eq_some hf ▸ hP.of_decodeField (fun _ => hP.onSubstream _) _ _
    case inr => exact hP.map _ <| hi hf

-- No field is decoded by going back.
def Find.Forward (find : Find σ) : Prop :=
  ∀ wireType number x decode, find wireType number x = some decode → Shrinks decode

theorem inherited_shrinks : Inherited fun _ => Shrinks where
  map _       := .map
  throw       := .throw
  onSubstream := shrinks_onSubstream

theorem Fields.forward_find (fields : Fields) : fields.find.Forward :=
  fun _ _ _ _ hd => inherited_shrinks.of_find (fun ltype => (consumes_decode ltype).shrinks) hd

theorem consumes_decodeFields_step (h : find.Forward) (dest : σ) :
    Consumes (decodeFields.step find dest) := by
  refine consumes_decodeTag.bind fun r => ?_
  cases r
  case none => exact .pure _
  case some r =>
    refine Shrinks.map ?_
    unfold Find.decodeOrSkip
    split
    case h_1 hd => exact h _ _ _ _ hd
    case h_2    => exact (shrinks_skipField _).bind fun _ => .pure _

end Fields

section Takes

-- How records that follow each other change a message.
inductive Takes (find : Find σ) : List Record → σ → σ → Prop
  | nil  : Takes find [] m m
  | cons : Fields.ValidTag r.tag → Reads (find.decodeOrSkip r.wireType r.tag m) r.payload m' →
    Takes find rs m' m'' → Takes find (r :: rs) m m''

variable {find : Find σ} {g : Find τ} {r : Record} {rs rs' : List Record} {m m' m'' : σ}

theorem Takes.append (h : Takes find rs m m') (h' : Takes find rs' m' m'') :
    Takes find (rs ++ rs') m m'' := by
  induction h
  case nil             => exact h'
  case cons ht hr _ hi => exact .cons ht hr <| hi h'

theorem Record.bytes_ne_nil (r : Record) : r.bytes ≠ [] :=
  List.append_ne_nil_of_left_ne_nil Varint.encode_ne_nil _

theorem reads_decodeFields_step (ht : Fields.ValidTag r.tag)
    (hr : Reads (find.decodeOrSkip r.wireType r.tag m) r.payload m') :
    Reads (decodeFields.step find m) r.bytes (.yield m') :=
  (reads_decodeTag ht.left ht.right).bind hr.map

theorem Takes.steps (h : Takes find rs m m') :
    Steps (decodeFields.step find) m (serialize rs) m' := by
  induction h
  case nil                => exact .nil
  case cons r ht hr _ hi => exact .cons (reads_decodeFields_step ht hr) r.bytes_ne_nil hi

-- What the records have changed is where decoding goes on.
theorem Takes.run (h : Takes find rs m m') (hf : find.Forward) (s : IStream) :
    (decodeFields find m).run (serialize rs ++ s) = (decodeFields find m').run s :=
  Decoder.exhaust_append (consumes_decodeFields_step hf) h.steps s

theorem Takes.run_eq (h : Takes find rs m m') (hf : find.Forward) :
    (decodeFields find m).run (serialize rs) = .ok (m', []) :=
  Decoder.exhaust_of_steps (consumes_decodeFields_step hf) h.steps

end Takes

section Merges

-- What is decoded into an optional field replaces the field, unless it is a message, and what is
-- decoded into an array is appended to it.
def HType.Merges (merges : α → α → α → Prop) (init : α) :
    (htype : HType) → (x y z : htype.Slot α) → Prop
  | .optional, x, none, z   => z = x
  | .optional, x, some y, z => ∃ w, z = some w ∧ merges (x.getD init) y w
  | .repeated, x, y, z      => z.val = x.val ++ y.val

-- Decoding what `m'` is encoded as changes `m` to `m''`.
def Fields.Merges : (fields : Fields) → (m m' m'' : fields.Message) → Prop
  | last, _, _, _ => True
  | value _ htype ltype next, (x, xs), (y, ys), (z, zs) =>
    htype.Merges (fun _ y z => z = y) ltype.zero x y z ∧ next.Merges xs ys zs
  | submessage _ htype ptr next, (x, xs), (y, ys), (z, zs) =>
    htype.Merges ptr.Merges ptr.setToDefaults x y z ∧ next.Merges xs ys zs

variable {merges : α → α → α → Prop} {func : α → Decode α} {payload : α → List Byte} {init : α}
variable {htype : HType} {tag : BitVec 32} {wireType : WireType} {packable : Bool}

theorem merges_absent (h : ∀ y, merges init y y) (y : htype.Slot α) :
    htype.Merges merges init htype.absent y y := by
  cases htype
  case repeated => rfl
  case optional =>
    cases y
    case none   => rfl
    case some y => exact ⟨y, rfl, h y⟩

theorem Fields.merges_default {fields : Fields} (m : fields.Message) :
    fields.Merges fields.setToDefaults m m := by
  induction fields
  case last => trivial
  case value hi            => exact ⟨merges_absent (fun _ => rfl) m.fst, hi m.snd⟩
  case submessage hp hi => exact ⟨merges_absent hp m.fst, hi m.snd⟩

theorem decodeOrSkip_field (x : htype.Slot α) :
    (Find.field tag packable func init htype).decodeOrSkip wireType tag x =
      decodeField wireType packable func init htype x := by
  simp [Find.decodeOrSkip, Find.field]

theorem push_room {xs zs : Counted α} {y : α} {ys : List α} (h : zs.val = xs.val ++ y :: ys) :
    xs.val.length ≠ 2 ^ 32 - 1 := by
  have hz := h ▸ zs.property
  simp at hz
  omega

theorem run_decodePacked {func : Decode α} {xs zs : Counted α} {ys : List α} (hc : Consumes func)
    (hf : ∀ y ∈ ys, Reads func (payload y) y) (h : zs.val = xs.val ++ ys) :
    (decodePacked func xs).run (ys.flatMap payload) = .ok (zs, []) := by
  refine Decoder.exhaust_of_steps (consumes_decodePacked_step hc) ?_
  induction ys generalizing xs
  case nil =>
    obtain rfl : zs = xs := Subtype.ext <| by simpa using h
    exact .nil
  case cons y ys hi =>
    have hr := push_room h
    have hy := hf y <| List.mem_cons_self ..
    have hs : Reads (decodePacked.step func xs) (payload y) (.yield <| xs.push y hr) := by
      rw [← List.append_nil (payload y)]
      refine hy.bind ?_
      rw [dif_neg hr]
      exact .pure _
    refine .cons hs (hc.ne_nil hy) <| hi (fun y hy => hf y <| List.mem_cons_of_mem _ hy) ?_
    simpa [Counted.push] using h

-- The record `r` is decoded to the value `y` of a field, whatever the field was before.
structure Record.Holds (r : Record) (tag : BitVec 32) (packable : Bool)
    (merges : α → α → α → Prop) (func : α → Decode α) (y : α) : Prop where
  tag    : r.tag = tag
  single : ¬(r.wireType = .string ∧ packable)
  reads  : ∀ x z, merges x y z → Reads (func x) r.payload z

-- A field is decoded from one record for each of its values.
theorem takes_values {rs : List Record} (ht : Fields.ValidTag tag) (hi : ∀ y, merges init y y)
    {x y z : htype.Slot α} (hm : htype.Merges merges init x y z)
    (h : List.Forall₂ (fun r y => r.Holds tag packable merges func y) rs (htype.values y)) :
    Takes (Find.field tag packable func init htype) rs x z := by
  cases htype
  case optional =>
    cases y
    case none => cases h; cases hm; exact .nil
    case some y =>
      obtain ⟨w, rfl, hw⟩ := hm
      obtain ⟨r, _, hr, hn, rfl⟩ := List.forall₂_cons_right_iff.mp h
      cases hn
      refine .cons (hr.tag ▸ ht) ?_ .nil
      rw [hr.tag, decodeOrSkip_field]
      exact (hr.reads _ _ hw).map
  case repeated =>
    change z.val = x.val ++ y.val at hm
    change List.Forall₂ _ rs y.val at h
    generalize y.val = ys at hm h
    induction h generalizing x
    case nil =>
      obtain rfl : z = x := Subtype.ext <| by simpa using hm
      exact .nil
    case cons r y rs ys hr _ hs =>
      have hroom := push_room hm
      have hz : z.val = (x.push y hroom).val ++ ys := by simpa [Counted.push] using hm
      refine .cons (hr.tag ▸ ht) ?_ (hs hz)
      rw [hr.tag, decodeOrSkip_field, decodeField, if_neg hr.single, dif_neg hroom]
      exact (hr.reads _ _ <| hi y).map

theorem length_le_delimited (body : List Byte) : body.length ≤ (delimited body).length := by
  simp [delimited]

section Values

variable {ltype : LType}

theorem not_string_of_packable : ¬(ltype.wireType = .string ∧ ltype.Packable) := by
  cases ltype <;> simp [LType.wireType, LType.Packable, WireType.varint, WireType.string]

theorem takes_packed (hv : ltype.Valid) (hp : ltype.Packable) (ht : Fields.ValidTag tag)
    {xs zs : Counted ltype.Data} {ys : List ltype.Data} (h : zs.val = xs.val ++ ys)
    (hl : (delimited <| ys.flatMap ltype.payload).length < 2 ^ 32) :
    Takes (Find.field tag ltype.Packable (fun _ => ltype.decode) ltype.zero .repeated)
      [⟨tag, .string, delimited <| ys.flatMap ltype.payload⟩] xs zs := by
  have hb := Nat.lt_of_le_of_lt (length_le_delimited _) hl
  refine .cons ht ?_ .nil
  rw [decodeOrSkip_field, decodeField, if_pos ⟨rfl, hp⟩]
  exact reads_onSubstream hb <| run_decodePacked (consumes_decode ltype)
    (fun y _ => reads_decode hv y) h

-- Numbers in an array are packed, and all other values have a record each.
theorem takes_value (hv : ltype.Valid) (ht : Fields.ValidTag tag) {x y z : htype.Slot ltype.Data}
    (hm : htype.Merges (fun _ y z => z = y) ltype.zero x y z)
    (hl : ∀ r ∈ records tag ltype.wireType ltype.Packable ltype.payload htype y,
      r.payload.length < 2 ^ 32) :
    Takes (Find.field tag ltype.Packable (fun _ => ltype.decode) ltype.zero htype)
      (records tag ltype.wireType ltype.Packable ltype.payload htype y) x z := by
  by_cases hp : htype = .repeated → ltype.Packable = false
  case pos =>
    rw [records_eq_map y hp]
    refine takes_values ht (fun _ => rfl) hm ?_
    rw [List.forall₂_map_left_iff, List.forall₂_same]
    exact fun y _ => ⟨rfl, not_string_of_packable, fun _ _ hz => hz ▸ reads_decode hv y⟩
  case neg =>
    obtain ⟨rfl, hp⟩ := Classical.not_imp.mp hp
    have hp : ltype.Packable = true := by simpa using hp
    by_cases hn : y.val = []
    case pos =>
      obtain rfl : z = x := Subtype.ext <| by simpa [HType.Merges, hn] using hm
      simp only [records, if_pos hn]
      exact .nil
    case neg =>
      simp only [records, if_neg hn, if_pos hp] at hl ⊢
      exact takes_packed hv hp ht hm <| hl _ <| List.mem_singleton_self _

end Values

end Merges

end Nanopb
