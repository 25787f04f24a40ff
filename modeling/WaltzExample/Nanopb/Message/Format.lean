import WaltzExample.Nanopb.Wire.Theorems
import WaltzExample.Nanopb.Message.Basic

namespace Nanopb

open Varint (Byte)

variable {α : Type}

-- A field as it is encoded.
structure Record where
  tag      : BitVec 32
  wireType : WireType
  payload  : List Byte

def Record.bytes (r : Record) : List Byte :=
  Nanopb.tag r.wireType r.tag ++ r.payload

def serialize (rs : List Record) : List Byte :=
  rs.flatMap Record.bytes

@[simp]
theorem serialize_nil : serialize [] = [] :=
  rfl

@[simp]
theorem serialize_cons (r : Record) (rs : List Record) :
    serialize (r :: rs) = r.bytes ++ serialize rs :=
  rfl

@[simp]
theorem serialize_append (rs rs' : List Record) :
    serialize (rs ++ rs') = serialize rs ++ serialize rs' := by
  simp [serialize]

def LType.payload : (ltype : LType) → ltype.Data → List Byte
  | varint _, x  => Varint.encode (x.signExtend 64).toNat
  | uvarint _, x => Varint.encode (x.setWidth 64).toNat
  | svarint _, x => Varint.encode (zigzag <| x.signExtend 64).toNat
  | bytes, x     => delimited x.val

def records (tag : BitVec 32) (wireType : WireType) (packable : Bool) (payload : α → List Byte) :
    (htype : HType) → htype.Slot α → List Record
  | .optional, none   => []
  | .optional, some x => [⟨tag, wireType, payload x⟩]
  | .repeated, xs     =>
    if xs.val = [] then []
    else if packable then [⟨tag, .string, delimited <| xs.val.flatMap payload⟩]
    else xs.val.map (⟨tag, wireType, payload ·⟩)

-- The values of a field, in the order in which they are encoded.
def HType.values : (htype : HType) → htype.Slot α → List α
  | .optional, x  => x.toList
  | .repeated, xs => xs.val

theorem records_eq_map {tag : BitVec 32} {wireType : WireType} {packable : Bool}
    {payload : α → List Byte} {htype : HType} (x : htype.Slot α)
    (h : htype = .repeated → packable = false) :
    records tag wireType packable payload htype x =
      (htype.values x).map (⟨tag, wireType, payload ·⟩) := by
  cases htype
  case optional => cases x <;> rfl
  case repeated =>
    simp only [records, h rfl, HType.values]
    split
    case isTrue hn => simp [hn]
    case isFalse   => rfl

-- What a message is encoded as, given as records whose bytes follow each other.
def Fields.records : (fields : Fields) → fields.Message → List Record
  | last, _ => []
  | value tag htype ltype next, (x, xs) =>
    Nanopb.records tag ltype.wireType ltype.Packable ltype.payload htype x ++ next.records xs
  | submessage tag htype ptr next, (x, xs) =>
    Nanopb.records tag .string false (fun m => delimited <| serialize <| ptr.records m)
        htype x ++
      next.records xs

def Fields.wire (fields : Fields) (m : fields.Message) : List Byte :=
  serialize <| fields.records m

namespace Fields

def tags : Fields → List (BitVec 32)
  | last                    => []
  | value tag _ _ next      => tag :: next.tags
  | submessage tag _ _ next => tag :: next.tags

def ValidTag (tag : BitVec 32) : Prop :=
  0 < tag.toNat ∧ tag.toNat < 2 ^ 29

end Fields

def LType.Valid : LType → Prop
  | varint dataSize  => ValidDataSize dataSize
  | uvarint dataSize => ValidDataSize dataSize
  | svarint dataSize => ValidDataSize dataSize
  | bytes            => True

instance : (ltype : LType) → Decidable ltype.Valid
  | .varint dataSize  => inferInstanceAs <| Decidable (ValidDataSize dataSize)
  | .uvarint dataSize => inferInstanceAs <| Decidable (ValidDataSize dataSize)
  | .svarint dataSize => inferInstanceAs <| Decidable (ValidDataSize dataSize)
  | .bytes            => inferInstanceAs <| Decidable True

instance (tag : BitVec 32) : Decidable (Fields.ValidTag tag) :=
  inferInstanceAs <| Decidable (_ ∧ _)

-- The fields have different tags that do not need more than 29 bits.
def Fields.WellFormed : Fields → Prop
  | last => True
  | value tag _ ltype next =>
    ValidTag tag ∧ tag ∉ next.tags ∧ ltype.Valid ∧ next.WellFormed
  | submessage tag _ ptr next =>
    ValidTag tag ∧ tag ∉ next.tags ∧ ptr.WellFormed ∧ next.WellFormed

instance Fields.decidableWellFormed : (fields : Fields) → Decidable fields.WellFormed
  | last => inferInstanceAs <| Decidable True
  | value _ _ _ next =>
    have := next.decidableWellFormed
    inferInstanceAs <| Decidable (_ ∧ _ ∧ _ ∧ _)
  | submessage _ _ ptr next =>
    have := ptr.decidableWellFormed
    have := next.decidableWellFormed
    inferInstanceAs <| Decidable (_ ∧ _ ∧ _ ∧ _)

end Nanopb
