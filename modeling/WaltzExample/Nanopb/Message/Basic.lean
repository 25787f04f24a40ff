import WaltzExample.Nanopb.Wire.Basic

namespace Nanopb

open Varint (Byte)

variable {α : Type}

-- Counts have 32 bits.
abbrev Counted (α : Type) := { xs : List α // xs.length < 2 ^ 32 }

namespace Counted

def empty : Counted α :=
  ⟨[], Nat.two_pow_pos 32⟩

def push (xs : Counted α) (x : α) (h : xs.val.length ≠ 2 ^ 32 - 1) : Counted α :=
  ⟨xs.val ++ [x], by have := xs.property; simp; omega⟩

def take (size : BitVec 32) (xs : List α) : Counted α :=
  ⟨xs.take size.toNat, by have := size.isLt; simp; omega⟩

end Counted

-- The types of fields that are not messages. `dataSize` is the number of bytes of the variable.
inductive LType
  | varint (dataSize : ℕ)
  | uvarint (dataSize : ℕ)
  | svarint (dataSize : ℕ)
  | bytes

inductive HType
  | optional
  | repeated

-- The description of the fields of a message. Repeated fields and fields of bytes are pointers to
-- memory that is allocated for them. All other fields are part of the message.
inductive Fields
  | last
  | value (tag : BitVec 32) (htype : HType) (ltype : LType) (next : Fields)
  | submessage (tag : BitVec 32) (htype : HType) (ptr : Fields) (next : Fields)

section Data

@[reducible]
def LType.Data : LType → Type
  | varint dataSize  => BitVec (8 * dataSize)
  | uvarint dataSize => BitVec (8 * dataSize)
  | svarint dataSize => BitVec (8 * dataSize)
  | bytes            => Counted Byte

-- What an optional variable holds while its field is absent makes no difference.
@[reducible]
def HType.Slot : HType → Type → Type
  | optional, α => Option α
  | repeated, α => Counted α

@[reducible]
def Fields.Message : Fields → Type
  | last                       => Unit
  | value _ htype ltype next   => htype.Slot ltype.Data × next.Message
  | submessage _ htype ptr next => htype.Slot ptr.Message × next.Message

def LType.zero : (ltype : LType) → ltype.Data
  | varint _  => 0
  | uvarint _ => 0
  | svarint _ => 0
  | bytes     => .empty

def HType.absent : (htype : HType) → htype.Slot α
  | optional => none
  | repeated => .empty

def Fields.setToDefaults : (fields : Fields) → fields.Message
  | last                       => ()
  | value _ htype _ next       => (htype.absent, next.setToDefaults)
  | submessage _ htype _ next  => (htype.absent, next.setToDefaults)

end Data

def ValidDataSize (dataSize : ℕ) : Prop :=
  dataSize ∈ [1, 2, 4, 8]

instance (dataSize : ℕ) : Decidable (ValidDataSize dataSize) :=
  inferInstanceAs <| Decidable (dataSize ∈ _)

namespace LType

def wireType : LType → WireType
  | bytes => .string
  | _     => .varint

def Packable : LType → Bool
  | bytes => false
  | _     => true

end LType

section Encode

def encUvarint {dataSize : ℕ} (src : BitVec (8 * dataSize)) : Encode :=
  if ValidDataSize dataSize then encodeVarint <| src.setWidth 64 else throw .invalidDataSize

def encVarint {dataSize : ℕ} (src : BitVec (8 * dataSize)) : Encode :=
  if ValidDataSize dataSize then encodeVarint <| src.signExtend 64 else throw .invalidDataSize

def encSvarint {dataSize : ℕ} (src : BitVec (8 * dataSize)) : Encode :=
  if ValidDataSize dataSize then encodeSvarint <| src.signExtend 64 else throw .invalidDataSize

def encBytes (src : Counted Byte) : Encode :=
  encodeString src.val

def LType.encode : (ltype : LType) → ltype.Data → Encode
  | varint _, src  => encVarint src
  | uvarint _, src => encUvarint src
  | svarint _, src => encSvarint src
  | bytes, src     => encBytes src

-- A message is encoded twice, since its size comes first.
def encSubmessage (encode : Encode) : Encode := do
  let (_, substream) ← encode.run .sizing
  let size := substream.bytesWritten
  encodeVarint <| BitVec.ofNat 64 size
  let stream ← get
  if stream.state.isNone then
    writeSize size
  else if stream.left < size then
    throw .streamFull
  else
    let (_, substream) ← encode.run { stream with left := size, bytesWritten := 0 }
    set {
      state        := substream.state
      left         := stream.left - substream.bytesWritten
      bytesWritten := stream.bytesWritten + substream.bytesWritten
      : OStream
    }
    if substream.bytesWritten ≠ size then throw .submsgSizeChanged

-- Arrays of numbers are packed.
def encodeArray (tag : BitVec 32) (wireType : WireType) (packable : Bool) (func : α → Encode)
    (xs : List α) : Encode :=
  if xs = [] then
    return
  else if packable then do
    encodeTag .string tag
    let (_, sizestream) ← (forM xs func : Encode).run .sizing
    let size := sizestream.bytesWritten
    encodeVarint <| BitVec.ofNat 64 size
    if (← get).state.isNone then writeSize size else forM xs func
  else
    forM xs fun x => do
      encodeTag wireType tag
      func x

def encodeField (tag : BitVec 32) (wireType : WireType) (packable : Bool) (func : α → Encode) :
    (htype : HType) → htype.Slot α → Encode
  | .optional, none   => return
  | .optional, some x => do encodeTag wireType tag; func x
  | .repeated, xs     => encodeArray tag wireType packable func xs.val

def Fields.encode : (fields : Fields) → fields.Message → Encode
  | last, _ => return
  | value tag htype ltype next, (x, xs) => do
    encodeField tag ltype.wireType ltype.Packable ltype.encode htype x
    next.encode xs
  | submessage tag htype ptr next, (x, xs) => do
    encodeField tag .string false (encSubmessage <| ptr.encode ·) htype x
    next.encode xs

def getEncodedSize (fields : Fields) (src : fields.Message) : Except Error ℕ := do
  let (_, stream) ← (fields.encode src).run .sizing
  return stream.bytesWritten

end Encode

section Decode

-- Casts a value to the size of its field, and checks that nothing is lost.
def clamp {dataSize : ℕ} (widen : BitVec (8 * dataSize) → BitVec 64) (value : BitVec 64) :
    Decode (BitVec (8 * dataSize)) :=
  if ValidDataSize dataSize then
    let clamped := value.setWidth (8 * dataSize)
    if widen clamped ≠ value then throw .integerTooLarge else return clamped
  else
    throw .invalidDataSize

def decUvarint {dataSize : ℕ} : Decode (BitVec (8 * dataSize)) := do
  clamp (·.setWidth 64) (← decodeVarint)

-- Numbers of at most 32 bits need not have been extended to 64 bits.
def decVarint {dataSize : ℕ} : Decode (BitVec (8 * dataSize)) := do
  let value ← decodeVarint
  clamp (·.signExtend 64) <| if dataSize = 8 then value else (value.setWidth 32).signExtend 64

def decSvarint {dataSize : ℕ} : Decode (BitVec (8 * dataSize)) := do
  clamp (·.signExtend 64) (← decodeSvarint)

def decBytes : Decode (Counted Byte) := do
  let size ← decodeVarint32
  let stream ← get
  if stream.length < size.toNat then
    throw .endOfStream
  else
    set <| stream.drop size.toNat
    return .take size stream

def LType.decode : (ltype : LType) → Decode ltype.Data
  | varint _  => decVarint
  | uvarint _ => decUvarint
  | svarint _ => decSvarint
  | bytes     => decBytes

-- The message of an error is lost when the substream is closed.
def decodePacked.step (func : Decode α) (xs : Counted α) : Decode (ForInStep (Counted α)) := do
  let x ← func
  if h : xs.val.length = 2 ^ 32 - 1 then throw .none else return .yield <| xs.push x h

def decodePacked (func : Decode α) (xs : Counted α) : Decode (Counted α) :=
  Decoder.exhaust (decodePacked.step func) xs

def decodeField (wireType : WireType) (packable : Bool) (func : α → Decode α) (init : α) :
    (htype : HType) → htype.Slot α → Decode (htype.Slot α)
  | .optional, x  => some <$> func (x.getD init)
  | .repeated, xs =>
    if wireType = .string ∧ packable then
      onSubstream <| decodePacked (func init) xs
    else if h : xs.val.length = 2 ^ 32 - 1 then
      throw .tooManyArrayEntries
    else
      (xs.push · h) <$> func init

-- How a field of `σ` is decoded, unless there is no field with the given tag.
abbrev Find (σ : Type) := WireType → BitVec 32 → σ → Option (Decode σ)

namespace Find

variable {σ τ : Type}

-- The wire type only makes a difference for arrays.
def field (tag : BitVec 32) (packable : Bool) (func : α → Decode α) (init : α) (htype : HType) :
    Find (htype.Slot α) :=
  fun wireType number x =>
    if tag = number then some <| decodeField wireType packable func init htype x else none

def append (f : Find σ) (g : Find τ) : Find (σ × τ) :=
  fun wireType number (x, y) =>
    match f wireType number x with
    | some decode => some <| (·, y) <$> decode
    | none        => (g wireType number y).map ((x, ·) <$> ·)

def decodeOrSkip (find : Find σ) (wireType : WireType) (number : BitVec 32) (dest : σ) :
    Decode σ :=
  match find wireType number dest with
  | some decode => decode
  | none        => do skipField wireType; return dest

end Find

def decodeFields.step {σ : Type} (find : Find σ) (dest : σ) : Decode (ForInStep σ) := do
  match ← decodeTag with
  | none                 => return .done dest
  | some (wireType, tag) => .yield <$> find.decodeOrSkip wireType tag dest

-- The fields are decoded until the stream ends or a tag is zero.
def decodeFields {σ : Type} (find : Find σ) (dest : σ) : Decode σ :=
  Decoder.exhaust (decodeFields.step find) dest

-- The source looks for a tag in a circle, beginning with the field that it has found last. That
-- makes no difference to a description that has fields, all with different tags.
def Fields.find : (fields : Fields) → Find fields.Message
  | last => fun _ _ _ => none
  | value tag htype ltype next =>
    Find.append (.field tag ltype.Packable (fun _ => ltype.decode) ltype.zero htype) next.find
  | submessage tag htype ptr next =>
    Find.append
      (.field tag false (fun dest => onSubstream <| decodeFields ptr.find dest) ptr.setToDefaults
        htype)
      next.find

def decodeNoinit (fields : Fields) (dest : fields.Message) : Decode fields.Message :=
  decodeFields fields.find dest

def decode (fields : Fields) : Decode fields.Message :=
  decodeNoinit fields fields.setToDefaults

end Decode

end Nanopb
