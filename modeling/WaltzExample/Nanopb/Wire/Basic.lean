import Mathlib.Data.List.ModifyLast
import WaltzExample.Varint.Basic
import WaltzExample.Decoder.Basic

namespace Nanopb

open Varint (Byte)

inductive Error
  | endOfStream
  | varintOverflow
  | invalidWireType
  | parentStreamTooShort
  | integerTooLarge
  | invalidDataSize
  | tooManyArrayEntries
  | streamFull
  | submsgSizeChanged
  | none -- No message has been set.
deriving DecidableEq

def Error.errmsg : Error → String
  | endOfStream          => "end-of-stream"
  | varintOverflow       => "varint overflow"
  | invalidWireType      => "invalid wire_type"
  | parentStreamTooShort => "parent stream too short"
  | integerTooLarge      => "integer too large"
  | invalidDataSize      => "invalid data_size"
  | tooManyArrayEntries  => "too many array entries"
  | streamFull           => "stream full"
  | submsgSizeChanged    => "submsg size changed"
  | none                 => "(none)"

-- The source's enumeration names four of these values.
abbrev WireType := BitVec 3

namespace WireType

def varint : WireType := 0
def bit64  : WireType := 1
def string : WireType := 2
def bit32  : WireType := 5

end WireType

section Decode

-- The bytes that a stream on a buffer has left.
abbrev IStream := List Byte

abbrev Decode (α : Type) := Decoder Error Byte α

def read (count : ℕ) : Decode (List Byte) := do
  let stream ← get
  if stream.length < count then
    throw .endOfStream
  else
    set <| stream.drop count
    return stream.take count

def readbyte : Decode Byte := do
  match ← get with
  | []             => throw .endOfStream
  | byte :: stream => set stream; return byte

-- The position is a number of eight bits.
def decodeVarint32.loop (bitpos : ℕ) (result : BitVec 32) :
    IStream → Except Error (BitVec 32 × IStream)
  | [] => .error .endOfStream
  | byte :: stream =>
    let signExtension : Byte := if bitpos < 63 then 0xFF else 0x01
    if 32 ≤ bitpos ∧ byte &&& 0x7F ≠ 0 ∧ (result >>> 31 = 0 ∨ byte ≠ signExtension) then
      .error .varintOverflow
    else
      let result := if 32 ≤ bitpos then result else
        result ||| (byte &&& 0x7F).setWidth 32 <<< bitpos
      let bitpos := (bitpos + 7) % 256
      if byte &&& 0x80 ≠ 0 then
        loop bitpos result stream
      else if bitpos = 35 ∧ byte &&& 0x70 ≠ 0 then
        .error .varintOverflow
      else
        .ok (result, stream)

-- There is no number at the end of the stream.
def decodeVarint32Eof : Decode (Option (BitVec 32)) := do
  if (← get).isEmpty then
    return none
  else
    let byte ← readbyte
    if byte &&& 0x80 = 0 then
      return some <| byte.setWidth 32
    else
      some <$> StateT.mk (decodeVarint32.loop 7 <| (byte &&& 0x7F).setWidth 32)

def decodeVarint32 : Decode (BitVec 32) := do
  match ← decodeVarint32Eof with
  | some result => return result
  | none        => throw .endOfStream

def decodeVarint.loop (bitpos : ℕ) (result : BitVec 64) :
    IStream → Except Error (BitVec 64 × IStream)
  | [] => .error <| if 64 ≤ bitpos then .varintOverflow else .endOfStream
  | byte :: stream =>
    if 64 ≤ bitpos then
      .error .varintOverflow
    else
      let result := result ||| (byte &&& 0x7F).setWidth 64 <<< bitpos
      if byte &&& 0x80 ≠ 0 then
        loop ((bitpos + 7) % 256) result stream
      else
        .ok (result, stream)

def decodeVarint : Decode (BitVec 64) :=
  StateT.mk <| decodeVarint.loop 0 0

def unzigzag (value : BitVec 64) : BitVec 64 :=
  if value &&& 1 ≠ 0 then ~~~(value >>> 1) else value >>> 1

def decodeSvarint : Decode (BitVec 64) :=
  unzigzag <$> decodeVarint

def skipVarint.loop : IStream → Except Error (Unit × IStream)
  | []             => .error .endOfStream
  | byte :: stream => if byte &&& 0x80 ≠ 0 then loop stream else .ok ((), stream)

def skipVarint : Decode Unit :=
  StateT.mk skipVarint.loop

def skipString : Decode Unit := do
  let length ← decodeVarint32
  discard <| read length.toNat

def skipField (wireType : WireType) : Decode Unit :=
  if wireType = .varint then skipVarint
  else if wireType = .bit64 then discard <| read 8
  else if wireType = .string then skipString
  else if wireType = .bit32 then discard <| read 4
  else throw .invalidWireType

-- There is no tag at the end of the stream, and none in place of a tag that is zero.
def decodeTag : Decode (Option (WireType × BitVec 32)) := do
  match ← decodeVarint32Eof with
  | none      => return none
  | some temp => return if temp = 0 then none else some (temp.setWidth 3, temp >>> 3)

def makeStringSubstream : Decode IStream := do
  let size ← decodeVarint32
  let stream ← get
  if stream.length < size.toNat then
    throw .parentStreamTooShort
  else
    set <| stream.drop size.toNat
    return stream.take size.toNat

-- Closing the substream passes over anything that has not been read from it.
def onSubstream {α : Type} (d : Decode α) : Decode α := do
  let substream ← makeStringSubstream
  Prod.fst <$> (d.run substream : Except Error (α × IStream))

end Decode

section Encode

-- The bytes in the buffer, unless the stream is only used to find a size, and the number of bytes
-- that still fit.
structure OStream where
  state        : Option (List Byte)
  left         : ℕ
  bytesWritten : ℕ

def OStream.sizing : OStream where
  state        := none
  left         := 0
  bytesWritten := 0

def ostreamFromBuffer (bufsize : ℕ) : OStream where
  state        := some []
  left         := bufsize
  bytesWritten := 0

abbrev Encode := StateT OStream (Except Error) Unit

def write (buf : List Byte) : Encode := do
  let stream ← get
  match stream.state with
  | none       => set { stream with bytesWritten := stream.bytesWritten + buf.length }
  | some state =>
    if stream.left < buf.length then
      throw .streamFull
    else set {
      state        := some <| state ++ buf
      left         := stream.left - buf.length
      bytesWritten := stream.bytesWritten + buf.length
      : OStream
    }

-- Writing without a buffer to a stream that is only used to find a size.
def writeSize (count : ℕ) : Encode := do
  let stream ← get
  set { stream with bytesWritten := stream.bytesWritten + count }

-- The source's buffer has room for ten bytes.
def encodeVarint.loop : ℕ → BitVec 64 → List Byte
  | 0, _         => []
  | n + 1, value =>
    if value = 0 then [] else ((value &&& 0x7F).setWidth 8 ||| 0x80) :: loop n (value >>> 7)

def encodeVarint (value : BitVec 64) : Encode :=
  if value ≤ 0x7F then
    write [value.setWidth 8]
  else
    write <| (encodeVarint.loop 10 value).modifyLast (· &&& 0x7F)

def zigzag (value : BitVec 64) : BitVec 64 :=
  if value.slt 0 then ~~~(value <<< 1) else value <<< 1

def encodeSvarint (value : BitVec 64) : Encode :=
  encodeVarint <| zigzag value

def encodeTag (wiretype : WireType) (fieldNumber : BitVec 32) : Encode :=
  encodeVarint <| fieldNumber.setWidth 64 <<< 3 ||| wiretype.setWidth 64

def encodeString (buffer : List Byte) : Encode := do
  encodeVarint <| BitVec.ofNat 64 buffer.length
  write buffer

end Encode

end Nanopb
