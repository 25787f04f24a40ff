import WaltzExample.Base64.Basic
import WaltzExample.IOS.Objects.Basic

namespace IOS

open Base64 (Byte Ascii ascii)

-- Strings that are taken apart are taken to be of ASCII characters. None of these combines with a
-- period, a hyphen or an underscore before it, so that the system finds these wherever they stand.
abbrev Text := List Ascii

-- A dictionary whose values are given as in `JWT.body`.
abbrev Payload := String → Option String

-- What decoding a token needs of the system: `Data(base64Encoded:options:)` when it is told to
-- ignore unknown characters, and `JSONSerialization.jsonObject`, which is only of use when it makes
-- a dictionary.
structure Foundation where
  base64Encoded : Text → Option (List Byte)
  jsonObject    : List Byte → Option Payload

inductive DecodeError
  | invalidBase64Url (value : Text)
  | invalidJSON (value : Text)
  | invalidPartCount (jwt : Text) (parts : Nat)

structure DecodedJWT where
  header    : Payload
  body      : Payload
  signature : Option Text
  string    : Text

-- What is passed on of a decoded token.
def DecodedJWT.jwt (t : DecodedJWT) : JWT where
  body := t.body

namespace Foundation

variable (f : Foundation)

def replacingOccurrences (target replacement : Ascii) (value : Text) : Text :=
  value.map fun c => if c = target then replacement else c

-- The length in UTF-8, where an ASCII character takes one byte.
def lengthOfBytes (value : Text) : Nat :=
  value.length

def base64 (value : Text) : Text :=
  value |> replacingOccurrences (ascii '-') (ascii '+')
    |> replacingOccurrences (ascii '_') (ascii '/')

-- The source calculates with floating point numbers, which represent these lengths exactly.
def base64UrlDecode (value : Text) : Option (List Byte) :=
  let base64 := base64 value
  let length := lengthOfBytes base64
  let requiredLength := 4 * ((length + 3) / 4)
  let paddingLength := requiredLength - length
  let padded :=
    if paddingLength > 0 then base64 ++ List.replicate paddingLength (ascii '=') else base64
  f.base64Encoded padded

def decodeJWTPart (value : Text) : Except DecodeError Payload := do
  let some bodyData := f.base64UrlDecode value | throw <| .invalidBase64Url value
  let some payload := f.jsonObject bodyData | throw <| .invalidJSON value
  return payload

def decode (jwt : Text) : Except DecodeError DecodedJWT :=
  match jwt.splitOn (ascii '.') with
  | [header, body, signature] => do
    return {
      header    := ← f.decodeJWTPart header
      body      := ← f.decodeJWTPart body
      signature := signature
      string    := jwt
    }
  | parts => throw <| .invalidPartCount jwt parts.length

-- How many characters of a part are skipped.
def ignored (value : Text) : Nat :=
  (base64 value).countP (!Base64.Known ·)

end Foundation

-- But for what is skipped, the part is an encoding of `bs`, with or without its padding.
def Encodes (value : Text) (bs : List Byte) : Prop :=
  let known := (Foundation.base64 value).filter Base64.Known
  known = Base64.unpadded bs ∨ known = Base64.encode bs

-- The token that is made of these three.
def token (header body : List Byte) (signature : Text) : Text :=
  Base64.encodeUrl header ++ ascii '.' :: Base64.encodeUrl body ++ ascii '.' :: signature

end IOS
