import Mathlib.Data.List.FinRange

-- Bytes written down as characters that stand for six bits each, where each group of three bytes
-- makes four characters.
namespace Base64

abbrev Byte := Fin 256

-- A character of ASCII, given by its code.
abbrev Ascii := Fin 128

def ascii (c : Char) : Ascii :=
  Fin.ofNat 128 c.toNat

abbrev Sextet := Fin 64

def sextets : List Byte → List Sextet
  | []              => []
  | [a]             => [⟨a / 4, by omega⟩, ⟨a % 4 * 16, by omega⟩]
  | [a, b]          => [⟨a / 4, by omega⟩, ⟨a % 4 * 16 + b / 16, by omega⟩, ⟨b % 16 * 4, by omega⟩]
  | a :: b :: c :: bs =>
    ⟨a / 4, by omega⟩ :: ⟨a % 4 * 16 + b / 16, by omega⟩ :: ⟨b % 16 * 4 + c / 64, by omega⟩ ::
      ⟨c % 64, by omega⟩ :: sextets bs

-- A single sextet does not make a byte. The bits that are left over are not looked at.
def octets : List Sextet → Option (List Byte)
  | []     => some []
  | [_]    => none
  | [s, t] => some [⟨s * 4 + t / 16, by omega⟩]
  | [s, t, u] => some [⟨s * 4 + t / 16, by omega⟩, ⟨t % 16 * 16 + u / 4, by omega⟩]
  | s :: t :: u :: v :: ss =>
    (octets ss).map (⟨s * 4 + t / 16, by omega⟩ :: ⟨t % 16 * 16 + u / 4, by omega⟩ ::
      ⟨u % 4 * 64 + v, by omega⟩ :: ·)

-- The alphabet is A to Z, a to z, 0 to 9, + and /.
def digit (s : Sextet) : Ascii :=
  if s < 26 then Fin.ofNat 128 (65 + s)
  else if s < 52 then Fin.ofNat 128 (71 + s)
  else if s < 62 then Fin.ofNat 128 (s - 4)
  else if s = 62 then ascii '+'
  else ascii '/'

-- The alphabet for URLs and file names.
def urlDigit (s : Sextet) : Ascii :=
  if s = 62 then ascii '-' else if s = 63 then ascii '_' else digit s

def sextet? (c : Ascii) : Option Sextet :=
  (List.finRange 64).find? (digit · = c)

-- The characters that are not ignored.
def Known (c : Ascii) : Bool :=
  c = ascii '=' || (sextet? c).isSome

def unpadded (bs : List Byte) : List Ascii :=
  (sextets bs).map digit

def encodeUrl (bs : List Byte) : List Ascii :=
  (sextets bs).map urlDigit

def pad (cs : List Ascii) : List Ascii :=
  cs ++ List.replicate ((4 - cs.length % 4) % 4) (ascii '=')

def encode (bs : List Byte) : List Ascii :=
  pad (unpadded bs)

def decode (cs : List Ascii) : Option (List Byte) := do
  let known := cs.filter Known
  let digits := known.takeWhile (· ≠ ascii '=')
  guard <| known = pad digits
  octets (← digits.mapM sextet?)

-- What can be relied on of a decoder that skips unknown characters.
structure Decodes (decode : List Ascii → Option (List Byte)) : Prop where
  encode  : ∀ bs, decode (encode bs) = some bs
  ignore  : ∀ cs, decode (cs.filter Known) = decode cs
  aligned : ∀ cs bs, decode cs = some bs → 4 ∣ (cs.filter Known).length

end Base64
