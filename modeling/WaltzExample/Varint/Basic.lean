import Mathlib.Algebra.Group.Nat.Defs

-- Numbers written down as bytes of seven bits each, the lowest bits first, where the high bit of a
-- byte says that another one follows.
namespace Varint

abbrev Byte := BitVec 8

def More (b : Byte) : Prop :=
  128 ≤ b.toNat

instance (b : Byte) : Decidable (More b) :=
  inferInstanceAs <| Decidable (128 ≤ b.toNat)

def payload (b : Byte) : ℕ :=
  b.toNat % 128

def value : List Byte → ℕ
  | []      => 0
  | b :: bs => payload b + 128 * value bs

-- The bytes of exactly one number. It need not be written with as few bytes as possible.
inductive Terminated : List Byte → Prop
  | last : ¬More b → Terminated [b]
  | more : More b → Terminated bs → Terminated (b :: bs)

def encode (n : ℕ) : List Byte :=
  if n < 128 then [BitVec.ofNat 8 n] else BitVec.ofNat 8 (n % 128 + 128) :: encode (n / 128)

end Varint
