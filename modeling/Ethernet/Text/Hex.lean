/-! Hexadecimal text for bytes and words; reading accepts both cases. -/
namespace Ethernet.Hex

/-- The digit for `n < 16`, in upper or lower case. -/
def digit (upper : Bool) (n : Nat) : Char :=
  if n < 10 then Char.ofNat (48 + n)
  else if upper then Char.ofNat (55 + n) else Char.ofNat (87 + n)

/-- The value of one hexadecimal digit of either case; other characters have none. -/
def value? (c : Char) : Option Nat :=
  if '0' ≤ c ∧ c ≤ '9' then some (c.toNat - 48)
  else if 'a' ≤ c ∧ c ≤ 'f' then some (c.toNat - 87)
  else if 'A' ≤ c ∧ c ≤ 'F' then some (c.toNat - 55)
  else none

/-- The two digits of a byte, high digit first. -/
def pair (upper : Bool) (b : UInt8) : List Char :=
  [digit upper (b.toNat / 16), digit upper (b.toNat % 16)]

/-- A byte as two upper-case digits: `0A`. -/
def byteUpper (b : UInt8) : String := String.ofList (pair true b)

/-- Bytes as lower-case digit pairs, with no separator. -/
def ofBytes (bs : List UInt8) : String := String.ofList (bs.flatMap (pair false))

/-- The `width` lowest hexadecimal digits of `n`, most significant first. -/
def digits (width n : Nat) : List Char :=
  (List.range width).reverse.map fun k => digit false (n / Nat.pow 16 k % 16)

/-- A 32-bit word as `0x` and eight lower-case digits: `0x0000c800`. -/
def word (w : UInt32) : String := String.ofList ('0' :: 'x' :: digits 8 w.toNat)

/-- Reads digit pairs of either case into bytes; an odd count or a non-digit fails. -/
def toBytes? : List Char → Option (List UInt8)
  | [] => some []
  | [_] => none
  | h :: l :: rest => do
    let a ← value? h
    let b ← value? l
    let tail ← toBytes? rest
    pure ((a * 16 + b).toUInt8 :: tail)

end Ethernet.Hex
