/-!
# Percent — escapes in URLs

* `controlSet`, `fragmentSet`, `querySet`, `specialQuerySet`, `pathSet`, `userinfoSet` — the
  characters that each part of a URL escapes.
* `encode` — every byte of such a character becomes `%` with two upper-case hexadecimal digits.
* `utf8` — the bytes of a text; `decode` — the same with escapes for the bytes that they stand for.
-/

namespace TieredPool
namespace Url

/-! ## What is escaped -/

/-- Controls, and everything that is not ASCII. -/
def controlSet (c : Char) : Bool := c.toNat < 0x20 || 0x7e < c.toNat

def fragmentSet (c : Char) : Bool := controlSet c || [' ', '"', '<', '>', '`'].contains c

def querySet (c : Char) : Bool := controlSet c || [' ', '"', '#', '<', '>'].contains c

/-- In special schemes a query escapes the apostrophe too. -/
def specialQuerySet (c : Char) : Bool := querySet c || c == '\x27'

def pathSet (c : Char) : Bool := fragmentSet c || ['#', '?', '\x7b', '\x7d'].contains c

def userinfoSet (c : Char) : Bool :=
  pathSet c || ['/', ':', ';', '=', '@', '[', '\\', ']', '^', '|'].contains c

/-! ## Escapes -/

/-- The upper-case hexadecimal digit of a number below sixteen. -/
def hexDigit (n : Nat) : Char := if n < 10 then Char.ofNat (48 + n) else Char.ofNat (55 + n)

/-- The value of a hexadecimal digit in either case. -/
def hexValue? (c : Char) : Option Nat :=
  if c.isDigit then some (c.toNat - 48)
  else if 'a' ≤ c ∧ c ≤ 'f' then some (c.toNat - 87)
  else if 'A' ≤ c ∧ c ≤ 'F' then some (c.toNat - 55)
  else none

def escape (byte : UInt8) : List Char :=
  ['%', hexDigit (byte.toNat / 16), hexDigit (byte.toNat % 16)]

def encodeChar (set : Char → Bool) (c : Char) : List Char :=
  if set c then (String.utf8EncodeChar c).flatMap escape else [c]

def encode (set : Char → Bool) (cs : List Char) : List Char := cs.flatMap (encodeChar set)

def utf8 (cs : List Char) : List UInt8 := cs.flatMap String.utf8EncodeChar

/-- The bytes of a text. An escape is a byte; what is no escape stands for itself. -/
def decode : List Char → List UInt8
  | '%' :: a :: b :: rest =>
      match hexValue? a, hexValue? b with
      | some x, some y => UInt8.ofNat (16 * x + y) :: decode rest
      | _, _ => 0x25 :: decode (a :: b :: rest)
  | c :: rest => String.utf8EncodeChar c ++ decode rest
  | [] => []

end Url
end TieredPool
