import TieredPool.Text.Pieces
import TieredPool.Url.Percent

/-!
# Ipv4 — dotted addresses

* `Ipv4.isNumeric` — whether a host claims to be an address: its last part is a number.
* `Ipv4.parse?` — one to four numbers, in decimal, octal or hexadecimal; the last fills the rest.
* `Ipv4.text` — four decimal numbers.
-/

namespace TieredPool
namespace Url
namespace Ipv4

/-- The number that digits of a base below 17 write, if they are such digits. -/
def digits? (base : Nat) (cs : List Char) : Option Nat :=
  cs.foldl (fun n c => do
    let v ← hexValue? c
    if v < base then return (← n) * base + v else none) (some 0)

/-- A number with the usual marks of its base; a hexadecimal mark alone is zero. -/
def number? : List Char → Option Nat
  | [] => none
  | ['0'] => some 0
  | '0' :: c :: rest => if c = 'x' ∨ c = 'X' then digits? 16 rest else digits? 8 (c :: rest)
  | cs => digits? 10 cs

/-- The parts between the points, without the empty one after a point at the end. -/
def parts (cs : List Char) : List (List Char) :=
  let ps := Text.pieces (· == '.') cs
  if ps.getLast? = some [] then ps.dropLast else ps

def isNumeric (cs : List Char) : Bool :=
  match (parts cs).getLast? with
  | none => false
  | some last => (!last.isEmpty && last.all Char.isDigit) || (number? last).isSome

/-- All numbers but the last are bytes; the last takes the bytes that remain. -/
def assemble? (room : Nat) : List Nat → Option Nat
  | [] => none
  | [last] => if last < Nat.pow 256 room then some last else none
  | n :: rest =>
      if n < 256 then (assemble? (room - 1) rest).map (n * Nat.pow 256 (room - 1) + ·) else none

def parse? (cs : List Char) : Option Nat :=
  let ps := parts cs
  if 4 < ps.length then none else (ps.mapM number?).bind (assemble? 4)

def text (address : Nat) : List Char :=
  let byte (n : Nat) : List Char := (toString (address / Nat.pow 256 n % 256)).toList
  Text.joined ['.'] [byte 3, byte 2, byte 1, byte 0]

end Ipv4
end Url
end TieredPool
