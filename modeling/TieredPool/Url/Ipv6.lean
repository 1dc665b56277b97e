import TieredPool.Url.Ipv4

/-!
# Ipv6 — addresses of eight pieces

* `Ipv6.parse?` — eight groups of hexadecimal digits; `::` once for a run of zeros, and a dotted
  address for the last two pieces.
* `Ipv6.text` — the first longest run of at least two zeros is written `::`.
-/

namespace TieredPool
namespace Url
namespace Ipv6

/-- One to four hexadecimal digits. -/
def piece? (cs : List Char) : Option Nat :=
  if 1 ≤ cs.length ∧ cs.length ≤ 4 then Ipv4.digits? 16 cs else none

/-- A byte in decimal, without a zero in front. -/
def byte? (cs : List Char) : Option Nat :=
  match cs with
  | [] => none
  | ['0'] => some 0
  | '0' :: _ => none
  | cs => (Ipv4.digits? 10 cs).filter (· < 256)

/-- A dotted address as two pieces. -/
def dotted? (cs : List Char) : Option (List Nat) :=
  match (Text.pieces (· == '.') cs).mapM byte? with
  | some [a, b, c, d] => some [a * 256 + b, c * 256 + d]
  | _ => none

/-- The pieces between colons. The last may be a dotted address if `dottedLast` allows it. -/
def pieces? (dottedLast : Bool) : List (List Char) → Option (List Nat)
  | [] => some []
  | [last] =>
      if dottedLast && last.contains '.' then dotted? last else (piece? last).map ([·])
  | p :: rest => do
      let n ← piece? p
      let ns ← pieces? dottedLast rest
      return n :: ns

/-- One side of `::`, or a whole address without it. -/
def side? (dottedLast : Bool) (cs : List Char) : Option (List Nat) :=
  if cs.isEmpty then some [] else pieces? dottedLast (Text.pieces (· == ':') cs)

/-- What stands before and after the first `::`. -/
def splitAtRun : List Char → Option (List Char × List Char)
  | ':' :: ':' :: rest => some ([], rest)
  | c :: rest => (splitAtRun rest).map fun (before, after) => (c :: before, after)
  | [] => none

/-- The eight pieces of an address. A `::` stands for one zero at least. -/
def parse? (cs : List Char) : Option (List Nat) :=
  match splitAtRun cs with
  | none => (side? true cs).filter (·.length = 8)
  | some (before, after) => do
      let left ← side? false before
      let right ← side? true after
      if left.length + right.length < 8 then
        return left ++ List.replicate (8 - left.length - right.length) 0 ++ right
      else none

/-! ## Text -/

def leadingZeros (ps : List Nat) : Nat := (ps.takeWhile (· == 0)).length

/-- Start and length of the first longest run of zeros. -/
def longestZeros : List Nat → Nat × Nat
  | [] => (0, 0)
  | p :: ps =>
      let here := leadingZeros (p :: ps)
      let (start, length) := longestZeros ps
      if length ≤ here then (0, here) else (start + 1, length)

def pieceText (n : Nat) : List Char := Nat.toDigits 16 n

def groups (ps : List Nat) : List Char := Text.joined [':'] (ps.map pieceText)

def text (ps : List Nat) : List Char :=
  let (start, length) := longestZeros ps
  if 2 ≤ length then groups (ps.take start) ++ [':', ':'] ++ groups (ps.drop (start + length))
  else groups ps

end Ipv6
end Url
end TieredPool
