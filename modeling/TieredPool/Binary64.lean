import TieredPool.Random
import TieredPool.Text.Digits

/-!
# Binary64 — double precision numbers, exactly

* `Binary64` — not a number, an infinity, or a sign with `mantissa * 2^exponent`.
* `Binary64.ofRatio` — the nearest double to a quotient, ties to the even mantissa.
* `Binary64.read?` — decimal text to the nearest double.
* `Binary64.text` — the fewest decimal digits that read back, never in exponent form.
* `Binary64.chance` — a double as a probability, clamped to the unit interval.
-/

namespace TieredPool

/-- A double. The mantissa is below `2^53`, and below `2^52` only at the exponent `-1074`. -/
inductive Binary64 where
  | nan
  | infinite (negative : Bool)
  | finite (negative : Bool) (mantissa : Nat) (exponent : Int)
  deriving DecidableEq, Repr, Inhabited

namespace Binary64

open Text (digitsValue)

def zero : Binary64 := .finite false 0 (-1074)

/-- The least mantissa of a double above the smallest ones, `2^52`. -/
def leastMantissa : Nat := 1 <<< 52

/-! ## Rounding -/

/-- The quotient to the nearest integer, a half to the even one. -/
def roundQuotient (num den : Nat) : Nat :=
  let floor := num / den
  let twice := 2 * (num % den)
  if den < twice || (twice == den && floor % 2 == 1) then floor + 1 else floor

/-- `num / den / 2^e` as a quotient of naturals. -/
def scaleDown (num den : Nat) (e : Int) : Nat × Nat :=
  (num <<< (-e).toNat, den <<< e.toNat)

/-- The double nearest to `num / den`; a positive `den` is assumed. -/
def ofRatio (negative : Bool) (num den : Nat) : Binary64 :=
  if num = 0 then .finite negative 0 (-1074)
  else
    -- At this exponent the mantissa lies between `2^52` and `2^54`.
    let low : Int := (num.log2 : Int) - den.log2 - 53
    let (n, d) := scaleDown num den low
    let exponent := max (if d * (2 * leastMantissa) ≤ n then low + 1 else low) (-1074)
    let (n, d) := scaleDown num den exponent
    let mantissa := roundQuotient n d
    let (mantissa, exponent) :=
      if mantissa = 2 * leastMantissa then (leastMantissa, exponent + 1) else (mantissa, exponent)
    if 971 < exponent then .infinite negative else .finite negative mantissa exponent

/-! ## Reading decimals -/

/-- `coefficient * 10^exponent` with a sign. -/
structure Decimal where
  negative : Bool
  coefficient : Nat
  exponent : Int
  deriving DecidableEq, Repr

/-- The power of ten, one if the exponent is not positive. -/
def tenTo (exponent : Int) : Nat := Nat.pow 10 exponent.toNat

/-- The double nearest to a decimal. Powers of ten far outside the range of doubles are not
computed. -/
def Decimal.toBinary64 (x : Decimal) : Binary64 :=
  let magnitude : Int := (toString x.coefficient).length + x.exponent
  if x.coefficient = 0 then .finite x.negative 0 (-1074)
  else if 400 < magnitude then .infinite x.negative
  else if magnitude < -400 then .finite x.negative 0 (-1074)
  else ofRatio x.negative (x.coefficient * tenTo x.exponent) (tenTo (-x.exponent))

/-- An optional sign, and what follows it. -/
def splitSign : List Char → Bool × List Char
  | '-' :: rest => (true, rest)
  | '+' :: rest => (false, rest)
  | cs => (false, cs)

/-- The value of an exponent part; nothing counts as zero. -/
def readExponent? : List Char → Option Int
  | [] => some 0
  | c :: rest =>
      if c = 'e' || c = 'E' then
        let (negative, digits) := splitSign rest
        if digits.isEmpty || !digits.all Char.isDigit then none
        else some (if negative then -(digitsValue digits : Int) else digitsValue digits)
      else none

/-- Digits with at most one point and an exponent; a digit must stand before or after the point. -/
def readMagnitude? (cs : List Char) : Option (Nat × Int) :=
  let whole := cs.takeWhile Char.isDigit
  let (fraction, rest) :=
    match cs.dropWhile Char.isDigit with
    | '.' :: rest => (rest.takeWhile Char.isDigit, rest.dropWhile Char.isDigit)
    | rest => ([], rest)
  if whole.isEmpty && fraction.isEmpty then none
  else (readExponent? rest).map fun e => (digitsValue (whole ++ fraction), e - fraction.length)

/-- Reads a decimal number, an infinity or not-a-number; the words in any case. -/
def read? (text : String) : Option Binary64 :=
  let (negative, cs) := splitSign text.toList
  let word := String.ofList (cs.map Char.toLower)
  if word = "inf" || word = "infinity" then some (.infinite negative)
  else if word = "nan" then some .nan
  else (readMagnitude? cs).map fun (coefficient, exponent) =>
    Decimal.toBinary64 { negative, coefficient, exponent }

/-! ## Writing decimals -/

/-- Compares `a * 10^k` with `b * 2^q`. -/
def compareScaled (a : Nat) (k : Int) (b : Nat) (q : Int) : Ordering :=
  compare ((a * tenTo k) <<< (-q).toNat) ((b * tenTo (-k)) <<< q.toNat)

/-- The reals that round to a positive double, in units of a quarter of its last binary place: the
ends and whether they belong to it. -/
def roundingInterval (mantissa : Nat) (exponent : Int) : Nat × Nat × Bool :=
  let low :=
    if mantissa = leastMantissa ∧ -1074 < exponent then 4 * mantissa - 1 else 4 * mantissa - 2
  (low, 4 * mantissa + 2, mantissa % 2 == 0)

/-- Whether `c * 10^k` rounds to the positive double. -/
def readsBack (mantissa : Nat) (exponent : Int) (c : Nat) (k : Int) : Bool :=
  let (low, high, closed) := roundingInterval mantissa exponent
  let unit := exponent - 2
  match compareScaled c k low unit, compareScaled c k high unit with
  | .gt, .lt => true
  | .eq, _ => closed
  | _, .eq => closed
  | _, _ => false

/-- The number of digits before the point of a positive double; zero or less below one tenth. -/
def pointPosition (mantissa : Nat) (exponent : Int) : Int :=
  let whole := (mantissa <<< exponent.toNat) >>> (-exponent).toNat
  if 0 < whole then (toString whole).length
  else
    -- The first of `0.1`, `0.01`, … that does not exceed the number.
    let fits (j : Nat) : Bool := compareScaled 1 (-(j : Int) - 1) mantissa exponent != .gt
    match (List.range 400).find? fits with
    | some zeros => -(zeros : Int)
    | none => 0

/-- The neighbour of the double among the multiples of `10^k` that reads back: the nearer one if
both do, and of two equally near the upper. -/
def neighbour? (mantissa : Nat) (exponent : Int) (k : Int) : Option Nat :=
  let num := (mantissa * tenTo (-k)) <<< exponent.toNat
  let den := tenTo k <<< (-exponent).toNat
  let below := num / den
  let nearer := if 2 * (num % den) < den then below else below + 1
  let further := if nearer = below then below + 1 else below
  if readsBack mantissa exponent nearer k then some nearer
  else if readsBack mantissa exponent further k then some further
  else none

/-- The shortest decimal that reads back as the positive double, as `c * 10^k`. One more digit is
tried at a time; the upper neighbour may be the power of ten above all of them. -/
def shortest (mantissa : Nat) (exponent : Int) : Nat × Int :=
  let point := pointPosition mantissa exponent
  let found := (List.range 20).findSome? fun (n : Nat) =>
    let k := point - (n : Int) - 1
    (neighbour? mantissa exponent k).map fun c =>
      if c = Nat.pow 10 (n + 1) then (1, point) else (c, k)
  found.getD (0, 0)

/-- `c * 10^k` written out in full. -/
def positional (c : Nat) (k : Int) : String :=
  let digits := (toString c).toList
  let places := (-k).toNat
  if places = 0 then String.ofList (digits ++ List.replicate k.toNat '0')
  else
    let padded := List.replicate (places + 1 - digits.length) '0' ++ digits
    let whole := padded.length - places
    String.ofList (padded.take whole ++ '.' :: padded.drop whole)

def text : Binary64 → String
  | .nan => "NaN"
  | .infinite negative => if negative then "-inf" else "inf"
  | .finite negative mantissa exponent =>
      let magnitude :=
        if mantissa = 0 then "0"
        else
          let (c, k) := shortest mantissa exponent
          positional c k
      if negative then "-" ++ magnitude else magnitude

/-! ## Probabilities -/

/-- Whether the number lies between zero and one, both included. -/
def inUnitInterval : Binary64 → Bool
  | .nan | .infinite _ => false
  | .finite negative mantissa exponent =>
      mantissa == 0 || (!negative && mantissa <<< exponent.toNat ≤ 1 <<< (-exponent).toNat)

/-- The number as a probability: what lies below zero, or is no number, never happens and what
lies above one always does. -/
def chance : Binary64 → Chance
  | .nan | .infinite true => .never
  | .infinite false => .always
  | .finite true _ _ => .never
  | .finite false mantissa exponent =>
      let scaled := exponent + 64
      ⟨min ((mantissa <<< scaled.toNat) >>> (-scaled).toNat) UInt64.size, Nat.min_le_right _ _⟩

end Binary64

end TieredPool
