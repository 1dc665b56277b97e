/-!
# Time — durations, instants and the end of the clock

* `Duration` — a span of whole nanoseconds, fewer than `2^64` seconds of them.
* `Instant` — a reading of the clock, in nanoseconds from its zero.
* `Instant.add?` — the reading a duration later, if the clock can still show it.
* `Duration.text` — a duration in the largest unit that keeps a nonzero whole part.
-/

namespace TieredPool

/-- Nanoseconds in one second. -/
def nanosPerSecond : Nat := 1000000000

/-- A span of time in whole nanoseconds. Its seconds fit in a 64-bit word. -/
structure Duration where
  nanos : Nat
  inRange : nanos < UInt64.size * nanosPerSecond := by decide
  deriving DecidableEq, Repr

namespace Duration

instance : Inhabited Duration := ⟨⟨0, by decide⟩⟩

def zero : Duration := ⟨0, by decide⟩

/-- The duration of `seconds` whole seconds and `nanos` nanoseconds more, if it is in range. -/
def ofParts? (seconds nanos : Nat) : Option Duration :=
  if h : seconds * nanosPerSecond + nanos < UInt64.size * nanosPerSecond then some ⟨_, h⟩ else none

def ofMillis (n : UInt64) : Duration :=
  ⟨n.toNat * 1000000, by have := n.toNat_lt; simp only [nanosPerSecond, UInt64.size]; omega⟩

def ofSeconds (n : UInt64) : Duration :=
  ⟨n.toNat * nanosPerSecond, by have := n.toNat_lt; simp only [nanosPerSecond, UInt64.size]; omega⟩

/-- Whole seconds. -/
def seconds (d : Duration) : Nat := d.nanos / nanosPerSecond

/-- Nanoseconds past the last whole second. -/
def subsecNanos (d : Duration) : Nat := d.nanos % nanosPerSecond

/-- Whole milliseconds. -/
def millis (d : Duration) : Nat := d.nanos / 1000000

def isZero (d : Duration) : Bool := d.nanos == 0

/-! ## Text -/

/-- The decimal digits of `n`, with zeros put before them up to `width` digits. -/
def paddedDigits (width n : Nat) : List Char :=
  let digits := (toString n).toList
  List.replicate (width - digits.length) '0' ++ digits

/-- `n / 10^places` in decimal: exact, with no zero at the end of the fraction. -/
def scaledText (n places : Nat) : String :=
  let fraction := (paddedDigits places (n % Nat.pow 10 places)).reverse.dropWhile (· == '0')
  let whole := toString (n / Nat.pow 10 places)
  if fraction.isEmpty then whole else whole ++ "." ++ String.ofList fraction.reverse

/-- The duration in seconds if there is a whole one, else in milliseconds, microseconds or
nanoseconds by the same rule. -/
def text (d : Duration) : String :=
  if nanosPerSecond ≤ d.nanos then scaledText d.nanos 9 ++ "s"
  else if 1000000 ≤ d.nanos then scaledText d.nanos 6 ++ "ms"
  else if 1000 ≤ d.nanos then scaledText d.nanos 3 ++ "µs"
  else toString d.nanos ++ "ns"

end Duration

/-- A reading of the clock, in nanoseconds from its zero. -/
structure Instant where
  nanos : Nat
  deriving DecidableEq, Repr, Inhabited

namespace Instant

instance : LE Instant := ⟨fun a b => a.nanos ≤ b.nanos⟩
instance : LT Instant := ⟨fun a b => a.nanos < b.nanos⟩
instance (a b : Instant) : Decidable (a ≤ b) := inferInstanceAs (Decidable (a.nanos ≤ b.nanos))
instance (a b : Instant) : Decidable (a < b) := inferInstanceAs (Decidable (a.nanos < b.nanos))

theorem le_iff {a b : Instant} : a ≤ b ↔ a.nanos ≤ b.nanos := Iff.rfl

theorem lt_iff {a b : Instant} : a < b ↔ a.nanos < b.nanos := Iff.rfl

/-- The clock ends here: its seconds are a nonnegative signed 64-bit number. -/
def limit : Nat := 9223372036854775808 * nanosPerSecond

/-- The reading `d` after `t`, unless the clock ends before it. -/
def add? (t : Instant) (d : Duration) : Option Instant :=
  if t.nanos + d.nanos < limit then some ⟨t.nanos + d.nanos⟩ else none

theorem nanos_of_add? {t u : Instant} {d : Duration} (h : t.add? d = some u) :
    u.nanos = t.nanos + d.nanos := by
  unfold add? at h
  split at h
  · cases h
    rfl
  · cases h

/-- Whole milliseconds from `start` to `t`; none pass if `t` is not after `start`. -/
def millisSince (t start : Instant) : Nat := (t.nanos - start.nanos) / 1000000

end Instant

end TieredPool
