/-!
# Scan — reading characters one after the other

* `Scan` — a reader that gives a result and the characters left, or fails.
* `Scan.newline`, `Scan.blanks`, `Scan.comment`, `Scan.lineEnd`, `Scan.gap` — what stands between
  the words of a document.
-/

namespace TieredPool
namespace Toml

abbrev Scan (α : Type) := StateT (List Char) Option α

namespace Scan

def fail {α : Type} : Scan α := fun _ => none

/-- The next character, which stays. -/
def peek? : Scan (Option Char) := fun cs => some (cs.head?, cs)

/-- The characters left, which stay. -/
def look : Scan (List Char) := get

/-- Whether the given characters come next; they are read if they do. -/
def skipIf (word : List Char) : Scan Bool := fun cs =>
  if word.isPrefixOf cs then some (true, cs.drop word.length) else some (false, cs)

def expect (c : Char) : Scan Unit := do
  if !(← skipIf [c]) then fail

def takeWhile (p : Char → Bool) : Scan (List Char) := fun cs =>
  some (cs.takeWhile p, cs.dropWhile p)

/-- Characters of a class, one at least. -/
def takeSome (p : Char → Bool) : Scan (List Char) := do
  let cs ← takeWhile p
  if cs.isEmpty then fail else return cs

/-- Exactly `n` characters of a class. -/
def takeExactly (n : Nat) (p : Char → Bool) : Scan (List Char) := fun cs =>
  let taken := cs.take n
  if taken.length = n ∧ taken.all p then some (taken, cs.drop n) else none

/-! ## Between the words -/

def isWs (c : Char) : Bool := c == ' ' || c == '\t'

/-- What may stand in a comment: a tab, and everything that is no control character. -/
def isPlain (c : Char) : Bool := c == '\t' || (0x20 ≤ c.toNat && c.toNat ≠ 0x7f)

def blanks : Scan Unit := do
  let _ ← takeWhile isWs

/-- A line feed, or a carriage return and a line feed. -/
def newline : Scan Bool := do
  if ← skipIf ['\n'] then return true
  skipIf ['\r', '\n']

/-- A comment up to the end of its line, if there is one. -/
def comment : Scan Unit := do
  if ← skipIf ['#'] then
    let _ ← takeWhile isPlain

/-- The rest of a line: blanks, a comment, and a line break or the end of the text. -/
def lineEnd : Scan Unit := do
  blanks
  comment
  if !(← newline) then
    if !(← look).isEmpty then fail

/-- Blanks, line breaks and comments. `fuel` bounds their number. -/
def gapFrom : Nat → Scan Unit
  | 0 => fail
  | fuel + 1 => do
      blanks
      match ← peek? with
      | some '#' =>
          comment
          if ← newline then gapFrom fuel else fail
      | some '\n' | some '\r' => if ← newline then gapFrom fuel else fail
      | _ => return

def gap : Scan Unit := do gapFrom ((← look).length + 1)

end Scan

end Toml
end TieredPool
