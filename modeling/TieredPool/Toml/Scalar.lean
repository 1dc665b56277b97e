import TieredPool.Document
import TieredPool.Toml.Scan

/-!
# Scalar — strings, numbers and dates

* `string` — the four kinds of strings.
* `number` — integers of 64 bits in four bases, and floating point numbers.
* `moment?` — dates, times and both, with their offset.
-/

namespace TieredPool
namespace Toml

open Scan

/-! ## Strings -/

def isHexDigit (c : Char) : Bool := c.isDigit || ('a' ≤ c && c ≤ 'f') || ('A' ≤ c && c ≤ 'F')

/-- The value of digits in a base of at most sixteen. -/
def valueIn (base : Nat) (cs : List Char) : Nat :=
  let digit (c : Char) : Nat :=
    if c.isDigit then c.toNat - 48 else if c.isLower then c.toNat - 87 else c.toNat - 55
  cs.foldl (fun n c => n * base + digit c) 0

/-- A character by its code, which has `digits` hexadecimal digits. -/
def codedChar (digits : Nat) : Scan Char := do
  let code := valueIn 16 (← takeExactly digits isHexDigit)
  if code < 0xd800 ∨ (0xdfff < code ∧ code < 0x110000) then return Char.ofNat code else fail

/-- The character that an escape stands for, after its backslash. -/
def escaped : Scan Char := do
  match ← takeExactly 1 fun _ => true with
  | ['b'] => return '\x08'
  | ['t'] => return '\t'
  | ['n'] => return '\n'
  | ['f'] => return '\x0c'
  | ['r'] => return '\r'
  | ['"'] => return '"'
  | ['\\'] => return '\\'
  | ['u'] => codedChar 4
  | ['U'] => codedChar 8
  | _ => fail

/-- A string up to the closing quote, the characters so far in `done`, last first. -/
def basicFrom (done : List Char) : Nat → Scan (List Char)
  | 0 => fail
  | fuel + 1 => do
      match ← takeExactly 1 fun _ => true with
      | ['"'] => return done.reverse
      | ['\\'] =>
          let c ← escaped
          basicFrom (c :: done) fuel
      | [c] => if isPlain c then basicFrom (c :: done) fuel else fail
      | _ => fail

/-- A string in which nothing is escaped. -/
def literalFrom (done : List Char) : Nat → Scan (List Char)
  | 0 => fail
  | fuel + 1 => do
      match ← takeExactly 1 fun _ => true with
      | ['\x27'] => return done.reverse
      | [c] => if isPlain c then literalFrom (c :: done) fuel else fail
      | _ => fail

/-- What is left after blanks and line breaks. A carriage return is blank only in front of a line
feed. -/
def afterBlankLines : List Char → List Char
  | '\r' :: '\n' :: cs => afterBlankLines cs
  | c :: cs => if isWs c || c == '\n' then afterBlankLines cs else c :: cs
  | [] => []

/-- Blanks and line breaks after a backslash at the end of a line, at least one line break. -/
def foldedLines : Scan Unit := do
  blanks
  if ← newline then modify afterBlankLines else fail

/-- A string between triple quotes. Up to two quotes may stand next to each other inside, and in
front of the closing ones. -/
def multilineFrom (quote : Char) (escapes : Bool) (done : List Char) : Nat → Scan (List Char)
  | 0 => fail
  | fuel + 1 => do
      let quotes ← takeWhile (· == quote)
      if 3 ≤ quotes.length then
        if 5 < quotes.length then fail
        else return (List.replicate (quotes.length - 3) quote ++ done).reverse
      else
        let done := quotes ++ done
        if ← newline then multilineFrom quote escapes ('\n' :: done) fuel
        else
          match ← takeExactly 1 fun _ => true with
          | [c] =>
              if escapes && c == '\\' then
                match ← peek? with
                | some ' ' | some '\t' | some '\n' | some '\r' =>
                    foldedLines
                    multilineFrom quote escapes done fuel
                | _ =>
                    let e ← escaped
                    multilineFrom quote escapes (e :: done) fuel
              else if isPlain c then multilineFrom quote escapes (c :: done) fuel
              else fail
          | _ => fail

/-- A string on one line. -/
def shortString : Scan String := do
  let fuel := (← look).length + 1
  if ← skipIf ['"'] then return String.ofList (← basicFrom [] fuel)
  else if ← skipIf ['\x27'] then return String.ofList (← literalFrom [] fuel)
  else fail

/-- A string of any kind. The line break right after triple quotes does not belong to it. -/
def string : Scan String := do
  let fuel := (← look).length + 1
  if ← skipIf ['"', '"', '"'] then
    let _ ← newline
    return String.ofList (← multilineFrom '"' true [] fuel)
  else if ← skipIf ['\x27', '\x27', '\x27'] then
    let _ ← newline
    return String.ofList (← multilineFrom '\x27' false [] fuel)
  else shortString

/-! ## Numbers -/

/-- Digits of a class, with single underscores between them; the underscores are left out. -/
def groupedFrom (p : Char → Bool) (done : List Char) : Nat → Scan (List Char)
  | 0 => fail
  | fuel + 1 => do
      let digits ← takeSome p
      let done := done ++ digits
      if ← skipIf ['_'] then groupedFrom p done fuel else return done

def grouped (p : Char → Bool) : Scan (List Char) := do groupedFrom p [] ((← look).length + 1)

/-- A 64-bit integer. -/
def integerOf (n : Int) : Scan Document :=
  if Int64.minValue.toInt ≤ n ∧ n ≤ Int64.maxValue.toInt then return .integer n else fail

/-- An integer with a mark for its base. -/
def markedInteger (base : Nat) (p : Char → Bool) : Scan Document := do
  integerOf (valueIn base (← grouped p))

/-- The whole part of a number: it has no zero in front of other digits. -/
def wholePart : Scan (List Char) := do
  if ← skipIf ['0'] then return ['0'] else grouped Char.isDigit

/-- An exponent with its mark, if there is one. -/
def exponentPart : Scan (List Char) := do
  match ← peek? with
  | some 'e' | some 'E' =>
      let _ ← takeExactly 1 fun _ => true
      let negative ← skipIf ['-']
      if !negative then
        let _ ← skipIf ['+']
      let digits ← grouped Char.isDigit
      return 'e' :: (if negative then '-' :: digits else digits)
  | _ => return []

/-- A floating point number from its text. One that is too large is refused. -/
def realOf (text : List Char) : Scan Document :=
  match Binary64.read? (String.ofList text) with
  | none | some (.infinite false) => fail
  | some x => return .real x

/-- A number after its sign. -/
def unsignedNumber (sign : List Char) : Scan Document := do
  if ← skipIf "inf".toList then return .real (.infinite (sign == ['-']))
  if ← skipIf "nan".toList then return .real .nan
  let whole ← wholePart
  if ← skipIf ['.'] then
    let fraction ← grouped Char.isDigit
    realOf (sign ++ whole ++ '.' :: fraction ++ (← exponentPart))
  else
    let exponent ← exponentPart
    if exponent.isEmpty then
      let n : Int := valueIn 10 whole
      integerOf (if sign = ['-'] then -n else n)
    else realOf (sign ++ whole ++ exponent)

def number : Scan Document := do
  if ← skipIf ['0', 'x'] then markedInteger 16 isHexDigit
  else if ← skipIf ['0', 'o'] then markedInteger 8 fun c => '0' ≤ c && c ≤ '7'
  else if ← skipIf ['0', 'b'] then markedInteger 2 fun c => c == '0' || c == '1'
  else if ← skipIf ['-'] then unsignedNumber ['-']
  else
    let _ ← skipIf ['+']
    unsignedNumber []

/-! ## Dates and times -/

/-- Exactly `n` digits, as a number between two bounds. -/
def field (n low high : Nat) : Scan Nat := do
  let v := valueIn 10 (← takeExactly n Char.isDigit)
  if low ≤ v ∧ v ≤ high then return v else fail

def daysInMonth (year month : Nat) : Nat :=
  if month = 2 then
    if year % 4 = 0 ∧ (year % 100 ≠ 0 ∨ year % 400 = 0) then 29 else 28
  else if month = 4 ∨ month = 6 ∨ month = 9 ∨ month = 11 then 30
  else 31

/-- What follows the hour and its colon. -/
def restOfTime : Scan Unit := do
  let _ ← field 2 0 59
  expect ':'
  let _ ← field 2 0 60
  match ← look with
  | '.' :: c :: _ =>
      if c.isDigit then
        let _ ← skipIf ['.']
        let _ ← takeWhile Char.isDigit
  | _ => return

/-- A difference from universal time, if one is given. -/
def offset : Scan Unit := do
  match ← peek? with
  | some 'Z' | some 'z' =>
      let _ ← takeExactly 1 fun _ => true
  | some '+' | some '-' =>
      let _ ← takeExactly 1 fun _ => true
      let _ ← field 2 0 23
      expect ':'
      let _ ← field 2 0 59
  | _ => return

/-- Whether an hour and a colon come next. -/
def startsTime (cs : List Char) : Bool :=
  match cs with
  | a :: b :: ':' :: _ => a.isDigit && b.isDigit && valueIn 10 [a, b] ≤ 23
  | _ => false

/-- The time after a date, if there is one. -/
def timeAfterDate : Scan Unit := do
  match ← look with
  | mark :: rest =>
      if (mark == 'T' || mark == 't' || mark == ' ') && startsTime rest then
        set (rest.drop 3)
        restOfTime
        offset
  | [] => return

/-- What follows the year and its hyphen. -/
def restOfDate (year : Nat) : Scan Unit := do
  let month ← field 2 1 12
  expect '-'
  let _ ← field 2 1 (daysInMonth year month)
  timeAfterDate

/-- A date or a time, if one begins here. -/
def moment? : Scan (Option Document) := do
  let start ← look
  let year := start.take 4
  if year.length = 4 ∧ year.all Char.isDigit ∧ start[4]? = some '-' then
    set (start.drop 5)
    restOfDate (valueIn 10 year)
  else if startsTime start then
    set (start.drop 3)
    restOfTime
  else return none
  let rest ← look
  return some (.moment (String.ofList (start.take (start.length - rest.length))))

end Toml
end TieredPool
