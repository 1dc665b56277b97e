import TieredPool.Toml.Scalar
import TieredPool.Toml.Tree

/-!
# Parse — documents in TOML

* `value` — a value, nested less than `nestingLimit` levels deep.
* `parse?` — a whole document; `reader` — as a way to read texts.
-/

namespace TieredPool
namespace Toml

open Scan

/-- Arrays, inline tables and the parts of a key stay below this number. -/
def nestingLimit : Nat := 80

/-! ## Keys -/

def isBareKeyChar (c : Char) : Bool := c.isAlphanum || c == '-' || c == '_'

def keyPart : Scan String := do
  match ← peek? with
  | some '"' | some '\x27' => shortString
  | _ => return String.ofList (← takeSome isBareKeyChar)

/-- The parts of a dotted key, with blanks around each. -/
def keyFrom : Nat → Scan (List String)
  | 0 => fail
  | fuel + 1 => do
      blanks
      let part ← keyPart
      blanks
      if ← skipIf ['.'] then return part :: (← keyFrom fuel) else return [part]

/-- The path to a table, and a name in it. -/
def key : Scan (List String × String) := do
  match (← keyFrom (nestingLimit - 1)).reverse with
  | name :: path => return (path.reverse, name)
  | [] => fail

/-! ## Values -/

/-- The elements of an array after its bracket, each read by `element`. -/
def elementsFrom (element : Scan Document) (done : List Document) : Nat → Scan Document
  | 0 => fail
  | fuel + 1 => do
      gap
      if ← skipIf [']'] then return .list done.reverse
      let d ← element
      gap
      if ← skipIf [','] then elementsFrom element (d :: done) fuel
      else
        expect ']'
        return .list (d :: done).reverse

/-- The entries of an inline table, of which there is one at least. -/
def entriesFrom (element : Scan Document) (es : Entries) : Nat → Scan Entries
  | 0 => fail
  | fuel + 1 => do
      let (path, name) ← key
      expect '='
      blanks
      let d ← element
      blanks
      match define path name d .header es with
      | none => fail
      | some es => if ← skipIf [','] then entriesFrom element es fuel else return es

/-- An inline table after its brace. -/
def inlineTable (element : Scan Document) : Scan Document := do
  let fuel := (← look).length + 1
  blanks
  if ← skipIf ['\x7d'] then return .table []
  let es ← entriesFrom element [] fuel
  expect '\x7d'
  return .table (fieldsOf es)

/-- A value that may nest `depth` levels deep. -/
def value : Nat → Scan Document
  | 0 => scalar
  | depth + 1 => do
      match ← peek? with
      | some '[' =>
          expect '['
          elementsFrom (value depth) [] ((← look).length + 1)
      | some '\x7b' =>
          expect '\x7b'
          inlineTable (value depth)
      | _ => scalar
where
  /-- A value without parts. -/
  scalar : Scan Document := do
    match ← peek? with
    | some '"' | some '\x27' => return .text (← string)
    | some 't' => if ← skipIf "true".toList then return .bool true else fail
    | some 'f' => if ← skipIf "false".toList then return .bool false else fail
    | some 'i' => if ← skipIf "inf".toList then return .real (.infinite false) else fail
    | some 'n' => if ← skipIf "nan".toList then return .real .nan else fail
    | some c =>
        if c.isDigit then
          match ← moment? with
          | some d => return d
          | none => number
        else if c == '+' || c == '-' then number
        else fail
    | none => fail

/-! ## Lines -/

/-- The document so far, and the path of the table that definitions go into. -/
structure Progress where
  root : Entries := []
  current : List String := []

/-- The header of a table or of an element of an array. -/
def header (p : Progress) : Scan Progress := do
  expect '['
  let array ← skipIf ['[']
  let (path, name) ← key
  expect ']'
  if array then expect ']'
  lineEnd
  match if array then openElement path name p.root else openTable path name p.root with
  | some root => return { root, current := path ++ [name] }
  | none => fail

/-- A key with its value. -/
def definition (p : Progress) : Scan Progress := do
  let (path, name) ← key
  expect '='
  blanks
  let d ← value (nestingLimit - 1)
  lineEnd
  match update .parent (define path name d) p.current .header p.root with
  | some root => return { p with root }
  | none => fail

/-- The lines of a document. -/
def linesFrom (p : Progress) : Nat → Scan Progress
  | 0 => fail
  | fuel + 1 => do
      blanks
      match ← peek? with
      | none => return p
      | some '#' | some '\n' | some '\r' =>
          lineEnd
          linesFrom p fuel
      | some '[' => linesFrom (← header p) fuel
      | some _ => linesFrom (← definition p) fuel

/-- Reads a document. A byte order mark in front of it is passed over. -/
def parse? (text : String) : Option Document :=
  let cs := text.toList
  let cs := if cs.head? = some '\ufeff' then cs.tail else cs
  match (linesFrom {} (cs.length + 1)).run cs with
  | some (p, []) => some (.table (fieldsOf p.root))
  | _ => none

def reader : DocumentReader where
  read? := parse?

end Toml
end TieredPool
