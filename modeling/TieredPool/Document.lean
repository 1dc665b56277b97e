import TieredPool.Binary64

/-!
# Document — structured values, whatever notation they were written in

* `Document` — null, booleans, numbers, texts, dates, lists and tables with their fields in order.
* `Document.lookup` — the value of a field.
* `Document.pretty` — a document as JSON text, with an indent of two blanks.
* `DocumentReader` — the way from texts to documents.
-/

namespace TieredPool

inductive Document where
  | null
  | bool (value : Bool)
  | integer (value : Int)
  | real (value : Binary64)
  | text (value : String)
  /-- A date, a time or both, as it was written. -/
  | moment (value : String)
  | list (items : List Document)
  | table (fields : List (String × Document))
  deriving Repr, Inhabited

namespace Document

def nat (n : Nat) : Document := .integer n

/-- The value of the first field of that name. -/
def lookup (name : String) (fields : List (String × Document)) : Option Document :=
  (fields.find? (·.1 = name)).map (·.2)

/-! ## JSON text -/

/-- Four hexadecimal digits. -/
def fourDigits (n : Nat) : List Char :=
  let digits := Nat.toDigits 16 n
  List.replicate (4 - digits.length) '0' ++ digits

/-- The quote, the backslash and control characters are escaped in a JSON text. -/
def escapeChar (c : Char) : List Char :=
  match c with
  | '"' => ['\\', '"']
  | '\\' => ['\\', '\\']
  | '\x08' => ['\\', 'b']
  | '\x0c' => ['\\', 'f']
  | '\n' => ['\\', 'n']
  | '\r' => ['\\', 'r']
  | '\t' => ['\\', 't']
  | c => if c.toNat < 0x20 then '\\' :: 'u' :: fourDigits c.toNat else [c]

def quote (s : String) : String := String.ofList ('"' :: s.toList.flatMap escapeChar ++ ['"'])

/-- A line break and the indent of the line after it. -/
def newline (depth : Nat) : String := String.ofList ('\n' :: List.replicate (2 * depth) ' ')

mutual

/-- The text of a document that stands `depth` levels deep. -/
def render (depth : Nat) : Document → String
  | .null => "null"
  | .bool b => if b then "true" else "false"
  | .integer n => toString n
  | .real x => x.text
  | .text s => quote s
  | .moment s => quote s
  | .list [] => "[]"
  | .list (d :: ds) =>
      "[" ++ newline (depth + 1) ++ render (depth + 1) d ++ renderItems depth ds
        ++ newline depth ++ "]"
  | .table [] => "\x7b\x7d"
  | .table (f :: fs) =>
      "\x7b" ++ newline (depth + 1) ++ quote f.1 ++ ": " ++ render (depth + 1) f.2
        ++ renderFields depth fs ++ newline depth ++ "\x7d"

/-- The items after the first. -/
def renderItems (depth : Nat) : List Document → String
  | [] => ""
  | d :: ds => "," ++ newline (depth + 1) ++ render (depth + 1) d ++ renderItems depth ds

/-- The fields after the first. -/
def renderFields (depth : Nat) : List (String × Document) → String
  | [] => ""
  | f :: fs =>
      "," ++ newline (depth + 1) ++ quote f.1 ++ ": " ++ render (depth + 1) f.2
        ++ renderFields depth fs

end

def pretty (d : Document) : String := render 0 d

end Document

/-- How texts in some notation are read: the document that a text is, if it is one. -/
structure DocumentReader where
  read? : String → Option Document

end TieredPool
