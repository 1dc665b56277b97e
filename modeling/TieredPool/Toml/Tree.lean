import TieredPool.Document

/-!
# Tree — tables under construction

A document is built from definitions in any order, and none may define a table twice. So a table
under construction knows how it came to be.

* `Item` — a value, a table or an array of tables.
* `define` — a value under a dotted key; `openTable`, `openElement` — headers.
* `Item.toDocument` — the finished value.
-/

namespace TieredPool
namespace Toml

/-- How a table came to be. -/
inductive Origin where
  /-- By its own header or braces. -/
  | header
  /-- On the way to a table below it. -/
  | parent
  /-- On the way of a dotted key. -/
  | dotted
  deriving DecidableEq, Repr

inductive Item where
  | value (d : Document)
  | table (origin : Origin) (entries : List (String × Item))
  /-- The elements of an array of tables, last first. -/
  | tables (elements : List (List (String × Item)))

/-- The entries of a table, by name. -/
abbrev Entries := List (String × Item)

namespace Entries

def find? (name : String) (es : Entries) : Option Item :=
  (List.find? (·.1 = name) es).map (·.2)

/-- Puts an item under a name, at the place of the one that has it already. -/
def put (name : String) (item : Item) : Entries → Entries
  | [] => [(name, item)]
  | e :: es => if e.1 = name then (name, item) :: es else e :: put name item es

end Entries

/-- Changes the table at the end of a path; tables that are missing come to be as `origin`. A path
of a dotted key does not lead through a table that has a header. -/
def update (origin : Origin) (change : Origin → Entries → Option Entries) :
    List String → Origin → Entries → Option Entries
  | [], own, es => change own es
  | name :: path, _, es =>
      match es.find? name with
      | none => do
          let below ← update origin change path origin []
          return es.put name (.table origin below)
      | some (.value _) => none
      | some (.table own below) =>
          if origin = .dotted ∧ own = .header then none
          else do
            let below ← update origin change path own below
            return es.put name (.table own below)
      | some (.tables []) => none
      | some (.tables (last :: before)) => do
          let last ← update origin change path .header last
          return es.put name (.tables (last :: before))

/-- Defines a value in the table of a dotted key. Only a key with dots may add to a table that such
keys have made. -/
def define (path : List String) (name : String) (value : Document) (own : Origin)
    (es : Entries) : Option Entries :=
  update .dotted (fun o es =>
    if (o = .dotted) ≠ (path ≠ []) then none
    else if (es.find? name).isSome then none
    else some (es.put name (.value value))) path own es

/-- The header of a table that has none so far. -/
def openTable (path : List String) (name : String) (root : Entries) : Option Entries :=
  update .parent (fun _ es =>
    match es.find? name with
    | none => some (es.put name (.table .header []))
    | some (.table .parent below) => some (es.put name (.table .header below))
    | some _ => none) path .header root

/-- The header of one more element of an array of tables. -/
def openElement (path : List String) (name : String) (root : Entries) : Option Entries :=
  update .parent (fun _ es =>
    match es.find? name with
    | none => some (es.put name (.tables [[]]))
    | some (.tables elements) => some (es.put name (.tables ([] :: elements)))
    | some _ => none) path .header root

mutual

def Item.toDocument : Item → Document
  | .value d => d
  | .table _ es => .table (fieldsOf es)
  | .tables elements => .list (elementsOf elements).reverse

def fieldsOf : List (String × Item) → List (String × Document)
  | [] => []
  | e :: es => (e.1, e.2.toDocument) :: fieldsOf es

def elementsOf : List (List (String × Item)) → List Document
  | [] => []
  | es :: rest => .table (fieldsOf es) :: elementsOf rest

end

end Toml
end TieredPool
