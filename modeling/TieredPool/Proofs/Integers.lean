import Mathlib.Algebra.Group.Nat.Defs
import TieredPool.Config.Load
import TieredPool.Proofs.Validation
import TieredPool.Toml.Parse

/-!
# Integers — the greatest number that a file can hold

An integer of a TOML text is read only if it fits in a signed 64-bit word. So no field of a configuration
that comes from a file is larger than that, although the fields have room for twice as much. It is all the
same by which reader of such texts.

* `Document.Narrow` — a document all of whose integers fit; `Toml.Entries.Narrow` — a table under
  construction.
* `Toml.Scan.Gives` — what a reader gives if it succeeds, with a rule for each way to combine readers.
* `DocumentReader.Narrow` — a reader of narrow documents only; `Toml.narrow_reader` — there is one.
* `PoolConfig.maxDelayMs_le_of_parse` — the greatest delay limit of a configuration that is read.
-/

namespace TieredPool

/-- All integers in the document are signed 64-bit numbers. -/
inductive Document.Narrow : Document → Prop where
  | null : Narrow .null
  | bool (value : Bool) : Narrow (.bool value)
  | integer {value : Int} (h : Int64.minValue.toInt ≤ value ∧ value ≤ Int64.maxValue.toInt) :
      Narrow (.integer value)
  | real (value : Binary64) : Narrow (.real value)
  | text (value : String) : Narrow (.text value)
  | moment (value : String) : Narrow (.moment value)
  | list {items : List Document} (h : ∀ d ∈ items, Narrow d) : Narrow (.list items)
  | table {fields : List (String × Document)} (h : ∀ f ∈ fields, Narrow f.2) :
      Narrow (.table fields)

/-- Whatever is read is narrow. -/
def DocumentReader.Narrow (reader : DocumentReader) : Prop :=
  ∀ text d, reader.read? text = some d → d.Narrow

namespace Toml

/-! ## Tables under construction -/

/-- The same of the values in an item. -/
inductive Item.Narrow : Item → Prop where
  | value {d : Document} (h : d.Narrow) : Narrow (.value d)
  | table (origin : Origin) {es : Entries} (h : ∀ e ∈ es, Narrow e.2) : Narrow (.table origin es)
  | tables {elements : List Entries} (h : ∀ es ∈ elements, ∀ e ∈ es, Narrow e.2) :
      Narrow (.tables elements)

namespace Entries

def Narrow (es : Entries) : Prop := ∀ e ∈ es, e.2.Narrow

theorem narrow_nil : Narrow [] := fun _ h => nomatch h

theorem narrow_of_find? {name : String} {es : Entries} {item : Item} (hes : es.Narrow)
    (h : es.find? name = some item) : item.Narrow := by
  obtain ⟨e, he, rfl⟩ := Option.map_eq_some_iff.1 h
  exact hes e (List.mem_of_find?_eq_some he)

theorem narrow_put {name : String} {item : Item} (hitem : item.Narrow) {es : Entries}
    (hes : es.Narrow) : (es.put name item).Narrow := by
  induction es with
  | nil =>
      rintro e (_ | ⟨_, ⟨⟩⟩)
      exact hitem
  | cons e es ih =>
      obtain ⟨he, hrest⟩ := List.forall_mem_cons.1 hes
      rw [put]
      split
      · exact List.forall_mem_cons.2 ⟨hitem, hrest⟩
      · exact List.forall_mem_cons.2 ⟨he, ih hrest⟩

end Entries

theorem update_narrow {origin : Origin} {change : Origin → Entries → Option Entries}
    (hchange : ∀ o es es', es.Narrow → change o es = some es' → es'.Narrow)
    {path : List String} {own : Origin} {es es' : Entries} (hes : es.Narrow)
    (h : update origin change path own es = some es') : es'.Narrow := by
  -- The tables on the path are narrow, and so what comes to be under the next name is narrow too.
  induction path generalizing own es es' with
  | nil => exact hchange own es es' hes h
  | cons name path ih =>
      rw [update] at h
      split at h
      · obtain ⟨below, hbelow, hput⟩ := Option.bind_eq_some_iff.1 h
        cases hput
        exact Entries.narrow_put (.table origin (ih Entries.narrow_nil hbelow)) hes
      · cases h
      next own' below hfind =>
        split at h
        · cases h
        · obtain ⟨below', hbelow, hput⟩ := Option.bind_eq_some_iff.1 h
          cases hput
          cases Entries.narrow_of_find? hes hfind with
          | table _ hold => exact Entries.narrow_put (.table own' (ih hold hbelow)) hes
      · cases h
      next last before hfind =>
        obtain ⟨last', hlast, hput⟩ := Option.bind_eq_some_iff.1 h
        cases hput
        cases Entries.narrow_of_find? hes hfind with
        | tables hold =>
            obtain ⟨hlastOld, hbefore⟩ := List.forall_mem_cons.1 hold
            exact Entries.narrow_put
              (.tables (List.forall_mem_cons.2 ⟨ih hlastOld hlast, hbefore⟩)) hes

theorem define_narrow {path : List String} {name : String} {d : Document} (hd : d.Narrow)
    {own : Origin} {es es' : Entries} (hes : es.Narrow) (h : define path name d own es = some es') :
    es'.Narrow := by
  refine update_narrow (fun o es es' hes h => ?_) hes h
  split at h
  · cases h
  · split at h
    · cases h
    · cases h
      exact Entries.narrow_put (.value hd) hes

theorem openTable_narrow {path : List String} {name : String} {root root' : Entries}
    (hroot : root.Narrow) (h : openTable path name root = some root') : root'.Narrow := by
  refine update_narrow (fun o es es' hes h => ?_) hroot h
  split at h
  · cases h
    exact Entries.narrow_put (.table .header Entries.narrow_nil) hes
  next below hfind =>
    cases h
    cases Entries.narrow_of_find? hes hfind with
    | table _ hbelow => exact Entries.narrow_put (.table .header hbelow) hes
  · cases h

theorem openElement_narrow {path : List String} {name : String} {root root' : Entries}
    (hroot : root.Narrow) (h : openElement path name root = some root') : root'.Narrow := by
  refine update_narrow (fun o es es' hes h => ?_) hroot h
  split at h
  · cases h
    exact Entries.narrow_put (.tables (List.forall_mem_singleton.2 Entries.narrow_nil)) hes
  next elements hfind =>
    cases h
    cases Entries.narrow_of_find? hes hfind with
    | tables hold =>
        exact Entries.narrow_put
          (.tables (List.forall_mem_cons.2 ⟨Entries.narrow_nil, hold⟩)) hes
  · cases h

theorem fieldsOf_eq_map (es : Entries) : fieldsOf es = es.map fun e => (e.1, e.2.toDocument) := by
  induction es with
  | nil => rfl
  | cons e es ih => rw [fieldsOf, ih, List.map_cons]

theorem elementsOf_eq_map (elements : List Entries) :
    elementsOf elements = elements.map fun es => .table (fieldsOf es) := by
  induction elements with
  | nil => rfl
  | cons es rest ih => rw [elementsOf, ih, List.map_cons]

theorem fieldsOf_narrow {es : Entries} (h : ∀ e ∈ es, e.2.toDocument.Narrow) :
    (Document.table (fieldsOf es)).Narrow := by
  rw [fieldsOf_eq_map]
  exact .table (List.forall_mem_map.2 h)

theorem toDocument_narrow {item : Item} (h : item.Narrow) : item.toDocument.Narrow := by
  induction h with
  | value hd => exact hd
  | table _ _ ih => exact fieldsOf_narrow ih
  | tables _ ih =>
      rw [Item.toDocument, elementsOf_eq_map]
      refine .list fun d hd => ?_
      obtain ⟨es, hes, rfl⟩ := List.mem_map.1 (List.mem_reverse.1 hd)
      exact fieldsOf_narrow (ih es hes)

theorem Entries.Narrow.document {es : Entries} (h : es.Narrow) :
    (Document.table (fieldsOf es)).Narrow :=
  fieldsOf_narrow fun e he => toDocument_narrow (h e he)

/-! ## What readers give -/

namespace Scan

variable {β γ : Type} {P : β → Prop} {Q : γ → Prop}

/-- Whatever the reader gives, if it succeeds, has the property. -/
def Gives (P : β → Prop) (x : Scan β) : Prop := ∀ cs b rest, x cs = some (b, rest) → P b

namespace Gives

theorem fail : Gives P fail := by
  intro cs b rest h
  cases h

theorem pure {b : β} (h : P b) : Gives P (Pure.pure b) := by
  intro cs b' rest hb
  cases hb
  exact h

theorem bind {x : Scan γ} {f : γ → Scan β} (hx : Gives Q x) (hf : ∀ c, Q c → Gives P (f c)) :
    Gives P (x >>= f) := by
  intro cs b rest h
  obtain ⟨⟨c, cs'⟩, hc, hb⟩ := Option.bind_eq_some_iff.1 h
  exact hf c (hx cs c cs' hc) cs' b rest hb

/-- What is read on the way does not matter. -/
theorem after {x : Scan γ} {f : γ → Scan β} (hf : ∀ c, Gives P (f c)) : Gives P (x >>= f) :=
  bind (Q := fun _ => True) (fun _ _ _ _ => trivial) fun c _ => hf c

theorem ite {c : Prop} [Decidable c] {x y : Scan β} (hx : c → Gives P x) (hy : ¬ c → Gives P y) :
    Gives P (if c then x else y) := by
  split
  case isTrue h => exact hx h
  case isFalse h => exact hy h

end Gives

end Scan

open Scan

/-! ## Numbers -/

theorem integerOf_narrow (n : Int) : Gives Document.Narrow (integerOf n) :=
  .ite (fun h => .pure (.integer h)) fun _ => .fail

theorem markedInteger_narrow (base : Nat) (p : Char → Bool) :
    Gives Document.Narrow (markedInteger base p) :=
  .after fun _ => integerOf_narrow _

theorem realOf_narrow (text : List Char) : Gives Document.Narrow (realOf text) := by
  unfold realOf
  split
  · exact .fail
  · exact .fail
  · exact .pure (.real _)

theorem unsignedNumber_narrow (sign : List Char) : Gives Document.Narrow (unsignedNumber sign) := by
  unfold unsignedNumber
  refine .after fun infinite => .ite (fun _ => .pure (.real _)) fun _ => ?_
  refine .after fun nan => .ite (fun _ => .pure (.real _)) fun _ => ?_
  refine .after fun whole => .after fun point => .ite (fun _ => ?_) fun _ => ?_
  · exact .after fun fraction => .after fun exponent => realOf_narrow _
  · exact .after fun exponent => .ite (fun _ => integerOf_narrow _) fun _ => realOf_narrow _

theorem number_narrow : Gives Document.Narrow number := by
  unfold number
  refine .after fun _ => .ite (fun _ => markedInteger_narrow _ _) fun _ => ?_
  refine .after fun _ => .ite (fun _ => markedInteger_narrow _ _) fun _ => ?_
  refine .after fun _ => .ite (fun _ => markedInteger_narrow _ _) fun _ => ?_
  refine .after fun _ => .ite (fun _ => unsignedNumber_narrow _) fun _ => ?_
  exact .after fun _ => unsignedNumber_narrow _

/-! ## Values -/

theorem moment?_narrow : Gives (fun o => ∀ d ∈ o, Document.Narrow d) moment? := by
  -- However far a date or a time goes, it is kept as text.
  have hread (start : List Char) : Gives (fun o => ∀ d ∈ o, Document.Narrow d) do
      let rest ← look
      return some (.moment (String.ofList (start.take (start.length - rest.length)))) := by
    refine .after fun rest => .pure ?_
    rintro _ ⟨⟩
    exact .moment _
  unfold moment?
  refine .after fun start => .ite (fun _ => ?_) fun _ => .ite (fun _ => ?_) fun _ => ?_
  · exact .after fun _ => .after fun _ => hread start
  · exact .after fun _ => .after fun _ => hread start
  · exact .pure fun _ h => nomatch h

theorem scalar_narrow : Gives Document.Narrow value.scalar := by
  unfold value.scalar
  refine .after fun next => ?_
  split
  · exact .after fun _ => .pure (.text _)
  · exact .after fun _ => .pure (.text _)
  · exact .after fun _ => .ite (fun _ => .pure (.bool _)) fun _ => .fail
  · exact .after fun _ => .ite (fun _ => .pure (.bool _)) fun _ => .fail
  · exact .after fun _ => .ite (fun _ => .pure (.real _)) fun _ => .fail
  · exact .after fun _ => .ite (fun _ => .pure (.real _)) fun _ => .fail
  · refine .ite (fun _ => .bind moment?_narrow fun o ho => ?_) fun _ =>
      .ite (fun _ => number_narrow) fun _ => .fail
    cases o with
    | none => exact number_narrow
    | some d => exact .pure (ho d rfl)
  · exact .fail

section Nested

variable {element : Scan Document} (helement : Gives Document.Narrow element)
include helement

theorem elementsFrom_narrow {done : List Document} (hdone : ∀ d ∈ done, d.Narrow) (fuel : Nat) :
    Gives Document.Narrow (elementsFrom element done fuel) := by
  induction fuel generalizing done with
  | zero => exact .fail
  | succ fuel ih =>
      have hlist {ds : List Document} (hds : ∀ d ∈ ds, d.Narrow) :
          (Document.list ds.reverse).Narrow := .list fun d hd => hds d (List.mem_reverse.1 hd)
      refine .after fun _ => .after fun closed => .ite (fun _ => .pure (hlist hdone)) fun _ => ?_
      refine .bind helement fun d hd => .after fun _ => .after fun comma => ?_
      have hmore : ∀ d' ∈ d :: done, d'.Narrow := List.forall_mem_cons.2 ⟨hd, hdone⟩
      exact .ite (fun _ => ih hmore) fun _ => .after fun _ => .pure (hlist hmore)

theorem entriesFrom_narrow {es : Entries} (hes : es.Narrow) (fuel : Nat) :
    Gives Entries.Narrow (entriesFrom element es fuel) := by
  induction fuel generalizing es with
  | zero => exact .fail
  | succ fuel ih =>
      refine .after fun ⟨path, name⟩ => .after fun _ => .after fun _ => ?_
      refine .bind helement fun d hd => .after fun _ => ?_
      split
      case h_1 => exact .fail
      case h_2 es' hdefine =>
        have hes' : es'.Narrow := define_narrow hd hes hdefine
        exact .after fun _ => .ite (fun _ => ih hes') fun _ => .pure hes'

theorem inlineTable_narrow : Gives Document.Narrow (inlineTable element) := by
  refine .after fun _ => .after fun _ => .after fun closed => .ite (fun _ => ?_) fun _ => ?_
  · exact .pure Entries.narrow_nil.document
  · exact .bind (entriesFrom_narrow helement Entries.narrow_nil _) fun es hes =>
      .after fun _ => .pure (Entries.Narrow.document hes)

end Nested

theorem value_narrow (depth : Nat) : Gives Document.Narrow (value depth) := by
  induction depth with
  | zero => exact scalar_narrow
  | succ depth ih =>
      refine .after fun next => ?_
      split
      · exact .after fun _ => .after fun _ => elementsFrom_narrow ih (List.forall_mem_nil _) _
      · exact .after fun _ => inlineTable_narrow ih
      · exact scalar_narrow

/-! ## Lines -/

theorem header_narrow {p : Progress} (hp : p.root.Narrow) :
    Gives (fun p' => p'.root.Narrow) (header p) := by
  refine .after fun _ => .after fun array => .after fun ⟨path, name⟩ => .after fun _ => ?_
  have hopened {root : Entries} (h : (if array then openElement path name p.root
      else openTable path name p.root) = some root) : root.Narrow := by
    cases array with
    | false => exact openTable_narrow hp h
    | true => exact openElement_narrow hp h
  -- A header with one bracket and one with two end in the same way.
  refine .ite (fun _ => .after fun _ => .after fun _ => ?_) fun _ => .after fun _ => ?_
  all_goals
    split
    case h_1 root hroot => exact .pure (hopened hroot)
    case h_2 => exact .fail

theorem definition_narrow {p : Progress} (hp : p.root.Narrow) :
    Gives (fun p' => p'.root.Narrow) (definition p) := by
  refine .after fun ⟨path, name⟩ => .after fun _ => .after fun _ => ?_
  refine .bind (value_narrow _) fun d hd => .after fun _ => ?_
  split
  case h_1 root hroot =>
    exact .pure (update_narrow (fun _ _ _ hes h => define_narrow hd hes h) hp hroot)
  case h_2 => exact .fail

theorem linesFrom_narrow {p : Progress} (hp : p.root.Narrow) (fuel : Nat) :
    Gives (fun p' => p'.root.Narrow) (linesFrom p fuel) := by
  induction fuel generalizing p with
  | zero => exact .fail
  | succ fuel ih =>
      refine .after fun _ => .after fun next => ?_
      split
      · exact .pure hp
      · exact .after fun _ => ih hp
      · exact .after fun _ => ih hp
      · exact .after fun _ => ih hp
      · exact .bind (header_narrow hp) fun _ hp' => ih hp'
      · exact .bind (definition_narrow hp) fun _ hp' => ih hp'

/-- Every integer in a document that is read fits in a signed 64-bit word. -/
theorem narrow_reader : reader.Narrow := by
  intro text d h
  change parse? text = some d at h
  rw [parse?] at h
  split at h
  next p hp =>
    cases h
    exact (linesFrom_narrow Entries.narrow_nil _ _ _ _ hp).document
  · cases h

end Toml

/-! ## Fields of a record -/

namespace Document

theorem toUInt64?_le {d : Document} (hd : d.Narrow) {n : UInt64} (h : d.toUInt64? = some n) :
    n.toNat ≤ 2 ^ 63 - 1 := by
  obtain ⟨k, hk, hn⟩ := Option.bind_eq_some_iff.1 h
  cases hd with
  | @integer value hrange =>
      cases value with
      | negSucc => cases hk
      | ofNat =>
          cases hk
          split at hn
          · cases hn
            exact Int.ofNat_le.1 hrange.2
          · cases hn
  | _ => cases hk

/-- A field of a narrow document is narrow. -/
theorem narrow_of_fields? {f : Format} {names : List String} {d : Document} (hd : d.Narrow)
    {fields : List (Option Document)} (h : d.fields? f names = some fields) :
    ∀ o ∈ fields, ∀ d' ∈ o, d'.Narrow := by
  cases hd with
  | table hfields =>
      cases h
      refine List.forall_mem_map.2 fun name _ d' hd' => ?_
      obtain ⟨field, hfield, rfl⟩ := Option.map_eq_some_iff.1 hd'
      exact hfields field (List.mem_of_find?_eq_some hfield)
  | list hitems =>
      rw [fields?] at h
      split at h
      · cases h
      · cases h
        exact List.forall_mem_map.2 fun i _ d' hd' => hitems d' (List.mem_of_getElem? hd')
  | moment =>
      cases h
      exact List.forall_mem_map.2 fun _ _ _ hd' => nomatch hd'
  | _ => cases h

theorem maxDelayMs_le {f : Format} {d : Document} (hd : d.Narrow) {c : RetryConfig}
    (h : d.toRetryConfig? f = some c) : c.maxDelayMs.toNat ≤ 2 ^ 63 - 1 := by
  obtain ⟨fields, hfields, h⟩ := Option.bind_eq_some_iff.1 h
  split at h
  next maxAttempts baseDelayMs maxDelayMs =>
    obtain ⟨_, _, h⟩ := Option.bind_eq_some_iff.1 h
    obtain ⟨_, _, h⟩ := Option.bind_eq_some_iff.1 h
    obtain ⟨n, hn, h⟩ := Option.bind_eq_some_iff.1 h
    cases h
    change n.toNat ≤ 2 ^ 63 - 1
    cases maxDelayMs with
    | none =>
        cases hn
        decide
    | some d' => exact toUInt64?_le (narrow_of_fields? hd hfields (some d') (by simp) d' rfl) hn
  · cases h

theorem retry_maxDelayMs_le {f : Format} {d : Document} (hd : d.Narrow) {c : PoolConfig}
    (h : d.toPoolConfig? f = some c) : c.retry.maxDelayMs.toNat ≤ 2 ^ 63 - 1 := by
  obtain ⟨fields, hfields, h⟩ := Option.bind_eq_some_iff.1 h
  split at h
  next servers retry observability =>
    obtain ⟨_, _, h⟩ := Option.bind_eq_some_iff.1 h
    obtain ⟨r, hr, h⟩ := Option.bind_eq_some_iff.1 h
    obtain ⟨_, _, h⟩ := Option.bind_eq_some_iff.1 h
    cases h
    change r.maxDelayMs.toNat ≤ 2 ^ 63 - 1
    cases retry with
    | none =>
        cases hr
        decide
    | some d' => exact maxDelayMs_le (narrow_of_fields? hd hfields (some d') (by simp) d' rfl) hr
  · cases h

end Document

/-- A configuration is passed as it is. -/
theorem PoolConfig.eq_of_validate {urls : UrlParser} {c c' : PoolConfig} (h : c.validate urls = .ok c') :
    c = c' := by
  rw [validate] at h
  split at h
  · cases h
    rfl
  · cases h

/-- The limit of the delays in a configuration that is read from a text has 63 bits. -/
theorem PoolConfig.maxDelayMs_le_of_parse {toml : DocumentReader} (htoml : toml.Narrow) {urls : UrlParser}
    {text : String} {c : PoolConfig} (h : PoolConfig.parse toml urls text = .ok c) :
    c.retry.maxDelayMs.toNat ≤ 2 ^ 63 - 1 := by
  rw [PoolConfig.parse] at h
  split at h
  next c' hc' =>
    obtain ⟨d, hd, hc⟩ := Option.bind_eq_some_iff.1 hc'
    rw [← PoolConfig.eq_of_validate h]
    exact Document.retry_maxDelayMs_le (htoml text d hd) hc
  · cases h

end TieredPool
