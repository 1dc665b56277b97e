import TieredPool.Config.Encode

/-!
# Omissions — what a document need not say

A field that has a default may be left out of a document. Where the default is what the field holds,
nothing is lost: whichever of these fields are left out, of the whole, of its parts and of the servers in
its list, the document is read as the same value.

* `Document.Path`, `Document.at?` — the parts of a document.
* `Document.without` — a document with fields left out.
* `PoolConfig.declared`, `ServerOptions.declared` — the fields that have a default, with that default.
* `Document.Redundant` — only fields that hold their defaults are left out.
* `Document.Restores` — a value is read from its document, whatever redundant fields are left out.
* `omissions_restored` — configurations and options are.
-/

namespace TieredPool

open Document (nat)

namespace Document

variable {α : Type}

/-! ## Parts of a document -/

/-- A step from a document into one of its parts. -/
inductive Key where
  | field (name : String)
  | item (index : Nat)
  deriving DecidableEq

abbrev Path := List Key

/-- The part that a path leads to. -/
def at? : Path → Document → Option Document
  | [], d => some d
  | .field name :: p, .table fs => (lookup name fs).bind (at? p)
  | .item i :: p, .list ds => (ds[i]?).bind (at? p)
  | _ :: _, _ => none

theorem at?_cons (k : Key) (p : Path) (d : Document) : d.at? (k :: p) = (d.at? [k]).bind (at? p) := by
  cases k <;> cases d <;> simp [at?]

/-! ## Leaving fields out -/

mutual

/-- The document without the fields at the paths that are `gone`. -/
def without (gone : Path → Bool) : Document → Document
  | .table fs => .table (withoutFields gone fs)
  | .list ds => .list (withoutItems gone 0 ds)
  | d => d

def withoutFields (gone : Path → Bool) : List (String × Document) → List (String × Document)
  | [] => []
  | f :: fs =>
      if gone [.field f.1] then withoutFields gone fs
      else (f.1, without (fun p => gone (.field f.1 :: p)) f.2) :: withoutFields gone fs

/-- Items are never left out. Here they stand from position `i` on. -/
def withoutItems (gone : Path → Bool) (i : Nat) : List Document → List Document
  | [] => []
  | d :: ds => without (fun p => gone (.item i :: p)) d :: withoutItems gone (i + 1) ds

end

/-- What is found under a name is what was there, unless it is left out, less what is left out of it. -/
theorem lookup_withoutFields (gone : Path → Bool) (name : String) (fs : List (String × Document)) :
    lookup name (withoutFields gone fs) =
      if gone [.field name] then none
      else (lookup name fs).map (without fun p => gone (.field name :: p)) := by
  induction fs with
  | nil => simp [withoutFields, lookup]
  | cons f fs ih =>
      have hcons (f : String × Document) (fs : List (String × Document)) :
          lookup name (f :: fs) = if f.1 = name then some f.2 else lookup name fs := by
        by_cases h : f.1 = name <;> simp [lookup, h]
      rw [withoutFields, hcons]
      -- A field of the same name hides those after it, and leaving it out leaves them out as well.
      by_cases hname : f.1 = name
      · subst hname
        split
        case isTrue hgone => rw [ih, if_pos hgone]
        case isFalse => rw [hcons, if_pos rfl, if_pos rfl, Option.map_some]
      · rw [if_neg hname, ← ih]
        split
        · rfl
        · rw [hcons, if_neg hname]

mutual

/-- Where nothing is gone, nothing is left out. -/
theorem without_of_kept {gone : Path → Bool} (h : ∀ k p, gone (k :: p) = false) :
    ∀ d : Document, d.without gone = d
  | .table fs => by rw [without, withoutFields_of_kept h fs]
  | .list ds => by rw [without, withoutItems_of_kept h 0 ds]
  | .null | .bool _ | .integer _ | .real _ | .text _ | .moment _ => rfl

theorem withoutFields_of_kept {gone : Path → Bool} (h : ∀ k p, gone (k :: p) = false) :
    ∀ fs : List (String × Document), withoutFields gone fs = fs
  | [] => rfl
  | f :: fs => by
      have hbelow : f.2.without (fun p => gone (.field f.1 :: p)) = f.2 :=
        without_of_kept (fun k p => h (.field f.1) (k :: p)) f.2
      rw [withoutFields, h, withoutFields_of_kept h fs, hbelow]
      rfl

theorem withoutItems_of_kept {gone : Path → Bool} (h : ∀ k p, gone (k :: p) = false) :
    ∀ (i : Nat) (ds : List Document), withoutItems gone i ds = ds
  | _, [] => rfl
  | i, d :: ds => by
      have hbelow : d.without (fun p => gone (.item i :: p)) = d :=
        without_of_kept (fun k p => h (.item i) (k :: p)) d
      rw [withoutItems, withoutItems_of_kept h (i + 1) ds, hbelow]

end

/-! ## Redundant fields -/

/-- Whatever is gone from the document `d` has a declared default, which is what it held. -/
def Redundant (declared : Path → Option Document) (d : Document) (gone : Path → Bool) : Prop :=
  ∀ k p, gone (k :: p) = true → ∃ e, declared (k :: p) = some e ∧ d.at? (k :: p) = some e

/-- The value `v` is read from its document `d` and from what is left of it without redundant fields. -/
def Restores (declared : Path → Option Document) (read : Document → Option α) (d : Document) (v : α) :
    Prop :=
  ∀ gone, Redundant declared d gone → read (d.without gone) = some v

variable {declared declared' : Path → Option Document} {gone : Path → Bool} {read : Document → Option α}
  {d : Document} {v : α}

/-- What is redundant in a document is redundant in its parts. -/
theorem Redundant.part (h : Redundant declared d gone) {k : Key} {part : Document}
    (hpart : d.at? [k] = some part) :
    Redundant (fun p => declared (k :: p)) part (fun p => gone (k :: p)) := by
  intro k' p hgone
  obtain ⟨e, hdeclared, hat⟩ := h k (k' :: p) hgone
  rw [at?_cons, hpart] at hat
  exact ⟨e, hdeclared, hat⟩

theorem Restores.read_eq (h : Restores declared read d v) : read d = some v := by
  have hwhole : d.without (fun _ => false) = d := without_of_kept (fun _ _ => rfl) d
  rw [← hwhole]
  exact h _ fun _ _ hgone => nomatch hgone

theorem Restores.congr (h : Restores declared read d v)
    (heq : ∀ k p, declared' (k :: p) = declared (k :: p)) : Restores declared' read d v := by
  intro gone hgone
  refine h gone fun k p hkp => ?_
  rw [← heq]
  exact hgone k p hkp

/-- Where no part has a default, there is nothing to leave out. -/
theorem restores_of_read (hnone : ∀ k p, declared (k :: p) = none) (hread : read d = some v) :
    Restores declared read d v := by
  intro gone hgone
  have hkept (k : Key) (p : Path) : gone (k :: p) = false := by
    refine Bool.eq_false_iff.2 fun hkp => ?_
    obtain ⟨e, he, _⟩ := hgone k p hkp
    rw [hnone] at he
    cases he
  rw [without_of_kept hkept]
  exact hread

section Fields

variable {fs : List (String × Document)} {name : String} (hgone : Redundant declared (.table fs) gone)
  (hfield : lookup name fs = some d)
  (hbelow : Restores (fun p => declared (.field name :: p)) read d v)

include hgone hfield hbelow

/-- A field is left out if what it held is its default; else it is read as before. -/
theorem lookup_restored :
    (lookup name (withoutFields gone fs) = none ∧ declared [.field name] = some d) ∨
      ∃ d', lookup name (withoutFields gone fs) = some d' ∧ read d' = some v := by
  have hpart : (Document.table fs).at? [.field name] = some d := by simp [at?, hfield]
  rw [lookup_withoutFields]
  split
  case isTrue hout =>
    obtain ⟨e, he, hat⟩ := hgone (.field name) [] hout
    exact .inl ⟨rfl, he.trans (hat.symm.trans hpart)⟩
  case isFalse =>
    rw [hfield]
    exact .inr ⟨_, rfl, hbelow _ (hgone.part hpart)⟩

theorem orElse_restored {default : α} {e : Document} (hdeclared : declared [.field name] = some e)
    (hdefault : read e = some default) :
    orElse default read (lookup name (withoutFields gone fs)) = some v := by
  rcases lookup_restored hgone hfield hbelow with ⟨hout, hheld⟩ | ⟨d', hkept, hread⟩
  · -- Both what the field held and its default are read from the same document.
    obtain rfl : d = e := Option.some.inj (hheld.symm.trans hdeclared)
    rw [hout]
    exact hdefault.symm.trans hbelow.read_eq
  · rw [hkept]
    exact hread

theorem bind_restored (hdeclared : declared [.field name] = none) :
    (lookup name (withoutFields gone fs)).bind read = some v := by
  rcases lookup_restored hgone hfield hbelow with ⟨_, hheld⟩ | ⟨d', hkept, hread⟩
  · rw [hdeclared] at hheld
    cases hheld
  · rw [hkept]
    exact hread

end Fields

theorem restores_list {encode : α → Document} {vs : List α}
    (h : ∀ i, ∀ v ∈ vs, Restores (fun p => declared (.item i :: p)) read (encode v) v) :
    Restores declared (toList? read) (.list (vs.map encode)) vs := by
  intro gone hgone
  -- The items from position `i` on are read as the values from there on.
  have hitems (i : Nat) (rest : List α) (hrest : vs.drop i = rest) :
      (withoutItems gone i (rest.map encode)).mapM read = some rest := by
    induction rest generalizing i with
    | nil => rfl
    | cons v rest ih =>
        have hv : vs[i]? = some v := by rw [← List.head?_drop, hrest, List.head?_cons]
        have hpart : (Document.list (vs.map encode)).at? [.item i] = some (encode v) := by
          simp [at?, List.getElem?_map, hv]
        have hnext : vs.drop (i + 1) = rest := by rw [← List.tail_drop, hrest, List.tail_cons]
        have hread := h i v (List.mem_of_getElem? hv) _ (hgone.part hpart)
        rw [List.map_cons, withoutItems, List.mapM_cons, hread, ih (i + 1) hnext]
        rfl
  exact hitems 0 vs rfl

/-! ## Single values -/

theorem toBool?_bool (b : Bool) : (Document.bool b).toBool? = some b := rfl

theorem toText?_text (s : String) : (Document.text s).toText? = some s := rfl

theorem toNat?_nat (n : Nat) : (nat n).toNat? = some n := rfl

theorem toUInt32?_nat {n : Nat} (h : n < UInt32.size) :
    (nat n).toUInt32? = some (.ofNatLT n h) := by
  simp [toUInt32?, toNat?_nat, h]

theorem toUInt64?_nat {n : Nat} (h : n < UInt64.size) :
    (nat n).toUInt64? = some (.ofNatLT n h) := by
  simp [toUInt64?, toNat?_nat, h]

theorem toUInt32?_toNat (n : UInt32) : (nat n.toNat).toUInt32? = some n := by
  rw [toUInt32?_nat n.toNat_lt_size, UInt32.ofNatLT_toNat]

theorem toUInt64?_toNat (n : UInt64) : (nat n.toNat).toUInt64? = some n := by
  rw [toUInt64?_nat n.toNat_lt_size, UInt64.ofNatLT_toNat]

end Document

namespace Duration

theorem seconds_lt (d : Duration) : d.seconds < UInt64.size :=
  Nat.div_lt_of_lt_mul (Nat.mul_comm _ nanosPerSecond ▸ d.inRange)

theorem subsecNanos_lt (d : Duration) : d.subsecNanos < UInt32.size :=
  Nat.lt_trans (Nat.mod_lt d.nanos (by decide)) (by decide : nanosPerSecond < UInt32.size)

theorem ofParts?_parts (d : Duration) : ofParts? d.seconds d.subsecNanos = some d := by
  have hwhole : d.seconds * nanosPerSecond + d.subsecNanos = d.nanos := Nat.div_add_mod' _ _
  simp only [ofParts?, hwhole, d.inRange, dite_true]

theorem toDuration?_toDocument (d : Duration) : d.toDocument.toDuration? = some d := by
  have hparts : d.toDocument.durationParts? = some (nat d.seconds, nat d.subsecNanos) := by
    simp [toDocument, Document.durationParts?, Document.lookup]
  rw [Document.toDuration?, hparts, Option.bind_eq_bind, Option.bind_some]
  refine Option.bind_eq_some_iff.2 ⟨_, Document.toUInt64?_nat d.seconds_lt, ?_⟩
  refine Option.bind_eq_some_iff.2 ⟨_, Document.toUInt32?_nat d.subsecNanos_lt, ?_⟩
  rw [UInt64.toNat_ofNatLT, UInt32.toNat_ofNatLT]
  exact d.ofParts?_parts

end Duration

/-! ## Records -/

open Document (Path Redundant Restores)

/-- The defaults of the fields of a record, in none of which there are fields with defaults. -/
def declaredIn (defaults : List (String × Document)) : Path → Option Document
  | [.field name] => Document.lookup name defaults
  | _ => none

def ServerOptions.defaults : List (String × Document) :=
  [ ("weight", nat 1), ("max_fails", nat 1),
    ("fail_timeout", .table [("secs", nat 10), ("nanos", nat 0)]), ("is_backup", .bool false) ]

/-- The name and the address of a server have no default. -/
def ServerConfig.defaults : List (String × Document) :=
  [("weight", nat 1), ("max_fails", nat 1), ("fail_timeout_ms", nat 10000), ("backup", .bool false)]

def RetryConfig.defaults : List (String × Document) :=
  [("max_attempts", nat 3), ("base_delay_ms", nat 100), ("max_delay_ms", nat 2000)]

def LogConfig.defaults : List (String × Document) := [("log_level", .text "info")]

def PoolConfig.defaults : List (String × Document) :=
  [ ("servers", .list []), ("retry", .table RetryConfig.defaults),
    ("observability", .table LogConfig.defaults) ]

def ServerOptions.declared : Path → Option Document := declaredIn ServerOptions.defaults

/-- The default of a field of a configuration, of one of its records, or of a server in its list. -/
def PoolConfig.declared : Path → Option Document
  | [.field name] => Document.lookup name PoolConfig.defaults
  | .field "servers" :: .item _ :: p => declaredIn ServerConfig.defaults p
  | .field "retry" :: p => declaredIn RetryConfig.defaults p
  | .field "observability" :: p => declaredIn LogConfig.defaults p
  | _ => none

section Plain

variable {α : Type} {defaults fs : List (String × Document)} {gone : Path → Bool}
  {read : Document → Option α} {d e : Document} {v : α}

/-- There is nothing to leave out of a plain field, only the field itself. -/
theorem restores_plain (name : String) (hread : read d = some v) :
    Restores (fun p => declaredIn defaults (.field name :: p)) read d v :=
  Document.restores_of_read (fun _ _ => rfl) hread

theorem orElse_plain (hgone : Redundant (declaredIn defaults) (.table fs) gone) (name : String)
    {default : α} (hfield : Document.lookup name fs = some d) (hread : read d = some v)
    (hdeclared : Document.lookup name defaults = some e) (hdefault : read e = some default) :
    Document.orElse default read (Document.lookup name (Document.withoutFields gone fs)) = some v :=
  Document.orElse_restored hgone hfield (restores_plain name hread) hdeclared hdefault

theorem bind_plain (hgone : Redundant (declaredIn defaults) (.table fs) gone) (name : String)
    (hfield : Document.lookup name fs = some d) (hread : read d = some v)
    (hdeclared : Document.lookup name defaults = none) :
    (Document.lookup name (Document.withoutFields gone fs)).bind read = some v :=
  Document.bind_restored hgone hfield (restores_plain name hread) hdeclared

end Plain

variable {n : Format}

open Document (toBool?_bool toText?_text toUInt32?_toNat toUInt64?_toNat)

theorem ServerOptions.restores (o : ServerOptions) :
    Restores ServerOptions.declared (Document.toServerOptions? n) o.toDocument o := by
  intro gone hgone
  have hweight := orElse_plain hgone "weight" rfl (toUInt32?_toNat o.weight) rfl (toUInt32?_toNat 1)
  have hfails := orElse_plain hgone "max_fails" rfl (toUInt32?_toNat o.maxFails) rfl
    (toUInt32?_toNat 1)
  have htimeout := orElse_plain hgone "fail_timeout" rfl o.failTimeout.toDuration?_toDocument rfl
    (Duration.ofSeconds 10).toDuration?_toDocument
  have hbackup := orElse_plain hgone "is_backup" rfl (toBool?_bool o.isBackup) rfl (toBool?_bool false)
  simp [toDocument, Document.without, Document.toServerOptions?, Document.fields?, hweight, hfails,
    htimeout, hbackup]

theorem ServerConfig.restores (c : ServerConfig) :
    Restores (declaredIn defaults) (Document.toServerConfig? n) c.toDocument c := by
  intro gone hgone
  have hname := bind_plain hgone "name" rfl (toText?_text c.name) rfl
  have haddress := bind_plain hgone "address" rfl (toText?_text c.address) rfl
  have hweight := orElse_plain hgone "weight" rfl (toUInt32?_toNat c.weight) rfl (toUInt32?_toNat 1)
  have hfails := orElse_plain hgone "max_fails" rfl (toUInt32?_toNat c.maxFails) rfl
    (toUInt32?_toNat 1)
  have htimeout := orElse_plain hgone "fail_timeout_ms" rfl (toUInt64?_toNat c.failTimeoutMs) rfl
    (toUInt64?_toNat 10000)
  have hbackup := orElse_plain hgone "backup" rfl (toBool?_bool c.backup) rfl (toBool?_bool false)
  simp [toDocument, Document.without, Document.toServerConfig?, Document.fields?, hname, haddress,
    hweight, hfails, htimeout, hbackup]

theorem RetryConfig.restores (c : RetryConfig) :
    Restores (declaredIn defaults) (Document.toRetryConfig? n) c.toDocument c := by
  intro gone hgone
  have hattempts := orElse_plain hgone "max_attempts" rfl (toUInt32?_toNat c.maxAttempts) rfl
    (toUInt32?_toNat 3)
  have hbase := orElse_plain hgone "base_delay_ms" rfl (toUInt64?_toNat c.baseDelayMs) rfl
    (toUInt64?_toNat 100)
  have hmax := orElse_plain hgone "max_delay_ms" rfl (toUInt64?_toNat c.maxDelayMs) rfl
    (toUInt64?_toNat 2000)
  simp [toDocument, Document.without, Document.toRetryConfig?, Document.fields?, hattempts, hbase, hmax]

theorem LogConfig.restores (c : LogConfig) :
    Restores (declaredIn defaults) (Document.toLogConfig? n) c.toDocument c := by
  intro gone hgone
  have hlevel := orElse_plain hgone "log_level" rfl (toText?_text c.logLevel) rfl (toText?_text "info")
  simp [toDocument, Document.without, Document.toLogConfig?, Document.fields?, hlevel]

theorem PoolConfig.restores (c : PoolConfig) :
    Restores PoolConfig.declared (Document.toPoolConfig? n) c.toDocument c := by
  intro gone hgone
  have hservers : Restores (fun p => PoolConfig.declared (.field "servers" :: p))
      (Document.toList? (Document.toServerConfig? n)) (.list (c.servers.map ServerConfig.toDocument))
      c.servers :=
    Document.restores_list fun i s _ => s.restores.congr fun _ _ => rfl
  have hretry : Restores (fun p => PoolConfig.declared (.field "retry" :: p))
      (Document.toRetryConfig? n) c.retry.toDocument c.retry :=
    c.retry.restores.congr fun k _ => by cases k <;> rfl
  have hlogs : Restores (fun p => PoolConfig.declared (.field "observability" :: p))
      (Document.toLogConfig? n) c.observability.toDocument c.observability :=
    c.observability.restores.congr fun k _ => by cases k <;> rfl
  have hnone : Document.toList? (Document.toServerConfig? n) (.list []) = some [] := rfl
  have hservers' := Document.orElse_restored hgone rfl hservers rfl hnone
  have hretry' := Document.orElse_restored hgone rfl hretry rfl ({} : RetryConfig).restores.read_eq
  have hlogs' := Document.orElse_restored hgone rfl hlogs rfl ({} : LogConfig).restores.read_eq
  simp [toDocument, Document.without, Document.toPoolConfig?, Document.fields?, hservers', hretry',
    hlogs']

/-! ## Omissions -/

/-- A configuration and options are read from the document that is written for them. So they are from what
is left of it if any set of fields is left out, each of which has a default and holds it: the list and the
records of a configuration, fields of these records and of the servers in the list, and fields of
options. -/
theorem omissions_restored (n : Format) :
    (∀ c : PoolConfig, c.toDocument.toPoolConfig? n = some c ∧
      ∀ gone, Redundant PoolConfig.declared c.toDocument gone →
        (c.toDocument.without gone).toPoolConfig? n = some c) ∧
    ∀ o : ServerOptions, o.toDocument.toServerOptions? n = some o ∧
      ∀ gone, Redundant ServerOptions.declared o.toDocument gone →
        (o.toDocument.without gone).toServerOptions? n = some o :=
  ⟨fun c => ⟨c.restores.read_eq, c.restores⟩, fun o => ⟨o.restores.read_eq, o.restores⟩⟩

theorem Document.redundant_of_forall {declared : Path → Option Document} {d : Document}
    {paths : List Path} (h : ∀ p ∈ paths, ∃ e, declared p = some e ∧ d.at? p = some e) :
    Redundant declared d fun p => decide (p ∈ paths) :=
  fun k p hgone => h (k :: p) (of_decide_eq_true hgone)

/-- The first server has all defaults, the second some, the retry settings all but one. -/
def terse : PoolConfig where
  servers := [
    { name := "a", address := "http://10.0.0.1" },
    { name := "b", address := "http://10.0.0.2", weight := 5, backup := true }]
  retry := { maxAttempts := 5 }

/-- Fields of `terse` that hold their defaults. -/
def unsaid : List Path :=
  [ [.field "servers", .item 0, .field "weight"], [.field "servers", .item 0, .field "max_fails"],
    [.field "servers", .item 0, .field "fail_timeout_ms"], [.field "servers", .item 0, .field "backup"],
    [.field "servers", .item 1, .field "fail_timeout_ms"],
    [.field "retry", .field "base_delay_ms"], [.field "retry", .field "max_delay_ms"],
    [.field "observability"] ]

theorem omissions_restored_terse :
    let gone : Path → Bool := fun p => decide (p ∈ unsaid)
    Redundant PoolConfig.declared terse.toDocument gone ∧
      terse.toDocument.without gone =
        .table [
          ("servers", .list [
            .table [("name", .text "a"), ("address", .text "http://10.0.0.1")],
            .table [("name", .text "b"), ("address", .text "http://10.0.0.2"), ("weight", nat 5),
              ("max_fails", nat 1), ("backup", .bool true)]]),
          ("retry", .table [("max_attempts", nat 5)])] ∧
      (terse.toDocument.without gone).toPoolConfig? .json = some terse ∧
    let gone' : Path → Bool := fun p => decide (p ∈ [[.field "fail_timeout"], [.field "is_backup"]])
    Redundant ServerOptions.declared (ServerOptions.primary 3).toDocument gone' ∧
      ((ServerOptions.primary 3).toDocument.without gone').toServerOptions? .json =
        some (ServerOptions.primary 3) := by
  intro gone
  obtain ⟨hconfigs, hoptions⟩ := omissions_restored .json
  have hgone : Redundant PoolConfig.declared terse.toDocument gone := by
    refine Document.redundant_of_forall ?_
    simp only [unsaid, List.forall_mem_cons]
    exact ⟨⟨_, rfl, rfl⟩, ⟨_, rfl, rfl⟩, ⟨_, rfl, rfl⟩, ⟨_, rfl, rfl⟩, ⟨_, rfl, rfl⟩, ⟨_, rfl, rfl⟩,
      ⟨_, rfl, rfl⟩, ⟨_, rfl, rfl⟩, List.forall_mem_nil _⟩
  refine ⟨hgone, rfl, (hconfigs terse).2 gone hgone, ?_⟩
  intro gone'
  have hgone' : Redundant ServerOptions.declared (ServerOptions.primary 3).toDocument gone' := by
    refine Document.redundant_of_forall ?_
    simp only [List.forall_mem_cons]
    exact ⟨⟨_, rfl, rfl⟩, ⟨_, rfl, rfl⟩, List.forall_mem_nil _⟩
  exact ⟨hgone', (hoptions (.primary 3)).2 gone' hgone'⟩

end TieredPool
