import Mathlib.Data.List.Count
import Mathlib.Data.List.Nodup
import TieredPool.Proofs.Validation
import TieredPool.Proofs.Texts
import TieredPool.Url.Parse

/-!
# Rules — one problem for every broken rule

What a configuration has to keep is a list of rules in the order of the document: one about its servers as
a whole, four about each server, two about its retries. The pass over the servers knows no rules, only the
names it has seen; still its problems are the rules that are broken, one each and in their order. Only the
options of a server are looked at no further than the first problem, so a server without weight is not told
that it lacks a timeout as well.

* `Rule`, `Rule.Broken` — the rules, and when a configuration breaks one.
* `PoolConfig.rules` — the rules of a configuration in order.
* `PoolConfig.map_rule_problems` — the problems are about the rules that are reported.
* `problems_listed`, `weightless_not_listed` — the fields that validation names, and one that it leaves out.
* `validate_iff_sound` — the configurations that pass, and the problems with names.
-/

namespace TieredPool

variable {urls : UrlParser}

/-! ## Rules -/

/-- A rule for configurations. One about a server has the position of that server. -/
inductive Rule where
  | servers
  | name (index : Nat)
  | address (index : Nat)
  | weight (index : Nat)
  | timeout (index : Nat)
  | attempts
  | delays
  deriving DecidableEq, Repr

/-- The address is not one that requests can be sent to. -/
def ServerConfig.Unreachable (urls : UrlParser) (s : ServerConfig) : Prop :=
  ∀ u, urls.parse s.address = .ok u → u.isHttp = false

instance (s : ServerConfig) : Decidable (s.Unreachable urls) :=
  match h : urls.parse s.address with
  | .ok u => decidable_of_iff (u.isHttp = false) (by simp [ServerConfig.Unreachable, h])
  | .error e => isTrue (by simp [ServerConfig.Unreachable, h])

namespace Rule

/-- The dotted path of the field that the rule is about. -/
def field : Rule → String
  | .servers => "servers"
  | .name i => Problem.serverField i "name"
  | .address i => Problem.serverField i "address"
  | .weight i => Problem.serverField i "weight"
  | .timeout i => Problem.serverField i "fail_timeout_ms"
  | .attempts => "retry.max_attempts"
  | .delays => "retry.base_delay_ms"

/-- The configuration does not keep the rule. -/
def Broken (urls : UrlParser) (c : PoolConfig) : Rule → Prop
  | .servers => c.servers = []
  | .name i => ∃ s ∈ c.servers[i]?,
      Text.isBlank s.name = true ∨ s.name ∈ (c.servers.take i).map (·.name)
  | .address i => ∃ s ∈ c.servers[i]?, s.Unreachable urls
  | .weight i => ∃ s ∈ c.servers[i]?, s.weight = 0 ∧ 0 < s.maxFails
  | .timeout i => ∃ s ∈ c.servers[i]?, 0 < s.maxFails ∧ s.backup = false ∧ s.failTimeoutMs = 0
  | .attempts => c.retry.maxAttempts = 0
  | .delays => c.retry.maxDelayMs < c.retry.baseDelayMs

instance (c : PoolConfig) : DecidablePred (Broken urls c)
  | .servers => inferInstanceAs (Decidable (c.servers = []))
  | .name i => inferInstanceAs (Decidable (∃ s ∈ c.servers[i]?, _ ∨ _))
  | .address i => inferInstanceAs (Decidable (∃ s ∈ c.servers[i]?, s.Unreachable urls))
  | .weight i => inferInstanceAs (Decidable (∃ s ∈ c.servers[i]?, _ ∧ _))
  | .timeout i => inferInstanceAs (Decidable (∃ s ∈ c.servers[i]?, _ ∧ _ ∧ _))
  | .attempts => inferInstanceAs (Decidable (c.retry.maxAttempts = 0))
  | .delays => inferInstanceAs (Decidable (c.retry.maxDelayMs < c.retry.baseDelayMs))

/-- The rule is broken, and validation says so. A missing timeout is not told of a server that has no
weight either. -/
def Reported (urls : UrlParser) (c : PoolConfig) (r : Rule) : Prop :=
  Broken urls c r ∧ ∀ i, r = .timeout i → ¬ Broken urls c (.weight i)

instance (c : PoolConfig) : DecidablePred (Reported urls c)
  | .timeout i =>
      decidable_of_iff (Broken urls c (.timeout i) ∧ ¬ Broken urls c (.weight i)) (by simp [Reported])
  | .servers => decidable_of_iff (Broken urls c .servers) (by simp [Reported])
  | .name i => decidable_of_iff (Broken urls c (.name i)) (by simp [Reported])
  | .address i => decidable_of_iff (Broken urls c (.address i)) (by simp [Reported])
  | .weight i => decidable_of_iff (Broken urls c (.weight i)) (by simp [Reported])
  | .attempts => decidable_of_iff (Broken urls c .attempts) (by simp [Reported])
  | .delays => decidable_of_iff (Broken urls c .delays) (by simp [Reported])

/-- The rules about one server. -/
def ofServer (i : Nat) : List Rule := [.name i, .address i, .weight i, .timeout i]

end Rule

/-- The rules of a configuration in the order of the document. -/
def PoolConfig.rules (c : PoolConfig) : List Rule :=
  .servers :: (List.range c.servers.length).flatMap Rule.ofServer ++ [.attempts, .delays]

/-- The rule that a problem is about. -/
def Problem.rule : Problem → Rule
  | .noServers => .servers
  | .blankName i | .duplicateName i _ => .name i
  | .badAddress i _ | .notHttp i => .address i
  | .badOptions i .zeroWeight => .weight i
  | .badOptions i .zeroTimeout => .timeout i
  | .noAttempts => .attempts
  | .baseExceedsMax => .delays

theorem Problem.field_rule (p : Problem) : p.rule.field = p.field := by
  cases p with
  | badOptions i e => cases e <;> rfl
  | _ => rfl

namespace Rule

/-! ### Fields -/

theorem serverField_inj {i j : Nat} {name name' : String} :
    Problem.serverField i name = Problem.serverField j name' ↔ i = j ∧ name = name' := by
  refine ⟨fun h => ?_, fun h => by rw [h.1, h.2]⟩
  -- The position ends at the bracket, which is no digit.
  have hsign (i : Nat) : ']' ∉ ("servers[" ++ toString i).toList := by
    intro hmem
    rw [String.toList_append, List.mem_append] at hmem
    rcases hmem with hmem | hmem
    · simp at hmem
    · exact absurd (isDigit_of_mem_toString hmem) (by decide)
  have hfield (i : Nat) (name : String) : Problem.serverField i name =
      "servers[" ++ toString i ++ "]" ++ ("." ++ name) := by
    simp [Problem.serverField, ← String.toList_inj]
  rw [hfield, hfield] at h
  obtain ⟨hindex, hname⟩ := append_sign_inj (hsign i) (hsign j) h
  exact ⟨toString_inj ((String.append_right_inj _).1 hindex), (String.append_right_inj _).1 hname⟩

/-- No two rules are about the same field. -/
theorem field_injective : Function.Injective field := by
  intro r r' h
  have hserver (i : Nat) (name : String) : Problem.serverField i name ≠ "servers" ∧
      Problem.serverField i name ≠ "retry.max_attempts" ∧
      Problem.serverField i name ≠ "retry.base_delay_ms" := by
    simp [Problem.serverField, ← String.toList_inj]
  cases r <;> cases r' <;> simp [field, serverField_inj, hserver, (hserver _ _).1.symm,
    (hserver _ _).2.1.symm, (hserver _ _).2.2.symm] at h ⊢
  all_goals exact h

end Rule

/-! ## The rules of a configuration -/

namespace PoolConfig

theorem nodup_rules (c : PoolConfig) : c.rules.Nodup := by
  have hservers : ((List.range c.servers.length).flatMap Rule.ofServer).Nodup := by
    refine List.nodup_flatMap.2 ⟨fun i _ => by simp [Rule.ofServer], ?_⟩
    refine List.nodup_range.imp fun hne => ?_
    simp [Function.onFun, Rule.ofServer, hne.symm]
  simp [rules, List.nodup_append, hservers]
  grind [Rule.ofServer]

/-- A rule that is about no server of the configuration is not broken. -/
theorem mem_rules_of_broken {c : PoolConfig} {r : Rule} (h : r.Broken urls c) : r ∈ c.rules := by
  cases r <;> simp [rules, Rule.ofServer, Rule.Broken] at h ⊢
  all_goals
    obtain ⟨s, hs, _⟩ := h
    exact (List.getElem?_eq_some_iff.1 hs).1

end PoolConfig

/-! ## The pass -/

section Pass

variable {c : PoolConfig} {i : Nat} {s : ServerConfig} {earlier : List String}

/-- The names that the pass has seen are those before position `i`, blank ones apart. -/
def PoolConfig.Seen (c : PoolConfig) (i : Nat) (earlier : List String) : Prop :=
  ∀ name, name ∈ earlier ↔ Text.isBlank name = false ∧ name ∈ (c.servers.take i).map (·.name)

theorem PoolConfig.Seen.next (h : c.Seen i earlier) (hs : c.servers[i]? = some s) :
    c.Seen (i + 1) (if Text.isBlank s.name then earlier else s.name :: earlier) := by
  intro name
  have hnames : (c.servers.take (i + 1)).map (·.name) =
      (c.servers.take i).map (·.name) ++ [s.name] := by
    simp [List.take_add_one, hs]
  rw [hnames]
  cases hblank : Text.isBlank s.name with
  | true =>
      -- A blank name is not kept, and it is no name to compare with either.
      have hne : Text.isBlank name = false → name ≠ s.name := by
        rintro hname rfl
        simp [hblank] at hname
      simp [h name]
      grind
  | false =>
      simp [h name]
      grind

theorem map_rule_nameProblems (hs : c.servers[i]? = some s) (hseen : c.Seen i earlier) :
    (s.nameProblems i earlier).map Problem.rule = [Rule.name i].filter (Rule.Reported urls c ·) := by
  have hbroken : Rule.Reported urls c (.name i) ↔
      Text.isBlank s.name = true ∨ s.name ∈ earlier := by
    simp [Rule.Reported, Rule.Broken, hs, hseen s.name]
    grind
  by_cases hblank : Text.isBlank s.name = true
  · simp [ServerConfig.nameProblems, hblank, hbroken, Problem.rule]
  · by_cases hmem : s.name ∈ earlier <;>
      simp [ServerConfig.nameProblems, hblank, hbroken, hmem, Problem.rule]

theorem map_rule_addressProblems (hs : c.servers[i]? = some s) :
    (s.addressProblems urls i).map Problem.rule = [Rule.address i].filter (Rule.Reported urls c ·) := by
  have hbroken : Rule.Reported urls c (.address i) ↔ s.Unreachable urls := by
    simp [Rule.Reported, Rule.Broken, hs]
  unfold ServerConfig.addressProblems
  cases hparse : urls.parse s.address with
  | error e => simp [hbroken, ServerConfig.Unreachable, hparse, Problem.rule]
  | ok u =>
      cases hhttp : u.isHttp <;>
        simp [hbroken, ServerConfig.Unreachable, hparse, hhttp, Problem.rule]

theorem isZero_ofMillis {n : UInt64} : (Duration.ofMillis n).isZero = true ↔ n = 0 := by
  rw [← UInt64.toNat_inj]
  simp only [Duration.isZero, Duration.ofMillis, beq_iff_eq, UInt64.toNat_zero]
  omega

theorem ServerConfig.check_eq (s : ServerConfig) :
    s.options.check =
      if s.weight = 0 ∧ 0 < s.maxFails then .error .zeroWeight
      else if 0 < s.maxFails ∧ s.backup = false ∧ s.failTimeoutMs = 0 then .error .zeroTimeout
      else .ok () := by
  simp only [ServerOptions.check, options, isZero_ofMillis]

/-- The options are told of once at most, their weight first. -/
theorem map_rule_optionsProblems (hs : c.servers[i]? = some s) :
    (s.optionsProblems i).map Problem.rule = [Rule.weight i, .timeout i].filter (Rule.Reported urls c ·) := by
  have hweight : Rule.Reported urls c (.weight i) ↔ s.weight = 0 ∧ 0 < s.maxFails := by
    simp [Rule.Reported, Rule.Broken, hs]
  have htimeout : Rule.Reported urls c (.timeout i) ↔
      (0 < s.maxFails ∧ s.backup = false ∧ s.failTimeoutMs = 0) ∧ ¬ (s.weight = 0 ∧ 0 < s.maxFails) := by
    simp [Rule.Reported, Rule.Broken, hs]
  rw [ServerConfig.optionsProblems, ServerConfig.check_eq]
  split_ifs with hzero hnever
  · have hnot : ¬ Rule.Reported urls c (.timeout i) := fun h => (htimeout.1 h).2 hzero
    simp [hweight.2 hzero, hnot, Problem.rule]
  · have hnot : ¬ Rule.Reported urls c (.weight i) := mt hweight.1 hzero
    simp [hnot, htimeout.2 ⟨hnever, hzero⟩, Problem.rule]
  · have hnot : ¬ Rule.Reported urls c (.weight i) := mt hweight.1 hzero
    have hnot' : ¬ Rule.Reported urls c (.timeout i) := fun h => hnever (htimeout.1 h).1
    simp [hnot, hnot']

/-- From position `i` on, the pass finds the rules that are reported. -/
theorem map_rule_serverProblems (urls : UrlParser) {cs : List ServerConfig} (hcs : c.servers.drop i = cs)
    (hseen : c.Seen i earlier) :
    (serverProblems urls i earlier cs).map Problem.rule =
      ((List.range' i cs.length).flatMap Rule.ofServer).filter (Rule.Reported urls c ·) := by
  induction cs generalizing i earlier with
  | nil => rfl
  | cons s rest ih =>
      have hs : c.servers[i]? = some s := by
        rw [← Nat.add_zero i, ← List.getElem?_drop, hcs]
        rfl
      have hrest : c.servers.drop (i + 1) = rest := by
        rw [← List.drop_drop, hcs]
        rfl
      have hsplit : Rule.ofServer i = [.name i] ++ [.address i] ++ [.weight i, .timeout i] := rfl
      rw [serverProblems, List.length_cons, List.range'_succ, List.flatMap_cons, hsplit]
      simp only [List.map_append, List.filter_append]
      rw [map_rule_nameProblems hs hseen, map_rule_addressProblems hs, map_rule_optionsProblems hs,
        ih hrest (hseen.next hs)]

end Pass

theorem RetryConfig.map_rule_problems (c : PoolConfig) :
    c.retry.problems.map Problem.rule = [Rule.attempts, .delays].filter (Rule.Reported urls c ·) := by
  have hattempts : Rule.Reported urls c .attempts ↔ c.retry.maxAttempts = 0 := by
    simp [Rule.Reported, Rule.Broken]
  have hdelays : Rule.Reported urls c .delays ↔ c.retry.maxDelayMs < c.retry.baseDelayMs := by
    simp [Rule.Reported, Rule.Broken]
  unfold problems
  by_cases hnone : c.retry.maxAttempts = 0 <;> by_cases hover : c.retry.maxDelayMs < c.retry.baseDelayMs <;>
    simp [hattempts, hdelays, hnone, hover, Problem.rule]

namespace PoolConfig

/-- The problems of a configuration are about the rules that are reported, one each and in order. -/
theorem map_rule_problems (urls : UrlParser) (c : PoolConfig) :
    (c.problems urls).map Problem.rule = c.rules.filter (Rule.Reported urls c ·) := by
  have hservers : (if c.servers.isEmpty then [Problem.noServers] else []).map Problem.rule =
      [Rule.servers].filter (Rule.Reported urls c ·) := by
    have hnone : Rule.Reported urls c .servers ↔ c.servers = [] := by simp [Rule.Reported, Rule.Broken]
    by_cases hempty : c.servers = [] <;> simp [hnone, hempty, Problem.rule]
  have hunseen : c.Seen 0 [] := by simp [Seen]
  have hpass := map_rule_serverProblems urls rfl hunseen
  rw [List.drop_zero] at hpass
  rw [problems, rules, List.map_append, List.map_append, hservers, hpass, RetryConfig.map_rule_problems,
    List.range_eq_range', ← List.filter_append, ← List.filter_append]
  rfl

theorem map_field_problems (urls : UrlParser) (c : PoolConfig) :
    (c.problems urls).map Problem.field = (c.rules.filter (Rule.Reported urls c ·)).map Rule.field := by
  rw [← map_rule_problems, List.map_map]
  exact List.map_congr_left fun p _ => p.field_rule.symm

end PoolConfig

/-! ## What validation lists -/

/-- A configuration is passed, or refused with the list of its problems. They name the fields of the rules
that are reported, each once and in the order of the document: all rules that are broken, but for the
timeout of a server whose weight is missing as well. So the list is complete exactly if no server breaks
both of these rules. -/
theorem problems_listed (urls : UrlParser) (c : PoolConfig) :
    c.validate urls = (if c.problems urls = [] then .ok c else .error (.invalid (c.problems urls))) ∧
      (c.problems urls).map Problem.field = (c.rules.filter (Rule.Reported urls c ·)).map Rule.field ∧
      c.rules.Nodup ∧ Function.Injective Rule.field ∧ (∀ r : Rule, r.Broken urls c → r ∈ c.rules) ∧
      ((c.problems urls).map Problem.field = (c.rules.filter (Rule.Broken urls c ·)).map Rule.field ↔
        ∀ i, ¬ (Rule.Broken urls c (.weight i) ∧ Rule.Broken urls c (.timeout i))) := by
  have hfields := c.map_field_problems urls
  refine ⟨by simp [PoolConfig.validate], hfields, c.nodup_rules, Rule.field_injective,
    fun _ => PoolConfig.mem_rules_of_broken, ?_⟩
  rw [hfields, (List.map_injective_iff.2 Rule.field_injective).eq_iff]
  constructor
  · rintro hall i ⟨hweight, htimeout⟩
    have hmem : Rule.timeout i ∈ c.rules.filter (Rule.Broken urls c ·) :=
      List.mem_filter.2 ⟨PoolConfig.mem_rules_of_broken htimeout, by simpa using htimeout⟩
    rw [← hall, List.mem_filter, decide_eq_true_iff] at hmem
    exact hmem.2.2 i rfl hweight
  · intro hnever
    refine List.filter_congr fun r _ => decide_eq_decide.2 ⟨And.left, fun hr => ⟨hr, ?_⟩⟩
    rintro i rfl hweight
    exact hnever i ⟨hweight, hr⟩

/-- Many rules are broken, and all are told of. -/
def faulty : PoolConfig where
  servers := [
    { name := "a", address := "http://127.0.0.1:3000", failTimeoutMs := 0 },
    { name := "a", address := "ftp://127.0.0.1", weight := 0 },
    { name := " ", address := "not a url", weight := 0, maxFails := 0, failTimeoutMs := 0 }]
  retry := { maxAttempts := 0, baseDelayMs := 5000 }

theorem problems_listed_faulty :
    (∀ i, ¬ (Rule.Broken .ascii faulty (.weight i) ∧ Rule.Broken .ascii faulty (.timeout i))) ∧
      (faulty.problems .ascii).map Problem.field =
        (faulty.rules.filter (Rule.Broken .ascii faulty ·)).map Rule.field ∧
      (faulty.problems .ascii).map Problem.field = ["servers[0].fail_timeout_ms", "servers[1].name",
        "servers[1].address", "servers[1].weight", "servers[2].name", "servers[2].address",
        "retry.max_attempts", "retry.base_delay_ms"] := by
  have hnever : ∀ i, ¬ (Rule.Broken .ascii faulty (.weight i) ∧ Rule.Broken .ascii faulty (.timeout i)) := by
    rintro i ⟨hweight, htimeout⟩
    have hlt : i < 3 := by
      obtain ⟨s, hs, _⟩ := hweight
      exact (List.getElem?_eq_some_iff.1 hs).1
    have hnone : ∀ i < 3, Rule.Broken .ascii faulty (.weight i) →
        ¬ Rule.Broken .ascii faulty (.timeout i) := by
      decide +kernel
    exact hnone i hlt hweight htimeout
  exact ⟨hnever, (problems_listed .ascii faulty).2.2.2.2.2.2 hnever, by decide +kernel⟩

/-- A server with neither weight nor timeout, whose failures count. -/
def weightless : PoolConfig where
  servers := [{ name := "a", address := "http://127.0.0.1:3000", weight := 0, failTimeoutMs := 0 }]

/-- The missing timeout is not among the problems. -/
theorem weightless_not_listed :
    (weightless.problems .ascii).map Problem.field = ["servers[0].weight"] ∧
      (weightless.rules.filter (Rule.Broken .ascii weightless ·)).map Rule.field =
        ["servers[0].weight", "servers[0].fail_timeout_ms"] := by
  decide +kernel

/-! ## Sound configurations -/

theorem PoolConfig.count_name_problems (urls : UrlParser) (c : PoolConfig) (i : Nat) :
    ((c.problems urls).map Problem.field).count (Rule.name i).field =
      if Rule.Broken urls c (.name i) then 1 else 0 := by
  have hreported : Rule.Reported urls c (.name i) ↔ Rule.Broken urls c (.name i) := by simp [Rule.Reported]
  rw [map_field_problems, List.count_map_of_injective _ _ Rule.field_injective]
  split
  case isTrue h =>
    exact List.count_eq_one_of_mem (c.nodup_rules.filter _)
      (List.mem_filter.2 ⟨mem_rules_of_broken h, by simpa using hreported.2 h⟩)
  case isFalse h =>
    exact List.count_eq_zero_of_not_mem fun hmem =>
      h (hreported.1 (by simpa using (List.mem_filter.1 hmem).2))

/-- A name is blank, or a server before has it. -/
theorem Rule.broken_name_iff (urls : UrlParser) {c : PoolConfig} {i : Nat} {s : ServerConfig}
    (hs : c.servers[i]? = some s) :
    Rule.Broken urls c (.name i) ↔ (∀ ch ∈ s.name.toList, Text.isBlankChar ch = true) ∨
      ∃ j < i, ∃ t, c.servers[j]? = some t ∧ t.name = s.name := by
  have hearlier : s.name ∈ (c.servers.take i).map (·.name) ↔
      ∃ j < i, ∃ t, c.servers[j]? = some t ∧ t.name = s.name := by
    simp only [List.mem_map, List.mem_take_iff_getElem, List.getElem?_eq_some_iff]
    constructor
    · rintro ⟨_, ⟨j, hj, rfl⟩, hname⟩
      exact ⟨j, by omega, _, ⟨by omega, rfl⟩, hname⟩
    · rintro ⟨j, hji, _, ⟨hj, rfl⟩, hname⟩
      exact ⟨_, ⟨j, by omega, rfl⟩, hname⟩
  simp only [Rule.Broken, hs, Option.mem_some_iff, exists_eq_left', hearlier, Text.isBlank, List.all_eq_true]

theorem one_le_iff_ne_zero {n : UInt32} : 1 ≤ n ↔ n ≠ 0 := by
  rw [UInt32.le_iff_toNat_le, ne_eq, ← UInt32.toNat_inj]
  exact Nat.one_le_iff_ne_zero

theorem ServerConfig.check_ok_iff (s : ServerConfig) :
    s.options.check = .ok () ↔
      (1 ≤ s.weight ∨ s.maxFails = 0) ∧ (s.backup = false → 0 < s.maxFails → 0 < s.failTimeoutMs) := by
  rw [check_eq]
  split_ifs with hzero hnever
  · have hweight : ¬ 1 ≤ s.weight := by simp [hzero.1]
    have hfails : s.maxFails ≠ 0 := UInt32.pos_iff_ne_zero.1 hzero.2
    simp [hweight, hfails]
  · simp [hnever]
  · have hweight : 1 ≤ s.weight ↔ s.weight ≠ 0 := one_le_iff_ne_zero
    have hfails : 0 < s.maxFails ↔ s.maxFails ≠ 0 := UInt32.pos_iff_ne_zero
    have htimeout : 0 < s.failTimeoutMs ↔ s.failTimeoutMs ≠ 0 := UInt64.pos_iff_ne_zero
    grind

theorem ServerConfig.fit_iff (s : ServerConfig) :
    s.Fit urls ↔ (∃ ch ∈ s.name.toList, Text.isBlankChar ch = false) ∧
      (∃ u, urls.parse s.address = .ok u ∧
        (u.scheme = "http".toList ∨ u.scheme = "https".toList) ∧ u.hasHost = true) ∧
      (1 ≤ s.weight ∨ s.maxFails = 0) ∧ (s.backup = false → 0 < s.maxFails → 0 < s.failTimeoutMs) := by
  have hnamed : Text.isBlank s.name = false ↔ ∃ ch ∈ s.name.toList, Text.isBlankChar ch = false := by
    simp [Text.isBlank]
  have hhttp (u : Url) : u.isHttp = true ↔
      (u.scheme = "http".toList ∨ u.scheme = "https".toList) ∧ u.hasHost = true := by
    simp [Url.isHttp]
  rw [← hnamed, ← s.check_ok_iff]
  simp only [← hhttp]
  exact ⟨fun h => ⟨h.named, h.address, h.options⟩, fun h => ⟨h.1, h.2.1, h.2.2⟩⟩

/-- A configuration passes exactly if it has servers, no two of them with one name, and each by itself has
a name that is not blank, an address to send requests to, a weight unless failures do not count, and a
timeout wherever health is tracked; and if a request is tried at least once, the delays between its tries
being in order. Whether or not it passes, one problem at most is about the name of a server, and one is
exactly if that name is blank or a server before has it. -/
theorem validate_iff_sound (urls : UrlParser) (c : PoolConfig) :
    (c.validate urls = .ok c ↔
      c.servers ≠ [] ∧
      (∀ s ∈ c.servers, ∃ ch ∈ s.name.toList, Text.isBlankChar ch = false) ∧
      (c.servers.map (·.name)).Nodup ∧
      (∀ s ∈ c.servers, ∃ u, urls.parse s.address = .ok u ∧
        (u.scheme = "http".toList ∨ u.scheme = "https".toList) ∧ u.hasHost = true) ∧
      (∀ s ∈ c.servers, 1 ≤ s.weight ∨ s.maxFails = 0) ∧
      (∀ s ∈ c.servers, s.backup = false → 0 < s.maxFails → 0 < s.failTimeoutMs) ∧
      1 ≤ c.retry.maxAttempts ∧ c.retry.baseDelayMs ≤ c.retry.maxDelayMs) ∧
    ∀ (i : Nat) (s : ServerConfig), c.servers[i]? = some s →
      let count := ((c.problems urls).map Problem.field).count ("servers[" ++ toString i ++ "].name")
      count ≤ 1 ∧
        (count = 1 ↔ (∀ ch ∈ s.name.toList, Text.isBlankChar ch = true) ∨
          ∃ j < i, ∃ t, c.servers[j]? = some t ∧ t.name = s.name) := by
  constructor
  · rw [PoolConfig.validate_ok_iff]
    constructor
    · intro h
      have hfit (s) (hs : s ∈ c.servers) := s.fit_iff.1 (h.fit s hs)
      exact ⟨h.nonempty, fun s hs => (hfit s hs).1, h.nodup, fun s hs => (hfit s hs).2.1,
        fun s hs => (hfit s hs).2.2.1, fun s hs => (hfit s hs).2.2.2, one_le_iff_ne_zero.2 h.attempts,
        h.delays⟩
    · rintro ⟨hservers, hnamed, hnodup, haddress, hweight, htimeout, hretries, hdelays⟩
      exact ⟨hservers, fun s hs => s.fit_iff.2 ⟨hnamed s hs, haddress s hs, hweight s hs, htimeout s hs⟩,
        hnodup, one_le_iff_ne_zero.1 hretries, hdelays⟩
  · intro i s hs count
    have hcount : count = if Rule.Broken urls c (.name i) then 1 else 0 := by
      have hfield : "servers[" ++ toString i ++ "].name" = (Rule.name i).field := by
        simp [Rule.field, Problem.serverField, ← String.toList_inj]
      rw [← c.count_name_problems urls i, ← hfield]
    rw [← Rule.broken_name_iff urls hs, hcount]
    split_ifs with h <;> simp [h]

/-- The third server has the name of the first, and nothing else is wrong. -/
def twins : PoolConfig where
  servers := [
    { name := "a", address := "http://10.0.0.1" },
    { name := "b", address := "https://10.0.0.2", weight := 0, maxFails := 0 },
    { name := "a", address := "http://10.0.0.3", backup := true, failTimeoutMs := 0 }]

theorem validate_iff_sound_twins :
    twins.validate .ascii ≠ .ok twins ∧ twins.servers[2]?.map (·.name) = some "a" ∧
      ((twins.problems .ascii).map Problem.field).count "servers[2].name" = 1 ∧
      let apart : PoolConfig := { twins with servers := twins.servers.take 2 }
      apart.validate .ascii = .ok apart ∧ ∀ s ∈ apart.servers, 1 ≤ s.weight ∨ s.maxFails = 0 := by
  obtain ⟨hok, hnames⟩ := validate_iff_sound .ascii twins
  refine ⟨fun h => absurd (hok.1 h).2.2.1 (by decide), rfl,
    (hnames 2 _ rfl).2.2 (.inr ⟨0, by decide, _, rfl, rfl⟩), ?_⟩
  intro apart
  have hpasses : apart.validate .ascii = .ok apart := by decide +kernel
  exact ⟨hpasses, ((validate_iff_sound .ascii apart).1.1 hpasses).2.2.2.2.1⟩

end TieredPool
