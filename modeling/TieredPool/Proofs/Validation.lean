import TieredPool.Config.Error

/-!
# Validation — which configurations have no problems

Problems are collected in one pass that remembers the names it has seen. What comes of the pass can be
said without it: each server is fit by itself, and no two have the same name.

* `ServerConfig.Fit`, `PoolConfig.Valid` — a server, and a configuration, that keep all rules.
* `serverProblems_eq_nil_iff` — the pass over the servers finds nothing.
* `PoolConfig.validate_ok_iff` — a configuration is passed exactly if it is valid.
-/

namespace TieredPool

variable {urls : UrlParser}

/-! ## One server -/

/-- The server keeps the rules that are about it alone. -/
structure ServerConfig.Fit (urls : UrlParser) (c : ServerConfig) : Prop where
  named : Text.isBlank c.name = false
  address : ∃ u, urls.parse c.address = .ok u ∧ u.isHttp = true
  options : c.options.check = .ok ()

namespace ServerConfig

variable {index : Nat} {earlier : List String} {c : ServerConfig}

theorem nameProblems_eq_nil_iff :
    c.nameProblems index earlier = [] ↔ Text.isBlank c.name = false ∧ c.name ∉ earlier := by
  unfold nameProblems
  split
  case isTrue hblank => simp [hblank]
  case isFalse hnamed => simp [Bool.eq_false_iff.2 hnamed]

theorem addressProblems_eq_nil_iff :
    c.addressProblems urls index = [] ↔ ∃ u, urls.parse c.address = .ok u ∧ u.isHttp = true := by
  unfold addressProblems
  cases urls.parse c.address with
  | error e => simp
  | ok u => simp

theorem optionsProblems_eq_nil_iff : c.optionsProblems index = [] ↔ c.options.check = .ok () := by
  unfold optionsProblems
  cases c.options.check with
  | error e => simp
  | ok _ => simp

/-- Of the problems of one server, only a name that is taken has to do with the others. -/
theorem problems_eq_nil_iff :
    c.nameProblems index earlier ++ c.addressProblems urls index ++ c.optionsProblems index = [] ↔
      c.Fit urls ∧ c.name ∉ earlier := by
  rw [List.append_eq_nil_iff, List.append_eq_nil_iff, nameProblems_eq_nil_iff,
    addressProblems_eq_nil_iff, optionsProblems_eq_nil_iff]
  constructor
  · rintro ⟨⟨⟨hnamed, hnew⟩, haddress⟩, hoptions⟩
    exact ⟨⟨hnamed, haddress, hoptions⟩, hnew⟩
  · rintro ⟨⟨hnamed, haddress, hoptions⟩, hnew⟩
    exact ⟨⟨⟨hnamed, hnew⟩, haddress⟩, hoptions⟩

end ServerConfig

/-! ## All servers -/

theorem serverProblems_eq_nil_iff {index : Nat} {earlier : List String} {cs : List ServerConfig} :
    serverProblems urls index earlier cs = [] ↔
      (∀ c ∈ cs, c.Fit urls) ∧ (cs.map (·.name)).Nodup ∧ ∀ c ∈ cs, c.name ∉ earlier := by
  -- Names already seen are avoided by all that follow, the first of which is seen next.
  induction cs generalizing index earlier with
  | nil => simp [serverProblems]
  | cons c rest ih =>
      simp only [serverProblems]
      rw [List.append_eq_nil_iff, ServerConfig.problems_eq_nil_iff, ih, List.map_cons,
        List.nodup_cons, List.forall_mem_cons, List.forall_mem_cons]
      constructor
      · rintro ⟨⟨hfit, hnew⟩, hrest, hnodup, hknown⟩
        rw [if_neg (by simp [hfit.named])] at hknown
        refine ⟨⟨hfit, hrest⟩, ⟨?_, hnodup⟩, hnew, fun d hd => ?_⟩
        · intro hmem
          obtain ⟨d, hd, hname⟩ := List.mem_map.1 hmem
          exact hknown d hd (hname ▸ List.mem_cons_self)
        · exact fun hmem => hknown d hd (List.mem_cons_of_mem _ hmem)
      · rintro ⟨⟨hfit, hrest⟩, ⟨hunique, hnodup⟩, hnew, hknown⟩
        rw [if_neg (by simp [hfit.named])]
        refine ⟨⟨hfit, hnew⟩, hrest, hnodup, fun d hd hmem => ?_⟩
        rcases List.mem_cons.1 hmem with hname | hmem
        · exact hunique (hname ▸ List.mem_map_of_mem hd)
        · exact hknown d hd hmem

/-! ## The configuration -/

/-- The configuration keeps all rules. -/
structure PoolConfig.Valid (urls : UrlParser) (c : PoolConfig) : Prop where
  nonempty : c.servers ≠ []
  fit : ∀ s ∈ c.servers, s.Fit urls
  nodup : (c.servers.map (·.name)).Nodup
  attempts : c.retry.maxAttempts ≠ 0
  delays : c.retry.baseDelayMs ≤ c.retry.maxDelayMs

theorem RetryConfig.problems_eq_nil_iff {c : RetryConfig} :
    c.problems = [] ↔ c.maxAttempts ≠ 0 ∧ c.baseDelayMs ≤ c.maxDelayMs := by
  simp [problems]

theorem PoolConfig.problems_eq_nil_iff {c : PoolConfig} : c.problems urls = [] ↔ c.Valid urls := by
  rw [problems, List.append_eq_nil_iff, List.append_eq_nil_iff, serverProblems_eq_nil_iff,
    RetryConfig.problems_eq_nil_iff]
  constructor
  · rintro ⟨⟨hservers, hfit, hnodup, _⟩, hattempts, hdelays⟩
    exact ⟨by simpa using hservers, hfit, hnodup, hattempts, hdelays⟩
  · rintro ⟨hservers, hfit, hnodup, hattempts, hdelays⟩
    exact ⟨⟨by simpa using hservers, hfit, hnodup, by simp⟩, hattempts, hdelays⟩

theorem PoolConfig.validate_ok_iff {c : PoolConfig} : c.validate urls = .ok c ↔ c.Valid urls := by
  rw [← problems_eq_nil_iff, validate]
  cases c.problems urls with
  | nil => simp
  | cons p rest => simp

end TieredPool
