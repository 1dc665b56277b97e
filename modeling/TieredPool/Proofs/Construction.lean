import TieredPool.Proofs.Chronicle
import TieredPool.Proofs.Registration
import TieredPool.Proofs.Validation
import TieredPool.Url.Parse

/-!
# Construction — the pool that a configuration stands for

Building stops at the first server that cannot be registered, and validation looks for it in a pass of
its own. Both come to the same verdict, and a pool that is built can be written down from the
configuration alone: the servers of either tier in order, each as fresh as on its first day.

* `Entry` — a configured server that can be registered.
* `Pool.enrol`, `Pool.group_enrol` — a pool with some entries registered; what its tiers hold.
* `ServerConfig.Refused` — why a configured server cannot be registered.
* `registerAll_spec` — all servers are registered, or one is refused and those before it are not.
* `PoolConfig.listing`, `build_agrees` — the servers of a configuration by tier; building succeeds
  exactly if all can be registered, and lists them.
-/

namespace TieredPool

variable {urls : UrlParser}

/-! ## Entries -/

/-- A configured server that can be registered, with the endpoint that its address gives. -/
structure Entry (urls : UrlParser) where
  config : ServerConfig
  endpoint : Endpoint
  parsed : config.endpoint urls = .ok endpoint
  accepted : config.options.check = .ok ()

namespace Entry

def tier (e : Entry urls) : Tier := e.config.options.tier

/-- The server as it stands once it has been registered. -/
def slot (e : Entry urls) (id : ServerId) : Slot Endpoint where
  server := { id, options := e.config.options, data := e.endpoint }

/-- The registration as an operation of a client. -/
def request (e : Entry urls) : Request Endpoint where
  caller := { handle := some 0 }
  op := .add e.config.options e.endpoint

theorem endpoint_name (e : Entry urls) : e.endpoint.name = e.config.name :=
  ServerConfig.endpoint_name e.parsed

end Entry

/-- The pool with the entries registered in order. -/
def Pool.enrol (p : Pool Endpoint) (es : List (Entry urls)) : Pool Endpoint :=
  es.foldl (fun p e => (p.register e.config.options e.endpoint).2) p

namespace Pool

variable {p : Pool Endpoint}

theorem enrol_cons (e : Entry urls) (es : List (Entry urls)) :
    p.enrol (e :: es) = (p.register e.config.options e.endpoint).2.enrol es := rfl

/-- Each tier gets its own entries, in order, at its end. -/
theorem group_enrol (p : Pool Endpoint) (es : List (Entry urls)) (tier : Tier) :
    (p.enrol es).group tier = { p.group tier with
      slots := (p.group tier).slots ++ (es.filter (·.tier = tier)).mapIdx fun i e =>
        e.slot { tier, index := (p.group tier).size + i } } := by
  induction es generalizing p with
  | nil => simp [enrol]
  | cons e rest ih =>
      rw [enrol_cons, ih, group_register]
      by_cases htier : tier = e.tier
      · -- The first entry takes the next place, and the others move up by one.
        subst htier
        simp [Entry.tier, Group.push, Group.size, List.mapIdx_cons, Entry.slot, Nat.add_assoc,
          Nat.add_comm 1]
        rfl
      · have hother : e.tier ≠ tier := Ne.symm htier
        simp only [Entry.tier] at htier hother
        simp [htier, hother, Entry.tier]

theorem primaryOnline_enrol (p : Pool Endpoint) (es : List (Entry urls)) :
    (p.enrol es).primaryOnline = p.primaryOnline + es.countP (·.tier = .primary) := by
  induction es generalizing p with
  | nil => rfl
  | cons e rest ih =>
      rw [enrol_cons, ih, register, List.countP_cons]
      by_cases htier : e.config.options.tier = .primary
      · simp [htier, Entry.tier, Nat.add_assoc, Nat.add_comm 1]
      · simp [htier, Entry.tier]

end Pool

theorem Pool.Sound.enrol {p : Pool Endpoint} (hp : p.Sound) (es : List (Entry urls)) : (p.enrol es).Sound := by
  induction es generalizing p with
  | nil => exact hp
  | cons e rest ih => exact ih (hp.register e.config.options e.endpoint)

/-- Registering entries through a handle does no more to a state than to enrol them. -/
theorem State.applyAll_enrol (s : State Endpoint) (es : List (Entry urls)) :
    s.applyAll (es.map Entry.request) = { s with pool := s.pool.enrol es } := by
  induction es generalizing s with
  | nil => rfl
  | cons e rest ih =>
      have happly : s.apply e.request =
          { s with pool := (s.pool.register e.config.options e.endpoint).2 } := by
        simp [State.apply, Entry.request, State.through, e.accepted]
      rw [List.map_cons, applyAll_cons, ih, happly, Pool.enrol_cons]

/-- Entries have been registered, and no handler heard of it. -/
theorem Machine.Undergoes.enrolled {m m' : Machine Endpoint} {es : List (Entry urls)}
    (h : m.Undergoes (es.map Entry.request) m') :
    m'.pool = m.pool.enrol es ∧ m'.clock = m.clock ∧ m'.called = m.called := by
  have hstate := h.state
  rw [State.applyAll_enrol] at hstate
  refine ⟨congrArg State.pool hstate, congrArg State.clock hstate, ?_⟩
  have hquiet : (m.state.trail (es.map Entry.request)).filterMap Step.call? = [] := by
    refine List.filterMap_eq_nil_iff.2 fun t ht => ?_
    have hmem := List.mem_map_of_mem (f := Step.request) ht
    rw [State.map_request_trail] at hmem
    obtain ⟨e, _, heq⟩ := List.mem_map.1 hmem
    simp [Step.call?, Step.notice?, State.notice?, ← heq, Entry.request]
  rw [h.called, hquiet, List.append_nil]

/-! ## Registering in order -/

/-- Why the configured server at position `index` cannot be registered. The address is looked at
first. -/
inductive ServerConfig.Refused (urls : UrlParser) (index : Nat) (c : ServerConfig) :
    ConfigError → Prop
  | address (u : Url.UrlError) (parse : urls.parse c.address = .error u) :
      Refused urls index c (.invalid [.badAddress index u])
  | options (url : Url) (why : OptionsError) (parse : urls.parse c.address = .ok url)
      (check : c.options.check = .error why) :
      Refused urls index c (.rejected c.name (.invalidOptions why))

/-- A configured server can be registered, or it is refused. -/
theorem ServerConfig.entry_or_refused (urls : UrlParser) (index : Nat) (c : ServerConfig) :
    (∃ e : Entry urls, e.config = c) ∨ ∃ why, c.Refused urls index why := by
  cases hparse : urls.parse c.address with
  | error u => exact .inr ⟨_, .address u hparse⟩
  | ok url =>
      cases hcheck : c.options.check with
      | error why => exact .inr ⟨_, .options url why hparse hcheck⟩
      | ok _ =>
          have hendpoint : c.endpoint urls =
              .ok { name := c.name, baseUrl := String.ofList (dropTrailingSlashes url.chars) } := by
            rw [endpoint, hparse]
            rfl
          exact .inl ⟨⟨c, _, hendpoint, hcheck⟩, rfl⟩

theorem ServerConfig.Refused.exists_iff {index : Nat} {c : ServerConfig} :
    (∃ why, c.Refused urls index why) ↔
      (∃ u, urls.parse c.address = .error u) ∨ ∃ why, c.options.check = .error why := by
  constructor
  · rintro ⟨_, ⟨u, hparse⟩ | ⟨url, why, _, hcheck⟩⟩
    · exact .inl ⟨u, hparse⟩
    · exact .inr ⟨why, hcheck⟩
  · intro h
    rcases hparse : urls.parse c.address with u | url
    · exact ⟨_, .address u hparse⟩
    · rcases h with ⟨u, hu⟩ | ⟨why, hcheck⟩
      · rw [hparse] at hu
        cases hu
      · exact ⟨_, .options url why hparse hcheck⟩

theorem Entry.exists_parse (e : Entry urls) : ∃ url, urls.parse e.config.address = .ok url := by
  have hparsed := e.parsed
  unfold ServerConfig.endpoint at hparsed
  cases hparse : urls.parse e.config.address with
  | ok url => exact ⟨url, rfl⟩
  | error u =>
      rw [hparse] at hparsed
      cases hparsed

/-- What keeps the rules for its address and its options is not refused. -/
theorem ServerConfig.not_refused {index : Nat} {c : ServerConfig} {why : ConfigError}
    (hparse : ∃ url, urls.parse c.address = .ok url) (hcheck : c.options.check = .ok ()) :
    ¬ c.Refused urls index why := by
  obtain ⟨url, hurl⟩ := hparse
  rintro (⟨u, hu⟩ | ⟨_, why, _, hwhy⟩)
  · rw [hurl] at hu
    cases hu
  · rw [hcheck] at hwhy
    cases hwhy

/-- The first step of registering servers of which the first can be registered. -/
theorem registerAll_entry (index : Nat) (e : Entry urls) (rest : List ServerConfig)
    (m : Machine Endpoint) :
    ∃ m', registerAll urls index (e.config :: rest) m = registerAll urls (index + 1) rest m' ∧
      m.Walks False [e.request] m' := by
  obtain ⟨m', hadd, hstate, htrace⟩ := Run.add_spec e.config.options e.endpoint m
  simp only [e.accepted] at hadd hstate htrace
  refine ⟨m', ?_, .of_quiet (Step.calls_of_no_notice rfl) ?_ ?_⟩
  · simp [registerAll, e.parsed, hadd]
  · simp [hstate, State.apply, Entry.request, State.through, e.accepted]
    rfl
  · simp [htrace, Step.tells, Entry.request, e.accepted]
    rfl

theorem registerAll_refused {index : Nat} {c : ServerConfig} {why : ConfigError}
    (h : c.Refused urls index why) (rest : List ServerConfig) (m : Machine Endpoint) :
    ∃ m', registerAll urls index (c :: rest) m = .ok (.error why) m' := by
  cases h with
  | address u hparse =>
      have hendpoint : c.endpoint urls = .error u := by
        rw [ServerConfig.endpoint, hparse]
        rfl
      exact ⟨m, by simp [registerAll, hendpoint]⟩
  | options url why hparse hcheck =>
      obtain ⟨m', hadd, _⟩ := Run.add_spec c.options
        { name := c.name, baseUrl := String.ofList (dropTrailingSlashes url.chars) } m
      simp only [hcheck] at hadd
      have hendpoint : c.endpoint urls =
          .ok { name := c.name, baseUrl := String.ofList (dropTrailingSlashes url.chars) } := by
        rw [ServerConfig.endpoint, hparse]
        rfl
      exact ⟨m', by simp [registerAll, hendpoint, hadd]⟩

/-- Either all servers are registered, or one is refused and all before it can be registered. -/
theorem registerAll_spec (urls : UrlParser) (index : Nat) (cs : List ServerConfig) (m : Machine Endpoint) :
    (∃ (es : List (Entry urls)) (m' : Machine Endpoint), es.map Entry.config = cs ∧
        registerAll urls index cs m = .ok (.ok ()) m' ∧ m.Walks False (es.map Entry.request) m') ∨
      ∃ (es : List (Entry urls)) (c : ServerConfig) (rest : List ServerConfig) (why : ConfigError)
        (m' : Machine Endpoint), cs = es.map Entry.config ++ c :: rest ∧
        c.Refused urls (index + es.length) why ∧ registerAll urls index cs m = .ok (.error why) m' := by
  -- A server that can be registered is put in front of what comes of the rest.
  induction cs generalizing index m with
  | nil => exact .inl ⟨[], m, rfl, rfl, .start⟩
  | cons c rest ih =>
      rcases c.entry_or_refused urls index with ⟨e, rfl⟩ | ⟨why, hwhy⟩
      · obtain ⟨m₁, hfirst, hwalks⟩ := registerAll_entry index e rest m
        rcases ih (index + 1) m₁ with
          ⟨es, m', hconfigs, hall, hwalks'⟩ | ⟨es, c, rest', why, m', hsplit, hwhy, hall⟩
        · exact .inl ⟨e :: es, m', by rw [List.map_cons, hconfigs], hfirst.trans hall,
            hwalks.trans hwalks'⟩
        · refine .inr ⟨e :: es, c, rest', why, m', by rw [hsplit]; rfl, ?_, hfirst.trans hall⟩
          rw [List.length_cons, Nat.add_comm es.length, ← Nat.add_assoc]
          exact hwhy
      · obtain ⟨m', hall⟩ := registerAll_refused hwhy rest m
        exact .inr ⟨[], c, rest, why, m', rfl, hwhy, hall⟩

/-- A pool is built from all servers of a configuration, or one of them is refused. -/
theorem build_spec (urls : UrlParser) (config : PoolConfig) (m : Machine Endpoint) :
    (∃ (es : List (Entry urls)) (m' : Machine Endpoint), es.map Entry.config = config.servers ∧
        config.build urls m = .ok (.ok ()) m' ∧ m.Undergoes (es.map Entry.request) m') ∨
      ∃ (es : List (Entry urls)) (c : ServerConfig) (rest : List ServerConfig) (why : ConfigError)
        (m' : Machine Endpoint), config.servers = es.map Entry.config ++ c :: rest ∧
        c.Refused urls es.length why ∧ config.build urls m = .ok (.error why) m' := by
  rcases registerAll_spec urls 0 config.servers m with
    ⟨es, m', hconfigs, hall, hwalks⟩ | ⟨es, c, rest, why, m', hsplit, hwhy, hall⟩
  · have hundergoes := hwalks.undergoes.trans
      (Machine.undergoes_log (.poolBuilt m'.pool.size m'.pool.primaryOnline) m')
    rw [List.append_nil] at hundergoes
    exact .inl ⟨es, _, hconfigs, by simp [PoolConfig.build, hall, Run.log], hundergoes⟩
  · rw [Nat.zero_add] at hwhy
    exact .inr ⟨es, c, rest, why, m', hsplit, hwhy, by simp [PoolConfig.build, hall]⟩

/-! ## The servers of a configuration -/

namespace PoolConfig

/-- The servers of one tier, in order. -/
def roster (c : PoolConfig) : Tier → List ServerConfig
  | .primary => c.servers.filter (!·.backup)
  | .backup => c.servers.filter (·.backup)

/-- Those servers under the ids that they are to have. -/
def placed (c : PoolConfig) (tier : Tier) : List (ServerId × ServerConfig) :=
  (c.roster tier).mapIdx fun i s => ({ tier, index := i }, s)

/-- All servers, the primaries before the backups. -/
def listing (c : PoolConfig) : List (ServerId × ServerConfig) := c.placed .primary ++ c.placed .backup

theorem map_snd_placed (c : PoolConfig) (tier : Tier) : (c.placed tier).map (·.2) = c.roster tier := by
  apply List.ext_getElem?
  intro i
  simp only [placed, List.getElem?_map, List.getElem?_mapIdx]
  cases (c.roster tier)[i]? <;> rfl

/-- Every configured server is listed once. -/
theorem perm_listing (c : PoolConfig) : (c.listing.map (·.2)).Perm c.servers := by
  rw [listing, List.map_append, map_snd_placed, map_snd_placed]
  have hsplit := List.filter_append_perm (fun s : ServerConfig => !s.backup) c.servers
  simpa [roster] using hsplit

end PoolConfig

section Listing

variable {config : PoolConfig} {es : List (Entry urls)}

theorem Entry.decide_tier (e : Entry urls) :
    decide (e.tier = .primary) = !e.config.backup ∧ decide (e.tier = .backup) = e.config.backup := by
  cases hbackup : e.config.backup <;>
    simp [tier, ServerOptions.tier, ServerConfig.options, hbackup]

theorem PoolConfig.roster_eq (h : es.map Entry.config = config.servers) (tier : Tier) :
    config.roster tier = (es.filter (·.tier = tier)).map Entry.config := by
  cases tier with
  | primary => simp only [roster, ← h, List.filter_map, Entry.decide_tier, Function.comp_def]
  | backup => simp only [roster, ← h, List.filter_map, Entry.decide_tier, Function.comp_def]

theorem slots_enrol (es : List (Entry urls)) (tier : Tier) :
    ((({} : Pool Endpoint).enrol es).group tier).slots =
      (es.filter (·.tier = tier)).mapIdx fun i e => e.slot { tier, index := i } := by
  rw [Pool.group_enrol]
  cases tier <;> simp [Pool.group, Group.size]

/-- The servers of a tier, told from the configuration alone. -/
theorem map_slots_enrol (h : es.map Entry.config = config.servers) (tier : Tier) :
    ((({} : Pool Endpoint).enrol es).group tier).slots.map
        (fun s => (s.server.id, s.server.data.name, s.server.options)) =
      (config.placed tier).map fun l => (l.1, l.2.name, l.2.options) := by
  rw [slots_enrol, PoolConfig.placed, PoolConfig.roster_eq h]
  apply List.ext_getElem?
  intro i
  simp only [List.getElem?_map, List.getElem?_mapIdx]
  cases (es.filter (·.tier = tier))[i]? with
  | none => rfl
  | some e => simp [Entry.slot, e.endpoint_name]

theorem servers_enrol (h : es.map Entry.config = config.servers) :
    (({} : Pool Endpoint).enrol es).servers.map (fun s => (s.id, s.data.name, s.options)) =
      config.listing.map fun l => (l.1, l.2.name, l.2.options) := by
  rw [PoolConfig.listing, List.map_append, ← map_slots_enrol h, ← map_slots_enrol h, Pool.servers,
    Pool.slots, List.map_map, List.map_append]
  rfl

theorem online_enrol (h : es.map Entry.config = config.servers) :
    (({} : Pool Endpoint).enrol es).primaryOnline = config.servers.countP (!·.backup) := by
  simp only [Pool.primaryOnline_enrol, ← h, List.countP_map, Nat.zero_add, Entry.decide_tier,
    Function.comp_def]

end Listing

/-- Building is refused exactly if the address of some server cannot be parsed or its options are not
accepted, and then on account of the first such server. Otherwise, and so for every valid
configuration, the pool lists the configured servers, each under its name and options: the primaries in
order, and after them the backups. -/
theorem build_agrees (urls : UrlParser) (config : PoolConfig) (start : Instant) :
    ∃ r m, config.build urls { clock := start } = .ok r m ∧
      (config.validate urls = .ok config → r = .ok ()) ∧
      (r = .ok () →
        m.pool.servers.map (fun s => (s.id, s.data.name, s.options)) =
          config.listing.map (fun l => (l.1, l.2.name, l.2.options)) ∧
        m.pool.primaryOnline = config.servers.countP (!·.backup)) ∧
      ((∃ why, r = .error why) ↔ ∃ c ∈ config.servers,
        (∃ u, urls.parse c.address = .error u) ∨ ∃ why, c.options.check = .error why) ∧
      ∀ why, r = .error why → ∃ i c, config.servers[i]? = some c ∧
        (∀ j < i, ∀ d, config.servers[j]? = some d →
          (∃ url, urls.parse d.address = .ok url) ∧ d.options.check = .ok ()) ∧
        ((∃ u, urls.parse c.address = .error u ∧ why = .invalid [.badAddress i u] ∧
            (Problem.badAddress i u).field = "servers[" ++ toString i ++ "].address") ∨
          ∃ url source, urls.parse c.address = .ok url ∧ c.options.check = .error source ∧
            why = .rejected c.name (.invalidOptions source)) := by
  rcases build_spec urls config { clock := start } with
    ⟨es, m, hconfigs, hbuild, hundergoes⟩ | ⟨es, c, rest, why, m, hsplit, hwhy, hbuild⟩
  · refine ⟨.ok (), m, hbuild, fun _ => rfl, fun _ => ?_, ?_, by simp⟩
    · rw [hundergoes.enrolled.1]
      exact ⟨servers_enrol hconfigs, online_enrol hconfigs⟩
    · -- All servers are entries, none of which is refused.
      refine ⟨by simp, ?_⟩
      rintro ⟨c, hc, hrefused⟩
      rw [← hconfigs] at hc
      obtain ⟨e, _, rfl⟩ := List.mem_map.1 hc
      have hsome : ∃ why, e.config.Refused urls 0 why :=
        ServerConfig.Refused.exists_iff.2 hrefused
      obtain ⟨why, hwhy⟩ := hsome
      exact absurd hwhy (ServerConfig.not_refused e.exists_parse e.accepted)
  · have hmem : c ∈ config.servers := by simp [hsplit]
    refine ⟨.error why, m, hbuild, ?_, by simp, ?_, ?_⟩
    · intro hvalid
      have hfit := (PoolConfig.validate_ok_iff.1 hvalid).fit c hmem
      obtain ⟨url, hparse, _⟩ := hfit.address
      exact absurd hwhy (ServerConfig.not_refused ⟨url, hparse⟩ hfit.options)
    · exact ⟨fun _ => ⟨c, hmem, ServerConfig.Refused.exists_iff.1 ⟨why, hwhy⟩⟩, fun _ => ⟨why, rfl⟩⟩
    · rintro _ ⟨⟩
      refine ⟨es.length, c, by simp [hsplit], fun j hj d hd => ?_, ?_⟩
      · -- Those before it are the entries.
        rw [hsplit, List.getElem?_append_left (by simpa using hj), List.getElem?_map] at hd
        obtain ⟨e, _, rfl⟩ := Option.map_eq_some_iff.1 hd
        exact ⟨e.exists_parse, e.accepted⟩
      · cases hwhy with
        | address u hparse =>
            exact .inl ⟨u, hparse, rfl, by simp [Problem.field, Problem.serverField, String.append_assoc]⟩
        | options url source hparse hcheck => exact .inr ⟨url, source, hparse, hcheck, rfl⟩

/-- Two primaries with a backup between them. -/
def trio : PoolConfig where
  servers := [
    { name := "a", address := "http://10.0.0.1:8080/", weight := 3 },
    { name := "b", address := "https://b.example.com", backup := true },
    { name := "c", address := "http://[::1]:9000", maxFails := 0 }]

/-- A server without weight is refused before the next one, whose address has no scheme. -/
def spoiled : PoolConfig where
  servers := [
    { name := "a", address := "http://10.0.0.1:8080/" },
    { name := "d", address := "http://10.0.0.4", weight := 0 },
    { name := "e", address := "10.0.0.5" }]

theorem build_agrees_trio :
    (trio.validate .ascii = .ok trio ∧ ∃ m, trio.build .ascii { clock := ⟨0⟩ } = .ok (.ok ()) m ∧
      m.pool.servers.map (fun s => (s.id.text, s.data.name, s.options.weight)) =
        [("primary#0", "a", 3), ("primary#1", "c", 1), ("backup#0", "b", 1)] ∧
      m.pool.primaryOnline = 2) ∧
    ∃ m, spoiled.build .ascii { clock := ⟨0⟩ } =
      .ok (.error (.rejected "d" (.invalidOptions .zeroWeight))) m := by
  constructor
  · have hvalid : trio.validate .ascii = .ok trio := by decide +kernel
    obtain ⟨r, m, hbuild, hok, hlists, _⟩ := build_agrees .ascii trio ⟨0⟩
    cases hok hvalid
    obtain ⟨hservers, honline⟩ := hlists rfl
    refine ⟨hvalid, m, hbuild, ?_, honline⟩
    have htexts := congrArg (List.map fun l : ServerId × String × ServerOptions =>
      (l.1.text, l.2.1, l.2.2.weight)) hservers
    rw [List.map_map] at htexts
    exact htexts.trans (by decide +kernel)
  · obtain ⟨r, m, hbuild, _, _, hfails, hwhy⟩ := build_agrees .ascii spoiled ⟨0⟩
    obtain ⟨why, rfl⟩ := hfails.2 ⟨_, List.mem_cons_of_mem _ List.mem_cons_self,
      .inr ⟨.zeroWeight, by decide⟩⟩
    obtain ⟨i, c, hc, hbefore, hcause⟩ := hwhy why rfl
    have hparses : ∀ c ∈ spoiled.servers.take 2,
        (UrlParser.ascii.parse c.address).toOption.isSome = true := by
      decide +kernel
    -- The first server is not refused, the second is, and no later one comes to be looked at.
    match i with
    | 0 =>
        cases hc
        rcases hcause with ⟨u, hu, _⟩ | ⟨_, source, _, hcheck, _⟩
        · simpa [hu, Except.toOption] using hparses _ List.mem_cons_self
        · cases hcheck
    | 1 =>
        cases hc
        rcases hcause with ⟨u, hu, _⟩ | ⟨_, source, _, hcheck, rfl⟩
        · simpa [hu, Except.toOption] using hparses _ (List.mem_cons_of_mem _ List.mem_cons_self)
        · cases hcheck
          exact ⟨m, hbuild⟩
    | i + 2 => cases (hbefore 1 (by omega) _ rfl).2

end TieredPool
