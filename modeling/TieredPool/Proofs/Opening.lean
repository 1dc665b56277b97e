import Mathlib.Data.List.Nodup
import TieredPool.Proofs.Accounting
import TieredPool.Proofs.Construction
import TieredPool.Proofs.Slots

/-!
# Opening — a simulation before its first request

* `Simulation.Opens` — the pool of a configuration has been built, somebody listens to its events, and
  nothing else has happened.
* `simulateWith_eq` — a simulation of a valid configuration runs its requests from such a state.
* `Simulation.exists_opens` — the same of a simulation that comes to its report.
* `Simulation.Opens.map_slots`, `Simulation.Opens.map_servers` — who is there then.
-/

namespace TieredPool

variable {γ : Type} {urls : UrlParser}

/-- The entries of a configuration have been registered at the instant `start`, events are recorded, and
nothing else has happened. -/
structure Simulation.Opens (config : PoolConfig) (start : Instant) (es : List (Entry urls))
    (s : Simulation γ) : Prop where
  entries : es.map Entry.config = config.servers
  pool : s.machine.pool = { ({} : Pool Endpoint).enrol es with
    handler := some { label := 0, only := none, script := [], holder := some 0 } }
  clock : s.machine.clock = start
  called : s.machine.called = []
  tally : s.tally = { picks := noPicks (config.servers.map (·.name)) }

theorem simulateWith_eq (rng : RandomSource γ) {config : PoolConfig} (params : SimulationParams)
    (start : Instant) (g : γ) (hvalid : config.Valid urls) :
    ∃ (es : List (Entry urls)) (s : Simulation γ), s.Opens config start es ∧
      simulateWith rng urls config params { machine := { clock := start }, random := g } =
        match Simulation.run rng config.retry params params.requests s with
        | .ok _ s' => .ok (.ok ()) s'
        | .error why s' => .error why s' := by
  rcases build_spec urls config { clock := start } with
    ⟨es, m, hconfigs, hbuild, hundergoes⟩ | ⟨es, c, rest, why, m, hsplit, hwhy, _⟩
  · obtain ⟨hpool, hclock, hcalled⟩ := hundergoes.enrolled
    let handler : Handler Endpoint := { label := 0, only := none, script := [], holder := some 0 }
    let s : Simulation γ := {
      machine := { m with pool := { m.pool with handler := some handler } }
      random := g
      tally := { picks := noPicks (config.servers.map (·.name)) } }
    refine ⟨es, s, ⟨hconfigs, by rw [← hpool], hclock, hcalled, rfl⟩, ?_⟩
    have hinstall : perform (notify 0) { handle := some 0 } (.install 0 none []) m =
        .ok .done s.machine := rfl
    have hrecord : Simulation.record (fun t => { t with picks := noPicks (config.servers.map (·.name)) })
        { machine := s.machine, random := g } = .ok () s := rfl
    simp only [simulateWith, Simulation.onPool, bind, EStateM.bind, hbuild, hinstall, hrecord]
    cases Simulation.run rng config.retry params params.requests s <;> rfl
  · -- No server of a valid configuration is refused.
    have hfit := hvalid.fit c (by simp [hsplit])
    obtain ⟨url, hparse, _⟩ := hfit.address
    exact absurd hwhy (ServerConfig.not_refused ⟨url, hparse⟩ hfit.options)

/-- A simulation of a valid configuration that comes to its report has run all its requests. -/
theorem Simulation.exists_opens {rng : RandomSource γ} {config : PoolConfig} {params : SimulationParams}
    {start : Instant} {g : γ} {s' : Simulation γ} (hvalid : config.Valid urls)
    (h : simulateWith rng urls config params { machine := { clock := start }, random := g } =
      .ok (.ok ()) s') :
    ∃ (es : List (Entry urls)) (s : Simulation γ), s.Opens config start es ∧
      run rng config.retry params params.requests s = .ok () s' := by
  obtain ⟨es, s, ho, heq⟩ := simulateWith_eq rng params start g hvalid
  refine ⟨es, s, ho, ?_⟩
  rw [heq] at h
  split at h
  · cases h
    assumption
  · cases h

namespace Simulation.Opens

variable {config : PoolConfig} {start : Instant} {es : List (Entry urls)} {s : Simulation γ}

theorem slots (h : s.Opens config start es) (tier : Tier) :
    (s.machine.pool.group tier).slots =
      (es.filter (·.tier = tier)).mapIdx fun i e => e.slot { tier, index := i } := by
  rw [← slots_enrol, h.pool]
  cases tier <;> rfl

theorem sound (h : s.Opens config start es) : s.machine.pool.Sound := by
  rw [h.pool]
  exact (Pool.Sound.empty.enrol es).handler _

theorem spotless (h : s.Opens config start es) (tier : Tier) :
    ∀ slot ∈ (s.machine.pool.group tier).slots, slot.health = {} ∧ slot.credit = 0 := by
  intro slot hslot
  rw [h.slots] at hslot
  obtain ⟨i, _, rfl⟩ := List.mem_mapIdx.1 hslot
  exact ⟨rfl, rfl⟩

/-- The servers of a tier are told from the configuration. -/
theorem map_slots (h : s.Opens config start es) (tier : Tier) :
    (s.machine.pool.group tier).slots.map
        (fun slot => (slot.server.id, slot.server.data.name, slot.server.options)) =
      (config.placed tier).map fun l => (l.1, l.2.name, l.2.options) := by
  rw [h.slots, ← slots_enrol, map_slots_enrol h.entries]

theorem map_servers (h : s.Opens config start es) :
    s.machine.pool.servers.map (fun server => (server.id, server.data.name, server.options)) =
      config.listing.map fun l => (l.1, l.2.name, l.2.options) := by
  rw [← servers_enrol h.entries, h.pool]
  rfl

theorem map_roster (h : s.Opens config start es) (tier : Tier) :
    (s.machine.pool.group tier).slots.map (fun slot => (slot.server.data.name, slot.server.options)) =
      (config.roster tier).map fun c => (c.name, c.options) := by
  have hlisted := congrArg (List.map fun l : ServerId × String × ServerOptions => l.2) (h.map_slots tier)
  rw [List.map_map, List.map_map] at hlisted
  rw [← PoolConfig.map_snd_placed, List.map_map]
  exact hlisted

theorem map_name (h : s.Opens config start es) (tier : Tier) :
    (s.machine.pool.group tier).slots.map (fun slot => slot.server.data.name) =
      (config.roster tier).map (·.name) := by
  have hnames := congrArg (List.map fun l : String × ServerOptions => l.1) (h.map_roster tier)
  rwa [List.map_map, List.map_map] at hnames

theorem map_weight (h : s.Opens config start es) (tier : Tier) :
    (s.machine.pool.group tier).slots.map Slot.weight =
      (config.roster tier).map (·.options.effectiveWeight) := by
  have hweights := congrArg (List.map fun l : String × ServerOptions => l.2.effectiveWeight)
    (h.map_roster tier)
  rwa [List.map_map, List.map_map] at hweights

theorem slots_eq_nil_iff (h : s.Opens config start es) (tier : Tier) :
    (s.machine.pool.group tier).slots = [] ↔ config.roster tier = [] := by
  rw [← List.map_eq_nil_iff (f := fun slot => slot.server.data.name), h.map_name, List.map_eq_nil_iff]

theorem inService (h : s.Opens config start es) : s.InService where
  sound := h.sound
  silent := by
    rw [h.pool]
    rintro handler ⟨⟩
    rfl

theorem perm_names (h : s.Opens config start es) :
    s.names.Perm (config.servers.map (·.name)) := by
  have hnames : s.names = config.listing.map (·.2.name) := by
    have hlisted := congrArg (List.map fun l : ServerId × String × ServerOptions => l.2.1) h.map_servers
    rwa [List.map_map, List.map_map] at hlisted
  have hperm := config.perm_listing.map (·.name)
  rw [List.map_map] at hperm
  rw [hnames]
  exact hperm

/-- The books are balanced before the first request. -/
theorem balanced (h : s.Opens config start es) (left : Nat) : s.tally.Balanced s.names left 0 0 := by
  rw [h.tally]
  exact .start (fun _ => h.perm_names.mem_iff.symm) left

end Simulation.Opens

end TieredPool
