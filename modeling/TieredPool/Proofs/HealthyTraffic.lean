import TieredPool.Proofs.Opening
import TieredPool.Proofs.Reporting
import TieredPool.Proofs.Rotation
import TieredPool.Proofs.Slots

/-!
# HealthyTraffic — a simulation in which no request fails

Where nothing fails, nothing is held against any server: the backups stay idle if there are primaries,
and the rotation of the tier that serves is all that happens.

* `Pool.Thrives` — nobody has failures, and one tier takes all requests.
* `Simulation.Flows` — requests have been served in rotation, and nothing else has happened.
* `Simulation.request_of_thrives`, `Simulation.run_of_thrives` — one request; all of them.
* `Simulation.Flows.idle`, `Simulation.Flows.share` — who is picked, and how often.
* `healthy_traffic` — the report on such a simulation.
-/

namespace TieredPool

open Finset

variable {α γ : Type}

theorem Group.pickCount_singleton (i : ℕ) (g : Group α) (m : Move α) :
    g.pickCount i [m] = if g.pickedBy m = some i then 1 else 0 := by
  rw [pickCount_cons, pickCount, history, List.countP_nil, Nat.zero_add]

/-- Nobody has failures, and the servers of `tier` take all requests: they are the primaries, or there
are none of these. -/
structure Pool.Thrives (tier : Tier) (p : Pool Endpoint) : Prop where
  spotless : ∀ tier', ∀ s ∈ (p.group tier').slots, s.health = {}
  held : (p.group tier).slots ≠ []
  first : tier = .backup → p.primary.slots = []
  names : ((p.group tier).slots.map fun s => s.server.data.name).Nodup

namespace Pool.Thrives

variable {tier : Tier} {p : Pool Endpoint}

/-- A request is served by that tier. -/
theorem next_eq (h : p.Thrives tier) (now : Instant) :
    ∃ pick, ((p.group tier).select now).1 = some pick ∧
      p.next now = (some { pick, source := tier }, p.setGroup tier ((p.group tier).select now).2) := by
  have hserves : ((p.group tier).select now).1 ≠ none := by
    rw [Ne, Group.select_fst_eq_none_iff]
    intro hnone
    obtain ⟨s, hs⟩ := List.exists_mem_of_ne_nil _ h.held
    have hup := hnone s hs
    rw [Slot.selectable, h.spotless tier s hs] at hup
    cases hup
  rcases next_cases now p with ⟨pick, hpick, heq⟩ | ⟨hnone, pick, hpick, heq⟩ | ⟨hnone, hnone', _⟩
  · -- There are primaries, so they are the tier that serves.
    cases tier with
    | primary => exact ⟨pick, hpick, heq⟩
    | backup =>
        obtain ⟨s, hs, _⟩ := Group.selectable_of_select hpick
        rw [h.first rfl] at hs
        cases hs
  · cases tier with
    | primary => exact absurd hnone hserves
    | backup => exact ⟨pick, hpick, heq⟩
  · cases tier with
    | primary => exact absurd hnone hserves
    | backup => exact absurd hnone' hserves

/-- The server handed out is the one that leads its tier. -/
theorem exists_leads (h : p.Thrives tier) (now : Instant) :
    ∃ k slot, (p.group tier).Leads now k slot ∧
      (p.group tier).select now =
        (some { server := slot.server, probe := slot.isDown }, (p.group tier).charged now k) ∧
      (p.next now).1 =
        some { pick := { server := slot.server, probe := slot.isDown }, source := tier } := by
  obtain ⟨pick, hpick, heq⟩ := h.next_eq now
  rcases Group.select_cases now (p.group tier) with ⟨_, hnone⟩ | ⟨k, slot, hleads, hselect⟩
  · rw [hnone] at hpick
    cases hpick
  · rw [hselect] at hpick
    cases hpick
    exact ⟨k, slot, hleads, hselect, congrArg Prod.fst heq⟩

/-- The slots of the tier are told apart by the names of their servers. -/
theorem name_eq_iff (h : p.Thrives tier) {i j : Nat} {slot slot' : Slot Endpoint}
    (hi : (p.group tier).slots[i]? = some slot) (hj : (p.group tier).slots[j]? = some slot') :
    slot.server.data.name = slot'.server.data.name ↔ i = j := by
  constructor
  · intro hnames
    have hlt : i < ((p.group tier).slots.map fun s => s.server.data.name).length := by
      simpa using (List.getElem?_eq_some_iff.1 hi).1
    refine (List.getElem?_inj hlt h.names).1 ?_
    simp only [List.getElem?_map, hi, hj, Option.map_some, hnames]
  · rintro rfl
    rw [hi] at hj
    cases hj
    rfl

theorem next (h : p.Thrives tier) (now : Instant) : (p.next now).2.Thrives tier := by
  obtain ⟨pick, hpick, heq⟩ := h.next_eq now
  rw [heq]
  have hserver := Group.map_slots_select Slot.server now (p.group tier) (by simp) (by simp)
  refine ⟨fun tier' => ?_, fun hnil => ?_, fun hbackup => ?_, ?_⟩
  · by_cases htier : tier' = tier
    · subst htier
      rw [group_setGroup_self]
      exact Group.spotless_select (h.spotless tier') now
    · rw [group_setGroup_of_ne htier]
      exact h.spotless tier'
  · rw [group_setGroup_self] at hnil
    rw [hnil] at hserver
    exact h.held (List.map_eq_nil_iff.1 hserver.symm)
  · subst hbackup
    exact h.first rfl
  · rw [group_setGroup_self]
    have hnames := Group.map_slots_select (fun s => s.server.data.name) now (p.group tier)
      (by simp) (by simp)
    rw [hnames]
    exact h.names

/-- A success is nothing new. -/
theorem reportSuccess (h : p.Thrives tier) (id : ServerId) : p.reportSuccess id = (none, p) :=
  reportSuccess_of_fresh fun s hs => h.spotless id.tier s (List.mem_of_getElem? hs)

theorem map_line (h : p.Thrives tier) (picks : List (String × Nat)) :
    p.slots.map (Slot.line picks) = p.servers.map fun server =>
      (server.id, server.data.name, picksOf picks server.data.name, false, 0) := by
  rw [servers, List.map_map]
  refine List.map_congr_left fun slot hslot => ?_
  have hfresh : slot.health = {} := by
    rcases List.mem_append.1 hslot with hslot | hslot
    · exact h.spotless .primary slot hslot
    · exact h.spotless .backup slot hslot
  rw [Slot.line, Slot.isDown, hfresh]
  rfl

end Pool.Thrives

/-! ## Requests -/

namespace Simulation

variable {rng : RandomSource γ} {params : SimulationParams}
  {s s' s'' : Simulation γ} {tier : Tier} {nows : List Instant}

/-- From `s` to `s'` the servers of `tier` have been picked in rotation at the instants `nows`, each of
those requests has succeeded, and nothing else has happened. -/
structure Flows (tier : Tier) (nows : List Instant) (s s' : Simulation γ) : Prop where
  thrives : s'.machine.pool.Thrives tier
  group : s'.machine.pool.group tier = (s.machine.pool.group tier).play (nows.map .select)
  servers : s'.machine.pool.servers = s.machine.pool.servers
  called : s'.machine.called = s.machine.called
  tally : ∃ picks, s'.tally = { s.tally with succeeded := s.tally.succeeded + nows.length, picks }
  inOrder : InOrder s'.tally.picks
  picked : ∀ (i : Nat) (slot : Slot Endpoint), (s.machine.pool.group tier).slots[i]? = some slot →
    picksOf s'.tally.picks slot.server.data.name =
      picksOf s.tally.picks slot.server.data.name +
        (s.machine.pool.group tier).pickCount i (nows.map .select)
  unpicked : ∀ name, name ∉ (s.machine.pool.group tier).slots.map (fun slot => slot.server.data.name) →
    picksOf s'.tally.picks name = picksOf s.tally.picks name

theorem Flows.refl (hs : s.machine.pool.Thrives tier) (horder : InOrder s.tally.picks) :
    s.Flows tier [] s where
  thrives := hs
  group := rfl
  servers := rfl
  called := rfl
  tally := ⟨s.tally.picks, rfl⟩
  inOrder := horder
  picked := fun _ _ _ => by simp [Group.pickCount, Group.history]
  unpicked := fun _ _ => rfl

theorem Flows.map_server (h : s.Flows tier nows s') :
    (s'.machine.pool.group tier).slots.map Slot.server =
      (s.machine.pool.group tier).slots.map Slot.server := by
  rw [h.group, Group.map_server_selects]

theorem Flows.names (h : s.Flows tier nows s') :
    (s'.machine.pool.group tier).slots.map (fun slot => slot.server.data.name) =
      (s.machine.pool.group tier).slots.map (fun slot => slot.server.data.name) := by
  have hmap := congrArg (List.map fun server : Server Endpoint => server.data.name) h.map_server
  rwa [List.map_map, List.map_map] at hmap

theorem Flows.cons {now : Instant} (h : s.Flows tier [now] s') (h' : s'.Flows tier nows s'') :
    s.Flows tier (now :: nows) s'' := by
  have hgroup : s'.machine.pool.group tier = ((s.machine.pool.group tier).select now).2 := h.group
  refine ⟨h'.thrives, ?_, h'.servers.trans h.servers, h'.called.trans h.called, ?_, h'.inOrder,
    fun i slot hslot => ?_, fun name hname => ?_⟩
  · rw [h'.group, hgroup]
    rfl
  · obtain ⟨_, htally⟩ := h.tally
    obtain ⟨picks, htally'⟩ := h'.tally
    refine ⟨picks, ?_⟩
    have hcount : s.tally.succeeded + 1 + nows.length = s.tally.succeeded + (now :: nows).length := by
      rw [List.length_cons]
      omega
    rw [htally', htally, ← hcount]
    rfl
  · -- The slot is found in the same place afterwards.
    have hat := congrArg (·[i]?) h.map_server
    simp only [List.getElem?_map, hslot, Option.map_some] at hat
    obtain ⟨slot', hslot', hsame⟩ := Option.map_eq_some_iff.1 hat
    have hrest := h'.picked i slot' hslot'
    rw [hsame, h.picked i slot hslot, hgroup] at hrest
    rw [hrest, List.map_singleton, List.map_cons, Group.pickCount_singleton, Group.pickCount_cons,
      Group.move]
    omega
  · rw [h'.unpicked name (h.names ▸ hname), h.unpicked name hname]

/-- The clock has no part in it. -/
theorem Flows.advance {clock : Instant} (h : s.Flows tier nows s') :
    s.Flows tier nows { s' with machine := { s'.machine with clock } } :=
  ⟨h.thrives, h.group, h.servers, h.called, h.tally, h.inOrder, h.picked, h.unpicked⟩

section Requests

variable (hrng : ∀ g, (rng.happens .never g).1 = false) (hrate : params.failureRate.chance = .never)
  (hs : s.machine.pool.Thrives tier)

include hrng hrate hs

/-- A request that reaches a server which is not broken succeeds. -/
theorem finish_of_thrives {server : Server Endpoint} (hsound : server.data.name ∉ params.broken) :
    finish rng params server s = .ok () { s with
      random := (rng.happens .never s.random).2
      tally := { s.tally with
        succeeded := s.tally.succeeded + 1
        picks := addPick server.data.name 1 s.tally.picks } } := by
  have hcontains : params.broken.contains server.data.name = false := by simpa using hsound
  have hreport : Run.reportSuccess (notify eventDepth) server.id s.machine = .ok () s.machine := by
    rw [Run.reportSuccess_apply, hs.reportSuccess]
  let s₁ : Simulation γ := { s with
    tally := { s.tally with picks := addPick server.data.name 1 s.tally.picks } }
  have hdraw : draw (rng.happens .never) s₁ =
      .ok false { s₁ with random := (rng.happens .never s.random).2 } := by
    rw [← hrng s.random]
    rfl
  simp only [finish, hcontains, hrate, Bool.false_eq_true, if_false]
  refine bind_eq_ok_iff.2 ⟨(), s₁, rfl, bind_eq_ok_iff.2 ⟨false, _, hdraw, ?_⟩⟩
  refine bind_eq_ok_iff.2 ⟨(), _, rfl, ?_⟩
  simp only [onPool, s₁]
  rw [hreport]

variable (horder : InOrder s.tally.picks)
  (hsound : ∀ name ∈ (s.machine.pool.group tier).slots.map (fun slot => slot.server.data.name),
    name ∉ params.broken)

include horder hsound

/-- An attempt reaches the server whose turn it is, and the request succeeds. -/
theorem tryOnce_of_thrives (otherwise : PoolError → Sim γ Unit) :
    ∃ s', tryOnce rng params otherwise s = .ok () s' ∧ s.Flows tier [s.machine.clock] s' ∧
      s'.machine.clock = s.machine.clock := by
  obtain ⟨m, hnext, hundergoes⟩ := s.machine.undergoes_next
  have hpool : m.pool = (s.machine.pool.next s.machine.clock).2 :=
    congrArg State.pool hundergoes.state
  have hclock : m.clock = s.machine.clock := congrArg State.clock hundergoes.state
  have hthrives : m.pool.Thrives tier := hpool ▸ hs.next s.machine.clock
  obtain ⟨k, slot, hleads, hselect, hchoice⟩ := hs.exists_leads s.machine.clock
  have hname := hsound _ (List.mem_map_of_mem (List.mem_of_getElem? hleads.get))
  have hfinish := finish_of_thrives (s := { s with machine := m }) hrng hrate hthrives hname
  refine ⟨_, bind_eq_ok_iff.2 ⟨.ok slot.server, { s with machine := m }, ?_, hfinish⟩, ?_, hclock⟩
  · rw [hchoice] at hnext
    simp only [onPool, hnext]
    rfl
  · refine ⟨hthrives, ?_, ?_, hundergoes.called_of_quiet rfl, ⟨_, rfl⟩,
      inOrder_addPick horder slot.server.data.name 1, fun i slot' hslot' => ?_, fun name hname => ?_⟩
    · obtain ⟨_, _, heq⟩ := hs.next_eq s.machine.clock
      have hgroup : m.pool.group tier = ((s.machine.pool.group tier).select s.machine.clock).2 := by
        rw [hpool, heq, Pool.group_setGroup_self]
      exact hgroup
    · exact hpool ▸ (Pool.Continues.next s.machine.clock s.machine.pool).servers
    · have hpicked : (s.machine.pool.group tier).pickedBy (.select s.machine.clock) = some k := by
        simp [Group.pickedBy, hselect, Group.charged]
      rw [picksOf_addPick horder, List.map_singleton, Group.pickCount_singleton, hpicked]
      simp only [hs.name_eq_iff hleads.get hslot', Option.some.injEq]
    · rw [picksOf_addPick horder, if_neg, Nat.add_zero]
      rintro rfl
      exact hname (List.mem_map_of_mem (List.mem_of_getElem? hleads.get))

theorem request_of_thrives (retry : RetryConfig) (attempt left : Nat) :
    ∃ s', request rng retry params attempt left s = .ok () s' ∧ s.Flows tier [s.machine.clock] s' ∧
      s'.machine.clock = s.machine.clock := by
  cases left with
  | zero => exact tryOnce_of_thrives hrng hrate hs horder hsound _
  | succ left => exact tryOnce_of_thrives hrng hrate hs horder hsound _

/-- As long as the clock lasts, all requests are served in rotation. -/
theorem run_of_thrives (retry : RetryConfig) (n : Nat)
    (hclock : s.machine.clock.nanos + n * params.tick.nanos < Instant.limit) :
    ∃ s' nows, run rng retry params n s = .ok () s' ∧ nows.length = n ∧ s.Flows tier nows s' := by
  induction n generalizing s with
  | zero => exact ⟨s, [], rfl, rfl, .refl hs horder⟩
  | succ n ih =>
      obtain ⟨s₁, hrequest, hflows, hclock₁⟩ := request_of_thrives hrng hrate hs horder hsound
        retry 1 (retry.maxAttempts.toNat - 1)
      rw [Nat.succ_mul] at hclock
      have hadd : s₁.machine.clock.add? params.tick =
          some ⟨s.machine.clock.nanos + params.tick.nanos⟩ := by
        rw [hclock₁, Instant.add?, if_pos (by omega)]
      let s₂ : Simulation γ := { s₁ with
        machine := { s₁.machine with clock := ⟨s.machine.clock.nanos + params.tick.nanos⟩ } }
      have htick : onPool (Run.advance params.tick) s₁ = .ok () s₂ := by
        simp [onPool, Run.advance, hadd, s₂]
      have hflows₂ : s.Flows tier [s.machine.clock] s₂ := hflows.advance
      obtain ⟨s', nows, hrest, hlength, hflows'⟩ := ih hflows₂.thrives hflows₂.inOrder
        (hflows₂.names ▸ hsound) (by simp only [s₂]; omega)
      refine ⟨s', s.machine.clock :: nows, ?_, by rw [List.length_cons, hlength], hflows₂.cons hflows'⟩
      exact bind_eq_ok_iff.2 ⟨(), s₁, hrequest, bind_eq_ok_iff.2 ⟨(), s₂, htick, hrest⟩⟩

end Requests

end Simulation

/-! ## Whole simulations -/

/-- Whether the number is above zero. -/
def Binary64.positive : Binary64 → Bool
  | .nan => false
  | .infinite negative => !negative
  | .finite negative mantissa _ => !negative && mantissa != 0

/-- What is not above zero never happens. -/
theorem Binary64.chance_of_not_positive {x : Binary64} (h : x.positive = false) : x.chance = .never := by
  cases x with
  | nan => rfl
  | infinite negative =>
      cases negative with
      | true => rfl
      | false => cases h
  | finite negative mantissa exponent =>
      cases negative with
      | true => rfl
      | false =>
          have hzero : mantissa = 0 := by simpa [positive] using h
          subst hzero
          simp [chance, Chance.never]

namespace PoolConfig

variable {urls : UrlParser} {config : PoolConfig}

/-- The tier that serves while nobody fails. -/
def activeTier (config : PoolConfig) : Tier :=
  if config.roster .primary = [] then .backup else .primary

/-- What the servers of a tier weigh together. -/
def rosterWeight (config : PoolConfig) (tier : Tier) : Nat :=
  ((config.roster tier).map (·.options.effectiveWeight)).sum

theorem roster_sublist (config : PoolConfig) (tier : Tier) :
    (config.roster tier).Sublist config.servers := by
  cases tier <;> exact List.filter_sublist

theorem roster_activeTier_ne_nil (hvalid : config.Valid urls) : config.roster config.activeTier ≠ [] := by
  unfold activeTier
  split
  case isTrue hnone =>
    -- Without primaries all servers are backups.
    obtain ⟨c, hc⟩ := List.exists_mem_of_ne_nil _ hvalid.nonempty
    have hbackup := List.filter_eq_nil_iff.1 hnone c hc
    exact List.ne_nil_of_mem (List.mem_filter.2 ⟨hc, by simpa using hbackup⟩)
  case isFalse hsome => exact hsome

theorem rosterWeight_activeTier_pos (hvalid : config.Valid urls) :
    0 < config.rosterWeight config.activeTier := by
  obtain ⟨c, hc⟩ := List.exists_mem_of_ne_nil _ (roster_activeTier_ne_nil hvalid)
  have hle : c.options.effectiveWeight ≤ config.rosterWeight config.activeTier :=
    List.le_sum_of_mem (List.mem_map_of_mem hc)
  exact (Nat.le_max_right _ 1).trans hle

/-- Servers of different tiers have different names. -/
theorem name_notMem_roster (hvalid : config.Valid urls) {tier tier' : Tier} (hne : tier ≠ tier')
    {c : ServerConfig} (hc : c ∈ config.roster tier) : c.name ∉ (config.roster tier').map (·.name) := by
  intro hname
  obtain ⟨c', hc', hsame⟩ := List.mem_map.1 hname
  have heq : c' = c := List.inj_on_of_nodup_map hvalid.nodup ((config.roster_sublist _).subset hc')
    ((config.roster_sublist _).subset hc) hsame
  subst heq
  -- No server is a backup and a primary at once.
  cases tier <;> cases tier' <;> simp_all [roster]

end PoolConfig

namespace Simulation.Opens

variable {urls : UrlParser} {config : PoolConfig} {start : Instant} {es : List (Entry urls)}
  {s : Simulation γ}

theorem thrives (h : s.Opens config start es) (hvalid : config.Valid urls) :
    s.machine.pool.Thrives config.activeTier where
  spotless := fun tier slot hslot => (h.spotless tier slot hslot).1
  held := fun hnil => PoolConfig.roster_activeTier_ne_nil hvalid ((h.slots_eq_nil_iff _).1 hnil)
  first := by
    intro hbackup
    refine (h.slots_eq_nil_iff .primary).2 ?_
    by_contra hsome
    rw [PoolConfig.activeTier, if_neg hsome] at hbackup
    cases hbackup
  names := by
    rw [h.map_name]
    exact hvalid.nodup.sublist ((config.roster_sublist _).map _)

/-- Nobody is owed anything yet. -/
theorem level (h : s.Opens config start es) (tier : Tier) (i : Nat) :
    (s.machine.pool.group tier).creditAt i = 0 := by
  cases hslot : (s.machine.pool.group tier).slots[i]? with
  | none => simp [Group.creditAt, hslot]
  | some slot =>
      rw [Group.creditAt_of_getElem? hslot]
      exact (h.spotless tier slot (List.mem_of_getElem? hslot)).2

theorem sum_weightAt (h : s.Opens config start es) (tier : Tier) :
    ∑ i ∈ range (s.machine.pool.group tier).size, (s.machine.pool.group tier).weightAt i =
      config.rosterWeight tier := by
  rw [Group.sum_weightAt, Group.totalWeight, h.map_weight, PoolConfig.rosterWeight]

/-- Nobody has been picked yet. -/
theorem picksOf (h : s.Opens config start es) (name : String) : picksOf s.tally.picks name = 0 := by
  rw [h.tally, picksOf_noPicks]

/-- Every server of a tier has its slot there. -/
theorem exists_slot (h : s.Opens config start es) {tier : Tier} {c : ServerConfig}
    (hc : c ∈ config.roster tier) :
    ∃ i slot, (s.machine.pool.group tier).slots[i]? = some slot ∧ slot.server.data.name = c.name ∧
      (s.machine.pool.group tier).weightAt i = c.options.effectiveWeight := by
  obtain ⟨i, hi⟩ := List.mem_iff_getElem?.1 hc
  have hat := congrArg (·[i]?) (h.map_roster tier)
  simp only [List.getElem?_map, hi, Option.map_some] at hat
  obtain ⟨slot, hslot, hsame⟩ := Option.map_eq_some_iff.1 hat
  refine ⟨i, slot, hslot, congrArg Prod.fst hsame, ?_⟩
  rw [Group.weightAt_of_getElem? hslot]
  exact congrArg (fun l : String × ServerOptions => l.2.effectiveWeight) hsame

end Simulation.Opens

namespace Simulation.Flows

variable {urls : UrlParser} {config : PoolConfig} {start : Instant} {es : List (Entry urls)}
  {s s' : Simulation γ} {tier tier' : Tier} {nows : List Instant} {c : ServerConfig}

/-- Nobody else is picked. -/
theorem idle (h : s.Flows tier nows s') (ho : s.Opens config start es) (hvalid : config.Valid urls)
    (hne : tier' ≠ tier) (hc : c ∈ config.roster tier') : picksOf s'.tally.picks c.name = 0 := by
  have hother := PoolConfig.name_notMem_roster hvalid hne hc
  rw [← ho.map_name] at hother
  rw [h.unpicked c.name hother, ho.picksOf]

/-- From the start on, the requests are shared out by weight. -/
theorem share (h : s.Flows tier nows s') (ho : s.Opens config start es)
    (hpos : 0 < config.rosterWeight tier) (hc : c ∈ config.roster tier) :
    picksOf s'.tally.picks c.name ≤
        (nows.length * c.options.effectiveWeight) ⌈/⌉ config.rosterWeight tier ∧
      ∀ k, nows.length = k * config.rosterWeight tier →
        picksOf s'.tally.picks c.name = k * c.options.effectiveWeight := by
  obtain ⟨i, slot, hslot, hname, hweight⟩ := ho.exists_slot hc
  have hpicked : picksOf s'.tally.picks c.name =
      (s.machine.pool.group tier).pickCount i (nows.map .select) := by
    rw [← hname, h.picked i slot hslot, ho.picksOf, Nat.zero_add]
  have hi : i ∈ range (s.machine.pool.group tier).size :=
    mem_range.2 (List.getElem?_eq_some_iff.1 hslot).1
  have hsteady := Group.steady_of_spotless
    (fun slot hslot => (ho.spotless tier slot hslot).1) nows
  rw [← ho.sum_weightAt] at hpos
  rw [hpicked, ← hweight]
  constructor
  · have hle := Group.pickCount_le_ceilDiv (ho.level tier) hsteady subset_rfl hpos hi
    rwa [Move.countP_selects, ho.sum_weightAt] at hle
  · intro k hk
    refine Group.pickCount_of_cycle (ho.level tier) hsteady subset_rfl hpos ?_ hi
    rw [Move.countP_selects, ho.sum_weightAt, hk]

end Simulation.Flows

/-- In a simulation of a valid configuration in which no server is broken and no request fails by chance,
as long as the clock lasts, every request succeeds, nothing is recorded, and all servers end up and
without failures. Only the servers of the active tier are picked, each of them at most as often as its
weight gives it a share, rounded up, and after whole rounds exactly as often. -/
theorem healthy_traffic (rng : RandomSource γ) (urls : UrlParser) (config : PoolConfig)
    (params : SimulationParams) (start : Instant) (g : γ) (hvalid : config.validate urls = .ok config)
    (hrng : ∀ g, (rng.happens .never g).1 = false) (hrate : params.failureRate.positive = false)
    (hsound : ∀ c ∈ config.servers, c.name ∉ params.broken)
    (hclock : start.nanos + params.requests * params.tick.nanos < Instant.limit) :
    ∃ s, simulateWith rng urls config params { machine := { clock := start }, random := g } =
        .ok (.ok ()) s ∧
      let report := s.report start params
      (report.tally.succeeded = report.requests ∧ report.tally.failed = 0 ∧
        report.tally.unavailable = 0 ∧ report.tally.dropped = 0) ∧
      report.requests = params.requests ∧ report.events = [] ∧
      report.servers.map ServerReport.line =
        config.listing.map (fun l => (l.1, l.2.name, picksOf report.tally.picks l.2.name, false, 0)) ∧
      (∀ tier ≠ config.activeTier, ∀ c ∈ config.roster tier,
        picksOf report.tally.picks c.name = 0) ∧
      ∀ c ∈ config.roster config.activeTier,
        picksOf report.tally.picks c.name ≤
            (params.requests * c.options.effectiveWeight) ⌈/⌉ config.rosterWeight config.activeTier ∧
          ∀ k, params.requests = k * config.rosterWeight config.activeTier →
            picksOf report.tally.picks c.name = k * c.options.effectiveWeight := by
  have hv := PoolConfig.validate_ok_iff.1 hvalid
  obtain ⟨es, s, ho, hrun⟩ := simulateWith_eq rng params start g hv
  have horder : InOrder s.tally.picks := by
    rw [ho.tally]
    exact (noPicks_spec _).1
  have hnames : ∀ name ∈ (s.machine.pool.group config.activeTier).slots.map
      (fun slot => slot.server.data.name), name ∉ params.broken := by
    rw [ho.map_name]
    intro name hname
    obtain ⟨c, hc, rfl⟩ := List.mem_map.1 hname
    exact hsound c ((config.roster_sublist _).subset hc)
  obtain ⟨s', nows, hall, hlength, hflows⟩ := Simulation.run_of_thrives hrng
    (Binary64.chance_of_not_positive hrate) (ho.thrives hv) horder hnames config.retry
    params.requests (by rw [ho.clock]; exact hclock)
  have htally : s'.tally = { succeeded := params.requests, picks := s'.tally.picks } := by
    obtain ⟨picks, htally⟩ := hflows.tally
    rw [htally, ho.tally, hlength, Nat.zero_add]
  refine ⟨s', by rw [hrun, hall], ⟨?_, ?_, ?_, ?_⟩, rfl, ?_, ?_, fun tier htier c hc => ?_,
    fun c hc => ?_⟩
  · exact congrArg Tally.succeeded htally
  · exact congrArg Tally.failed htally
  · exact congrArg Tally.unavailable htally
  · exact congrArg Tally.dropped htally
  · rw [Simulation.events_report, hflows.called, ho.called]
    rfl
  · have hservers := congrArg (List.map fun l : ServerId × String × ServerOptions =>
      (l.1, l.2.1, picksOf s'.tally.picks l.2.1, false, 0)) ho.map_servers
    rw [List.map_map, List.map_map] at hservers
    rw [Simulation.lines_report, hflows.thrives.map_line, hflows.servers]
    exact hservers
  · exact hflows.idle ho hv htier hc
  · rw [← hlength]
    exact hflows.share ho (PoolConfig.rosterWeight_activeTier_pos hv) hc

/-- Two primaries, one of three times the weight of the other, and a spare server. -/
def threeToOne : PoolConfig where
  servers := [
    { name := "a", address := "http://10.0.0.1", weight := 3, maxFails := 2, failTimeoutMs := 1000 },
    { name := "b", address := "http://10.0.0.2" },
    { name := "spare", address := "http://10.0.0.3", backup := true }]
  retry := { maxAttempts := 2, baseDelayMs := 10, maxDelayMs := 50 }

/-- A number drawn is not below zero. -/
theorem CipherStream.never_happens (g : CipherStream) : (source.happens .never g).1 = false := rfl

theorem healthy_traffic_threeToOne :
    ∃ s, simulateWith CipherStream.source .ascii threeToOne { requests := 400 }
        { machine := { clock := ⟨0⟩ }, random := .ofSeed 42 } = .ok (.ok ()) s ∧
      s.tally.succeeded = 400 ∧ (s.report ⟨0⟩ { requests := 400 }).events = [] ∧
      picksOf s.tally.picks "a" = 300 ∧ picksOf s.tally.picks "b" = 100 ∧
      picksOf s.tally.picks "spare" = 0 := by
  have hvalid : threeToOne.validate .ascii = .ok threeToOne := by decide +kernel
  obtain ⟨s, hs, ⟨hsucceeded, _⟩, _, hevents, _, hidle, hactive⟩ :=
    healthy_traffic CipherStream.source .ascii threeToOne { requests := 400 } ⟨0⟩ (.ofSeed 42) hvalid
      CipherStream.never_happens rfl (by simp) (by decide)
  have ha := (hactive _ (by decide : threeToOne.servers[0] ∈ threeToOne.roster .primary)).2 100
    (by decide)
  have hb := (hactive _ (by decide : threeToOne.servers[1] ∈ threeToOne.roster .primary)).2 100
    (by decide)
  have hspare := hidle .backup (by decide) _
    (by decide : threeToOne.servers[2] ∈ threeToOne.roster .backup)
  exact ⟨s, hs, hsucceeded, hevents, ha, hb, hspare⟩

end TieredPool
