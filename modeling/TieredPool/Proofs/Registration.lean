import TieredPool.Config.Build
import TieredPool.Proofs.Availability
import TieredPool.Proofs.Standing

/-!
# Registration — who a pool holds once it is built, and ever after

A configuration that can be built gives a pool of exactly the servers it names, each under its own
options. Requests and their outcomes leave all of them where they are.

* `Pool.mem_servers_register` — who is held once a server has been registered.
* `Pool.labels`, `build_ok` — the names and options of a pool; those of a pool that was built.
* `Pool.Continues` — a pool that goes on with the servers and the handler that it had.
* `Pool.Reliable` — a pool that never fails to serve.
-/

namespace TieredPool

variable {α : Type} {urls : UrlParser}

/-! ## Who is held -/

namespace Pool

variable {p p' p'' : Pool α} {server : Server α}

theorem mem_servers : server ∈ p.servers ↔ ∃ tier, server ∈ (p.group tier).slots.map Slot.server := by
  rw [servers, slots, List.map_append, List.mem_append]
  constructor
  · rintro (h | h)
    · exact ⟨.primary, h⟩
    · exact ⟨.backup, h⟩
  · rintro ⟨tier, h⟩
    cases tier with
    | primary => exact .inl h
    | backup => exact .inr h

theorem mem_servers_register (options : ServerOptions) (data : α) (p : Pool α) :
    server ∈ (p.register options data).2.servers ↔
      server ∈ p.servers ∨ server = (p.register options data).1 := by
  have hpush (tier : Tier) : server ∈ ((p.register options data).2.group tier).slots.map Slot.server ↔
      server ∈ (p.group tier).slots.map Slot.server ∨
        (tier = options.tier ∧ server = (p.register options data).1) := by
    rw [group_register]
    split <;> simp [Group.push, *]
  simp only [mem_servers, hpush]
  constructor
  · rintro ⟨tier, h | ⟨_, h⟩⟩
    · exact .inl ⟨tier, h⟩
    · exact .inr h
  · rintro (⟨tier, h⟩ | h)
    · exact ⟨tier, .inl h⟩
    · exact ⟨options.tier, .inr ⟨rfl, h⟩⟩

theorem servers_setGroup {tier : Tier} {g : Group α}
    (h : g.slots.map Slot.server = (p.group tier).slots.map Slot.server) (n : Nat) :
    ({ p.setGroup tier g with primaryOnline := n } : Pool α).servers = p.servers := by
  simp only [servers, slots, List.map_append]
  cases tier with
  | primary => exact congrArg (· ++ p.backup.slots.map Slot.server) h
  | backup => exact congrArg (p.primary.slots.map Slot.server ++ ·) h

/-- The pool `p'` goes on with what `p` has, apart from the health of servers and whose turn it is. -/
structure Continues (p p' : Pool α) : Prop where
  servers : p'.servers = p.servers
  handler : p'.handler = p.handler
  sound : p.Sound → p'.Sound

namespace Continues

theorem refl (p : Pool α) : p.Continues p := ⟨rfl, rfl, id⟩

theorem trans (h : p.Continues p') (h' : p'.Continues p'') : p.Continues p'' :=
  ⟨h'.servers.trans h.servers, h'.handler.trans h.handler, h'.sound ∘ h.sound⟩

theorem next (now : Instant) (p : Pool α) : p.Continues (p.next now).2 where
  servers := by
    rcases next_eq_select now p with ⟨source, pick, _, heq⟩ | heq
    · rw [heq]
      have hservers : ({ p.setGroup source ((p.group source).select now).2 with
          primaryOnline := p.primaryOnline } : Pool α).servers = p.servers :=
        servers_setGroup
          (Group.map_slots_select Slot.server now (p.group source) (by simp) (by simp)) _
      cases source <;> exact hservers
    · rw [heq]
  handler := by
    rcases next_eq_select now p with ⟨source, pick, _, heq⟩ | heq
    · rw [heq]
      cases source <;> rfl
    · rw [heq]
  sound := fun hp => hp.next now

/-- Outcomes that are reported leave all servers and the handler. -/
theorem report {told : Transition} {id : ServerId} {r : Option (Server α) × Pool α}
    (h : Report told id p r) (hsound : p.Sound → r.2.Sound) : p.Continues r.2 where
  servers := by
    rcases h with ⟨_, rfl⟩ | ⟨s, s', t, hs, turn, _, rfl⟩
    · rfl
    · exact servers_setGroup (Group.map_server_set hs turn) _
  handler := by
    rcases h with ⟨_, rfl⟩ | ⟨s, s', t, _, _, _, rfl⟩
    · rfl
    · unfold setSlot
      cases id.tier <;> rfl
  sound := hsound

end Continues

/-! ### Whom a request finds -/

/-- The pool holds a server whose failures do not count. -/
def Reliable (p : Pool α) : Prop :=
  ∃ server ∈ p.servers, server.options.isBackup = true ∨ server.options.maxFails = 0

theorem Continues.reliable (h : p.Continues p') (hp : p.Reliable) : p'.Reliable := by
  unfold Reliable
  rw [h.servers]
  exact hp

theorem Sound.next_ne_none (hp : p.Sound) (hreliable : p.Reliable) (now : Instant) :
    (p.next now).1 ≠ none := by
  apply (hp.serves now).answers
  obtain ⟨server, hserver, hfree⟩ := hreliable
  obtain ⟨tier, hmem⟩ := mem_servers.1 hserver
  obtain ⟨s, hs, rfl⟩ := List.mem_map.1 hmem
  cases tier with
  | backup =>
      left
      exact List.ne_nil_of_mem hs
  | primary =>
      right
      have htier := (hp.group .primary).tier_eq s hs
      have hprimary : s.server.options.isBackup = false := by
        simpa using ServerOptions.isBackup_of_tier htier
      exact ⟨s, hs, hfree.resolve_left (by simp [hprimary])⟩

theorem Sound.mem_servers_of_next (hp : p.Sound) {now : Instant} {c : Choice α}
    (hc : (p.next now).1 = some c) : c.pick.server ∈ p.servers := by
  rcases next_eq_select now p with ⟨source, pick, hpick, heq⟩ | heq
  · rw [heq] at hc
    cases hc
    obtain ⟨s, hs, hserver, _⟩ := hp.selectable_of_pick source hpick
    rw [mem_servers, ← hserver]
    exact ⟨source, List.mem_map_of_mem hs⟩
  · simp [heq] at hc

end Pool

/-! ## Computations that come to an answer -/

theorem bind_eq_ok_iff {ε σ β γ : Type} {x : EStateM ε σ β} {f : β → EStateM ε σ γ} {c : γ}
    {s s' : σ} : (x >>= f) s = .ok c s' ↔ ∃ b s₁, x s = .ok b s₁ ∧ f b s₁ = .ok c s' := by
  simp only [bind, EStateM.bind]
  cases x s with
  | ok b s₁ =>
      constructor
      · exact fun h => ⟨b, s₁, rfl, h⟩
      · rintro ⟨_, _, heq, h⟩
        cases heq
        exact h
  | error why s₁ => simp

namespace Run

variable {m m' : Machine α}

theorem add_ok {options : ServerOptions} {data : α} {server : Server α}
    (h : add options data m = .ok (.ok server) m') :
    m'.state = { m.state with pool := (m.pool.register options data).2 } := by
  obtain ⟨m₁, hadd, hstate, _⟩ := add_spec options data m
  rw [hadd] at h
  cases hcheck : options.check with
  | error why => simp [hcheck] at h
  | ok _ =>
      simp only [hcheck, EStateM.Result.ok.injEq] at h
      rw [← h.2, hstate, hcheck]

theorem next_ok {a : Except PoolError (Server α)} (h : next m = .ok a m') :
    a = served (m.pool.next m.clock).1 ∧
      m'.state = { m.state with pool := (m.pool.next m.clock).2 } := by
  obtain ⟨m₁, hnext, hstate, _⟩ := next_spec m
  rw [hnext] at h
  cases h
  exact ⟨rfl, hstate⟩

theorem advance_ok {span : Duration} (h : advance span m = .ok () m') :
    m'.pool = m.pool ∧ m'.clock.nanos = m.clock.nanos + span.nanos := by
  cases hclock : m.clock.add? span with
  | none => simp [advance, hclock] at h
  | some clock =>
      simp only [advance, bind_apply, get_apply, hclock, modify_apply, EStateM.Result.ok.injEq] at h
      rw [← h.2]
      exact ⟨rfl, Instant.nanos_of_add? hclock⟩

end Run

/-! ## Building -/

/-- The names under which a pool holds its servers, each with its options. -/
def Pool.labels (p : Pool Endpoint) : List (String × ServerOptions) :=
  p.servers.map fun server => (server.data.name, server.options)

theorem Pool.mem_labels_register (options : ServerOptions) (data : Endpoint) (p : Pool Endpoint)
    {label : String × ServerOptions} :
    label ∈ (p.register options data).2.labels ↔ label ∈ p.labels ∨ (data.name, options) = label := by
  simp only [labels, List.mem_map, mem_servers_register]
  constructor
  · rintro ⟨server, hserver | rfl, hlabel⟩
    · exact .inl ⟨server, hserver, hlabel⟩
    · exact .inr hlabel
  · rintro (⟨server, hserver, hlabel⟩ | hlabel)
    · exact ⟨server, .inl hserver, hlabel⟩
    · exact ⟨_, .inr rfl, hlabel⟩

theorem Pool.reliable_of_label {p : Pool Endpoint} {label : String × ServerOptions}
    (h : label ∈ p.labels) (hfree : label.2.isBackup = true ∨ label.2.maxFails = 0) : p.Reliable := by
  obtain ⟨server, hserver, rfl⟩ := List.mem_map.1 h
  exact ⟨server, hserver, hfree⟩

theorem ServerConfig.endpoint_name {c : ServerConfig} {endpoint : Endpoint}
    (h : c.endpoint urls = .ok endpoint) : endpoint.name = c.name := by
  unfold ServerConfig.endpoint at h
  cases hurl : urls.parse c.address with
  | error e =>
      rw [hurl] at h
      cases h
  | ok url =>
      rw [hurl] at h
      cases h
      rfl

theorem registerAll_ok {index : Nat} {cs : List ServerConfig} {m m' : Machine Endpoint}
    (h : registerAll urls index cs m = .ok (.ok ()) m') (hp : m.pool.Sound) :
    m'.clock = m.clock ∧ m'.pool.Sound ∧
      ∀ label, label ∈ m'.pool.labels ↔
        label ∈ m.pool.labels ∨ ∃ c ∈ cs, (c.name, c.options) = label := by
  -- The first of the servers is held by the pool to which the others are added.
  induction cs generalizing index m with
  | nil =>
      cases h
      exact ⟨rfl, hp, by simp⟩
  | cons c rest ih =>
      cases hendpoint : c.endpoint urls with
      | error e => simp [registerAll, hendpoint] at h
      | ok endpoint =>
          simp only [registerAll, hendpoint, bind_eq_ok_iff] at h
          obtain ⟨a, m₁, hadd, hrest⟩ := h
          cases a with
          | error source => simp at hrest
          | ok server =>
              have hstate := Run.add_ok hadd
              have hpool : m₁.pool = (m.pool.register c.options endpoint).2 :=
                congrArg State.pool hstate
              have hclock : m₁.clock = m.clock := congrArg State.clock hstate
              obtain ⟨hclock', hsound, hlabels⟩ := ih hrest (hpool ▸ hp.register c.options endpoint)
              refine ⟨hclock'.trans hclock, hsound, fun label => ?_⟩
              rw [hlabels, hpool, Pool.mem_labels_register, ServerConfig.endpoint_name hendpoint]
              simp [or_assoc]

/-- The pool of a configuration that can be built holds the servers that it names, and no others. -/
theorem build_ok {config : PoolConfig} {m m' : Machine Endpoint}
    (h : config.build urls m = .ok (.ok ()) m') (hp : m.pool.Sound) :
    m'.clock = m.clock ∧ m'.pool.Sound ∧
      ∀ label, label ∈ m'.pool.labels ↔
        label ∈ m.pool.labels ∨ ∃ c ∈ config.servers, (c.name, c.options) = label := by
  simp only [PoolConfig.build, bind_eq_ok_iff] at h
  obtain ⟨a, m₁, hall, hrest⟩ := h
  cases a with
  | error e => simp at hrest
  | ok _ =>
      have hspec := registerAll_ok hall hp
      simp only [Run.log, Run.bind_apply, Run.getPool_apply, Run.emit_apply, Run.pure_apply,
        EStateM.Result.ok.injEq] at hrest
      rw [← hrest.2]
      exact hspec

end TieredPool
