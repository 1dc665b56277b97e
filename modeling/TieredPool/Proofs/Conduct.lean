import TieredPool.Proofs.Charging
import TieredPool.Proofs.Opening

/-!
# Conduct — what a client does to its pool in a simulation

However chance decides, a simulation that comes to its report has carried out operations of few kinds:
it asked for servers, waited, and reported on servers of its pool, as often as it counted outcomes.

* `Deed` — an operation of such a client.
* `Simulation.Conducts` — the deeds of a part of a simulation, and what was counted of them.
* `Simulation.request_conducts`, `Simulation.run_conducts` — one request; all of them.
* `State.deed_of_mem_trail` — what is found before and after each deed.
-/

namespace TieredPool

variable {α γ : Type}

/-- An operation of a client in a simulation on a pool that holds `servers`: those whose names are
`broken` are reported for failures alone. -/
inductive Deed (broken : List String) (servers : List (Server Endpoint)) : Request Endpoint → Prop
  | ask : Deed broken servers { caller := { handle := some 0 }, op := .next }
  | wait (span : Duration) : Deed broken servers { caller := {}, op := .advance span }
  | success {server : Server Endpoint} (held : server ∈ servers)
      (sound : server.data.name ∉ broken) :
      Deed broken servers { caller := {}, op := .reportSuccess (.server server.id) }
  | failure {server : Server Endpoint} (held : server ∈ servers) :
      Deed broken servers
        { caller := {},
          op := .reportFailure (.server server.id) (some (failureText server.data.name)) }

namespace Deed

variable {broken : List String} {servers : List (Server Endpoint)} {r : Request Endpoint}
  {target : Target} {id : ServerId}

/-- No deed registers servers or changes who listens. -/
theorem continues (h : Deed broken servers r) {s : State Endpoint} (hs : s.pool.Sound) :
    s.pool.Continues (s.apply r).pool := by
  cases h with
  | ask => exact .next s.clock s.pool
  | wait span => exact .refl s.pool
  | success _ _ => exact .report (Pool.report_reportSuccess _ s.pool) fun hp => hp.reportSuccess _
  | failure _ =>
      exact .report (Pool.report_reportFailure hs.healthy s.clock _) fun hp => hp.reportFailure _ _

end Deed

/-- Operations that are heard of in silence are all that is carried out. -/
theorem Machine.undergoes_of_silent {fuel : Nat} {r : Request α} {a : Answer α} {m m' : Machine α}
    (hsilent : ∀ handler, (m.state.apply r).pool.handler = some handler → handler.script = [])
    (h : perform (notify fuel) r.caller r.op m = .ok a m') : m.Undergoes [r] m' := by
  have hunroll := perform_unroll fuel m r
  rw [Run.Unrolls, h, State.unroll_of_silent hsilent] at hunroll
  exact hunroll.2.undergoes

namespace Simulation

variable {rng : RandomSource γ} {retry : RetryConfig} {params : SimulationParams}
  {s s' s'' : Simulation γ} {broken : List String} {done done' : List (Request Endpoint)}

/-- From `s` to `s'` the client has carried out the deeds `done`, and has counted the outcomes that it
reported. -/
structure Conducts (broken : List String) (done : List (Request Endpoint)) (s s' : Simulation γ) :
    Prop where
  undergoes : s.machine.Undergoes done s'.machine
  continues : s.machine.pool.Continues s'.machine.pool
  deeds : ∀ r ∈ done, Deed broken s.machine.pool.servers r
  succeeded : s'.tally.succeeded = s.tally.succeeded + (done.filterMap Request.success?).length
  failed : s'.tally.failed = s.tally.failed + (done.filterMap Request.failure?).length

namespace Conducts

theorem refl (broken : List String) (s : Simulation γ) : s.Conducts broken [] s :=
  ⟨.refl _, .refl _, by simp, rfl, rfl⟩

theorem trans (h : s.Conducts broken done s') (h' : s'.Conducts broken done' s'') :
    s.Conducts broken (done ++ done') s'' where
  undergoes := h.undergoes.trans h'.undergoes
  continues := h.continues.trans h'.continues
  deeds := List.forall_mem_append.2 ⟨h.deeds, h.continues.servers ▸ h'.deeds⟩
  succeeded := by
    rw [h'.succeeded, h.succeeded, List.filterMap_append, List.length_append, Nat.add_assoc]
  failed := by
    rw [h'.failed, h.failed, List.filterMap_append, List.length_append, Nat.add_assoc]

theorem inService (h : s.Conducts broken done s') (hs : s.InService) : s'.InService where
  sound := h.continues.sound hs.sound
  silent := h.continues.handler ▸ hs.silent

/-- The servers are those from before. -/
theorem mem_servers (h : s.Conducts broken done s') {slot : Slot Endpoint}
    (hslot : slot ∈ s'.machine.pool.slots) : slot.server ∈ s.machine.pool.servers := by
  rw [← h.continues.servers]
  exact List.mem_map_of_mem hslot

/-- One deed, whatever is drawn and counted beside it. -/
theorem of_perform (hs : s.InService) (fuel : Nat) {r : Request Endpoint} {a : Answer Endpoint}
    (hr : Deed broken s.machine.pool.servers r)
    (h : perform (notify fuel) r.caller r.op s.machine = .ok a s'.machine)
    (hsucceeded : s'.tally.succeeded = s.tally.succeeded + r.success?.toList.length)
    (hfailed : s'.tally.failed = s.tally.failed + r.failure?.toList.length) :
    s.Conducts broken [r] s' := by
  have hcontinues := hr.continues (s := s.machine.state) hs.sound
  -- The handler carries out nothing of its own.
  have hundergoes : s.machine.Undergoes [r] s'.machine :=
    Machine.undergoes_of_silent (by rw [hcontinues.handler]; exact hs.silent) h
  have hpool : s'.machine.pool = (s.machine.state.apply r).pool :=
    congrArg State.pool hundergoes.state
  refine ⟨hundergoes, hpool ▸ hcontinues, by simpa using hr, ?_, ?_⟩
  · rw [hsucceeded]
    cases hr' : r.success? <;> simp [hr']
  · rw [hfailed]
    cases hr' : r.failure? <;> simp [hr']

end Conducts

/-- The outcome of a request is counted and reported. -/
theorem outcome_conducts (broken : List String) {server : Server Endpoint} {fails : Bool}
    (h : (if fails = true then do
        record fun t => { t with failed := t.failed + 1 }
        onPool (Run.reportFailure (notify eventDepth) server.id (some (failureText server.data.name)))
      else do
        record fun t => { t with succeeded := t.succeeded + 1 }
        onPool (Run.reportSuccess (notify eventDepth) server.id) : Sim γ Unit) s = .ok () s')
    (hs : s.InService) (hheld : server ∈ s.machine.pool.servers)
    (hsound : fails = false → server.data.name ∉ broken) : ∃ r, s.Conducts broken [r] s' := by
  cases fails with
  | true =>
      rw [if_pos rfl, bind_eq_ok_iff] at h
      obtain ⟨_, s₁, hfailed, hreport⟩ := h
      obtain rfl := record_ok hfailed
      obtain ⟨m, hm, rfl⟩ := onPool_ok hreport
      refine ⟨_, .of_perform hs eventDepth (.failure hheld) (a := .done) ?_ rfl rfl⟩
      simp only [perform, Caller.resolve, Run.bind_apply, hm, Run.pure_apply]
  | false =>
      rw [if_neg (by simp), bind_eq_ok_iff] at h
      obtain ⟨_, s₁, hsucceeded, hreport⟩ := h
      obtain rfl := record_ok hsucceeded
      obtain ⟨m, hm, rfl⟩ := onPool_ok hreport
      refine ⟨_, .of_perform hs eventDepth (.success hheld (hsound rfl)) (a := .done) ?_
        rfl rfl⟩
      simp only [perform, Caller.resolve, Run.bind_apply, hm, Run.pure_apply]

/-- A request that reached a server of the pool. -/
theorem finish_conducts (hs : s.InService) {server : Server Endpoint}
    (hheld : server ∈ s.machine.pool.servers) (h : finish rng params server s = .ok () s') :
    ∃ r, s.Conducts params.broken [r] s' := by
  simp only [finish, bind_eq_ok_iff] at h
  obtain ⟨_, s₁, hpick, hrest⟩ := h
  obtain rfl := record_ok hpick
  split at hrest
  case isTrue hbroken =>
    rw [bind_eq_ok_iff] at hrest
    obtain ⟨fails, s₂, hfails, houtcome⟩ := hrest
    cases hfails
    obtain ⟨r, hr⟩ := outcome_conducts params.broken houtcome ⟨hs.sound, hs.silent⟩ hheld (by simp)
    exact ⟨r, hr.undergoes, hr.continues, hr.deeds, hr.succeeded, hr.failed⟩
  case isFalse hsound =>
    rw [bind_eq_ok_iff] at hrest
    obtain ⟨fails, s₂, hdraw, houtcome⟩ := hrest
    obtain ⟨_, rfl⟩ := draw_ok hdraw
    obtain ⟨r, hr⟩ := outcome_conducts params.broken houtcome ⟨hs.sound, hs.silent⟩ hheld
      fun _ => by simpa using hsound
    exact ⟨r, hr.undergoes, hr.continues, hr.deeds, hr.succeeded, hr.failed⟩

/-- An attempt, up to what is done if it finds no server. -/
theorem tryOnce_conducts {otherwise : PoolError → Sim γ Unit} (hs : s.InService)
    (h : tryOnce rng params otherwise s = .ok () s') :
    (∃ done, s.Conducts params.broken done s') ∨
      ∃ e done s₁, s.Conducts params.broken done s₁ ∧ otherwise e s₁ = .ok () s' := by
  simp only [tryOnce, bind_eq_ok_iff] at h
  obtain ⟨a, s₁, hnext, hrest⟩ := h
  obtain ⟨m, hm, rfl⟩ := onPool_ok hnext
  have ha := (Run.next_ok hm).1
  have hask : s.Conducts params.broken [{ caller := { handle := some 0 }, op := .next }]
      { s with machine := m } := by
    refine .of_perform hs eventDepth .ask (a := .server a) ?_ rfl rfl
    simp [perform, hm]
  cases hc : (s.machine.pool.next s.machine.clock).1 with
  | some c =>
      rw [ha, hc] at hrest
      have hheld : c.pick.server ∈ m.pool.servers :=
        hask.continues.servers ▸ hs.sound.mem_servers_of_next hc
      obtain ⟨r, hr⟩ := finish_conducts (hask.inService hs) hheld hrest
      exact .inl ⟨_, hask.trans hr⟩
  | none =>
      rw [ha, hc] at hrest
      simp only [Run.served, bind_eq_ok_iff] at hrest
      obtain ⟨_, s₁, hcount, hotherwise⟩ := hrest
      obtain rfl := record_ok hcount
      refine .inr ⟨_, [{ caller := { handle := some 0 }, op := .next }], _, ?_, hotherwise⟩
      exact ⟨hask.undergoes, hask.continues, hask.deeds, hask.succeeded, hask.failed⟩

/-- Time goes by. -/
theorem advance_conducts (broken : List String) {span : Duration}
    (h : onPool (Run.advance span) s = .ok () s') (hs : s.InService) :
    ∃ r, s.Conducts broken [r] s' := by
  obtain ⟨m, hm, rfl⟩ := onPool_ok h
  refine ⟨_, .of_perform hs eventDepth (.wait span) (a := .done) ?_ rfl rfl⟩
  simp [perform, hm]

theorem wait_conducts (broken : List String) {attempt : Nat}
    (h : wait rng retry attempt s = .ok () s') (hs : s.InService) :
    ∃ r, s.Conducts broken [r] s' := by
  simp only [wait, bind_eq_ok_iff] at h
  obtain ⟨d, s₁, hdraw, hadvance⟩ := h
  obtain ⟨_, rfl⟩ := draw_ok hdraw
  cases d with
  | none => cases hadvance
  | some delay =>
      obtain ⟨r, hr⟩ := advance_conducts broken hadvance ⟨hs.sound, hs.silent⟩
      exact ⟨r, hr.undergoes, hr.continues, hr.deeds, hr.succeeded, hr.failed⟩

theorem request_conducts {attempt left : Nat} (hs : s.InService)
    (h : request rng retry params attempt left s = .ok () s') :
    ∃ done, s.Conducts params.broken done s' := by
  -- With one attempt less to go, a wait makes it one request of its own.
  induction left generalizing attempt s with
  | zero =>
      rcases tryOnce_conducts hs h with hserved | ⟨e, done, s₁, hdone, hdrop⟩
      · exact hserved
      · simp only [bind_eq_ok_iff] at hdrop
        obtain ⟨_, s₂, hlog, hcount⟩ := hdrop
        obtain ⟨m, hm, rfl⟩ := onPool_ok hlog
        cases hm
        obtain rfl := record_ok hcount
        have hlogged := hdone.undergoes.trans (Machine.undergoes_log (.requestDropped e attempt) _)
        rw [List.append_nil] at hlogged
        exact ⟨done, hlogged, hdone.continues, hdone.deeds, hdone.succeeded, hdone.failed⟩
  | succ left ih =>
      rcases tryOnce_conducts hs h with hserved | ⟨e, done, s₁, hdone, hretry⟩
      · exact hserved
      · simp only [bind_eq_ok_iff] at hretry
        obtain ⟨_, s₂, hwait, hrest⟩ := hretry
        have hs₁ := hdone.inService hs
        obtain ⟨r, hr⟩ := wait_conducts params.broken hwait hs₁
        obtain ⟨done', hdone'⟩ := ih (hr.inService hs₁) hrest
        exact ⟨_, (hdone.trans hr).trans hdone'⟩

theorem run_conducts {n : Nat} (hs : s.InService) (h : run rng retry params n s = .ok () s') :
    ∃ done, s.Conducts params.broken done s' := by
  induction n generalizing s with
  | zero =>
      cases h
      exact ⟨[], .refl _ _⟩
  | succ n ih =>
      simp only [run, bind_eq_ok_iff] at h
      obtain ⟨_, s₁, hrequest, _, s₂, htick, hrest⟩ := h
      obtain ⟨done, hdone⟩ := request_conducts hs hrequest
      have hs₁ := hdone.inService hs
      obtain ⟨r, hr⟩ := advance_conducts params.broken htick hs₁
      obtain ⟨done', hdone'⟩ := ih (hr.inService hs₁) hrest
      exact ⟨_, (hdone.trans hr).trans hdone'⟩

end Simulation

end TieredPool
