import TieredPool.Proofs.Metering
import TieredPool.Proofs.Replay
import TieredPool.Proofs.Reporting
import TieredPool.Url.Parse

/-!
# Origin — nothing depends on where the clock starts

A simulation starts its clock at whatever instant it is created. It draws, picks, waits and reports the
same from any other instant, and its report shows only distances from the start.

* `Simulation.shift`, `onPool_shift` — a simulation whose pool is later.
* `Metered.Keeps` — a computation that does later what it does earlier; `Metered.simulateWith_keeps` — a
  whole simulation does.
* `Simulation.report_shift`, `simulate_shift` — a report from a later start.
* `origin_independent` — runs and simulations on a clock that starts later.
-/

namespace TieredPool

variable {α β γ δ : Type}

open Simulation (Sim onPool record draw eventDepth)

/-! ## Simulations on a clock that started later -/

def Simulation.shift (d : Nat) (s : Simulation γ) : Simulation γ :=
  { s with machine := s.machine.shift d }

theorem onPool_shift {d : Nat} {x : Run Endpoint β} {s : Simulation γ}
    (hx : x (s.machine.shift d) = mapState (Machine.shift d) (x s.machine)) :
    onPool x (s.shift d) = mapState (Simulation.shift d) (onPool x s) := by
  have hx' : x (s.shift d).machine = mapState (Machine.shift d) (x s.machine) := hx
  rw [onPool, hx', onPool]
  cases x s.machine <;> rfl

theorem registerAll_shift {d : Nat} (urls : UrlParser) (index : Nat) (cs : List ServerConfig)
    (m : Machine Endpoint) :
    registerAll urls index cs (m.shift d) = mapState (Machine.shift d) (registerAll urls index cs m) := by
  induction cs generalizing index m with
  | nil => rfl
  | cons c rest ih =>
      simp only [registerAll]
      cases c.endpoint urls with
      | error e => rfl
      | ok endpoint =>
          simp only [Run.bind_apply, Run.add_shift]
          rcases Run.add c.options endpoint m with ⟨source | server, m'⟩ | ⟨why, m'⟩
          · rfl
          · exact ih (index + 1) m'
          · rfl

theorem build_shift {d : Nat} (urls : UrlParser) (config : PoolConfig) (m : Machine Endpoint) :
    config.build urls (m.shift d) = mapState (Machine.shift d) (config.build urls m) := by
  simp only [PoolConfig.build, Run.bind_apply, registerAll_shift]
  rcases registerAll urls 0 config.servers m with ⟨e | built, m'⟩ | ⟨why, m'⟩
  · rfl
  · simp [Run.log, mapState, Machine.shift, Effect.shift]
  · rfl

namespace Metered

/-! ## Metered computations -/

/-- It does later what it does earlier, if the clock can show the sums that it computes later. -/
def Keeps (x : Metered γ β) : Prop :=
  ∀ (d : Nat) (s : Simulation γ), (∀ sum ∈ x.sums (s.shift d), Fits sum) →
    x.act (s.shift d) = mapState (Simulation.shift d) (x.act s)

namespace Keeps

theorem free {x : Sim γ β}
    (hx : ∀ d s, x (s.shift d) = mapState (Simulation.shift d) (x s)) : (free x).Keeps :=
  fun d s _ => hx d s

theorem pure (b : β) : (pure b : Metered γ β).Keeps := free fun _ _ => rfl

theorem bind {x : Metered γ β} {f : β → Metered γ δ} (hx : x.Keeps) (hf : ∀ b, (f b).Keeps) :
    (x >>= f).Keeps := by
  intro d s hfits
  obtain ⟨hfirst, hrest⟩ := List.forall_mem_append.1 hfits
  have hx' := hx d s hfirst
  rw [hx'] at hrest
  rw [act_bind_apply, hx', act_bind_apply]
  cases hs : x.act s with
  | error why s' => rfl
  | ok b s' =>
      rw [hs] at hrest
      exact hf b d s' hrest

theorem ite {c : Prop} [Decidable c] {x y : Metered γ β} (hx : x.Keeps) (hy : y.Keeps) :
    (if c then x else y).Keeps := by
  split
  · exact hx
  · exact hy

theorem record (f : Tally → Tally) : (Metered.free (record f) : Metered γ Unit).Keeps :=
  free fun _ _ => rfl

theorem draw (f : γ → β × γ) : (Metered.free (draw f)).Keeps := free fun _ _ => rfl

theorem throw (why : Halt) : (Metered.free (throw why) : Metered γ β).Keeps := free fun _ _ => rfl

theorem onPool {x : Run Endpoint β}
    (hx : ∀ d m, x (m.shift d) = mapState (Machine.shift d) (x m)) :
    (Metered.free (onPool x) : Metered γ β).Keeps :=
  free fun d s => onPool_shift (hx d s.machine)

/-- What is carried out as the operation `r` gives the answer to it in another form. -/
theorem carry {r : Request Endpoint} {x : Run Endpoint β} (answer : β → Answer Endpoint)
    (hanswer : Function.Injective answer) (hop : ∀ d, r.op.shift d = r.op)
    (hx : ∀ m, perform (notify eventDepth) r.caller r.op m = (answer <$> x) m) :
    (carry r x : Metered γ β).Keeps := by
  intro d s hfits
  have hsame : r.shift d = r := by rw [Request.shift, hop]
  have hfits' : (s.machine.state.shift d).FitsAll
      ((s.machine.state.shift d).unroll eventDepth (r.shift d)).done := by
    rw [hsame]
    intro t ht sum hsum
    exact hfits sum (List.mem_flatMap.2 ⟨t, ht, hsum⟩)
  have hperform := perform_shift hfits'
  rw [hop, hx, hx, Run.map_apply, Run.map_apply] at hperform
  refine onPool_shift ?_
  -- Both runs come to an answer, the same one, or both halt.
  cases hlater : x (s.machine.shift d) <;> cases hearlier : x s.machine <;>
    simp only [hlater, hearlier, mapState, reduceCtorEq, EStateM.Result.ok.injEq,
      EStateM.Result.error.injEq] at hperform ⊢
  · exact ⟨hanswer hperform.1, hperform.2⟩
  · exact hperform

end Keeps

section Programs

variable (rng : RandomSource γ) (retry : RetryConfig) (params : SimulationParams)

theorem advance_keeps (span : Duration) : (advance span : Metered γ Unit).Keeps :=
  .carry (fun _ => .done) (fun _ _ _ => rfl) (fun _ => rfl) fun m => by simp [perform]

theorem finish_keeps (server : Server Endpoint) : (finish rng params server).Keeps := by
  -- A broken server fails without a draw; what follows is the same in both cases.
  refine .bind (.record _) fun _ => .ite (.bind (.pure true) ?_) (.bind (.draw _) ?_)
  all_goals
    intro fails
    refine .ite (.bind (.record _) fun _ => ?_) (.bind (.record _) fun _ => ?_)
    · exact .carry (fun _ => .done) (fun _ _ _ => rfl) (fun _ => rfl) fun m => by
        simp [perform, Caller.resolve]
    · exact .carry (fun _ => .done) (fun _ _ _ => rfl) (fun _ => rfl) fun m => by
        simp [perform, Caller.resolve]

theorem wait_keeps (attempt : Nat) : (wait rng retry attempt).Keeps := by
  refine .bind (.draw _) fun delay => ?_
  cases delay with
  | none => exact .throw _
  | some delay => exact advance_keeps delay

theorem tryOnce_keeps {otherwise : PoolError → Metered γ Unit} (h : ∀ e, (otherwise e).Keeps) :
    (tryOnce rng params otherwise).Keeps := by
  refine .bind (.carry .server (fun _ _ => Answer.server.inj) (fun _ => rfl) ?_) fun result => ?_
  · intro m
    simp [perform]
  · cases result with
    | ok server => exact finish_keeps rng params server
    | error e => exact .bind (.record _) fun _ => h e

theorem request_keeps (attempt left : Nat) : (request rng retry params attempt left).Keeps := by
  -- A wait makes it one request of its own, with one attempt less to go.
  induction left generalizing attempt with
  | zero =>
      refine tryOnce_keeps rng params fun e => .bind (.onPool fun d m => ?_) fun _ => .record _
      simp [Run.log, mapState, Machine.shift, Effect.shift]
  | succ left ih =>
      exact tryOnce_keeps rng params fun _ => .bind (wait_keeps rng retry attempt) fun _ => ih (attempt + 1)

theorem run_keeps (requests : Nat) : (run rng retry params requests).Keeps := by
  induction requests with
  | zero => exact .pure ()
  | succ n ih =>
      exact .bind (request_keeps rng retry params _ _) fun _ => .bind (advance_keeps _) fun _ => ih

theorem simulateWith_keeps (urls : UrlParser) (config : PoolConfig) :
    (simulateWith rng params urls config).Keeps := by
  refine .bind (.onPool fun d m => build_shift urls config m) fun built => ?_
  cases built with
  | error e => exact .pure _
  | ok _ =>
      exact .bind (.onPool fun d m => rfl) fun _ => .bind (.record _) fun _ =>
        .bind (run_keeps rng config.retry params _) fun _ => .pure _

end Programs

end Metered

/-! ## Reports -/

theorem Machine.called_shift {d : Nat} (m : Machine α) : (m.shift d).called = m.called.map (Call.shift d) := by
  rw [called, shift, Array.toList_map, List.filterMap_map, called, List.map_filterMap]
  refine congrArg (List.filterMap · m.trace.toList) (funext fun e => ?_)
  cases e <;> rfl

/-- A report shows times from the start only. -/
theorem Simulation.report_shift (d : Nat) (start : Instant) (params : SimulationParams) (s : Simulation γ) :
    (s.shift d).report (start.shift d) params = s.report start params := by
  have hcalls : (s.shift d).machine.called = s.machine.called.map (Call.shift d) :=
    s.machine.called_shift
  have hevents : ((s.shift d).report (start.shift d) params).events = (s.report start params).events := by
    rw [events_report, events_report, hcalls, List.map_map]
    refine List.map_congr_left fun call _ => ?_
    simp [EventRecord.ofCall, Call.shift, shownMillis]
  have helapsed : shownMillis (start.shift d) (s.shift d).machine.clock =
      shownMillis start s.machine.clock := by
    simp [shownMillis, shift]
  have hservers : ((s.shift d).report (start.shift d) params).servers = (s.report start params).servers := by
    simp [report, shift]
  exact (SimulationReport.mk.injEq ..).mpr ⟨rfl, rfl, helapsed, hevents, hservers⟩

/-- A machine on a new pool, before its first request. -/
theorem Machine.shift_new (d : Nat) (start : Instant) :
    ({ clock := start } : Machine α).shift d = { clock := start.shift d } := by
  simp [shift]
  rfl

theorem simulate_shift {d : Nat} {urls : UrlParser} {start : Instant} {config : PoolConfig}
    {params : SimulationParams}
    (hfits : ∀ sum ∈ simulationSums urls (start.shift d) config params, Fits sum) :
    (simulate urls (start.shift d) config params).result = (simulate urls start config params).result := by
  let s : Simulation CipherStream := { machine := { clock := start }, random := .ofSeed params.seed }
  have hs : s.shift d = { machine := { clock := start.shift d }, random := .ofSeed params.seed } := by
    rw [Simulation.shift, Machine.shift_new]
  have hlater := Metered.simulateWith_keeps CipherStream.source params urls config d s
    (by rw [hs]; exact hfits)
  rw [Metered.act_simulateWith, hs] at hlater
  rw [simulate, hlater, simulate]
  rcases simulateWith CipherStream.source urls config params s with ⟨e | done, s'⟩ | ⟨why, s'⟩
  · rfl
  · simp only [mapState, Simulation.report_shift]
  · rfl

/-- A pool does the same wherever its clock starts, as long as the end of the clock is out of reach. A run
on a clock that starts later by `d` gets the same answers and tells the same, log lines and metrics
included, and after each operation, those of handlers among them, it differs from the other in nothing but
the shift of its clock, of its timers and of the instants that its handler sets the clock to. A simulation
comes to the same report. It is enough that the clock can show the sums of the later run. -/
theorem origin_independent (d : Nat) :
    (∀ (fuel : Nat) (start : Instant) (requests : List (Request α)),
      let requests' := requests.map (Request.shift d)
      let s : State α := { clock := start }
      let s' : State α := { clock := start.shift d }
      let m : Machine α := { clock := start }
      let m' : Machine α := { clock := start.shift d }
      let trace := (m.serve fuel requests).trace.toList
      let trace' := (m'.serve fuel requests').trace.toList
      (∀ t ∈ s'.course fuel requests', t.Fits) →
        m'.replies fuel requests' = m.replies fuel requests ∧
        trace' = trace.map (Effect.shift d) ∧
        Trace.logs trace' = Trace.logs trace ∧ Trace.metrics trace' = Trace.metrics trace ∧
        ∀ k, s'.after fuel requests' k = (s.after fuel requests k).shift d) ∧
    ∀ (urls : UrlParser) (start : Instant) (config : PoolConfig) (params : SimulationParams),
      (∀ sum ∈ simulationSums urls (start.shift d) config params, Fits sum) →
        (simulate urls (start.shift d) config params).result =
          (simulate urls start config params).result := by
  refine ⟨?run, fun urls start config params hfits => simulate_shift hfits⟩
  case run =>
    intro fuel start requests requests' s s' m m' trace trace' hfits
    have hm' : m' = m.shift d := (Machine.shift_new d start).symm
    have hs' : s' = s.shift d := rfl
    obtain ⟨hreplies, hserve⟩ := Machine.serve_shift (m := m) hfits
    rw [← hm'] at hreplies hserve
    have htrace : trace' = trace.map (Effect.shift d) :=
      calc trace' = ((m.serve fuel requests).shift d).trace.toList :=
            congrArg (fun m => m.trace.toList) hserve
        _ = trace.map (Effect.shift d) := Array.toList_map
    refine ⟨hreplies, htrace, ?_, ?_, ?_⟩
    · rw [htrace, Trace.logs_shift]
    · rw [htrace, Trace.metrics_shift]
    · rw [hs']
      exact State.after_shift hfits

/-- A server that is lost at its first failure. The handler waits before it asks for another one. After
the timeout the server is probed, and it comes back. -/
def reprieve : List (Request Unit) :=
  let client : Caller := { handle := some 0 }
  let server : Target := .server ⟨.primary, 0⟩
  [ { caller := client, op := .add (.primary 1) () },
    { caller := client, op := .install 0 (some .down) [.advance (.ofMillis 3), .next] },
    { caller := client, op := .reportFailure server (some "refused") },
    { caller := client, op := .advance (.ofSeconds 10) },
    { caller := client, op := .next },
    { caller := client, op := .setClock ⟨20 * nanosPerSecond⟩ },
    { caller := client, op := .reportSuccess server } ]

/-- A server on its own, for which clients have to wait once it is lost. -/
def lonely : PoolConfig where
  servers := [{ name := "a", address := "http://10.0.0.1", failTimeoutMs := 25 }]

theorem origin_independent_reprieve :
    let d := 1700000000 * nanosPerSecond
    let start : Instant := ⟨5⟩
    let logs (start : Instant) (requests : List (Request Unit)) : List LogLine :=
      Trace.logs (({ clock := start } : Machine Unit).serve 2 requests).trace.toList
    let params : SimulationParams := { requests := 4, broken := ["a"] }
    (∀ t ∈ ({ clock := start.shift d } : State Unit).course 2 (reprieve.map (Request.shift d)), t.Fits) ∧
      ({ clock := start.shift d } : Machine Unit).replies 2 (reprieve.map (Request.shift d)) =
        ({ clock := start } : Machine Unit).replies 2 reprieve ∧
      logs (start.shift d) (reprieve.map (Request.shift d)) = logs start reprieve ∧
      (logs start reprieve).tail = [.markedDown ⟨.primary, 0⟩ 0 (some "refused"), .nothingAvailable,
        .probing ⟨.primary, 0⟩, .markedUp ⟨.primary, 0⟩ 1] ∧
      ((({ clock := start.shift d } : State Unit).after 2 (reprieve.map (Request.shift d)) 3).pool.slot?
        ⟨.primary, 0⟩).map (·.health.timer) = some (.recoveryDeadline ⟨10 * nanosPerSecond + 5 + d⟩) ∧
      (∀ sum ∈ simulationSums .ascii (start.shift d) lonely params, Fits sum) ∧
      (simulate .ascii (start.shift d) lonely params).result =
        (simulate .ascii start lonely params).result := by
  intro d start logs params
  have hfits : ∀ t ∈ ({ clock := start.shift d } : State Unit).course 2 (reprieve.map (Request.shift d)),
      t.Fits := by decide +kernel
  have hsums : ∀ sum ∈ simulationSums .ascii (start.shift d) lonely params, Fits sum := by decide +kernel
  obtain ⟨hrun, hreport⟩ := @origin_independent Unit d
  obtain ⟨hreplies, _, hlogs, _, hafter⟩ := hrun 2 start reprieve hfits
  refine ⟨hfits, hreplies, hlogs, by decide +kernel, ?_, hsums, hreport .ascii start lonely params hsums⟩
  rw [hafter]
  decide +kernel

end TieredPool
