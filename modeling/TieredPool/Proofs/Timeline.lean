import TieredPool.Proofs.Coherence
import TieredPool.Proofs.Delays

/-!
# Timeline — when the events of a simulation are said to happen

The clock of a pool is never turned back, so handlers are called at readings that do not decrease. A report
shows them in 64 bits. Its times are therefore in order as long as these have room for the whole simulation;
beyond that they begin again at zero.

* `State.clock_le_applyAll` — the clock never goes back.
* `State.calls_inTime` — the calls of a run, in the order of the clock.
* `Simulation.clock_le` — the most time that a simulation may take, by its settings.
* `SimulationReport.Ordered`, `Simulation.ordered_report_iff` — reports whose times are in order.
* `event_times` — the times in every report.
-/

namespace TieredPool

variable {α γ : Type}

/-! ## The clock -/

namespace Instant

@[simp] theorem le_refl (t : Instant) : t ≤ t := Nat.le_refl t.nanos

theorem le_trans {t u v : Instant} (h : t ≤ u) (h' : u ≤ v) : t ≤ v :=
  le_iff.2 (Nat.le_trans (le_iff.1 h) (le_iff.1 h'))

theorem millisSince_mono {t u : Instant} (h : t ≤ u) (start : Instant) :
    t.millisSince start ≤ u.millisSince start :=
  Nat.div_le_div_right (Nat.sub_le_sub_right h start.nanos)

end Instant

namespace State

theorem clock_through (caller : Caller) (f : Pool α → Pool α) (s : State α) :
    (s.through caller f).clock = s.clock := by
  rw [through]
  split <;> rfl

theorem clock_le_apply (s : State α) (r : Request α) : s.clock ≤ (s.apply r).clock := by
  obtain ⟨caller, op⟩ := r
  cases op with
  | advance span =>
      cases h : s.clock.add? span with
      | none => simp [apply, h]
      | some later =>
          have hlater : s.clock.nanos ≤ later.nanos := Instant.nanos_of_add? h ▸ Nat.le_add_right _ _
          simpa [apply, h] using Instant.le_iff.2 hlater
  | setClock target =>
      by_cases hlt : s.clock < target
      · have hlater : s.clock ≤ target := Nat.le_of_lt hlt
        simpa [apply, hlt] using hlater
      · simp [apply, hlt]
  | reportSuccess target =>
      cases hid : caller.resolve target <;> simp [apply, hid]
  | reportFailure target error =>
      cases hid : caller.resolve target <;> simp [apply, hid]
  | count => exact Instant.le_refl s.clock
  | panic => exact Instant.le_refl s.clock
  | _ => exact Nat.le_of_eq (congrArg Instant.nanos (clock_through _ _ s).symm)

theorem clock_le_applyAll (s : State α) (rs : List (Request α)) :
    s.clock ≤ (s.applyAll rs).clock := by
  induction rs generalizing s with
  | nil => exact Instant.le_refl s.clock
  | cons r rest ih => exact Instant.le_trans (s.clock_le_apply r) (ih (s.apply r))

end State

/-! ## Calls in the order of the clock -/

/-- Handlers have been called at readings of the clock that do not decrease, none of them before the first
reading or after the last. -/
structure InTime (first last : Instant) (calls : List (Call α)) : Prop where
  sorted : calls.Pairwise fun c c' => c.clock ≤ c'.clock
  within : ∀ c ∈ calls, first ≤ c.clock ∧ c.clock ≤ last

theorem Step.clock_of_call? {t : Step α} {c : Call α} (h : t.call? = some c) :
    c.clock = t.after.clock := by
  obtain ⟨n, _, hcall⟩ := Option.bind_eq_some_iff.1 h
  obtain ⟨handler, _, rfl⟩ := Option.map_eq_some_iff.1 hcall
  rfl

theorem State.calls_inTime (s : State α) (rs : List (Request α)) :
    InTime s.clock (s.applyAll rs).clock ((s.trail rs).filterMap Step.call?) := by
  induction rs generalizing s with
  | nil => exact ⟨.nil, List.forall_mem_nil _⟩
  | cons r rest ih =>
      obtain ⟨hsorted, hwithin⟩ := ih (s.apply r)
      have hstep : s.clock ≤ (s.apply r).clock := s.clock_le_apply r
      have hrest : ∀ c ∈ ((s.apply r).trail rest).filterMap Step.call?,
          s.clock ≤ c.clock ∧ c.clock ≤ ((s.apply r).applyAll rest).clock :=
        fun c hc => ⟨Instant.le_trans hstep (hwithin c hc).1, (hwithin c hc).2⟩
      rw [trail_cons, applyAll_cons]
      cases hcall : Step.call? { before := s, request := r } with
      | none =>
          rw [List.filterMap_cons_none hcall]
          exact ⟨hsorted, hrest⟩
      | some call =>
          rw [List.filterMap_cons_some hcall]
          have hclock : call.clock = (s.apply r).clock := Step.clock_of_call? hcall
          refine ⟨List.pairwise_cons.2 ⟨fun c hc => ?_, hsorted⟩,
            List.forall_mem_cons.2 ⟨?_, hrest⟩⟩
          · rw [hclock]
            exact (hwithin c hc).1
          · rw [hclock]
            exact ⟨hstep, (s.apply r).clock_le_applyAll rest⟩

/-! ## How long a simulation takes -/

theorem Tally.Balanced.waits_le {names : List String} {left n waits : ℕ} {t : Tally}
    (h : t.Balanced names left n waits) : waits ≤ n * left := by
  calc waits ≤ t.dropped * left + (t.succeeded + t.failed) * left := h.most
    _ = n * left := by
        rw [← Nat.add_mul, Nat.add_comm t.dropped, h.requests]

/-- The nanoseconds that a wait takes at most. -/
def RetryConfig.longestWait (c : RetryConfig) : ℕ :=
  (c.maxDelayMs.toNat + (c.maxDelayMs.toNat / 10 - 1)) * 1000000

namespace Simulation

variable {urls : UrlParser} {config : PoolConfig} {params : SimulationParams} {rng : RandomSource γ}
  {start : Instant} {g : γ} {s : Simulation γ}

/-- Each request takes its tick and at most one wait less than there are attempts. -/
theorem clock_le (hrng : rng.Bounded) (hvalid : config.Valid urls)
    (h : simulateWith rng urls config params { machine := { clock := start }, random := g } =
      .ok (.ok ()) s) :
    s.machine.clock.nanos ≤ start.nanos + params.requests *
      (params.tick.nanos + (config.retry.maxAttempts.toNat - 1) * config.retry.longestWait) := by
  obtain ⟨_, s₀, ho, hrun⟩ := exists_opens hvalid h
  obtain ⟨delays, hdrawn, hpasses, hbalanced, _⟩ := run_ok ho.inService hrun
  have hcount : delays.length ≤ params.requests * (config.retry.maxAttempts.toNat - 1) := by
    have hb := hbalanced 0 0 (ho.balanced _)
    rw [Nat.zero_add, Nat.zero_add] at hb
    exact hb.waits_le
  have hwaits : total delays ≤ delays.length * config.retry.longestWait := by
    have hsum := List.sum_le_card_nsmul (delays.map Duration.nanos) config.retry.longestWait <| by
      refine List.forall_mem_map.2 fun d hd => ?_
      obtain ⟨_, _, _, _, hdelay⟩ := hdrawn d hd
      exact retryDelay_le hrng hdelay
    rwa [List.length_map] at hsum
  rw [hpasses.clock, ho.clock, Nat.mul_add, ← Nat.mul_assoc]
  exact Nat.add_le_add_left (Nat.add_le_add_left
    (Nat.le_trans hwaits (Nat.mul_le_mul_right _ hcount)) _) _

/-! ## Times on the clock -/

/-- The whole milliseconds from the start to each event. -/
def eventTimes (start : Instant) (s : Simulation γ) : List ℕ :=
  s.machine.called.map fun c => c.clock.millisSince start

theorem inTime (hvalid : config.Valid urls)
    (h : simulateWith rng urls config params { machine := { clock := start }, random := g } =
      .ok (.ok ()) s) : InTime start s.machine.clock s.machine.called := by
  obtain ⟨_, s₀, done, _, ho, hc, _⟩ := exists_deeds params hvalid h
  have hcalls := s₀.machine.state.calls_inTime done
  have hfirst : s₀.machine.state.clock = start := ho.clock
  have hlast : (s₀.machine.state.applyAll done).clock = s.machine.clock :=
    congrArg State.clock hc.undergoes.state.symm
  rw [hfirst, hlast] at hcalls
  rw [hc.undergoes.called, ho.called, List.nil_append]
  exact hcalls

section InTime

variable (hin : InTime start s.machine.clock s.machine.called)
include hin

theorem eventTimes_sorted : (s.eventTimes start).Pairwise (· ≤ ·) :=
  List.pairwise_map.2 (hin.sorted.imp fun h => Instant.millisSince_mono h start)

theorem eventTimes_le : ∀ t ∈ s.eventTimes start, t ≤ s.machine.clock.millisSince start :=
  List.forall_mem_map.2 fun c hc => Instant.millisSince_mono (hin.within c hc).2 start

end InTime

end Simulation

/-! ## Times in 64 bits -/

theorem toNat_shownMillis (start now : Instant) :
    (shownMillis start now).toNat = now.millisSince start % UInt64.size :=
  UInt64.toNat_ofNat'

/-- Of two numbers that are closer together than `2^64` the order shows exactly if no multiple of it lies
between them. -/
theorem mod_le_mod_iff {m n : ℕ} (hle : m ≤ n) (hclose : n < m + UInt64.size) :
    m % UInt64.size ≤ n % UInt64.size ↔ m / UInt64.size = n / UInt64.size := by
  unfold UInt64.size at *
  omega

/-- The events are listed by their times, and none of them is later than the end. -/
def SimulationReport.Ordered (r : SimulationReport) : Prop :=
  (r.events.map (·.atMs)).Pairwise (· ≤ ·) ∧ ∀ e ∈ r.events, e.atMs ≤ r.elapsedMs

instance (r : SimulationReport) : Decidable r.Ordered := inferInstanceAs (Decidable (_ ∧ _))

namespace Simulation

variable {start : Instant} {s : Simulation γ} (params : SimulationParams)

theorem map_atMs_report :
    (s.report start params).events.map (·.atMs.toNat) =
      (s.eventTimes start).map (· % UInt64.size) := by
  rw [events_report, eventTimes, List.map_map, List.map_map]
  exact List.map_congr_left fun c _ => toNat_shownMillis start c.clock

/-- Whether the times are in order, in terms of those on the clock. -/
theorem ordered_report_iff_mod :
    (s.report start params).Ordered ↔
      (s.eventTimes start).Pairwise (fun t t' => t % UInt64.size ≤ t' % UInt64.size) ∧
        ∀ t ∈ s.eventTimes start,
          t % UInt64.size ≤ s.machine.clock.millisSince start % UInt64.size := by
  -- Shown times are compared as numbers, and these are the times on the clock with their high bits dropped.
  have hpairs := (s.report start params).events.pairwise_map (f := (·.atMs.toNat)) (R := (· ≤ ·))
  have hends := List.forall_mem_map (f := (·.atMs.toNat)) (l := (s.report start params).events)
    (P := (· ≤ s.machine.clock.millisSince start % UInt64.size))
  rw [map_atMs_report] at hpairs hends
  rw [List.pairwise_map] at hpairs
  rw [List.forall_mem_map, ← toNat_shownMillis] at hends
  rw [SimulationReport.Ordered, List.pairwise_map, hpairs, ← toNat_shownMillis, hends]
  rfl

/-- In the last `2^64` milliseconds the times are in order exactly if they have not begun again since. -/
theorem ordered_report_iff (hin : InTime start s.machine.clock s.machine.called)
    (hrecent : ∀ t ∈ s.eventTimes start, s.machine.clock.millisSince start < t + UInt64.size) :
    (s.report start params).Ordered ↔
      ∀ t ∈ s.eventTimes start, t / UInt64.size = s.machine.clock.millisSince start / UInt64.size := by
  have hle := eventTimes_le hin
  rw [ordered_report_iff_mod]
  constructor
  case mp => exact fun ⟨_, hends⟩ t ht => (mod_le_mod_iff (hle t ht) (hrecent t ht)).1 (hends t ht)
  case mpr =>
    intro hsame
    refine ⟨(eventTimes_sorted hin).imp_of_mem fun {t t'} ht ht' hlt => ?_, fun t ht => ?_⟩
    · have hclose : t' < t + UInt64.size := Nat.lt_of_le_of_lt (hle t' ht') (hrecent t ht)
      exact (mod_le_mod_iff hlt hclose).2 ((hsame t ht).trans (hsame t' ht').symm)
    · exact (mod_le_mod_iff (hle t ht) (hrecent t ht)).2 (hsame t ht)

end Simulation

/-- The times in the report on a simulation of a valid configuration, whatever chance decides. Each is the
time that has passed on the clock by then, in milliseconds modulo `2^64`, and so is the length of the
simulation. On the clock they are in order, and none is later than the end. In the report they are so as well
if the simulation is shorter than `2^64` milliseconds, and otherwise, if no event is that far from the end,
exactly if all of them are shown from the same zero. The settings say how long the simulation can be. -/
theorem event_times (rng : RandomSource γ) (urls : UrlParser) (config : PoolConfig)
    (params : SimulationParams) (start : Instant) (g : γ) {s : Simulation γ}
    (hvalid : config.validate urls = .ok config)
    (h : simulateWith rng urls config params { machine := { clock := start }, random := g } =
      .ok (.ok ()) s) :
    let report := s.report start params
    let times := s.eventTimes start
    let elapsed := s.machine.clock.millisSince start
    (report.events.map (·.atMs.toNat) = times.map (· % UInt64.size) ∧
      report.elapsedMs.toNat = elapsed % UInt64.size) ∧
    times.Pairwise (· ≤ ·) ∧ (∀ t ∈ times, t ≤ elapsed) ∧
    ((∀ t ∈ times, elapsed < t + UInt64.size) →
      (report.Ordered ↔ ∀ t ∈ times, t / UInt64.size = elapsed / UInt64.size)) ∧
    (elapsed < UInt64.size → report.Ordered) ∧
    (rng.Bounded → elapsed * 1000000 ≤ params.requests *
      (params.tick.nanos + (config.retry.maxAttempts.toNat - 1) * config.retry.longestWait)) := by
  intro report times elapsed
  have hv := PoolConfig.validate_ok_iff.1 hvalid
  have hin := Simulation.inTime hv h
  have hle : ∀ t ∈ times, t ≤ elapsed := Simulation.eventTimes_le hin
  refine ⟨⟨Simulation.map_atMs_report params, toNat_shownMillis start _⟩,
    Simulation.eventTimes_sorted hin, hle, Simulation.ordered_report_iff params hin,
    fun hshort => ?_, fun hrng => ?_⟩
  · refine (Simulation.ordered_report_iff params hin fun t _ => Nat.lt_add_left t hshort).2
      fun t ht => ?_
    rw [Nat.div_eq_of_lt hshort, Nat.div_eq_of_lt (Nat.lt_of_le_of_lt (hle t ht) hshort)]
  · calc elapsed * 1000000 ≤ s.machine.clock.nanos - start.nanos := Nat.div_mul_le_self _ _
      _ ≤ _ := Nat.sub_le_iff_le_add'.2 (Simulation.clock_le hrng hv h)

theorem bounded_turns : turns.Bounded := fun _ g hn => Nat.mod_lt g hn

theorem event_times_flickering :
    let params : SimulationParams := { requests := 4 }
    flickering.validate .ascii = .ok flickering ∧ turns.Bounded ∧
      ∃ s, simulateWith turns .ascii flickering params { machine := { clock := ⟨0⟩ }, random := 0 } =
          .ok (.ok ()) s ∧
        (s.report ⟨0⟩ params).events.map (·.atMs) = [10, 20, 30] ∧
        (s.report ⟨0⟩ params).Ordered := by
  intro params
  have hvalid : flickering.validate .ascii = .ok flickering := by decide +kernel
  have hshown : (reported? ⟨0⟩ params (simulateWith turns .ascii flickering params
      { machine := { clock := ⟨0⟩ }, random := 0 })).map (·.events.map (·.atMs)) =
        some [10, 20, 30] := by decide +kernel
  obtain ⟨s, hs, htimes⟩ := exists_of_reported? hshown
  obtain ⟨_, _, _, _, hshort, hlength⟩ := event_times turns .ascii flickering params ⟨0⟩ 0 hvalid hs
  have hmost : s.machine.clock.millisSince ⟨0⟩ * 1000000 ≤ 4 * (10000000 + 2 * 2199000000) :=
    hlength bounded_turns
  refine ⟨hvalid, bounded_turns, s, hs, htimes, hshort ?_⟩
  unfold UInt64.size
  omega

/-- Three servers that fail every request. -/
def doomed : PoolConfig where
  servers := [
    { name := "a", address := "http://10.0.0.1" },
    { name := "b", address := "http://10.0.0.2" },
    { name := "c", address := "http://10.0.0.3" }]

/-- One request to each, with a tick of `2^64 - 1` milliseconds in between. -/
def sparse : SimulationParams where
  requests := 3
  broken := ["a", "b", "c"]
  tick := .ofMillis 18446744073709551615

/-- The second loss is shown after the third, and both after the end. -/
theorem times_begin_again :
    doomed.validate .ascii = .ok doomed ∧
    ∃ s, simulateWith CipherStream.source .ascii doomed sparse
        { machine := { clock := ⟨0⟩ }, random := .ofSeed 42 } = .ok (.ok ()) s ∧
      let report := s.report ⟨0⟩ sparse
      report.events.map (·.atMs) = [0, 18446744073709551615, 18446744073709551614] ∧
        report.elapsedMs = 18446744073709551613 ∧ ¬ report.Ordered := by
  have hshown : (reported? ⟨0⟩ sparse (simulateWith CipherStream.source .ascii doomed sparse
      { machine := { clock := ⟨0⟩ }, random := .ofSeed 42 })).map
        (fun r => (r.events.map (·.atMs), r.elapsedMs, decide r.Ordered)) =
      some ([0, 18446744073709551615, 18446744073709551614], 18446744073709551613, false) := by
    decide +kernel
  obtain ⟨s, hs, hreport⟩ := exists_of_reported? hshown
  simp only [Prod.mk.injEq, decide_eq_false_iff_not] at hreport
  exact ⟨by decide +kernel, s, hs, hreport⟩

end TieredPool
