import TieredPool.Proofs.Moves
import TieredPool.Proofs.Walks

/-!
# Invariant — what holds in every state of a run

Whatever operations clients and handlers issue, nested to any depth and cut short anywhere, the pool
stays sound, and servers that have been registered stay where they are.

* `State.sound_after` — the pool is sound in every state of a run.
* `State.slot?_after` — a handle that was given out once leads to its own slot ever after.
* `Pool.Consistent` — soundness of a pool, field by field.
* `consistent_throughout` — every state of every run is consistent.
-/

namespace TieredPool

variable {α : Type}

/-! ## A run -/

theorem Pool.Sound.respects : Pool.Respects fun p p' : Pool α => p.Sound → p'.Sound where
  refl := fun _ hp => hp
  trans := fun _ _ _ h h' hp => h' (h hp)
  register := fun options data _ hp => hp.register options data
  next := fun now _ hp => hp.next now
  reportSuccess := fun id _ hp => hp.reportSuccess id
  reportFailure := fun now id _ hp => hp.reportFailure now id
  handler := fun handler _ hp => hp.handler handler

namespace State

variable (fuel : Nat) (clock : Instant) (requests : List (Request α))

theorem sound_after (k : Nat) : (({ clock } : State α).after fuel requests k).pool.Sound :=
  Pool.Sound.respects.after ({ clock } : State α) fuel requests (Nat.zero_le k) Pool.Sound.empty

/-- A server is found at its own id from its registration on. -/
theorem slot?_after {j k : Nat} (hjk : j ≤ k) {tier : Tier} {s : Slot α}
    (hs : s ∈ ((({ clock } : State α).after fuel requests j).pool.group tier).slots) :
    ∃ s' : Slot α,
      (({ clock } : State α).after fuel requests k).pool.slot? s.server.id = some s' ∧
        s'.server = s.server := by
  rcases List.mem_iff_getElem?.1 hs with ⟨i, hi⟩
  have hid := ((sound_after fuel clock requests j).group tier).placed i s hi
  have hmoves := Pool.Moves.respects.after ({ clock } : State α) fuel requests hjk
  rw [hid]
  exact hmoves.getElem?_server hi

end State

/-! ## Consistency, field by field -/

/-- The health of a server that is tracked: counter, threshold and timer say the same. -/
structure Health.InStep (maxFails : Nat) (h : Health) : Prop where
  counted : h.failCounter ≤ maxFails
  down_iff : h.isDown = true ↔ h.failCounter = maxFails
  deadline_iff : (∃ deadline, h.timer = .recoveryDeadline deadline) ↔ h.failCounter = maxFails
  idle_iff : h.timer = .idle ↔ h.failCounter = 0
  window_iff : (∃ expiry, h.timer = .windowExpiry expiry) ↔
    h.failCounter ≠ 0 ∧ h.failCounter ≠ maxFails

theorem Health.Sound.inStep {p : Policy} {h : Health} (hs : h.Sound p) (hp : p.tracking = true) :
    h.InStep p.maxFails where
  counted := hs.counted
  down_iff := by simpa [hp] using hs.down_iff
  deadline_iff := by
    rw [← isDown_iff]
    simpa [hp] using hs.down_iff
  idle_iff := hs.idle_iff
  window_iff := by
    have hdown : h.isDown = true ↔ h.failCounter = p.maxFails := by simpa [hp] using hs.down_iff
    -- A timer that is neither idle nor a deadline is a window.
    rw [Ne, Ne, ← hs.idle_iff, ← hdown]
    unfold isDown
    cases h.timer <;> simp

/-- A pool whose redundant parts agree with each other. -/
structure Pool.Consistent (p : Pool α) : Prop where
  /-- The cached count is that of the primaries which are not down. -/
  online : p.primaryOnline = p.primary.slots.countP fun s => !s.isDown
  /-- A failure that takes a server down never takes one from a count of zero. -/
  online_pos : ∀ (now : Instant) (id : ServerId), (p.reportFailure now id).1.isSome = true →
    0 < p.primaryOnline
  placed : ∀ (tier : Tier) (k : Nat) (s : Slot α), (p.group tier).slots[k]? = some s →
    s.server.id = { tier, index := k } ∧ s.server.options.tier = tier
  tracked : ∀ s ∈ p.primary.slots, 0 < s.server.options.maxFails →
    s.health.InStep s.server.options.maxFails.toNat
  untracked : ∀ s ∈ p.slots, s.server.options.isBackup = true ∨ s.server.options.maxFails = 0 →
    s.health.failCounter = 0 ∧ s.health.timer = .idle ∧ s.isDown = false

theorem ServerOptions.isBackup_of_tier {o : ServerOptions} {tier : Tier} (h : o.tier = tier) :
    o.isBackup = true ↔ tier = .backup := by
  subst h
  unfold tier
  cases o.isBackup <;> simp

theorem Pool.Sound.consistent {p : Pool α} (hp : p.Sound) : p.Consistent where
  online := hp.online
  online_pos := fun now id => hp.primaryOnline_pos_of_report (report_reportFailure hp.healthy now id)
  placed := by
    intro tier k s hs
    exact ⟨(hp.group tier).placed k s hs, (hp.group tier).tier_eq s (List.mem_of_getElem? hs)⟩
  tracked := by
    intro s hs hmax
    have hsound := (hp.group .primary).healthy s hs
    have hbackup : s.server.options.isBackup = false := by
      simpa using ServerOptions.isBackup_of_tier ((hp.group .primary).tier_eq s hs)
    have hpolicy : s.policy.maxFails = s.server.options.maxFails.toNat := by
      simp [Slot.policy, ServerOptions.policy, hbackup]
    rw [← hpolicy]
    refine hsound.inStep ?_
    simpa [Policy.tracking, hpolicy, UInt32.lt_iff_toNat_lt] using hmax
  untracked := by
    intro s hs huntracked
    have hsound : s.health.Sound s.policy := by
      rcases List.mem_append.1 hs with hs | hs
      · exact (hp.group .primary).healthy s hs
      · exact (hp.group .backup).healthy s hs
    -- With a threshold of zero, sound health is that of a new server.
    have hnew : s.health = {} := by
      refine hsound.eq_new ?_
      rcases huntracked with h | h
      · simp [Slot.policy, ServerOptions.policy, Policy.tracking, h]
      · simp [Slot.policy, ServerOptions.policy, Policy.tracking, h]
    rw [Slot.isDown, hnew]
    exact ⟨rfl, rfl, rfl⟩

/-! ## Every state of every run -/

theorem perform_add_invalid {notify : Notice α → Run α Unit} {caller : Caller}
    {options : ServerOptions} {data : α} {why : OptionsError} {m m' : Machine α}
    (h : perform notify caller (.add options data) m =
      .ok (.server (.error (.invalidOptions why))) m') : m' = m := by
  cases hhandle : caller.handle.isNone with
  | true => simp [perform, hhandle] at h
  | false =>
      cases hcheck : options.check with
      | error why' =>
          simp [perform, hhandle, Run.add, hcheck] at h
          exact h.2.symm
      | ok _ =>
          obtain ⟨m'', hadd, _, _⟩ := Run.add_spec options data m
          simp [perform, hhandle, hadd, hcheck] at h

/-- Every state that a run passes through is consistent, operations of handlers included, and a server
is found at its own id in all states after one that holds it. Options that are refused change nothing. -/
theorem consistent_throughout (fuel : Nat) (clock : Instant) (requests : List (Request α)) :
    (∀ k, (({ clock } : State α).after fuel requests k).pool.Consistent) ∧
    (∀ (j k : Nat) (tier : Tier), j ≤ k →
      ∀ s ∈ ((({ clock } : State α).after fuel requests j).pool.group tier).slots,
        ∃ s' : Slot α,
          (({ clock } : State α).after fuel requests k).pool.slot? s.server.id = some s' ∧
            s'.server = s.server) ∧
    (({ clock } : Machine α).serve fuel requests).pool.Consistent ∧
    (∀ e ∈ (({ clock } : Machine α).serve fuel requests).entries, e.pool.Consistent) ∧
    ∀ (notify : Notice α → Run α Unit) (caller : Caller) (options : ServerOptions) (data : α)
      (why : OptionsError) (m m' : Machine α),
      perform notify caller (.add options data) m =
        .ok (.server (.error (.invalidOptions why))) m' → m' = m := by
  have hconsistent (k : Nat) : (({ clock } : State α).after fuel requests k).pool.Consistent :=
    (State.sound_after fuel clock requests k).consistent
  refine ⟨hconsistent, ?_, ?_, ?_, ?_⟩
  · intro j k tier hjk s hs
    exact State.slot?_after fuel clock requests hjk hs
  · obtain ⟨k, hk⟩ := Machine.serve_state fuel requests ({ clock } : Machine α)
    have hpool : (({ clock } : Machine α).serve fuel requests).pool =
        (({ clock } : State α).after fuel requests k).pool := congrArg State.pool hk
    rw [hpool]
    exact hconsistent k
  · intro e he
    obtain ⟨k, rfl⟩ := Machine.serve_entries fuel requests rfl he
    exact hconsistent k
  · intro notify caller options data why m m' h
    exact perform_add_invalid h

/-- A handler that brings its server back from within the event of its loss, and then panics. -/
def relapse : List (Request Unit) :=
  let client : Caller := { handle := some 0 }
  [ { caller := client, op := .install 0 none [.next, .reportSuccess .subject, .panic] },
    { caller := client, op := .add (.primary 1) () },
    { caller := client, op := .add { weight := 0 } () },
    { caller := client, op := .reportFailure (.server ⟨.primary, 0⟩) none } ]

/-- The sixth operation of that run is a success reported by the handler of an event, and the eighth a
panic in the handler that the success has called. -/
theorem consistent_throughout_relapse :
    ((({ clock := ⟨0⟩ } : State Unit).after 2 relapse 4).pool.primaryOnline = 0 ∧
      (({ clock := ⟨0⟩ } : State Unit).after 2 relapse 8).pool.primaryOnline = 1) ∧
    (({ clock := ⟨0⟩ } : State Unit).after 2 relapse 4).pool.Consistent ∧
    (({ clock := ⟨0⟩ } : State Unit).after 2 relapse 8).pool.Consistent ∧
    (({ clock := ⟨0⟩ } : Machine Unit).serve 2 relapse).entries.length = 2 :=
  have h := consistent_throughout 2 ⟨0⟩ relapse
  ⟨by decide, h.1 4, h.1 8, by decide +kernel⟩

end TieredPool
