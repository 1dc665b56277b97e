import TieredPool.Group

/-!
# Health — what outcomes and probes do to one server

The timer of a server repeats what its counter of failures says. Neither can be shown to behave
without the other; together they are kept by every transition.

* `Health.Sound` — counter, timer and threshold fit together.
* `Health.recordFailure_cases` — all that a failure can do to sound health.
* `Slot.Turn` — a slot before and after an outcome, and how that shows in its availability.
-/

namespace TieredPool

variable {α : Type} {now : Instant}

/-! ## One server -/

namespace Health

/-- The counter stays within the threshold and reaches it exactly if the server is down; no timer is
armed exactly if nothing has been counted. -/
structure Sound (p : Policy) (h : Health) : Prop where
  counted : h.failCounter ≤ p.maxFails
  down_iff : h.isDown = true ↔ p.tracking = true ∧ h.failCounter = p.maxFails
  idle_iff : h.timer = .idle ↔ h.failCounter = 0

variable {p : Policy} {h : Health}

theorem isDown_iff : h.isDown = true ↔ ∃ deadline, h.timer = .recoveryDeadline deadline := by
  unfold isDown
  cases h.timer with
  | idle => simp
  | windowExpiry expiry => simp
  | recoveryDeadline deadline => simp

theorem selectable_iff :
    h.selectable now = true ↔
      h.isDown = false ∨ ∃ deadline, h.timer = .recoveryDeadline deadline ∧ deadline ≤ now := by
  unfold selectable isDown
  cases h.timer with
  | idle => simp
  | windowExpiry expiry => simp
  | recoveryDeadline deadline => simp

@[simp] theorem isDown_new : ({} : Health).isDown = false := rfl

theorem sound_new (p : Policy) : ({} : Health).Sound p where
  counted := Nat.zero_le _
  down_iff := by
    simp only [isDown_new, Policy.tracking, decide_eq_true_eq]
    constructor
    · intro h
      cases h
    · rintro ⟨hpos, hzero⟩
      omega
  idle_iff := by simp

/-- A server whose failures do not count stays as it was registered. -/
theorem Sound.eq_new (hs : h.Sound p) (hp : p.tracking = false) : h = {} := by
  have hmax : p.maxFails = 0 := by simpa [Policy.tracking] using hp
  -- The threshold bounds the counter, and the counter decides the timer.
  have hzero : h.failCounter = 0 := Nat.le_zero.1 (hmax ▸ hs.counted)
  have hidle : h.timer = .idle := hs.idle_iff.2 hzero
  cases h
  simp_all

/-- A failure that is counted opens a window or joins the open one. -/
theorem countFailure_window (hs : h.Sound p) (hup : h.isDown = false) (now : Instant) :
    ∃ expiry, (h.countFailure p now).timer = .windowExpiry expiry ∧
      0 < (h.countFailure p now).failCounter ∧
      (h.countFailure p now).failCounter ≤ h.failCounter + 1 := by
  unfold countFailure
  split
  case h_1 => exact ⟨_, rfl, by simp⟩
  case h_2 n expiry hcounter htimer =>
    split
    · exact ⟨_, rfl, by simp⟩
    · exact ⟨expiry, htimer, by simp [hcounter]⟩
  case h_3 n timer hcounter hwindow =>
    -- Something has been counted but no window is open, so the server would be down.
    exfalso
    cases htimer : h.timer with
    | idle =>
        have := hs.idle_iff.1 htimer
        omega
    | windowExpiry expiry => exact hwindow expiry htimer
    | recoveryDeadline deadline =>
        have := isDown_iff.2 ⟨deadline, htimer⟩
        simp [hup] at this

/-- What a failure can do: nothing, as nothing is tracked or the server is down already; count, below
the threshold; or take the server down. -/
theorem recordFailure_cases (hs : h.Sound p) (now : Instant) :
    ((p.tracking = false ∨ h.isDown = true) ∧ h.recordFailure p now = (h, .none)) ∨
      (p.tracking = true ∧ h.isDown = false ∧ (h.countFailure p now).failCounter < p.maxFails ∧
        h.recordFailure p now = (h.countFailure p now, .none)) ∨
      (p.tracking = true ∧ h.isDown = false ∧
        h.recordFailure p now =
          ({ failCounter := p.maxFails, timer := .recoveryDeadline (p.deadline now) }, .down)) := by
  by_cases hp : p.tracking = true
  case neg => simp [recordFailure, hp]
  by_cases hd : h.isDown = true
  case pos => simp [recordFailure, hd]
  have hup : h.isDown = false := by simpa using hd
  -- The counter reaches the threshold only together with the server going down.
  have hbelow : h.failCounter < p.maxFails := by
    have hne : h.failCounter ≠ p.maxFails := fun heq => hd (hs.down_iff.2 ⟨hp, heq⟩)
    have := hs.counted
    omega
  obtain ⟨_, _, _, hcount⟩ := countFailure_window hs hup now
  right
  by_cases hfull : (h.countFailure p now).failCounter = p.maxFails
  · right
    simp [recordFailure, hp, hup, Nat.not_le.2 hbelow, hfull]
  · left
    refine ⟨hp, hup, by omega, ?_⟩
    simp [recordFailure, hp, hup, Nat.not_le.2 hbelow, hfull]

theorem Sound.recordSuccess (hs : h.Sound p) : (h.recordSuccess p).1.Sound p := by
  unfold Health.recordSuccess
  split
  · exact sound_new p
  · exact hs

theorem Sound.recordFailure (hs : h.Sound p) (now : Instant) : (h.recordFailure p now).1.Sound p := by
  rcases recordFailure_cases hs now with ⟨_, heq⟩ | ⟨hp, hup, hlt, heq⟩ | ⟨hp, _, heq⟩
  · rw [heq]
    exact hs
  · obtain ⟨expiry, htimer, hpos, _⟩ := countFailure_window hs hup now
    rw [heq]
    refine ⟨Nat.le_of_lt hlt, ?_, ?_⟩
    · simp only [isDown, htimer]
      constructor
      · intro h
        cases h
      · rintro ⟨_, hfull⟩
        omega
    · simp only [htimer]
      constructor
      · intro h
        cases h
      · intro hzero
        omega
  · have hpos : 0 < p.maxFails := by simpa [Policy.tracking] using hp
    rw [heq]
    refine ⟨Nat.le_refl _, by simp [isDown, hp], ?_⟩
    simp only [reduceCtorEq, false_iff]
    omega

/-- A probe moves the deadline of a server that is down and nothing else. -/
theorem isDown_beginProbe (p : Policy) (h : Health) (now : Instant) :
    (h.beginProbe p now).isDown = h.isDown := by
  cases ht : h.timer with
  | idle => simp [beginProbe, ht]
  | windowExpiry expiry => simp [beginProbe, ht]
  | recoveryDeadline deadline =>
      by_cases hd : deadline ≤ now <;> simp [beginProbe, isDown, ht, hd]

theorem beginProbe_failCounter (p : Policy) (h : Health) (now : Instant) :
    (h.beginProbe p now).failCounter = h.failCounter := by
  unfold beginProbe
  split
  · split <;> rfl
  · rfl

/-- The probe of a server that may be picked again is due, so it starts a whole timeout. -/
theorem beginProbe_timer (hsel : h.selectable now = true) :
    (h.beginProbe p now).timer = if h.isDown then .recoveryDeadline (p.deadline now) else h.timer := by
  cases ht : h.timer with
  | idle => simp [beginProbe, isDown, ht]
  | windowExpiry expiry => simp [beginProbe, isDown, ht]
  | recoveryDeadline deadline =>
      have hdue : deadline ≤ now := by simpa [selectable, ht] using hsel
      simp [beginProbe, isDown, ht, hdue]

theorem Sound.beginProbe (hs : h.Sound p) (now : Instant) : (h.beginProbe p now).Sound p where
  counted := by
    rw [beginProbe_failCounter]
    exact hs.counted
  down_iff := by
    rw [beginProbe_failCounter, isDown_beginProbe]
    exact hs.down_iff
  idle_iff := by
    rw [beginProbe_failCounter, ← hs.idle_iff]
    unfold Health.beginProbe
    split
    case h_1 deadline htimer =>
      split <;> simp [htimer]
    case h_2 => rfl

end Health

/-! ## One slot -/

/-- How a transition shows in whether a server is down before and after it. -/
def Transition.Shows (before after : Bool) : Transition → Prop
  | .none => after = before
  | .up => before = true ∧ after = false
  | .down => before = false ∧ after = true

/-- A count of servers that are up, after one of them had the transition. -/
def Transition.recount (n : Nat) : Transition → Nat
  | .none => n
  | .up => n + 1
  | .down => n - 1

/-- The slots before and after an outcome that had the transition `t`. -/
structure Slot.Turn (t : Transition) (s s' : Slot α) : Prop where
  server : s'.server = s.server
  sound : s.health.Sound s.policy → s'.health.Sound s'.policy
  tracked : t ≠ .none → s.server.tracked = true
  shows_isDown : t.Shows s.isDown s'.isDown

namespace Slot

theorem turn_recordSuccess (s : Slot α) : Turn s.recordSuccess.2 s s.recordSuccess.1 where
  server := rfl
  sound := fun hs => hs.recordSuccess
  tracked := by
    intro ht
    by_cases hp : s.policy.tracking = true
    · exact hp
    · simp [recordSuccess, Health.recordSuccess, hp] at ht
  shows_isDown := by
    by_cases hp : s.policy.tracking = true
    · by_cases hd : s.health.isDown = true
      · simp [Transition.Shows, recordSuccess, Health.recordSuccess, isDown, hp, hd]
      · simp [Transition.Shows, recordSuccess, Health.recordSuccess, isDown, hp, hd]
    · simp [Transition.Shows, recordSuccess, Health.recordSuccess, isDown, hp]

/-- A success brings a server back or has no transition. -/
theorem recordSuccess_transition (s : Slot α) :
    s.recordSuccess.2 = .none ∨ s.recordSuccess.2 = .up := by
  by_cases hp : s.policy.tracking = true
  · by_cases hd : s.health.isDown = true
    · right
      simp [recordSuccess, Health.recordSuccess, hp, hd]
    · left
      simp [recordSuccess, Health.recordSuccess, hp, hd]
  · left
    simp [recordSuccess, Health.recordSuccess, hp]

/-- A failure takes a server down or has no transition. -/
theorem recordFailure_transition {s : Slot α} (hs : s.health.Sound s.policy) (now : Instant) :
    (s.recordFailure now).2 = .none ∨ (s.recordFailure now).2 = .down := by
  rcases Health.recordFailure_cases hs now with ⟨_, heq⟩ | ⟨_, _, _, heq⟩ | ⟨_, _, heq⟩
  · exact .inl (by simp [recordFailure, heq])
  · exact .inl (by simp [recordFailure, heq])
  · exact .inr (by simp [recordFailure, heq])

/-- A failure that only counts leaves a server up. -/
theorem turn_recordFailure {s : Slot α} (hs : s.health.Sound s.policy) (now : Instant) :
    Turn (s.recordFailure now).2 s (s.recordFailure now).1 where
  server := rfl
  sound := fun hs => hs.recordFailure now
  tracked := by
    intro ht
    rcases Health.recordFailure_cases hs now with ⟨_, heq⟩ | ⟨hp, _⟩ | ⟨hp, _⟩
    · simp [recordFailure, heq] at ht
    · exact hp
    · exact hp
  shows_isDown := by
    rcases Health.recordFailure_cases hs now with ⟨_, heq⟩ | ⟨_, hup, _, heq⟩ | ⟨_, hup, heq⟩
    · simp [Transition.Shows, recordFailure, isDown, heq]
    · obtain ⟨expiry, htimer, _⟩ := Health.countFailure_window hs hup now
      have hup' : (s.health.countFailure s.policy now).isDown = false := by
        simp [Health.isDown, htimer]
      simp [Transition.Shows, recordFailure, isDown, heq, hup, hup']
    · have hdown : ({ failCounter := s.policy.maxFails,
                      timer := .recoveryDeadline (s.policy.deadline now) } : Health).isDown = true := rfl
      simp [Transition.Shows, recordFailure, isDown, heq, hup, hdown]

end Slot

end TieredPool
