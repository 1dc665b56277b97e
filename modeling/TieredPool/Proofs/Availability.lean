import TieredPool.Proofs.Invariant

/-!
# Availability — whom a request gets, and what it leaves alone

* `Group.select_fst_eq_none_iff` — a tier serves a request exactly if one of its servers can be picked.
* `Pool.Serves` — the answer of a pool to a request, described by who can be picked.
* `serves_throughout` — every state of every run answers so.
-/

namespace TieredPool

variable {α : Type}

/-! ## One tier -/

namespace Group

variable {now : Instant} {g : Group α}

theorem select_fst_eq_none_iff :
    (g.select now).1 = none ↔ ∀ s ∈ g.slots, s.selectable now = false := by
  rcases select_cases now g with ⟨hnone, heq⟩ | ⟨k, s, hleads, heq⟩
  · rw [heq]
    exact ⟨fun _ => hnone, fun _ => rfl⟩
  · rw [heq]
    constructor
    · intro h
      cases h
    · intro h
      have hs := h s (List.mem_of_getElem? hleads.get)
      rw [hleads.selectable] at hs
      cases hs

/-- A server that is picked could be picked. -/
theorem selectable_of_select {pick : Pick α} (h : (g.select now).1 = some pick) :
    ∃ s ∈ g.slots, s.server = pick.server ∧ s.selectable now = true := by
  rcases select_cases now g with ⟨_, heq⟩ | ⟨k, s, hleads, heq⟩
  · rw [heq] at h
    cases h
  · rw [heq] at h
    cases h
    exact ⟨s, List.mem_of_getElem? hleads.get, rfl, hleads.selectable⟩

end Group

theorem Slot.selectable_of_untracked {s : Slot α} (hs : s.health.Sound s.policy)
    (hp : s.policy.tracking = false) (now : Instant) : s.selectable now = true := by
  rw [Slot.selectable, hs.eq_new hp]
  rfl

/-- A backup can be picked at any time. -/
theorem Group.Sound.backup_selectable {g : Group α} (hg : g.Sound .backup) (now : Instant) :
    ∀ s ∈ g.slots, s.selectable now = true := by
  intro s hs
  have hbackup : s.server.options.isBackup = true :=
    (ServerOptions.isBackup_of_tier (hg.tier_eq s hs)).2 rfl
  refine Slot.selectable_of_untracked (hg.healthy s hs) ?_ now
  simp [Slot.policy, ServerOptions.policy, Policy.tracking, hbackup]

/-! ## The pool -/

/-- A primary can be picked: it is up, or its deadline has come. -/
def Pool.PrimaryReady (now : Instant) (p : Pool α) : Prop :=
  ∃ s ∈ p.primary.slots,
    s.isDown = false ∨ ∃ deadline, s.health.timer = .recoveryDeadline deadline ∧ deadline ≤ now

theorem Pool.primaryReady_iff {now : Instant} {p : Pool α} :
    p.PrimaryReady now ↔ (p.primary.select now).1 ≠ none := by
  rw [Ne, Group.select_fst_eq_none_iff]
  constructor
  · rintro ⟨s, hs, hready⟩ hnone
    have hsel : s.selectable now = true := Health.selectable_iff.2 hready
    rw [hnone s hs] at hsel
    cases hsel
  · intro h
    simp only [Classical.not_forall, Bool.not_eq_false] at h
    obtain ⟨s, hs, hsel⟩ := h
    exact ⟨s, hs, Health.selectable_iff.1 hsel⟩

/-- What the pool answers to a request at `now`, and what it changes. -/
structure Pool.Serves (now : Instant) (p : Pool α) : Prop where
  primary_iff : (∃ c, (p.next now).1 = some c ∧ c.source = .primary) ↔ p.PrimaryReady now
  backup_iff : (∃ c, (p.next now).1 = some c ∧ c.source = .backup) ↔
    ¬ p.PrimaryReady now ∧ p.backup.slots ≠ []
  none_iff : (p.next now).1 = none ↔ ¬ p.PrimaryReady now ∧ p.backup.slots = []
  /-- A server whose failures do not count is enough for an answer. -/
  answers : (p.backup.slots ≠ [] ∨ ∃ s ∈ p.primary.slots, s.server.options.maxFails = 0) →
    (p.next now).1 ≠ none
  picked : ∀ c, (p.next now).1 = some c → ∃ s ∈ (p.group c.source).slots,
    s.server = c.pick.server ∧ s.server.id.tier = c.source ∧ s.selectable now = true
  /-- Looking at the count of primaries that are up makes no difference. -/
  in_order : p.next now = p.nextInOrder now
  backup_frame : ∀ c, (p.next now).1 = some c → c.source = .backup →
    (p.next now).2 = { p with backup := (p.next now).2.backup }
  primary_frame : ∀ c, (p.next now).1 = some c → c.source = .primary →
    (p.next now).2 = { p with primary := (p.next now).2.primary }
  none_frame : (p.next now).1 = none → (p.next now).2 = p

namespace Pool.Sound

variable {p : Pool α}

theorem backup_select_eq_none_iff (hp : p.Sound) (now : Instant) :
    (p.backup.select now).1 = none ↔ p.backup.slots = [] := by
  rw [Group.select_fst_eq_none_iff]
  constructor
  · intro hnone
    -- A backup that is there could be picked.
    refine List.eq_nil_iff_forall_not_mem.2 fun s hs => ?_
    have hsel := (hp.group .backup).backup_selectable now s hs
    rw [hnone s hs] at hsel
    cases hsel
  · intro hnil s hs
    rw [hnil] at hs
    cases hs

/-- Who is served by whom: primaries if one can be picked, else backups if there are any. -/
theorem next_ways (hp : p.Sound) (now : Instant) :
    (p.PrimaryReady now ∧ ∃ pick, (p.primary.select now).1 = some pick ∧
      p.next now = (some { pick, source := .primary },
        p.setGroup .primary (p.primary.select now).2)) ∨
    (¬ p.PrimaryReady now ∧ p.backup.slots ≠ [] ∧ ∃ pick, (p.backup.select now).1 = some pick ∧
      p.next now = (some { pick, source := .backup },
        p.setGroup .backup (p.backup.select now).2)) ∨
    (¬ p.PrimaryReady now ∧ p.backup.slots = [] ∧ p.next now = (none, p)) := by
  have hbackup := hp.backup_select_eq_none_iff now
  rcases next_cases now p with ⟨pick, hpick, heq⟩ | ⟨hnone, pick, hpick, heq⟩ | ⟨hnone, hempty, heq⟩
  · have hready : p.PrimaryReady now := primaryReady_iff.2 (by simp [hpick])
    exact .inl ⟨hready, pick, hpick, heq⟩
  · have hready : ¬ p.PrimaryReady now := by simp [primaryReady_iff, hnone]
    have hheld : p.backup.slots ≠ [] := by
      rw [Ne, ← hbackup, hpick]
      simp
    exact .inr (.inl ⟨hready, hheld, pick, hpick, heq⟩)
  · have hready : ¬ p.PrimaryReady now := by simp [primaryReady_iff, hnone]
    exact .inr (.inr ⟨hready, hbackup.1 hempty, heq⟩)

/-- A primary whose failures do not count is always ready. -/
theorem primaryReady_of_untracked (hp : p.Sound) (now : Instant)
    (h : ∃ s ∈ p.primary.slots, s.server.options.maxFails = 0) : p.PrimaryReady now := by
  rcases h with ⟨s, hs, hmax⟩
  have huntracked := hp.consistent.untracked s (List.mem_append_left _ hs) (.inr hmax)
  exact ⟨s, hs, .inl huntracked.2.2⟩

theorem selectable_of_pick (hp : p.Sound) (tier : Tier) {now : Instant} {pick : Group.Pick α}
    (hpick : ((p.group tier).select now).1 = some pick) :
    ∃ s ∈ (p.group tier).slots,
      s.server = pick.server ∧ s.server.id.tier = tier ∧ s.selectable now = true := by
  rcases Group.selectable_of_select hpick with ⟨s, hs, hserver, hsel⟩
  rcases List.mem_iff_getElem?.1 hs with ⟨k, hk⟩
  have hid := (hp.group tier).placed k s hk
  exact ⟨s, hs, hserver, by rw [hid], hsel⟩

theorem serves (hp : p.Sound) (now : Instant) : p.Serves now where
  primary_iff := by
    rcases hp.next_ways now with ⟨hready, _, _, heq⟩ | ⟨hready, _, _, _, heq⟩ | ⟨hready, _, heq⟩ <;>
      simp [heq, hready]
  backup_iff := by
    rcases hp.next_ways now with ⟨hready, _, _, heq⟩ | ⟨hready, hheld, _, _, heq⟩ | ⟨_, hheld, heq⟩
    · simp [heq, hready]
    · simp [heq, hready, hheld]
    · simp [heq, hheld]
  none_iff := by
    rcases hp.next_ways now with ⟨hready, _, _, heq⟩ | ⟨_, hheld, _, _, heq⟩ | ⟨hready, hheld, heq⟩
    · simp [heq, hready]
    · simp [heq, hheld]
    · simp [heq, hready, hheld]
  answers := by
    rcases hp.next_ways now with ⟨_, _, _, heq⟩ | ⟨_, _, _, _, heq⟩ | ⟨hready, hheld, _⟩
    · simp [heq]
    · simp [heq]
    · rintro (hbackups | hprimary)
      · exact absurd hheld hbackups
      · exact absurd (hp.primaryReady_of_untracked now hprimary) hready
  picked := by
    intro c hc
    rcases hp.next_ways now with ⟨_, pick, hpick, heq⟩ | ⟨_, _, pick, hpick, heq⟩ | ⟨_, _, heq⟩
    · rw [heq] at hc
      cases hc
      exact hp.selectable_of_pick .primary hpick
    · rw [heq] at hc
      cases hc
      exact hp.selectable_of_pick .backup hpick
    · rw [heq] at hc
      cases hc
  in_order := next_eq_nextInOrder now p
  backup_frame := by
    intro c hc hsource
    rcases hp.next_ways now with ⟨_, pick, _, heq⟩ | ⟨_, _, pick, _, heq⟩ | ⟨_, _, heq⟩
    · rw [heq] at hc
      cases hc
      cases hsource
    · rw [heq]
      rfl
    · rw [heq]
  primary_frame := by
    intro c hc hsource
    rcases hp.next_ways now with ⟨_, pick, _, heq⟩ | ⟨_, _, pick, _, heq⟩ | ⟨_, _, heq⟩
    · rw [heq]
      rfl
    · rw [heq] at hc
      cases hc
      cases hsource
    · rw [heq]
  none_frame := next_snd_of_none

end Pool.Sound

/-! ## Every state of every run -/

/-- Every state of every run answers a request by who can be picked then, at any reading of the clock.
The operation gives that answer, so it never fails while a server is held whose failures do not count. -/
theorem serves_throughout (fuel : Nat) (clock : Instant) (requests : List (Request α)) (k : Nat) :
    (∀ now, (({ clock } : State α).after fuel requests k).pool.Serves now) ∧
    ∀ (m : Machine α) (notify : Notice α → Run α Unit) (caller : Caller),
      m.state = ({ clock } : State α).after fuel requests k → caller.handle.isSome = true →
      (∃ m', perform notify caller .next m = .ok (.server (Run.served (m.pool.next m.clock).1)) m' ∧
        m'.pool = (m.pool.next m.clock).2 ∧ m'.clock = m.clock) ∧
      ((m.pool.backup.slots ≠ [] ∨ ∃ s ∈ m.pool.primary.slots, s.server.options.maxFails = 0) →
        ∃ server m', perform notify caller .next m = .ok (.server (.ok server)) m') := by
  have hsound := State.sound_after fuel clock requests k
  refine ⟨fun now => hsound.serves now, ?_⟩
  intro m notify caller hm hhandle
  have hpool : m.pool = (({ clock } : State α).after fuel requests k).pool := congrArg State.pool hm
  obtain ⟨m', hnext, hstate, _⟩ := Run.next_spec m
  have hperform : perform notify caller .next m = .ok (.server (Run.served (m.pool.next m.clock).1)) m' := by
    cases hlost : caller.handle with
    | none => simp [hlost] at hhandle
    | some handle => simp [perform, hlost, hnext]
  refine ⟨⟨m', hperform, congrArg State.pool hstate, congrArg State.clock hstate⟩, ?_⟩
  intro hheld
  have hanswers := (hsound.serves m.clock).answers (hpool ▸ hheld)
  rw [← hpool] at hanswers
  cases hc : (m.pool.next m.clock).1 with
  | none => exact absurd hc hanswers
  | some c => exact ⟨c.pick.server, m', by rw [hperform, hc]; rfl⟩

/-- The only primary goes down while a backup is held. -/
def failover : List (Request Unit) :=
  let client : Caller := { handle := some 0 }
  [ { caller := client, op := .add (.primary 3) () },
    { caller := client, op := .add (.backup 1) () },
    { caller := client, op := .reportFailure (.server ⟨.primary, 0⟩) none } ]

theorem serves_throughout_failover :
    ((({ clock := ⟨0⟩ } : State Unit).after 1 failover 3).pool.next ⟨0⟩).1.isSome = true ∧
    (({ clock := ⟨0⟩ } : State Unit).after 1 failover 3).pool.Serves ⟨0⟩ ∧
    ∃ (server : Server Unit) (m : Machine Unit),
      perform (notify 1) { handle := some 0 } .next
        (({ clock := ⟨0⟩ } : Machine Unit).serve 1 failover) = .ok (.server (.ok server)) m :=
  let start : Machine Unit := { clock := ⟨0⟩ }
  have h := serves_throughout 1 ⟨0⟩ failover 3
  have hstate : (start.serve 1 failover).state = start.state.after 1 failover 3 :=
    (Machine.follows_serve 1 failover start).state
  ⟨by decide, h.1 ⟨0⟩,
    (h.2 (start.serve 1 failover) (notify 1) { handle := some 0 } hstate rfl).2
      (.inl (by decide +kernel))⟩

end TieredPool
