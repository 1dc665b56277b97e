import TieredPool.Pool
import TieredPool.Proofs.Selection

/-!
# Soundness — what holds of a pool after any operation

The count of primaries that are up repeats what the timers of the primaries say, and who stands where
decides whose timer an outcome moves. All of it is kept together by every change of state.

* `Group.Sound`, `Pool.Sound` — every server stands where its id says, with sound health, and the
  count of primaries that are up is exact.
* `Pool.next_cases`, `Pool.Report` — all that a request and an outcome can do.
* `Pool.Sound.register`, `.next`, `.reportSuccess`, `.reportFailure` — each change keeps a pool sound.
-/

namespace TieredPool

variable {α : Type} {now : Instant}

/-! ## One tier -/

/-- Every server of the tier stands where its id says, with sound health. -/
structure Group.Sound (tier : Tier) (g : Group α) : Prop where
  placed : ∀ (k : Nat) (s : Slot α), g.slots[k]? = some s → s.server.id = { tier, index := k }
  tier_eq : ∀ s ∈ g.slots, s.server.options.tier = tier
  healthy : ∀ s ∈ g.slots, s.health.Sound s.policy

/-- The number of servers that are not down. -/
def Group.upCount (g : Group α) : Nat := g.slots.countP fun s => !s.isDown

/-- An outcome leaves every server in its place. -/
theorem Group.map_server_set {g : Group α} {k : Nat} {s s' : Slot α} {t : Transition}
    (hs : g.slots[k]? = some s) (turn : Slot.Turn t s s') :
    (g.slots.set k s').map Slot.server = g.slots.map Slot.server := by
  apply List.ext_getElem?
  intro j
  by_cases hjk : k = j
  · subst hjk
    obtain ⟨hlt, hget⟩ := List.getElem?_eq_some_iff.1 hs
    simp [hlt, hget, turn.server]
  · simp [hjk]

namespace Group.Sound

variable {tier : Tier} {g : Group α}

theorem empty (tier : Tier) : ({} : Group α).Sound tier where
  placed := by
    intro k s hs
    simp at hs
  tier_eq := by simp
  healthy := by simp

theorem push (hg : g.Sound tier) {server : Server α} (hid : server.id = { tier, index := g.size })
    (htier : server.options.tier = tier) : (g.push server).Sound tier where
  placed := by
    intro k s hs
    rcases Nat.lt_trichotomy k g.slots.length with hlt | heq | hgt
    · rw [Group.push, List.getElem?_append_left hlt] at hs
      exact hg.placed k s hs
    · subst heq
      rw [Group.push, List.getElem?_concat_length] at hs
      cases hs
      exact hid
    · have hnone : (g.push server).slots[k]? = none := by
        simpa [Group.push] using Nat.succ_le_of_lt hgt
      rw [hnone] at hs
      cases hs
  tier_eq := by
    intro s hs
    rcases List.mem_append.1 hs with hold | hnew
    · exact hg.tier_eq s hold
    · cases List.mem_singleton.1 hnew
      exact htier
  healthy := by
    intro s hs
    rcases List.mem_append.1 hs with hold | hnew
    · exact hg.healthy s hold
    · cases List.mem_singleton.1 hnew
      exact Health.sound_new _

/-- A change of slots that keeps the servers and their health sound keeps the tier sound. -/
theorem of_slots {g' : Group α} (hg : g.Sound tier)
    (hservers : g'.slots.map Slot.server = g.slots.map Slot.server)
    (hhealthy : ∀ s ∈ g'.slots, s.health.Sound s.policy) : g'.Sound tier where
  placed := by
    intro k s' hs'
    have hk : (g.slots[k]?).map Slot.server = some s'.server := by
      rw [← List.getElem?_map, ← hservers, List.getElem?_map, hs']
      rfl
    obtain ⟨s, hs, hserver⟩ := Option.map_eq_some_iff.1 hk
    rw [← hserver]
    exact hg.placed k s hs
  tier_eq := by
    intro s' hs'
    have hmem : s'.server ∈ g.slots.map Slot.server := by
      rw [← hservers]
      exact List.mem_map_of_mem hs'
    obtain ⟨s, hs, hserver⟩ := List.mem_map.1 hmem
    rw [← hserver]
    exact hg.tier_eq s hs
  healthy := hhealthy

theorem select (hg : g.Sound tier) (now : Instant) : (g.select now).2.Sound tier := by
  refine hg.of_slots (Group.map_slots_select Slot.server now g (by simp) (by simp)) ?_
  rcases Group.select_cases now g with ⟨_, hnone⟩ | ⟨k, s, _, hsome⟩
  · rw [hnone]
    exact hg.healthy
  · rw [hsome]
    intro s' hs'
    obtain ⟨j, hj⟩ := List.mem_iff_getElem?.1 hs'
    rw [Group.charged_getElem?] at hj
    obtain ⟨t, ht, rfl⟩ := Option.map_eq_some_iff.1 hj
    have hsound := hg.healthy t (List.mem_of_getElem? ht)
    split
    · simpa [Slot.policy] using hsound.beginProbe now
    · simpa using hsound

theorem set (hg : g.Sound tier) {k : Nat} {s s' : Slot α} {t : Transition}
    (hs : g.slots[k]? = some s) (turn : Slot.Turn t s s') :
    ({ g with slots := g.slots.set k s' } : Group α).Sound tier := by
  refine hg.of_slots (Group.map_server_set hs turn) ?_
  intro u hu
  rcases List.mem_or_eq_of_mem_set hu with hold | rfl
  · exact hg.healthy u hold
  · exact turn.sound (hg.healthy s (List.mem_of_getElem? hs))

end Group.Sound

theorem Group.upCount_push (server : Server α) (g : Group α) :
    (g.push server).upCount = g.upCount + 1 := by
  simp [upCount, push, Slot.isDown, Health.isDown]

theorem Group.upCount_select (now : Instant) (g : Group α) : (g.select now).2.upCount = g.upCount := by
  have hmap := map_slots_select Slot.isDown now g (by simp) (by simp)
  have hcount (l : List (Slot α)) :
      l.countP (fun s => !s.isDown) = (l.map Slot.isDown).countP (fun d => !d) := by
    rw [List.countP_map]
    rfl
  unfold upCount
  rw [hcount, hcount, hmap]

/-- An outcome moves the count of servers that are up exactly as its transition says. -/
theorem Group.upCount_set {g : Group α} {k : Nat} {s s' : Slot α} {t : Transition}
    (hs : g.slots[k]? = some s) (turn : Slot.Turn t s s') :
    ({ g with slots := g.slots.set k s' } : Group α).upCount = t.recount g.upCount := by
  obtain ⟨hlt, hget⟩ := List.getElem?_eq_some_iff.1 hs
  have hset := List.countP_set (p := fun u : Slot α => !u.isDown) (a := s') hlt
  have hmem : s.isDown = false → 0 < g.upCount := by
    intro hup
    exact List.countP_pos_iff.2 ⟨s, List.mem_of_getElem? hs, by simp [hup]⟩
  have hshows := turn.shows_isDown
  unfold upCount at hmem ⊢
  -- The old slot leaves the count if it was up, and the new one joins it if it is up.
  rw [hset, hget]
  unfold Transition.recount
  cases t with
  | none =>
      have hsame : s'.isDown = s.isDown := hshows
      rw [hsame]
      cases hd : s.isDown with
      | true => simp
      | false =>
          have := hmem hd
          simp
          omega
  | up =>
      rw [hshows.1, hshows.2]
      simp
  | down =>
      rw [hshows.1, hshows.2]
      simp

/-! ## The pool -/

/-- Both tiers are sound, and the count of primaries that are up is exact. -/
structure Pool.Sound (p : Pool α) : Prop where
  group : ∀ tier, (p.group tier).Sound tier
  online : p.primaryOnline = p.primary.upCount

namespace Pool

@[simp] theorem group_setGroup_self (tier : Tier) (g : Group α) (p : Pool α) :
    (p.setGroup tier g).group tier = g := by
  cases tier <;> rfl

theorem group_setGroup_of_ne {tier tier' : Tier} (hne : tier' ≠ tier) (g : Group α) (p : Pool α) :
    (p.setGroup tier g).group tier' = p.group tier' := by
  cases tier <;> cases tier' <;> first | rfl | exact absurd rfl hne

@[simp] theorem primaryOnline_setGroup (tier : Tier) (g : Group α) (p : Pool α) :
    (p.setGroup tier g).primaryOnline = p.primaryOnline := by
  cases tier <;> rfl

/-! ### What a request and an outcome can do -/

/-- The look at who can be picked before the primaries are tried makes no difference to the attempt. -/
theorem attempt_eq_select (now : Instant) (p : Pool α) :
    (if 0 < p.primaryOnline || p.primary.anySelectable now then p.primary.select now
      else (none, p.primary)) = p.primary.select now := by
  split
  · rfl
  case isFalse h =>
    rcases Group.select_cases now p.primary with ⟨_, hnone⟩ | ⟨k, s, hleads, _⟩
    · exact hnone.symm
    · -- A leader is selectable, so the search before the pick would have found it.
      have hany : p.primary.anySelectable now = true :=
        List.any_eq_true.2 ⟨s, List.mem_of_getElem? hleads.get, hleads.selectable⟩
      simp [hany] at h

/-- A request is served by the primaries if one of them can be picked, else by the backups. -/
theorem next_cases (now : Instant) (p : Pool α) :
    (∃ pick, (p.primary.select now).1 = some pick ∧
      p.next now = (some { pick, source := .primary },
        p.setGroup .primary (p.primary.select now).2)) ∨
    ((p.primary.select now).1 = none ∧ ∃ pick, (p.backup.select now).1 = some pick ∧
      p.next now = (some { pick, source := .backup },
        p.setGroup .backup (p.backup.select now).2)) ∨
    ((p.primary.select now).1 = none ∧ (p.backup.select now).1 = none ∧
      p.next now = (none, p)) := by
  unfold next
  simp only [attempt_eq_select]
  rcases hprimary : p.primary.select now with ⟨_ | pick, g⟩
  · right
    rcases hbackup : p.backup.select now with ⟨_ | pick, g'⟩
    · exact .inr ⟨rfl, rfl, rfl⟩
    · exact .inl ⟨rfl, pick, rfl, rfl⟩
  · exact .inl ⟨pick, rfl, rfl⟩

/-- A request that always tries the primaries, and after them the backups. -/
def nextInOrder (now : Instant) (p : Pool α) : Option (Choice α) × Pool α :=
  match p.primary.select now with
  | (some pick, g) => (some { pick, source := .primary }, p.setGroup .primary g)
  | (none, g) =>
      let p := p.setGroup .primary g
      match p.backup.select now with
      | (some pick, g) => (some { pick, source := .backup }, p.setGroup .backup g)
      | (none, g) => (none, p.setGroup .backup g)

theorem next_eq_nextInOrder (now : Instant) (p : Pool α) : p.next now = p.nextInOrder now := by
  unfold next nextInOrder
  simp only [attempt_eq_select]
  rcases hprimary : p.primary.select now with ⟨_ | pick, g⟩
  · -- An attempt that fails puts the group back as it was.
    have hg : g = p.primary := by
      have hsame := Group.select_snd_of_none (congrArg Prod.fst hprimary)
      rwa [hprimary] at hsame
    rcases hbackup : p.backup.select now with ⟨_ | pick, g'⟩
    · have hg' : g' = p.backup := by
        have hsame := Group.select_snd_of_none (congrArg Prod.fst hbackup)
        rwa [hbackup] at hsame
      simp [setGroup, hbackup, hg, hg']
    · simp [setGroup, hbackup, hg]
  · rfl

theorem next_snd_of_none {now : Instant} {p : Pool α} (h : (p.next now).1 = none) :
    (p.next now).2 = p := by
  rcases next_cases now p with ⟨pick, _, heq⟩ | ⟨_, pick, _, heq⟩ | ⟨_, _, heq⟩
  · simp [heq] at h
  · simp [heq] at h
  · rw [heq]

/-- The result `r` of an outcome for the server `id` whose transition, if any, is `told`. -/
def Report (told : Transition) (id : ServerId) (p : Pool α) (r : Option (Server α) × Pool α) : Prop :=
  (p.slot? id = none ∧ r = (none, p)) ∨
    ∃ (s s' : Slot α) (t : Transition), p.slot? id = some s ∧ Slot.Turn t s s' ∧
      (t = .none ∨ t = told) ∧
      r = (if t = told then some s.server else none,
        { p.setSlot id s' with primaryOnline := t.recount p.primaryOnline })

theorem recount_none_setSlot (id : ServerId) (s : Slot α) (p : Pool α) :
    ({ p.setSlot id s with primaryOnline := Transition.none.recount p.primaryOnline } : Pool α) =
      p.setSlot id s := by
  have honline : (p.setSlot id s).primaryOnline = p.primaryOnline := by
    simp [setSlot]
  rw [Transition.recount, ← honline]

theorem report_reportSuccess (id : ServerId) (p : Pool α) : Report .up id p (p.reportSuccess id) := by
  cases hs : p.slot? id with
  | none => exact .inl ⟨hs, by simp [Pool.reportSuccess, hs]⟩
  | some s =>
      refine .inr ⟨s, s.recordSuccess.1, s.recordSuccess.2, hs, s.turn_recordSuccess,
        s.recordSuccess_transition, ?_⟩
      rcases s.recordSuccess_transition with ht | ht
      · rw [ht, recount_none_setSlot]
        simp [Pool.reportSuccess, hs, ht]
      · simp [Pool.reportSuccess, hs, ht, Transition.recount, setSlot, s.turn_recordSuccess.server]

theorem report_reportFailure {p : Pool α}
    (hp : ∀ (id : ServerId) (s : Slot α), p.slot? id = some s → s.health.Sound s.policy)
    (now : Instant) (id : ServerId) : Report .down id p (p.reportFailure now id) := by
  cases hs : p.slot? id with
  | none => exact .inl ⟨hs, by simp [Pool.reportFailure, hs]⟩
  | some s =>
      have hhealth := hp id s hs
      have hturn := Slot.turn_recordFailure hhealth now
      refine .inr ⟨s, (s.recordFailure now).1, (s.recordFailure now).2, hs, hturn,
        Slot.recordFailure_transition hhealth now, ?_⟩
      rcases Slot.recordFailure_transition hhealth now with ht | ht
      · rw [ht, recount_none_setSlot]
        simp [Pool.reportFailure, hs, ht]
      · simp [Pool.reportFailure, hs, ht, Transition.recount, setSlot, hturn.server]

namespace Sound

variable {p : Pool α}

theorem empty : ({} : Pool α).Sound where
  group := by
    intro tier
    cases tier <;> exact Group.Sound.empty _
  online := rfl

/-- Replacing a tier keeps a pool sound, if the new count is that of the new primaries. -/
theorem setGroup (hp : p.Sound) {tier : Tier} {g : Group α} {n : Nat} (hg : g.Sound tier)
    (hn : n = (p.setGroup tier g).primary.upCount) :
    ({ p.setGroup tier g with primaryOnline := n } : Pool α).Sound where
  group := by
    intro tier'
    have hgroup : ({ p.setGroup tier g with primaryOnline := n } : Pool α).group tier' =
        (p.setGroup tier g).group tier' := by
      cases tier' <;> rfl
    rw [hgroup]
    -- The tier that was replaced is sound by assumption, the other one is as it was.
    by_cases htier : tier' = tier
    · subst htier
      rw [group_setGroup_self]
      exact hg
    · rw [group_setGroup_of_ne htier]
      exact hp.group tier'
  online := hn

/-- A pool with new slots of one tier, of which no server went down or came back. -/
theorem setGroup_of_upCount (hp : p.Sound) {tier : Tier} {g : Group α} (hg : g.Sound tier)
    (hup : g.upCount = (p.group tier).upCount) : (p.setGroup tier g).Sound := by
  have hn : p.primaryOnline = (p.setGroup tier g).primary.upCount := by
    cases tier with
    | primary => exact hp.online.trans hup.symm
    | backup => exact hp.online
  have hsound := hp.setGroup hg hn
  cases tier <;> exact hsound

theorem handler (hp : p.Sound) (handler : Option (Handler α)) :
    ({ p with handler } : Pool α).Sound where
  group := by
    intro tier
    cases tier with
    | primary => exact hp.group .primary
    | backup => exact hp.group .backup
  online := hp.online

theorem healthy (hp : p.Sound) (id : ServerId) (s : Slot α) (hs : p.slot? id = some s) :
    s.health.Sound s.policy :=
  (hp.group id.tier).healthy s (List.mem_of_getElem? hs)

/-! ### The changes of state -/

theorem register (hp : p.Sound) (options : ServerOptions) (data : α) :
    (p.register options data).2.Sound := by
  have hg : ((p.group options.tier).push
      { id := { tier := options.tier, index := (p.group options.tier).size }, options, data }).Sound
        options.tier :=
    (hp.group options.tier).push rfl rfl
  unfold Pool.register
  cases htier : options.tier with
  | primary =>
      rw [htier] at hg
      refine hp.setGroup hg ?_
      exact (congrArg (· + 1) hp.online).trans (Group.upCount_push _ _).symm
  | backup =>
      rw [htier] at hg
      exact hp.setGroup hg hp.online

theorem next (hp : p.Sound) (now : Instant) : (p.next now).2.Sound := by
  have hprimary : (p.setGroup .primary (p.primary.select now).2).Sound :=
    hp.setGroup_of_upCount ((hp.group .primary).select now) (Group.upCount_select now p.primary)
  have hbackup : (p.setGroup .backup (p.backup.select now).2).Sound :=
    hp.setGroup_of_upCount ((hp.group .backup).select now) (Group.upCount_select now p.backup)
  rcases next_cases now p with ⟨pick, _, heq⟩ | ⟨_, pick, _, heq⟩ | ⟨_, _, heq⟩
  · rw [heq]
    exact hprimary
  · rw [heq]
    exact hbackup
  · rw [heq]
    exact hp

/-- Nothing that happens to a backup is a transition. -/
theorem primary_of_turn (hp : p.Sound) {id : ServerId} {s s' : Slot α} {t : Transition}
    (hs : p.slot? id = some s) (turn : Slot.Turn t s s') (ht : t ≠ .none) : id.tier = .primary := by
  have htier := (hp.group id.tier).tier_eq s (List.mem_of_getElem? hs)
  have htracked := turn.tracked ht
  cases hid : id.tier with
  | primary => rfl
  | backup =>
      cases hbackup : s.server.options.isBackup with
      | false => simp [ServerOptions.tier, hbackup, hid] at htier
      | true =>
          simp [Server.tracked, ServerOptions.policy, Policy.tracking, hbackup] at htracked

theorem report (hp : p.Sound) {told : Transition} {id : ServerId} {r : Option (Server α) × Pool α}
    (h : Report told id p r) : r.2.Sound := by
  rcases h with ⟨_, rfl⟩ | ⟨s, s', t, hs, turn, _, rfl⟩
  · exact hp
  · have hg := (hp.group id.tier).set hs turn
    refine hp.setGroup hg ?_
    -- A transition moves the count, and it is one of a primary; without one neither count moves.
    by_cases ht : t = .none
    · subst ht
      cases htier : id.tier with
      | primary =>
          have hs' : (p.group .primary).slots[id.index]? = some s := htier ▸ hs
          exact hp.online.trans (Group.upCount_set hs' turn).symm
      | backup => exact hp.online
    · have htier := hp.primary_of_turn hs turn ht
      have hs' : (p.group .primary).slots[id.index]? = some s := htier ▸ hs
      rw [htier, hp.online]
      exact (Group.upCount_set hs' turn).symm

theorem reportSuccess (hp : p.Sound) (id : ServerId) : (p.reportSuccess id).2.Sound :=
  hp.report (report_reportSuccess id p)

theorem reportFailure (hp : p.Sound) (now : Instant) (id : ServerId) :
    (p.reportFailure now id).2.Sound :=
  hp.report (report_reportFailure hp.healthy now id)

/-- A failure that takes a server down finds the count of servers that are up positive. -/
theorem primaryOnline_pos_of_report (hp : p.Sound) {id : ServerId} {r : Option (Server α) × Pool α}
    (h : Report .down id p r) (hlost : r.1.isSome = true) : 0 < p.primaryOnline := by
  rcases h with ⟨_, rfl⟩ | ⟨s, s', t, hs, turn, rfl | rfl, rfl⟩
  · simp at hlost
  · simp at hlost
  · have htier := hp.primary_of_turn hs turn (by simp)
    have hs' : (p.group .primary).slots[id.index]? = some s := htier ▸ hs
    rw [hp.online]
    exact List.countP_pos_iff.2 ⟨s, List.mem_of_getElem? hs', by simp [turn.shows_isDown.1]⟩

end Sound
end Pool

end TieredPool
