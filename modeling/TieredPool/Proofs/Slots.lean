import TieredPool.Proofs.Standing

/-!
# Slots — one slot among the others

* `Pool.slot?_setSlot`, `Pool.slot?_setSlot_of_ne` — what is found after a slot has been written.
* `Pool.Report.slot?_of_ne`, `Pool.slot?_register`, `Pool.slot?_handler` — changes that leave a slot alone.
* `Pool.reportFailure_of_down`, `Pool.reportSuccess_of_fresh` — outcomes that change nothing.
-/

namespace TieredPool

variable {α : Type}

namespace Pool

variable {p : Pool α} {id : ServerId} {s : Slot α}

theorem setSlot_self (h : p.slot? id = some s) : p.setSlot id s = p := by
  have hset : (p.group id.tier).slots.set id.index s = (p.group id.tier).slots := by
    obtain ⟨hlt, hget⟩ := List.getElem?_eq_some_iff.1 h
    rw [← hget, List.set_getElem_self]
  simp only [setSlot, hset]
  cases id.tier <;> rfl

theorem slot?_setSlot (h : p.slot? id = some s) (s' : Slot α) (n : Nat) :
    ({ p.setSlot id s' with primaryOnline := n } : Pool α).slot? id = some s' := by
  have hlt := (List.getElem?_eq_some_iff.1 h).1
  unfold setSlot slot?
  cases htier : id.tier <;> rw [htier] at hlt <;> exact List.getElem?_set_self hlt

theorem slot?_setSlot_of_ne {id' : ServerId} (hne : id' ≠ id) (s : Slot α) (n : Nat) (p : Pool α) :
    ({ p.setSlot id s with primaryOnline := n } : Pool α).slot? id' = p.slot? id' := by
  have hgroup : ({ p.setSlot id s with primaryOnline := n } : Pool α).slot? id' =
      (p.setSlot id s).slot? id' := by
    unfold slot?
    cases id'.tier <;> rfl
  rw [hgroup, slot?, slot?, setSlot]
  by_cases htier : id'.tier = id.tier
  case neg => rw [group_setGroup_of_ne htier]
  case pos =>
    have hindex : id.index ≠ id'.index := by
      intro hindex
      apply hne
      cases id
      cases id'
      simp_all
    rw [htier, group_setGroup_self]
    exact List.getElem?_set_ne hindex

theorem Report.slot?_of_ne {told : Transition} {r : Option (Server α) × Pool α}
    (h : Report told id p r) {id' : ServerId} (hne : id' ≠ id) : r.2.slot? id' = p.slot? id' := by
  rcases h with ⟨_, rfl⟩ | ⟨s, s', t, _, _, _, rfl⟩
  · rfl
  · exact slot?_setSlot_of_ne hne s' _ p

/-- A success that is reported goes to the slot, and tells whether it came back. -/
theorem reportSuccess_slot (h : p.slot? id = some s) :
    (p.reportSuccess id).2.slot? id = some s.recordSuccess.1 ∧
      (p.reportSuccess id).1 = if s.recordSuccess.2 = .up then some s.server else none := by
  by_cases hup : s.recordSuccess.2 = .up
  · simp only [reportSuccess, h, hup, if_true]
    exact ⟨slot?_setSlot h _ _, rfl⟩
  · simp only [reportSuccess, h, hup, if_false]
    exact ⟨slot?_setSlot h _ (p.setSlot id s.recordSuccess.1).primaryOnline, trivial⟩

theorem reportFailure_slot (h : p.slot? id = some s) (now : Instant) :
    (p.reportFailure now id).2.slot? id = some (s.recordFailure now).1 ∧
      (p.reportFailure now id).1 = if (s.recordFailure now).2 = .down then some s.server else none := by
  by_cases hdown : (s.recordFailure now).2 = .down
  · simp only [reportFailure, h, hdown, if_true]
    exact ⟨slot?_setSlot h _ _, rfl⟩
  · simp only [reportFailure, h, hdown, if_false]
    exact ⟨slot?_setSlot h _ (p.setSlot id (s.recordFailure now).1).primaryOnline, trivial⟩

/-- Failures of a server that is down change nothing at all. -/
theorem reportFailure_of_down (h : p.slot? id = some s) (hdown : s.isDown = true) (now : Instant) :
    p.reportFailure now id = (none, p) := by
  have hhealth : s.health.recordFailure s.policy now = (s.health, .none) := by
    have : s.health.isDown = true := hdown
    simp [Health.recordFailure, this]
  have hrecord : s.recordFailure now = (s, .none) := by simp [Slot.recordFailure, hhealth]
  simp [reportFailure, h, hrecord, setSlot_self h]

theorem reportSuccess_of_down (h : p.slot? id = some s) (hdown : s.isDown = true)
    (htracked : s.server.tracked = true) : (p.reportSuccess id).1 = some s.server := by
  have hpolicy : s.policy.tracking = true := htracked
  have hhealth : s.health.isDown = true := hdown
  simp [reportSuccess, h, Slot.recordSuccess, Health.recordSuccess, hpolicy, hhealth]

/-- A success changes nothing about a server against which nothing is held. -/
theorem reportSuccess_of_fresh (h : ∀ s, p.slot? id = some s → s.health = {}) :
    p.reportSuccess id = (none, p) := by
  cases hs : p.slot? id with
  | none => simp [reportSuccess, hs]
  | some s =>
      have hhealth : s.health.recordSuccess s.policy = (s.health, .none) := by
        rw [h s hs]
        cases htracking : s.policy.tracking <;> simp [Health.recordSuccess, htracking]
      have hrecord : s.recordSuccess = (s, .none) := by simp [Slot.recordSuccess, hhealth]
      simp [reportSuccess, hs, hrecord, setSlot_self hs]

theorem slot?_register (h : p.slot? id = some s) (options : ServerOptions) (data : α) :
    (p.register options data).2.slot? id = some s := by
  rw [slot?, group_register]
  split
  · exact (List.getElem?_append_left (List.getElem?_eq_some_iff.1 h).1).trans h
  · exact h

theorem slot?_handler (handler : Option (Handler α)) (id : ServerId) (p : Pool α) :
    ({ p with handler } : Pool α).slot? id = p.slot? id := by
  unfold slot?
  cases id.tier <;> rfl

end Pool

end TieredPool
