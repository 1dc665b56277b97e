import TieredPool.Proofs.Health

/-!
# Selection — what one pick does

`Group.select` raises credits, looks for a leader and charges it. This module says once what can
come of that, so that no later proof opens `select` again:

* `Slot.accrue_health`, `Slot.handOut_server` and their like — what earning and paying leave alone;
* `Group.Leads` — the slot that a pick hands out, described without the search for it;
* `Group.charged` — the group after its leader has been handed out;
* `Group.select_cases` — a pick fails and changes nothing, or it hands out the leader.
-/

namespace TieredPool

variable {α : Type} {now : Instant}

/-! ## Earning and paying -/

namespace Slot

@[simp] theorem accrue_server (s : Slot α) : (s.accrue now).server = s.server := by
  unfold accrue
  split <;> rfl

@[simp] theorem accrue_health (s : Slot α) : (s.accrue now).health = s.health := by
  unfold accrue
  split <;> rfl

@[simp] theorem accrue_weight (s : Slot α) : (s.accrue now).weight = s.weight := by
  simp [weight]

@[simp] theorem accrue_policy (s : Slot α) : (s.accrue now).policy = s.policy := by
  simp [policy]

@[simp] theorem accrue_isDown (s : Slot α) : (s.accrue now).isDown = s.isDown := by
  simp [isDown]

@[simp] theorem accrue_selectable (t : Instant) (s : Slot α) :
    (s.accrue now).selectable t = s.selectable t := by
  simp [selectable]

theorem accrue_credit (s : Slot α) :
    (s.accrue now).credit = s.credit + if s.selectable now then (s.weight : Int) else 0 := by
  unfold accrue
  split <;> simp_all

@[simp] theorem handOut_server (total : Nat) (s : Slot α) :
    (s.handOut now total).server = s.server := rfl

@[simp] theorem handOut_credit (total : Nat) (s : Slot α) :
    (s.handOut now total).credit = s.credit - total := rfl

@[simp] theorem handOut_health (total : Nat) (s : Slot α) :
    (s.handOut now total).health = s.health.beginProbe s.policy now := rfl

end Slot

@[simp] theorem Slot.handOut_isDown (total : Nat) (s : Slot α) :
    (s.handOut now total).isDown = s.isDown := by
  simp [Slot.isDown, Health.isDown_beginProbe]

namespace Group

/-! ## The search for the leader -/

theorem leader?_eq_none_iff {l : List (Slot α)} :
    leader? now l = none ↔ ∀ s ∈ l, s.selectable now = false := by
  induction l with
  | nil => simp [leader?]
  | cons s rest ih =>
      cases hrest : leader? now rest with
      | none =>
          have hnone : ∀ t ∈ rest, t.selectable now = false := ih.1 hrest
          simp only [leader?, hrest, List.forall_mem_cons]
          by_cases hs : s.selectable now = true
          · simp [hs]
          · simpa [hs] using hnone
      | some found =>
          have hsome : ¬ ∀ t ∈ rest, t.selectable now = false := by
            intro hall
            have hrest' := ih.2 hall
            rw [hrest] at hrest'
            cases hrest'
          simp only [leader?, hrest, List.forall_mem_cons]
          constructor
          · intro h
            split at h <;> cases h
          · rintro ⟨_, hall⟩
            exact absurd hall hsome

/-- The search finds a selectable slot that no other selectable one exceeds, and the first such. -/
theorem leader?_spec {l : List (Slot α)} {k : Nat} {s : Slot α} (h : leader? now l = some (k, s)) :
    l[k]? = some s ∧ s.selectable now = true ∧
      (∀ (j : Nat) (t : Slot α), l[j]? = some t → t.selectable now = true → t.credit ≤ s.credit) ∧
      ∀ (j : Nat) (t : Slot α), j < k → l[j]? = some t → t.selectable now = true → t.credit < s.credit := by
  induction l generalizing k s with
  | nil => simp [leader?] at h
  | cons u rest ih =>
      cases hrest : leader? now rest with
      | none =>
          have hnone := leader?_eq_none_iff.1 hrest
          simp only [leader?, hrest] at h
          split at h
          case isFalse => cases h
          case isTrue hu =>
            cases h
            -- Nobody in the rest can be picked, so `u` has no rival.
            refine ⟨rfl, hu, ?_, by omega⟩
            intro j t ht hsel
            cases j with
            | zero =>
                cases ht
                exact Int.le_refl _
            | succ j =>
                have hmem : t ∈ rest := List.mem_of_getElem? (by simpa using ht)
                simp [hnone t hmem] at hsel
      | some found =>
          rcases found with ⟨i, best⟩
          obtain ⟨hat, hsel, hmax, hfirst⟩ := ih hrest
          simp only [leader?, hrest] at h
          split at h
          case isTrue hu =>
            simp only [Bool.and_eq_true, decide_eq_true_eq] at hu
            -- On a tie with the leader of the rest `u` wins, as it comes first.
            cases h
            refine ⟨rfl, hu.1, ?_, by omega⟩
            intro j t ht hts
            cases j with
            | zero =>
                cases ht
                exact Int.le_refl _
            | succ j =>
                exact Int.le_trans (hmax j t (by simpa using ht) hts) hu.2
          case isFalse hu =>
            cases h
            have hbelow : u.selectable now = true → u.credit < s.credit := by
              intro hus
              simpa [hus] using hu
            refine ⟨by simpa using hat, hsel, ?_, ?_⟩
            · intro j t ht hts
              cases j with
              | zero =>
                  cases ht
                  exact Int.le_of_lt (hbelow hts)
              | succ j => exact hmax j t (by simpa using ht) hts
            · intro j t hj ht hts
              cases j with
              | zero =>
                  cases ht
                  exact hbelow hts
              | succ j => exact hfirst j t (by omega) (by simpa using ht) hts

/-! ## One pick -/

/-- The slot `s` at position `k` is the one to hand out: once every selectable slot has earned its
weight, none has more credit than `s`, and those before it have less. -/
structure Leads (now : Instant) (g : Group α) (k : Nat) (s : Slot α) : Prop where
  get : g.slots[k]? = some s
  selectable : s.selectable now = true
  greatest : ∀ (j : Nat) (t : Slot α), g.slots[j]? = some t → t.selectable now = true →
    t.credit + t.weight ≤ s.credit + s.weight
  first : ∀ (j : Nat) (t : Slot α), j < k → g.slots[j]? = some t → t.selectable now = true →
    t.credit + t.weight < s.credit + s.weight

/-- The group after the slot at position `k` has been handed out. -/
def charged (now : Instant) (k : Nat) (g : Group α) : Group α where
  slots := g.slots.mapIdx fun j t =>
    if j = k then (t.accrue now).handOut now (selectableWeight now g.slots) else t.accrue now
  cursor := some k

theorem charged_getElem? (k j : Nat) (g : Group α) :
    (g.charged now k).slots[j]? = (g.slots[j]?).map fun t =>
      if j = k then (t.accrue now).handOut now (selectableWeight now g.slots)
      else t.accrue now := by
  simp [charged]

theorem leads_of_leader? {g : Group α} {k : Nat} {w : Slot α}
    (h : leader? now (g.slots.map (·.accrue now)) = some (k, w)) :
    ∃ s : Slot α, w = s.accrue now ∧ g.Leads now k s := by
  obtain ⟨hat, hsel, hmax, hfirst⟩ := leader?_spec h
  obtain ⟨s, hs, rfl⟩ : ∃ s : Slot α, g.slots[k]? = some s ∧ s.accrue now = w := by
    simpa [List.getElem?_map] using hat
  have hcredit : ∀ t : Slot α, t.selectable now = true →
      (t.accrue now).credit = t.credit + t.weight := by
    intro t ht
    simp [Slot.accrue_credit, ht]
  have hs_sel : s.selectable now = true := by simpa using hsel
  refine ⟨s, rfl, hs, hs_sel, ?_, ?_⟩
  · intro j t ht hts
    have := hmax j (t.accrue now) (by simp [ht]) (by simpa using hts)
    rwa [hcredit t hts, hcredit s hs_sel] at this
  · intro j t hj ht hts
    have := hfirst j (t.accrue now) hj (by simp [ht]) (by simpa using hts)
    rwa [hcredit t hts, hcredit s hs_sel] at this

/-- A pick fails, if nothing is selectable, and changes nothing; or it hands out the leader. -/
theorem select_cases (now : Instant) (g : Group α) :
    ((∀ s ∈ g.slots, s.selectable now = false) ∧ g.select now = (none, g)) ∨
      ∃ (k : Nat) (s : Slot α), g.Leads now k s ∧
        g.select now = (some { server := s.server, probe := s.isDown }, g.charged now k) := by
  cases hl : leader? now (g.slots.map (·.accrue now)) with
  | none =>
      left
      refine ⟨?_, by simp [select, hl]⟩
      simpa using leader?_eq_none_iff.1 hl
  | some found =>
      right
      rcases found with ⟨k, w⟩
      obtain ⟨s, rfl, hs⟩ := leads_of_leader? hl
      refine ⟨k, s, hs, ?_⟩
      -- Writing the paid slot back at `k` is what `charged` says position by position.
      have hslots :
          (g.slots.map (·.accrue now)).set k
              ((s.accrue now).handOut now (selectableWeight now g.slots)) =
            (g.charged now k).slots := by
        apply List.ext_getElem?
        intro j
        rw [charged_getElem?, List.getElem?_set, List.getElem?_map]
        by_cases hjk : j = k
        · subst hjk
          obtain ⟨hlt, hget⟩ := List.getElem?_eq_some_iff.1 hs.get
          simp [hlt, hget]
        · simp [hjk, Ne.symm hjk]
      simp only [select, hl, hslots]
      simp [charged]

theorem select_snd_of_none {g : Group α} (h : (g.select now).1 = none) : (g.select now).2 = g := by
  rcases select_cases now g with ⟨_, heq⟩ | ⟨k, s, _, heq⟩
  · rw [heq]
  · rw [heq] at h
    cases h

/-- What neither earning nor being handed out changes in a slot, a pick changes in none. -/
theorem map_slots_select {β : Type} (f : Slot α → β) (now : Instant) (g : Group α)
    (hearn : ∀ s, f (s.accrue now) = f s) (hout : ∀ total s, f (s.handOut now total) = f s) :
    (g.select now).2.slots.map f = g.slots.map f := by
  rcases select_cases now g with ⟨_, hnone⟩ | ⟨k, s, _, hsome⟩
  · rw [hnone]
  · rw [hsome]
    apply List.ext_getElem?
    intro j
    simp only [List.getElem?_map, charged_getElem?, Option.map_map]
    congr 1
    funext t
    simp only [Function.comp_apply]
    split
    · rw [hout, hearn]
    · rw [hearn]

end Group

end TieredPool
