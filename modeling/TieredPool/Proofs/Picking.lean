import TieredPool.Proofs.Availability
import TieredPool.Proofs.Words

/-!
# Picking — all that one pick does

* `Group.foremost` — the positions that a pick may hand out, by credit and weight alone.
* `Slot.Passed` — what a pick makes of one slot.
* `Group.isLeast_of_leads` — the leader is the first of the foremost.
* `Group.sum_credit_charged` — what the leader pays is what all have earned.
* `pick_exact` — a pick described without its search, exact and in words.
-/

namespace TieredPool

open Finset

variable {α : Type}

/-- The positions of those who can be picked and, once all who can be have earned their weights, have the
most credit. -/
def Group.foremost (now : Instant) (g : Group α) : Set ℕ :=
  {i | i ∈ g.candidates now ∧
    ∀ j ∈ g.candidates now, g.creditAt j + g.weightAt j ≤ g.creditAt i + g.weightAt i}

/-- What a pick makes of the slot `s`. It is `s` that is handed out if `picked`; then it pays `cost`. -/
structure Slot.Passed (now : Instant) (cost : ℕ) (picked : Bool) (s s' : Slot α) : Prop where
  server : s'.server = s.server
  failCounter : s'.health.failCounter = s.health.failCounter
  isDown : s'.isDown = s.isDown
  skipped : s.selectable now = false → s' = s
  credit : s.selectable now = true → s'.credit = s.credit + s.weight - if picked then (cost : ℤ) else 0
  timer : s'.health.timer =
    if picked && s.isDown then .recoveryDeadline (s.policy.deadline now) else s.health.timer

theorem Slot.passed_accrue (now : Instant) (cost : ℕ) (s : Slot α) :
    s.Passed now cost false (s.accrue now) where
  server := s.accrue_server
  failCounter := by rw [accrue_health]
  isDown := s.accrue_isDown
  skipped := fun hsel => by simp [accrue, hsel]
  credit := fun hsel => by simp [accrue_credit, hsel]
  timer := by rw [accrue_health]; rfl

theorem Slot.passed_handOut {now : Instant} (cost : ℕ) {s : Slot α} (hsel : s.selectable now = true) :
    s.Passed now cost true ((s.accrue now).handOut now cost) where
  server := s.accrue_server
  failCounter := by rw [handOut_health, accrue_health, Health.beginProbe_failCounter]
  isDown := by rw [handOut_isDown, accrue_isDown]
  skipped := fun hskip => by simp [hsel] at hskip
  credit := fun _ => by simp [accrue_credit, hsel]
  timer := by
    rw [handOut_health, accrue_health, accrue_policy, Health.beginProbe_timer hsel]
    rfl

namespace Group

variable {now : Instant} {g : Group α} {k : ℕ} {s : Slot α}

/-- Nobody exceeds the leader, and those before it have less. -/
theorem isLeast_of_leads (h : g.Leads now k s) : IsLeast (g.foremost now) k := by
  have hk : g.creditAt k + g.weightAt k = s.credit + s.weight := by
    rw [creditAt_of_getElem? h.get, weightAt_of_getElem? h.get]
  constructor
  · refine ⟨mem_candidates.2 ⟨s, h.get, h.selectable⟩, fun j hj => ?_⟩
    obtain ⟨t, ht, hsel⟩ := mem_candidates.1 hj
    rw [hk, creditAt_of_getElem? ht, weightAt_of_getElem? ht]
    exact h.greatest j t ht hsel
  · rintro i ⟨hi, hmost⟩
    by_contra hik
    obtain ⟨t, ht, hsel⟩ := mem_candidates.1 hi
    have hle := hmost k (mem_candidates.2 ⟨s, h.get, h.selectable⟩)
    rw [hk, creditAt_of_getElem? ht, weightAt_of_getElem? ht] at hle
    have hlt := h.first i t (not_le.1 hik) ht hsel
    omega

theorem passed_of_leads (h : g.Leads now k s) {i : ℕ} {t : Slot α} (ht : g.slots[i]? = some t) :
    ∃ t', (g.charged now k).slots[i]? = some t' ∧
      t.Passed now (∑ j ∈ g.candidates now, g.weightAt j) (i = k) t' := by
  rw [charged_getElem?, ht, sum_candidates]
  refine ⟨_, rfl, ?_⟩
  by_cases hik : i = k
  · subst hik
    obtain rfl : t = s := Option.some.inj (ht.symm.trans h.get)
    simpa using Slot.passed_handOut (selectableWeight now g.slots) h.selectable
  · simpa [hik] using t.passed_accrue now (selectableWeight now g.slots)

/-- What the leader pays is what all have earned. -/
theorem sum_credit_charged (h : g.Leads now k s) :
    ((g.charged now k).slots.map Slot.credit).sum = (g.slots.map Slot.credit).sum := by
  have hsize : (g.charged now k).size = g.size := by simp [charged, size]
  have hk : k ∈ range g.size := g.candidates_subset now (turnover_of_leads h).mem
  have hall : range g.size ∩ g.candidates now = g.candidates now :=
    inter_eq_right.2 (g.candidates_subset now)
  rw [← sum_creditAt, ← sum_creditAt, hsize, (turnover_of_leads h).sum_credit, hall, if_pos hk]
  ring

end Group

/-- A pick at `now` fails exactly if nobody can be picked, and then changes nothing. Otherwise it hands out
the first of those who, with their weights, have the most credit, and the cursor points there. All who can
be picked earn their weights, and the one that is picked pays for all, so that the credits add up to what
they did; if it was down, its deadline is a timeout away from now. All else in the slots is as before.

So it is with exact credits, whatever state the tier is in. In words, one pass over the slots gives the
same, or it overflows, exactly if a number that the exact pick computes does not fit. -/
theorem pick_exact (now : Instant) :
    (∀ g : Group α,
      ((g.select now).1 = none ↔ ∀ s ∈ g.slots, s.selectable now = false) ∧
      ((g.select now).1 = none → (g.select now).2 = g) ∧
      ∀ pick g', g.select now = (some pick, g') →
        ∃ k s, IsLeast (g.foremost now) k ∧ g.slots[k]? = some s ∧
          pick.server = s.server ∧ pick.probe = s.isDown ∧
          g'.cursor = some k ∧ g'.size = g.size ∧
          (∀ (i : ℕ) (t : Slot α), g.slots[i]? = some t → ∃ t', g'.slots[i]? = some t' ∧
            t.Passed now (∑ j ∈ g.candidates now, g.weightAt j) (i = k) t') ∧
          (g'.slots.map Slot.credit).sum = (g.slots.map Slot.credit).sum) ∧
    ∀ w : WordGroup α,
      (w.select now = none ↔ ∃ v ∈ w.exact.computed now, ¬ FitsWord v) ∧
      ∀ pick w', w.select now = some (pick, w') → w.exact.select now = (pick, w'.exact) := by
  refine ⟨fun g => ⟨Group.select_fst_eq_none_iff, Group.select_snd_of_none, ?exact⟩,
    fun w => ⟨?overflow, fun _ _ => WordGroup.exact_select_of_select⟩⟩
  case exact =>
    intro pick g' hpick
    rcases g.select_cases now with ⟨_, heq⟩ | ⟨k, s, hleads, heq⟩
    · rw [heq] at hpick
      cases hpick
    · rw [heq] at hpick
      cases hpick
      exact ⟨k, s, Group.isLeast_of_leads hleads, hleads.get, rfl, rfl, rfl,
        by simp [Group.charged, Group.size], fun i t => Group.passed_of_leads hleads,
        Group.sum_credit_charged hleads⟩
  case overflow =>
    constructor
    · intro hnone
      by_contra hall
      push Not at hall
      obtain ⟨w', hselect, _⟩ := WordGroup.select_exact hall
      rw [hnone] at hselect
      cases hselect
    · rintro ⟨v, hv, hfits⟩
      cases hselect : w.select now with
      | none => rfl
      | some result => exact absurd (WordGroup.fits_of_select hselect v hv) hfits

/-- A server that stays down, one whose deadline has come, and one in an open window that is level with it
once both have earned their weights. -/
def rivals : WordGroup Unit where
  slots :=
    [ { server := { id := ⟨.primary, 0⟩, options := .primary 9, data := () }, credit := 7,
        health := { failCounter := 1, timer := .recoveryDeadline ⟨6⟩ } },
      { server := { id := ⟨.primary, 1⟩, options := .primary 3, data := () }, credit := 2,
        health := { failCounter := 1, timer := .recoveryDeadline ⟨4⟩ } },
      { server := { id := ⟨.primary, 2⟩, options := { weight := 1, maxFails := 2 }, data := () },
        credit := 4, health := { failCounter := 1, timer := .windowExpiry ⟨8⟩ } } ]

theorem pick_exact_rivals :
    (∃ pick w', rivals.select ⟨5⟩ = some (some pick, w') ∧
      rivals.exact.select ⟨5⟩ = (some pick, w'.exact) ∧ pick.probe = true ∧
      IsLeast (rivals.exact.foremost ⟨5⟩) 1 ∧ w'.exact.slots.map Slot.credit = [7, 1, 5] ∧
      (w'.exact.slots.map Slot.credit).sum = (rivals.exact.slots.map Slot.credit).sum) ∧
    let resting : Group Unit := { rivals.exact with slots := rivals.exact.slots.take 1 }
    (resting.select ⟨5⟩).1 = none ∧ (resting.select ⟨5⟩).2 = resting := by
  obtain ⟨hexact, hwords⟩ := @pick_exact Unit ⟨5⟩
  constructor
  · obtain ⟨pick, w', hselect, hprobe, hcursor, hcredits⟩ : ∃ pick w',
        rivals.select ⟨5⟩ = some (some pick, w') ∧ pick.probe = true ∧ w'.cursor = some 1 ∧
          w'.exact.slots.map Slot.credit = [7, 1, 5] := ⟨_, _, rfl, rfl, rfl, rfl⟩
    have hpick := (hwords rivals).2 (some pick) w' hselect
    obtain ⟨k, s, hleast, _, _, _, hk, _, _, hsum⟩ := (hexact rivals.exact).2.2 pick w'.exact hpick
    obtain rfl : 1 = k := Option.some.inj (hcursor.symm.trans hk)
    exact ⟨pick, w', hselect, hpick, hprobe, hleast, hcredits, hsum⟩
  · intro resting
    have hnone : (resting.select ⟨5⟩).1 = none := (hexact resting).1.2 (by decide)
    exact ⟨hnone, (hexact resting).2.1 hnone⟩

end TieredPool
