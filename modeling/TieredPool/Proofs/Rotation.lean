import Mathlib.Algebra.Order.Floor.Div
import TieredPool.Proofs.Proportion

/-!
# Rotation — a tier that starts with nothing owed

From level credits the rotation is as even as whole picks can be. The credits of those who take part
cancel out at all times, so the one that is picked has had something to pay with, and nobody is ever
further ahead of its share than by part of one pick.

* `Group.Evened` — credits that cancel out, none of them as low as what a pick costs.
* `Group.pickCount_le_ceilDiv` — nobody is picked more often than its share, rounded up.
* `Group.pickCount_of_cycle` — after whole rounds everybody has been picked by weight.
* `Group.steady_of_spotless` — where nobody has failed, everybody can be picked.
-/

namespace TieredPool

open Finset

variable {α : Type}

namespace Group

variable {S : Finset ℕ} {g : Group α} {m : Move α} {moves : List (Move α)} {i : ℕ}

/-- The credits at `S` cancel out, and none of them is as low as what a pick costs. -/
structure Evened (S : Finset ℕ) (g : Group α) : Prop where
  sum_eq : ∑ i ∈ S, g.creditAt i = 0
  low : ∀ i ∈ S, -(∑ j ∈ S, (g.weightAt j : ℤ)) < g.creditAt i

theorem Evened.of_level (hlevel : ∀ i, g.creditAt i = 0)
    (hpos : 0 < ∑ j ∈ S, (g.weightAt j : ℤ)) : g.Evened S where
  sum_eq := sum_eq_zero fun i _ => hlevel i
  low := fun i _ => by
    rw [hlevel]
    exact neg_neg_of_pos hpos

/-- Whoever is picked among credits that cancel out has more than nothing to pay with. -/
theorem Evened.turnover {w c c' : ℕ → ℤ} {k : ℕ} (h : Turnover S w k c c') (hsum : ∑ i ∈ S, c i = 0)
    (hpos : 0 < ∑ j ∈ S, w j) : 0 < c k + w k := by
  by_contra hpay
  -- Nobody would have anything then, though all have just earned their weights.
  have hnone : ∑ i ∈ S, (c i + w i) ≤ 0 :=
    sum_nonpos fun i hi => (h.greatest i hi).trans (not_lt.1 hpay)
  rw [sum_add_distrib, hsum] at hnone
  linarith

theorem Evened.play (hsteady : g.Steady S moves) (hS : S ⊆ range g.size)
    (hpos : 0 < ∑ j ∈ S, (g.weightAt j : ℤ)) (h : g.Evened S) : (g.play moves).Evened S := by
  have hkept : ∑ i ∈ S, (g.play moves).creditAt i = 0 ∧
      ∀ i ∈ S, -(∑ j ∈ S, (g.weightAt j : ℤ)) < (g.play moves).creditAt i := by
    refine hsteady.creditAt_induction
      (motive := fun c => ∑ i ∈ S, c i = 0 ∧ ∀ i ∈ S, -(∑ j ∈ S, (g.weightAt j : ℤ)) < c i)
      ?_ hS (fun _ _ => rfl) ⟨h.sum_eq, h.low⟩
    rintro k c c' hturn ⟨hsum, hlow⟩
    have hpay := turnover hturn hsum hpos
    refine ⟨?_, fun i hi => ?_⟩
    · rw [hturn.sum_credit, inter_self, if_pos hturn.mem, hsum]
      ring
    · rw [hturn.credit, if_pos hi]
      split
      case isTrue hik =>
        subst hik
        linarith
      case isFalse =>
        have hearned := hturn.weight_nonneg i hi
        linarith [hlow i hi]
  refine ⟨hkept.1, fun i hi => ?_⟩
  rw [sum_weightAt_play moves hS]
  exact hkept.2 i hi

/-- Each pick goes to one of those who can be picked. -/
theorem sum_pickCount (hsteady : g.Steady S moves) (hS : S.Nonempty) :
    ∑ i ∈ S, g.pickCount i moves = moves.countP Move.isSelect := by
  induction moves generalizing g with
  | nil => simp [pickCount, history]
  | cons m rest ih =>
      simp only [pickCount_cons, sum_add_distrib, ih hsteady.tail, List.countP_cons]
      congr 1
      rcases g.credited m with ⟨hpick, _, hnone, _⟩ | ⟨now, k, rfl, hpick, hcredit⟩ | ⟨k, _, hback, _⟩
      · simp [hpick, hsteady.isSelect_eq_false hS hnone]
      · have hk : k ∈ S := hsteady.candidates g now List.mem_cons_self ▸ hcredit.mem
        simp [hpick, Move.isSelect, hk]
      · rw [hsteady.recovered g m List.mem_cons_self] at hback
        cases hback

section Level

variable (hlevel : ∀ i, g.creditAt i = 0) (hsteady : g.Steady S moves) (hS : S ⊆ range g.size)
  (hpos : 0 < ∑ j ∈ S, g.weightAt j)

include hlevel hsteady hS hpos

/-- From level credits, the picks of a slot are less than one ahead of its share. -/
theorem pickCount_mul_lt (hi : i ∈ S) :
    g.pickCount i moves * ∑ j ∈ S, g.weightAt j <
      moves.countP Move.isSelect * g.weightAt i + ∑ j ∈ S, g.weightAt j := by
  have hpos' : 0 < ∑ j ∈ S, (g.weightAt j : ℤ) := by exact_mod_cast hpos
  have hend := (Evened.of_level hlevel hpos').play hsteady hS hpos'
  have hlow := hend.low i hi
  rw [sum_weightAt_play moves hS, creditAt_of_steady hsteady hi hS, hlevel] at hlow
  have hbound : (g.pickCount i moves : ℤ) * ∑ j ∈ S, (g.weightAt j : ℤ) <
      moves.countP Move.isSelect * (g.weightAt i : ℤ) + ∑ j ∈ S, (g.weightAt j : ℤ) := by
    linarith
  exact_mod_cast hbound

theorem pickCount_le_ceilDiv (hi : i ∈ S) :
    g.pickCount i moves ≤
      (moves.countP Move.isSelect * g.weightAt i) ⌈/⌉ ∑ j ∈ S, g.weightAt j := by
  have hlt := pickCount_mul_lt hlevel hsteady hS hpos hi
  rw [Nat.ceilDiv_eq_add_pred_div, Nat.le_div_iff_mul_le hpos]
  omega

/-- After `k` rounds, each of as many picks as there is weight, everybody has had its share. -/
theorem pickCount_of_cycle {k : ℕ}
    (hcycle : moves.countP Move.isSelect = k * ∑ j ∈ S, g.weightAt j) (hi : i ∈ S) :
    g.pickCount i moves = k * g.weightAt i := by
  have hle : ∀ j ∈ S, g.pickCount j moves ≤ k * g.weightAt j := by
    intro j hj
    have hlt := pickCount_mul_lt hlevel hsteady hS hpos hj
    rw [hcycle] at hlt
    have hlt' : g.pickCount j moves * ∑ j ∈ S, g.weightAt j <
        (k * g.weightAt j + 1) * ∑ j ∈ S, g.weightAt j := by
      calc _ < k * (∑ j ∈ S, g.weightAt j) * g.weightAt j + ∑ j ∈ S, g.weightAt j := hlt
        _ = _ := by ring
    exact Nat.lt_succ_iff.1 (Nat.lt_of_mul_lt_mul_right hlt')
  -- All together they have been picked as often as that, so none of them less.
  have hall : ∑ j ∈ S, g.pickCount j moves = ∑ j ∈ S, k * g.weightAt j := by
    rw [sum_pickCount hsteady ⟨i, hi⟩, hcycle, mul_sum]
  exact (sum_eq_sum_iff_of_le hle).1 hall i hi

end Level

/-! ## Servers without failures -/

/-- A pick of servers without failures leaves them without. -/
theorem spotless_select (h : ∀ s ∈ g.slots, s.health = {}) (now : Instant) :
    ∀ s ∈ (g.select now).2.slots, s.health = {} := by
  rcases select_cases now g with ⟨_, heq⟩ | ⟨k, s, _, heq⟩
  · rw [heq]
    exact h
  · rw [heq]
    intro t ht
    obtain ⟨j, hj⟩ := List.mem_iff_getElem?.1 ht
    rw [charged_getElem?] at hj
    obtain ⟨u, hu, rfl⟩ := Option.map_eq_some_iff.1 hj
    have hfresh := h u (List.mem_of_getElem? hu)
    split
    · rw [Slot.handOut_health, Slot.accrue_health, hfresh]
      rfl
    · rw [Slot.accrue_health, hfresh]

theorem candidates_of_spotless (h : ∀ s ∈ g.slots, s.health = {}) (now : Instant) :
    g.candidates now = range g.size := by
  refine (g.candidates_subset now).antisymm fun i hi => ?_
  have hlt : i < g.slots.length := mem_range.1 hi
  refine mem_candidates.2 ⟨g.slots[i], List.getElem?_eq_getElem hlt, ?_⟩
  rw [Slot.selectable, h _ (List.getElem_mem hlt)]
  rfl

theorem size_select (now : Instant) (g : Group α) : (g.select now).2.size = g.size := by
  have hmap := congrArg List.length
    (map_slots_select Slot.server now g (by simp) (by simp))
  simpa [size] using hmap

theorem map_server_selects (nows : List Instant) (g : Group α) :
    (g.play (nows.map .select)).slots.map Slot.server = g.slots.map Slot.server := by
  induction nows generalizing g with
  | nil => rfl
  | cons now rest ih =>
      rw [List.map_cons, play_cons, ih]
      exact map_slots_select Slot.server now g (by simp) (by simp)

/-- While nobody fails, everybody can be picked at each pick. -/
theorem steady_of_spotless (h : ∀ s ∈ g.slots, s.health = {}) (nows : List Instant) :
    g.Steady (range g.size) (nows.map .select) := by
  induction nows generalizing g with
  | nil => exact ⟨by simp [history], by simp [history]⟩
  | cons now rest ih =>
      have hrest := ih (spotless_select h now)
      rw [size_select] at hrest
      constructor
      · intro g' now' hmem
        rcases List.mem_cons.1 hmem with heq | hmem
        · cases heq
          exact candidates_of_spotless h now
        · exact hrest.candidates g' now' hmem
      · intro g' m hmem
        rcases List.mem_cons.1 hmem with heq | hmem
        · cases heq
          rfl
        · exact hrest.recovered g' m hmem

end Group

theorem Move.countP_selects (nows : List Instant) :
    (nows.map Move.select).countP (Move.isSelect (α := α)) = nows.length := by
  rw [List.countP_map, ← List.countP_true]
  rfl

end TieredPool
