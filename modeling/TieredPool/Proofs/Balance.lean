import Mathlib.Algebra.Order.BigOperators.Group.Finset
import Mathlib.Algebra.BigOperators.Ring.Finset
import Mathlib.Tactic.Linarith
import Mathlib.Tactic.Ring

/-!
# Balance — how far credits can drift apart

No bound on a single credit is kept by a pick: the slots that take part may have been chosen against it.
What is kept is a bound on the sum over every set of slots at once, one that grows with the size of the
set by less and less.

* `allowance` — the bound for a set of `k` out of `n` slots, in units of their whole weight.
* `Balanced` — the sum over every set is within its allowance.
* `Turnover` — what a pick makes of the credits.
* `Balanced.turnover`, `Balanced.update_zero`, `Balanced.mono` — picks, credits that are forgotten and
  new slots keep credits balanced.
-/

namespace TieredPool

open Finset

/-! ## The allowance of a set of slots -/

/-- `(n - 1) + (n - 2) + ... + (n - k)`. -/
def allowance (n k : ℕ) : ℤ := ∑ j ∈ range k, ((n : ℤ) - 1 - j)

@[simp] theorem allowance_zero (n : ℕ) : allowance n 0 = 0 := by
  simp [allowance]

theorem allowance_succ (n k : ℕ) : allowance n (k + 1) = allowance n k + ((n : ℤ) - 1 - k) :=
  sum_range_succ _ _

@[simp] theorem allowance_one (n : ℕ) : allowance n 1 = (n : ℤ) - 1 := by
  simp [allowance]

/-- The shares from the `k`-th to the next `r` are no greater than the `k`-th. -/
theorem allowance_add_le (n k r : ℕ) :
    allowance n (k + r) ≤ allowance n k + r * ((n : ℤ) - 1 - k) := by
  induction r with
  | zero => simp
  | succ r ih =>
      have hstep : allowance n (k + r + 1) = allowance n (k + r) + ((n : ℤ) - 1 - (k + r)) := by
        simpa using allowance_succ n (k + r)
      have hr : (0 : ℤ) ≤ r := Int.natCast_nonneg r
      calc allowance n (k + (r + 1))
          = allowance n (k + r) + ((n : ℤ) - 1 - (k + r)) := hstep
        _ ≤ allowance n k + r * ((n : ℤ) - 1 - k) + ((n : ℤ) - 1 - k) := by linarith
        _ = allowance n k + ((r + 1 : ℕ) : ℤ) * ((n : ℤ) - 1 - k) := by push_cast; ring

/-- The last `a` shares of `b + a` are no smaller than the very last. -/
theorem le_allowance_add (n b a : ℕ) :
    allowance n b + a * ((n : ℤ) - (b + a)) ≤ allowance n (b + a) := by
  induction a with
  | zero => simp
  | succ a ih =>
      have hstep : allowance n (b + a + 1) = allowance n (b + a) + ((n : ℤ) - 1 - (b + a)) := by
        simpa using allowance_succ n (b + a)
      have ha : (0 : ℤ) ≤ a := Int.natCast_nonneg a
      calc allowance n b + ((a + 1 : ℕ) : ℤ) * ((n : ℤ) - (b + ((a + 1 : ℕ) : ℤ)))
          = allowance n b + a * ((n : ℤ) - (b + a)) - a + ((n : ℤ) - 1 - (b + a)) := by
            push_cast; ring
        _ ≤ allowance n (b + a) + ((n : ℤ) - 1 - (b + a)) := by linarith
        _ = allowance n (b + (a + 1)) := hstep.symm

theorem allowance_mono {n n' k k' : ℕ} (hn : n ≤ n') (hk : k ≤ k') (hkn : k' ≤ n') :
    allowance n k ≤ allowance n' k' := by
  have hsame : allowance n k ≤ allowance n' k := by
    refine sum_le_sum fun j _ => ?_
    have : (n : ℤ) ≤ n' := by exact_mod_cast hn
    linarith
  have hmore : allowance n' k ≤ allowance n' k' := by
    rcases Nat.exists_eq_add_of_le hk with ⟨a, rfl⟩
    have hpos : (0 : ℤ) ≤ a * ((n' : ℤ) - (k + a)) := by
      refine mul_nonneg (Int.natCast_nonneg a) ?_
      have : ((k + a : ℕ) : ℤ) ≤ n' := by exact_mod_cast hkn
      push_cast at this
      linarith
    linarith [le_allowance_add n' k a]
  exact hsame.trans hmore

theorem allowance_nonneg {n k : ℕ} (hk : k ≤ n) : 0 ≤ allowance n k := by
  simpa using allowance_mono (le_refl n) (Nat.zero_le k) hk

/-! ## Balanced credits -/

/-- No set of slots is ahead of or behind its due by more than its allowance. -/
def Balanced (n : ℕ) (C : ℤ) (c : ℕ → ℤ) : Prop :=
  ∀ A ⊆ range n, |∑ i ∈ A, c i| ≤ C * allowance n A.card

/-- The credits `c'` are those that `c` become when, among the slots `S` of weights `w`, the slot `m`
is picked. -/
structure Turnover (S : Finset ℕ) (w : ℕ → ℤ) (m : ℕ) (c c' : ℕ → ℤ) : Prop where
  mem : m ∈ S
  weight_nonneg : ∀ i ∈ S, 0 ≤ w i
  greatest : ∀ i ∈ S, c i + w i ≤ c m + w m
  credit : ∀ i, c' i = c i + (if i ∈ S then w i else 0) - (if i = m then ∑ j ∈ S, w j else 0)

namespace Turnover

variable {S A : Finset ℕ} {w c c' : ℕ → ℤ} {m : ℕ}

/-- The weights of other slots do not matter. -/
theorem congr_weight {w' : ℕ → ℤ} (h : Turnover S w m c c') (hw : ∀ i ∈ S, w i = w' i) :
    Turnover S w' m c c' where
  mem := h.mem
  weight_nonneg := fun i hi => hw i hi ▸ h.weight_nonneg i hi
  greatest := fun i hi => by
    rw [← hw i hi, ← hw m h.mem]
    exact h.greatest i hi
  credit := fun i => by
    rw [h.credit, sum_congr rfl hw]
    by_cases hi : i ∈ S
    · rw [if_pos hi, if_pos hi, hw i hi]
    · rw [if_neg hi, if_neg hi]

theorem sum_credit (h : Turnover S w m c c') (A : Finset ℕ) :
    ∑ i ∈ A, c' i = ∑ i ∈ A, c i + ∑ i ∈ A ∩ S, w i - if m ∈ A then ∑ j ∈ S, w j else 0 := by
  simp only [h.credit, sum_sub_distrib, sum_add_distrib, sum_ite_mem, sum_ite_eq']

theorem sum_weight_le (h : Turnover S w m c c') {R : Finset ℕ} (hR : R ⊆ S) :
    ∑ i ∈ R, w i ≤ ∑ i ∈ S, w i :=
  sum_le_sum_of_subset_of_nonneg hR fun i hi _ => h.weight_nonneg i hi

theorem sum_weight_nonneg (h : Turnover S w m c c') {R : Finset ℕ} (hR : R ⊆ S) :
    0 ≤ ∑ i ∈ R, w i :=
  sum_nonneg fun i hi => h.weight_nonneg i (hR hi)

/-- Slots that take part have, all together, at most as much as the picked one for each of them. -/
theorem sum_accrued_le (h : Turnover S w m c c') {R : Finset ℕ} (hR : R ⊆ S) :
    ∑ i ∈ R, (c i + w i) ≤ R.card * (c m + w m) := by
  have hle := sum_le_card_nsmul R (fun i => c i + w i) (c m + w m) fun i hi => h.greatest i (hR hi)
  simpa [nsmul_eq_mul] using hle

end Turnover

namespace Balanced

variable {n : ℕ} {C : ℤ} {S : Finset ℕ} {w c c' : ℕ → ℤ} {m : ℕ}

theorem le (h : Balanced n C c) {A : Finset ℕ} (hA : A ⊆ range n) :
    ∑ i ∈ A, c i ≤ C * allowance n A.card :=
  (abs_le.1 (h A hA)).2

theorem ge (h : Balanced n C c) {A : Finset ℕ} (hA : A ⊆ range n) :
    -(C * allowance n A.card) ≤ ∑ i ∈ A, c i :=
  (abs_le.1 (h A hA)).1

/-- A set without the picked slot. What its members that take part have earned is at most what the
picked one has for each of them, and the picked one is bounded together with the whole set. -/
theorem turnover_le_of_notMem (h : Balanced n C c) (hC : ∑ i ∈ S, w i ≤ C) (hS : S ⊆ range n)
    (ht : Turnover S w m c c') {A : Finset ℕ} (hA : A ⊆ range n) (hm : m ∉ A) :
    ∑ i ∈ A, c' i ≤ C * allowance n A.card := by
  let y := ∑ i ∈ A ∩ S, (c i + w i)
  let z := ∑ i ∈ A \ S, c i
  let x := c m + w m
  let a := (A ∩ S).card
  let b := (A \ S).card
  have hcard : A.card = b + a := by
    rw [← card_sdiff_add_card_inter A S]
  have hsplit : ∑ i ∈ A, c i = ∑ i ∈ A ∩ S, c i + z := (sum_inter_add_sum_sdiff A S c).symm
  have hy : y = ∑ i ∈ A ∩ S, c i + ∑ i ∈ A ∩ S, w i := sum_add_distrib
  have hsum : ∑ i ∈ A, c' i = y + z := by
    rw [ht.sum_credit, if_neg hm, hsplit, hy]
    ring
  -- Three bounds: on those who take part, on those who do not, and on all with the picked one.
  have hyx : y ≤ a * x := ht.sum_accrued_le inter_subset_right
  have hz : z ≤ C * allowance n b := h.le (sdiff_subset.trans hA)
  have hwith : y + z + x ≤ C * (allowance n (b + a) + ((n : ℤ) - 1 - (b + a)) + 1) := by
    have hle := h.le (insert_subset (hS ht.mem) hA)
    rw [sum_insert hm, card_insert_of_notMem hm, hsplit, hcard, allowance_succ] at hle
    have hw : w m + ∑ i ∈ A ∩ S, w i ≤ ∑ i ∈ S, w i := by
      rw [← sum_insert (by simp [hm] : m ∉ A ∩ S)]
      exact ht.sum_weight_le (insert_subset ht.mem inter_subset_right)
    push_cast at hle
    linarith
  have hallow := le_allowance_add n b a
  have hC0 : 0 ≤ C := (ht.sum_weight_nonneg subset_rfl).trans hC
  have ha : (0 : ℤ) ≤ a := Int.natCast_nonneg a
  -- The picked one is removed by weighing the third bound `a` times against the first.
  rw [hsum, hcard]
  refine le_of_mul_le_mul_left ?_ (by linarith : (0 : ℤ) < a + 1)
  calc ((a : ℤ) + 1) * (y + z)
      ≤ a * (y + z + x) + z := by linarith
    _ ≤ a * (C * (allowance n (b + a) + ((n : ℤ) - 1 - (b + a)) + 1)) + C * allowance n b := by
        linarith [mul_le_mul_of_nonneg_left hwith ha]
    _ = a * (C * allowance n (b + a)) + C * (allowance n b + a * ((n : ℤ) - (b + a))) := by ring
    _ ≤ a * (C * allowance n (b + a)) + C * allowance n (b + a) := by
        linarith [mul_le_mul_of_nonneg_left hallow hC0]
    _ = ((a : ℤ) + 1) * (C * allowance n (b + a)) := by ring

/-- A set with the picked slot. Those that take part outside of it have earned at most what the picked
one has for each of them, and together with them the set neither gains nor loses. -/
theorem le_turnover_of_mem (h : Balanced n C c) (hC : ∑ i ∈ S, w i ≤ C) (hS : S ⊆ range n)
    (ht : Turnover S w m c c') {A : Finset ℕ} (hA : A ⊆ range n) (hm : m ∈ A) :
    -(C * allowance n A.card) ≤ ∑ i ∈ A, c' i := by
  let R := S \ A
  let T := ∑ i ∈ A, c' i
  let x := c m + w m
  let r := R.card
  let k := (A.erase m).card
  have hdisj : Disjoint A R := disjoint_sdiff
  have hk : A.card = k + 1 := (card_erase_add_one hm).symm
  have hunion : (A ∪ R).card = k + 1 + r := by
    rw [card_union_of_disjoint hdisj, hk]
  have hmR : m ∉ R := fun hmR => (mem_sdiff.1 hmR).2 hm
  -- Everyone who takes part is in `A ∪ R`, so what is earned there is paid there.
  have hboth : -(C * allowance n (k + 1 + r)) ≤ T + r * x := by
    have hge := h.ge (union_subset hA (sdiff_subset.trans hS) : A ∪ R ⊆ range n)
    have hkept : ∑ i ∈ A ∪ R, c' i = ∑ i ∈ A ∪ R, c i := by
      have hcap : (A ∪ R) ∩ S = S := inter_eq_right.2 fun i hi => by
        by_cases hiA : i ∈ A <;> simp [R, hi, hiA]
      rw [ht.sum_credit, hcap, if_pos (mem_union_left _ hm)]
      ring
    have hR : ∑ i ∈ R, c' i ≤ r * x := by
      have hcap : R ∩ S = R := inter_eq_left.2 sdiff_subset
      have hsum : ∑ i ∈ R, c' i = ∑ i ∈ R, (c i + w i) := by
        rw [ht.sum_credit, hcap, if_neg hmR, sum_add_distrib]
        ring
      rw [hsum]
      exact ht.sum_accrued_le sdiff_subset
    rw [← hkept, sum_union hdisj, hunion] at hge
    linarith
  -- Without the picked one the set had its bound before, and pays at most the whole.
  have halone : x - C * allowance n k - C ≤ T := by
    have hge := h.ge ((erase_subset m A).trans hA)
    have hT : T = c m + ∑ i ∈ A.erase m, c i + ∑ i ∈ A ∩ S, w i - ∑ j ∈ S, w j := by
      have hc : c m + ∑ i ∈ A.erase m, c i = ∑ i ∈ A, c i := add_sum_erase A c hm
      rw [hc]
      simpa [hm] using ht.sum_credit A
    have hw : w m ≤ ∑ i ∈ A ∩ S, w i :=
      single_le_sum (fun i hi => ht.weight_nonneg i (mem_inter.1 hi).2)
        (mem_inter.2 ⟨hm, ht.mem⟩)
    linarith
  have hallow := allowance_add_le n (k + 1) r
  have hC0 : 0 ≤ C := (ht.sum_weight_nonneg subset_rfl).trans hC
  have hr : (0 : ℤ) ≤ r := Int.natCast_nonneg r
  -- The picked one is removed by weighing the second bound `r` times against the first.
  rw [hk]
  refine le_of_mul_le_mul_left ?_ (by linarith : (0 : ℤ) < r + 1)
  have hstep := allowance_succ n k
  push_cast at hallow
  calc ((r : ℤ) + 1) * -(C * allowance n (k + 1))
      = -(C * (allowance n (k + 1) + r * ((n : ℤ) - 1 - (k + 1)))) - r * (C * allowance n k + C) := by
        rw [hstep]
        ring
    _ ≤ -(C * allowance n (k + 1 + r)) - r * (C * allowance n k + C) := by
        linarith [mul_le_mul_of_nonneg_left hallow hC0]
    _ ≤ (T + r * x) - r * (C * allowance n k + C) := by linarith
    _ = T + r * (x - C * allowance n k - C) := by ring
    _ ≤ T + r * T := by linarith [mul_le_mul_of_nonneg_left halone hr]
    _ = ((r : ℤ) + 1) * T := by ring

/-- A pick keeps credits balanced. -/
theorem turnover (h : Balanced n C c) (hC : ∑ i ∈ S, w i ≤ C) (hS : S ⊆ range n)
    (ht : Turnover S w m c c') : Balanced n C c' := by
  intro A hA
  by_cases hm : m ∈ A
  case pos =>
    -- The set pays for everyone and earns for some, so from above its old bound will do.
    refine abs_le.2 ⟨h.le_turnover_of_mem hC hS ht hA hm, ?_⟩
    have hw := ht.sum_weight_le (inter_subset_right : A ∩ S ⊆ S)
    rw [ht.sum_credit, if_pos hm]
    linarith [h.le hA]
  case neg =>
    -- The set only earns, so from below its old bound will do.
    refine abs_le.2 ⟨?_, h.turnover_le_of_notMem hC hS ht hA hm⟩
    have hw := ht.sum_weight_nonneg (inter_subset_right : A ∩ S ⊆ S)
    rw [ht.sum_credit, if_neg hm]
    linarith [h.ge hA]

/-- So does forgetting the credit of one slot. -/
theorem update_zero (h : Balanced n C c) (hC : 0 ≤ C) (k : ℕ) :
    Balanced n C (Function.update c k 0) := by
  intro A hA
  by_cases hk : k ∈ A
  case pos =>
    have hsum : ∑ i ∈ A, Function.update c k 0 i = ∑ i ∈ A.erase k, c i := by
      rw [← add_sum_erase A _ hk, Function.update_self, zero_add]
      exact sum_congr rfl fun i hi => Function.update_of_ne (ne_of_mem_erase hi) _ _
    have hcard : A.card ≤ n := by simpa using card_le_card hA
    rw [hsum]
    refine (h _ ((erase_subset k A).trans hA)).trans ?_
    exact mul_le_mul_of_nonneg_left
      (allowance_mono (le_refl n) (card_le_card (erase_subset k A)) hcard) hC
  case neg =>
    have hsum : ∑ i ∈ A, Function.update c k 0 i = ∑ i ∈ A, c i :=
      sum_congr rfl fun i hi => Function.update_of_ne (ne_of_mem_of_not_mem hi hk) _ _
    rw [hsum]
    exact h A hA

/-- New slots without credit only widen the bounds. -/
theorem mono (h : Balanced n C c) (hC : 0 ≤ C) {n' : ℕ} {C' : ℤ} (hn : n ≤ n') (hC' : C ≤ C')
    (hc : ∀ i, n ≤ i → c i = 0) : Balanced n' C' c := by
  intro A hA
  -- New slots add nothing to a sum.
  have hsum : ∑ i ∈ A, c i = ∑ i ∈ A ∩ range n, c i := by
    rw [← sum_inter_add_sum_sdiff A (range n) c, sum_eq_zero (s := A \ range n), add_zero]
    intro i hi
    exact hc i (by simpa using (mem_sdiff.1 hi).2)
  have hcard : A.card ≤ n' := by simpa using card_le_card hA
  have hsub : (A ∩ range n).card ≤ A.card := card_le_card inter_subset_left
  rw [hsum]
  calc |∑ i ∈ A ∩ range n, c i|
      ≤ C * allowance n (A ∩ range n).card := h _ inter_subset_right
    _ ≤ C * allowance n' A.card := mul_le_mul_of_nonneg_left (allowance_mono hn hsub hcard) hC
    _ ≤ C' * allowance n' A.card := mul_le_mul_of_nonneg_right hC' (allowance_nonneg hcard)

/-- No single slot is ahead or behind by more than `n - 1` times the whole. -/
theorem abs_le_mul (h : Balanced n C c) {i : ℕ} (hi : i < n) : |c i| ≤ ((n : ℤ) - 1) * C := by
  have hsingle := h {i} (by simpa using hi)
  simpa [mul_comm] using hsingle

theorem zero (n : ℕ) {C : ℤ} (hC : 0 ≤ C) : Balanced n C fun _ => 0 := by
  intro A hA
  have hcard : A.card ≤ n := by simpa using card_le_card hA
  simpa using mul_nonneg hC (allowance_nonneg hcard)

end Balanced

end TieredPool
