import TieredPool.Proofs.Rotation

/-!
# Period — a rotation that comes back to where it started

From level credits, as many picks as there is weight give everybody its share and leave the credits level
again. A pick depends on credits and weights alone, so from there the same picks follow once more.

* `Spread` — no set of slots is owed more than a set of its size can be.
* `Group.picks` — the positions picked, in order.
* `Group.Matches`, `Group.picks_of_matches` — tiers with the same credits and weights are picked alike.
* `exact_rotation` — how far a slot can be from its share, and the period of the picks.
-/

namespace TieredPool

open Finset

variable {α : Type}

/-! ## What a slot can be owed -/

/-- A set of `k` of the `n` slots at `S` is owed at most `k * (n - k) / 2` times the weight `W` of all.
For a single slot that is as much as for all the others together. -/
def Spread (S : Finset ℕ) (W : ℤ) (c : ℕ → ℤ) : Prop :=
  ∀ A ⊆ S, 2 * ∑ i ∈ A, c i ≤ W * (A.card * (S.card - A.card))

namespace Spread

variable {S : Finset ℕ} {w c c' : ℕ → ℤ} {m : ℕ}

theorem of_level {W : ℤ} (hW : 0 ≤ W) (hlevel : ∀ i, c i = 0) : Spread S W c := by
  intro A hA
  have hcard : (0 : ℤ) ≤ S.card - A.card := by
    have : (A.card : ℤ) ≤ S.card := by exact_mod_cast card_le_card hA
    linarith
  rw [sum_eq_zero fun i _ => hlevel i, mul_zero]
  exact mul_nonneg hW (mul_nonneg (Int.natCast_nonneg _) hcard)

/-- Of `k + 1` amounts, `y` are `k` together, and the last, `x`, is no smaller than any of these. If they
are all within their bound, raised by `W`, the `k` are within theirs. -/
theorem two_mul_le_of_ahead {W k n x y : ℤ} (hW : 0 ≤ W) (hk : 1 ≤ k) (hahead : y ≤ k * x)
    (hall : 2 * (y + x) ≤ W * ((k + 1) * (n - (k + 1))) + 2 * W) : 2 * y ≤ W * (k * (n - k)) := by
  have hscaled : (k + 1) * (2 * y) ≤ (k + 1) * (W * (k * (n - k))) :=
    calc (k + 1) * (2 * y) = k * (2 * y) + 2 * y := by ring
      _ ≤ k * (2 * y) + 2 * (k * x) := by linarith
      _ = k * (2 * (y + x)) := by ring
      _ ≤ k * (W * ((k + 1) * (n - (k + 1))) + 2 * W) := mul_le_mul_of_nonneg_left hall (by linarith)
      _ = k * W * ((k + 1) * (n - (k + 1)) + 2) := by ring
      _ ≤ k * W * ((k + 1) * (n - (k + 1)) + (k + 1)) :=
          mul_le_mul_of_nonneg_left (by linarith) (mul_nonneg (by linarith) hW)
      _ = (k + 1) * (W * (k * (n - k))) := by ring
  exact le_of_mul_le_mul_left hscaled (by linarith)

/-- A set without the picked slot. What its members have once they have earned is at most what the
picked one has for each of them, and the picked one is bounded together with the whole set. -/
theorem turnover_of_notMem (h : Spread S (∑ j ∈ S, w j) c) (ht : Turnover S w m c c') {A : Finset ℕ}
    (hA : A ⊆ S) (hm : m ∉ A) :
    2 * ∑ i ∈ A, c' i ≤ (∑ j ∈ S, w j) * (A.card * (S.card - A.card)) := by
  rcases A.eq_empty_or_nonempty with rfl | hne
  · simp
  have hinsert : insert m A ⊆ S := insert_subset ht.mem hA
  have hearned : ∑ i ∈ A, c' i = ∑ i ∈ A, (c i + w i) := by
    rw [ht.sum_credit, inter_eq_left.2 hA, if_neg hm, sum_add_distrib, sub_zero]
  have hone : (1 : ℤ) ≤ A.card := by exact_mod_cast hne.card_pos
  have hall : 2 * (∑ i ∈ A, (c i + w i) + (c m + w m)) ≤
      (∑ j ∈ S, w j) * ((A.card + 1) * (S.card - (A.card + 1))) + 2 * ∑ j ∈ S, w j := by
    have hold := h (insert m A) hinsert
    have hweight := ht.sum_weight_le hinsert
    rw [sum_insert hm, card_insert_of_notMem hm] at hold
    rw [sum_insert hm] at hweight
    rw [sum_add_distrib]
    push_cast at hold
    linarith
  rw [hearned]
  exact two_mul_le_of_ahead (ht.sum_weight_nonneg (Finset.Subset.refl S)) hone (ht.sum_accrued_le hA) hall

theorem turnover (h : Spread S (∑ j ∈ S, w j) c) (ht : Turnover S w m c c') :
    Spread S (∑ j ∈ S, w j) c' := by
  intro A hA
  by_cases hm : m ∈ A
  case pos =>
    -- A set with the picked slot pays for all and has earned no more than that.
    have hweight := ht.sum_weight_le hA
    rw [ht.sum_credit, inter_eq_left.2 hA, if_pos hm]
    linarith [h A hA]
  case neg => exact h.turnover_of_notMem ht hA hm

theorem le (h : Spread S (∑ j ∈ S, w j) c) {i : ℕ} (hi : i ∈ S) :
    2 * c i ≤ (S.card - 1) * ∑ j ∈ S, w j := by
  have hone := h {i} (singleton_subset_iff.2 hi)
  rw [sum_singleton, card_singleton] at hone
  push_cast at hone
  linarith

end Spread

namespace Group

variable {S : Finset ℕ} {g g' : Group α} {moves : List (Move α)} {i : ℕ}

/-- Credits that start level stay spread over a steady stretch. -/
theorem two_mul_creditAt_le (hlevel : ∀ i, g.creditAt i = 0) (hsteady : g.Steady S moves)
    (hS : S ⊆ range g.size) (hi : i ∈ S) :
    2 * (g.play moves).creditAt i ≤ (S.card - 1) * ∑ j ∈ S, (g.weightAt j : ℤ) := by
  have hweight : (0 : ℤ) ≤ ∑ j ∈ S, (g.weightAt j : ℤ) := sum_nonneg fun _ _ => Int.natCast_nonneg _
  have hspread : Spread S (∑ j ∈ S, (g.weightAt j : ℤ)) (g.play moves).creditAt :=
    hsteady.creditAt_induction (fun _ _ _ hturn h => h.turnover hturn) hS (fun _ _ => rfl)
      (.of_level hweight hlevel)
  exact hspread.le hi

/-! ## The slots picked -/

/-- The positions of the slots that moves pick, in order. -/
def picks (g : Group α) (moves : List (Move α)) : List ℕ :=
  (g.history moves).filterMap fun made => made.1.pickedBy made.2

theorem picks_cons (g : Group α) (m : Move α) (rest : List (Move α)) :
    g.picks (m :: rest) = (g.pickedBy m).toList ++ (g.move m).picks rest := by
  cases hpick : g.pickedBy m <;> simp [picks, history, hpick]

theorem picks_append (g : Group α) (moves later : List (Move α)) :
    g.picks (moves ++ later) = g.picks moves ++ (g.play moves).picks later := by
  induction moves generalizing g with
  | nil => rfl
  | cons m rest ih => rw [List.cons_append, picks_cons, picks_cons, ih, List.append_assoc, play_cons]

theorem count_picks (i : ℕ) (g : Group α) (moves : List (Move α)) :
    (g.picks moves).count i = g.pickCount i moves := by
  induction moves generalizing g with
  | nil => rfl
  | cons m rest ih =>
      rw [picks_cons, List.count_append, ih, pickCount_cons, Nat.add_comm]
      cases g.pickedBy m <;> simp [List.count_singleton]

/-! ## Tiers that are picked alike -/

/-- The slots at `S` have the same credits and weights in both tiers. -/
structure Matches (S : Finset ℕ) (g g' : Group α) : Prop where
  credit : ∀ i ∈ S, g.creditAt i = g'.creditAt i
  weight : ∀ i ∈ S, g.weightAt i = g'.weightAt i

/-- Where somebody can be picked, the pick turns over the credits, and those before the picked slot had
less to pay with. -/
theorem exists_pick {now : Instant} (hsome : (g.candidates now).Nonempty) :
    ∃ k, g.pickedBy (.select now) = some k ∧
      Turnover (g.candidates now) (fun i => (g.weightAt i : ℤ)) k g.creditAt
        (g.move (.select now)).creditAt ∧
      ∀ i ∈ g.candidates now, i < k → g.creditAt i + g.weightAt i < g.creditAt k + g.weightAt k := by
  rcases select_cases now g with ⟨hnone, _⟩ | ⟨k, s, hleads, heq⟩
  · obtain ⟨i, hi⟩ := hsome
    obtain ⟨t, ht, hsel⟩ := mem_candidates.1 hi
    rw [hnone t (List.mem_of_getElem? ht)] at hsel
    cases hsel
  · refine ⟨k, by simp [pickedBy, heq, charged], ?_, fun i hi hik => ?_⟩
    · rw [move, heq]
      exact turnover_of_leads hleads
    · obtain ⟨t, ht, hsel⟩ := mem_candidates.1 hi
      rw [creditAt_of_getElem? ht, weightAt_of_getElem? ht, creditAt_of_getElem? hleads.get,
        weightAt_of_getElem? hleads.get]
      exact hleads.first i t hik ht hsel

/-- Two tiers that match, with the same slots to pick from, are picked alike and match again. -/
theorem Matches.pick (h : g.Matches S g') (hS : S.Nonempty) {now now' : Instant}
    (hcandidates : g.candidates now = S) (hcandidates' : g'.candidates now' = S) :
    g.pickedBy (.select now) = g'.pickedBy (.select now') ∧
      ∀ i ∈ S, (g.move (.select now)).creditAt i = (g'.move (.select now')).creditAt i := by
  obtain ⟨k, hpick, hturn, hfirst⟩ := exists_pick (hcandidates ▸ hS)
  obtain ⟨k', hpick', hturn', hfirst'⟩ := exists_pick (hcandidates' ▸ hS)
  rw [hcandidates] at hturn hfirst
  rw [hcandidates'] at hturn' hfirst'
  have hearned : ∀ i ∈ S, g.creditAt i + (g.weightAt i : ℤ) = g'.creditAt i + (g'.weightAt i : ℤ) :=
    fun i hi => by rw [h.credit i hi, h.weight i hi]
  -- Both picks go to the first of those with the most to pay with.
  have hsame : k = k' := by
    have hle := hturn.greatest k' hturn'.mem
    have hle' := hturn'.greatest k hturn.mem
    rw [← hearned k hturn.mem, ← hearned k' hturn'.mem] at hle'
    rcases Nat.lt_trichotomy k k' with hlt | heq | hgt
    · have hless := hfirst' k hturn.mem hlt
      rw [← hearned k hturn.mem, ← hearned k' hturn'.mem] at hless
      linarith
    · exact heq
    · linarith [hfirst k' hturn'.mem hgt]
  subst hsame
  refine ⟨hpick.trans hpick'.symm, fun i hi => ?_⟩
  have hweight : ∑ j ∈ S, (g.weightAt j : ℤ) = ∑ j ∈ S, (g'.weightAt j : ℤ) :=
    sum_congr rfl fun j hj => by rw [h.weight j hj]
  rw [hturn.credit, hturn'.credit, h.credit i hi, h.weight i hi, hweight]

theorem Matches.move (h : g.Matches S g') {m m' : Move α} (hS : S ⊆ range g.size)
    (hS' : S ⊆ range g'.size)
    (hcredit : ∀ i ∈ S, (g.move m).creditAt i = (g'.move m').creditAt i) :
    (g.move m).Matches S (g'.move m') where
  credit := hcredit
  weight := fun i hi => by
    rw [weightAt_move g m (mem_range.1 (hS hi)), weightAt_move g' m' (mem_range.1 (hS' hi)),
      h.weight i hi]

/-- Over steady stretches with as many picks, the picks of tiers that match are the same. -/
theorem picks_of_matches {nows : List Instant} (hne : S.Nonempty) (h : g.Matches S g')
    (hsteady : g.Steady S moves) (hsteady' : g'.Steady S (nows.map .select))
    (hlength : moves.countP Move.isSelect = nows.length) (hS : S ⊆ range g.size)
    (hS' : S ⊆ range g'.size) : g.picks moves = g'.picks (nows.map .select) := by
  induction moves generalizing g g' nows with
  | nil =>
      obtain rfl : nows = [] := List.eq_nil_of_length_eq_zero hlength.symm
      rfl
  | cons m rest ih =>
      have hsize := hS.trans (range_subset_range.2 (size_move g m))
      rcases g.credited m with ⟨hpick, _, hnone, hcredit⟩ | ⟨now, k, rfl, _, _⟩ | ⟨k, _, hback, _⟩
      · have hselect := hsteady.isSelect_eq_false hne hnone
        rw [List.countP_cons_of_neg (by simp [hselect])] at hlength
        have hkept : (g.move m).Matches S g' := ⟨fun i hi => hcredit ▸ h.credit i hi, fun i hi => by
          rw [weightAt_move g m (mem_range.1 (hS hi)), h.weight i hi]⟩
        rw [picks_cons, hpick, ih hkept hsteady.tail hsteady' hlength hsize hS']
        rfl
      · rw [List.countP_cons_of_pos (by rfl)] at hlength
        obtain ⟨now', nows, rfl⟩ := List.exists_cons_of_length_eq_add_one hlength.symm
        have hlength' : rest.countP Move.isSelect = nows.length := by
          rw [List.length_cons] at hlength
          omega
        rw [List.map_cons] at hsteady' ⊢
        obtain ⟨hpick, hcredit⟩ := h.pick hne (hsteady.candidates g now List.mem_cons_self)
          (hsteady'.candidates g' now' List.mem_cons_self)
        have hsize' := hS'.trans (range_subset_range.2 (size_move g' (.select now')))
        rw [picks_cons, picks_cons, hpick,
          ih (h.move hS hS' hcredit) hsteady.tail hsteady'.tail hlength' hsize hsize']
      · rw [hsteady.recovered g m List.mem_cons_self] at hback
        cases hback

/-! ## One period after another -/

/-- The first `n` picks of a tier in which nobody fails. -/
def turns (g : Group α) (n : ℕ) : List ℕ := g.picks ((List.replicate n ⟨0⟩).map .select)

theorem spotless_selects {g : Group α} (h : ∀ s ∈ g.slots, s.health = {}) (nows : List Instant) :
    ∀ s ∈ (g.play (nows.map .select)).slots, s.health = {} := by
  induction nows generalizing g with
  | nil => exact h
  | cons now rest ih => exact ih (spotless_select h now)

theorem size_selects (nows : List Instant) (g : Group α) :
    (g.play (nows.map .select)).size = g.size := by
  have hmap := congrArg List.length (map_server_selects nows g)
  simpa [size] using hmap

theorem length_picks (hsteady : g.Steady S moves) (hS : S.Nonempty) :
    (g.picks moves).length = moves.countP Move.isSelect := by
  induction moves generalizing g with
  | nil => rfl
  | cons m rest ih =>
      rw [picks_cons, List.length_append, ih hsteady.tail, List.countP_cons, Nat.add_comm]
      rcases g.credited m with ⟨hpick, _, hnone, _⟩ | ⟨now, k, rfl, hpick, _⟩ | ⟨k, _, hback, _⟩
      · simp [hpick, hsteady.isSelect_eq_false hS hnone]
      · simp [hpick, Move.isSelect]
      · rw [hsteady.recovered g m List.mem_cons_self] at hback
        cases hback

/-- After whole rounds from level credits, the credits are level again. -/
theorem creditAt_of_cycle (hlevel : ∀ i, g.creditAt i = 0) (hsteady : g.Steady S moves)
    (hS : S ⊆ range g.size) (hpos : 0 < ∑ j ∈ S, g.weightAt j) {k : ℕ}
    (hcycle : moves.countP Move.isSelect = k * ∑ j ∈ S, g.weightAt j) (hi : i ∈ S) :
    (g.play moves).creditAt i = 0 := by
  rw [creditAt_of_steady hsteady hi hS, hlevel,
    pickCount_of_cycle hlevel hsteady hS hpos hcycle hi, hcycle]
  push_cast
  ring

section Turns

variable (hlevel : ∀ i, g.creditAt i = 0) (hspotless : ∀ s ∈ g.slots, s.health = {})
  (hpos : 0 < g.totalWeight)

theorem countP_turns (n : ℕ) :
    ((List.replicate n ⟨0⟩).map Move.select).countP (Move.isSelect (α := α)) = n := by
  rw [Move.countP_selects, List.length_replicate]

include hpos in
theorem range_size_nonempty : (range g.size).Nonempty := by
  rw [nonempty_range_iff]
  intro hzero
  have hnil : g.slots = [] := List.eq_nil_of_length_eq_zero hzero
  simp [totalWeight, hnil] at hpos

include hspotless hpos in
theorem length_turns (n : ℕ) : (g.turns n).length = n := by
  rw [turns, length_picks (steady_of_spotless hspotless _) (range_size_nonempty hpos), countP_turns]

theorem turns_add (g : Group α) (n k : ℕ) :
    g.turns (n + k) =
      g.turns n ++ (g.play ((List.replicate n ⟨0⟩).map .select)).turns k := by
  rw [turns, List.replicate_add, List.map_append, picks_append]
  rfl

include hspotless hpos in
theorem take_turns (n k : ℕ) : (g.turns (n + k)).take n = g.turns n := by
  rw [turns_add, List.take_left' (length_turns hspotless hpos n)]

include hlevel hspotless hpos in
/-- After as many picks as there is weight the picks start over. -/
theorem turns_period (n : ℕ) : g.turns (g.totalWeight + n) = g.turns g.totalWeight ++ g.turns n := by
  rw [turns_add]
  congr 1
  let nows : List Instant := List.replicate g.totalWeight ⟨0⟩
  have hsteady := steady_of_spotless hspotless nows
  have hsize := size_selects nows g
  have hmatches : (g.play (nows.map .select)).Matches (range g.size) g := by
    refine ⟨fun i hi => ?_, fun i hi => weightAt_play _ (mem_range.1 hi)⟩
    have hcycle : (nows.map Move.select).countP (Move.isSelect (α := α)) =
        1 * ∑ j ∈ range g.size, g.weightAt j := by
      rw [countP_turns, sum_weightAt, Nat.one_mul]
    rw [creditAt_of_cycle hlevel hsteady (Finset.Subset.refl _) (by rwa [sum_weightAt]) hcycle hi, hlevel]
  have hsteady' := steady_of_spotless (spotless_selects hspotless nows) (List.replicate n ⟨0⟩)
  rw [hsize] at hsteady'
  refine picks_of_matches (range_size_nonempty hpos) hmatches hsteady'
    (steady_of_spotless hspotless _) ?_ (range_subset_range.2 hsize.ge) (Finset.Subset.refl _)
  rw [countP_turns, List.length_replicate]

include hlevel hspotless hpos in
theorem drop_turns (k n : ℕ) : (g.turns (k * g.totalWeight + n)).drop (k * g.totalWeight) = g.turns n := by
  induction k with
  | zero => rw [Nat.zero_mul, Nat.zero_add, List.drop_zero]
  | succ k ih =>
      have hsplit : (k + 1) * g.totalWeight + n = g.totalWeight + (k * g.totalWeight + n) := by ring
      have hdrop : (k + 1) * g.totalWeight = g.totalWeight + k * g.totalWeight := by ring
      rw [hsplit, turns_period hlevel hspotless hpos, hdrop, ← List.drop_drop,
        List.drop_left' (length_turns hspotless hpos _), ih]

include hlevel hspotless hpos in
/-- Of each round everybody has its share. -/
theorem count_round {k n : ℕ} (hk : (k + 1) * g.totalWeight ≤ n) (hi : i < g.size) :
    (((g.turns n).drop (k * g.totalWeight)).take g.totalWeight).count i = g.weightAt i := by
  obtain ⟨later, rfl⟩ := Nat.exists_eq_add_of_le hk
  have hsplit : (k + 1) * g.totalWeight + later = k * g.totalWeight + (g.totalWeight + later) := by ring
  have hcycle : ((List.replicate g.totalWeight ⟨0⟩).map Move.select).countP (Move.isSelect (α := α)) =
      1 * ∑ j ∈ range g.size, g.weightAt j := by
    rw [countP_turns, sum_weightAt, Nat.one_mul]
  rw [hsplit, drop_turns hlevel hspotless hpos, take_turns hspotless hpos, turns, count_picks,
    pickCount_of_cycle hlevel (steady_of_spotless hspotless _) (Finset.Subset.refl _)
      (by rwa [sum_weightAt]) hcycle (mem_range.2 hi), Nat.one_mul]

include hlevel hspotless hpos in
theorem getElem?_turns_period {j n : ℕ} (hj : j + g.totalWeight < n) :
    (g.turns n)[j + g.totalWeight]? = (g.turns n)[j]? := by
  obtain ⟨later, rfl⟩ := Nat.exists_eq_add_of_lt hj
  have hround : j + g.totalWeight + later + 1 = g.totalWeight + (j + 1 + later) := by ring
  have hfirst : j + g.totalWeight + later + 1 = j + 1 + later + g.totalWeight := by ring
  have hlength := length_turns hspotless hpos g.totalWeight
  calc (g.turns (j + g.totalWeight + later + 1))[j + g.totalWeight]?
      = (g.turns (j + 1 + later))[j + g.totalWeight - g.totalWeight]? := by
        rw [hround, turns_period hlevel hspotless hpos, List.getElem?_append_right (by omega), hlength]
    _ = (g.turns (j + 1 + later))[j]? := by rw [Nat.add_sub_cancel]
    _ = (g.turns (j + g.totalWeight + later + 1))[j]? := by
        rw [hfirst, ← take_turns hspotless hpos (j + 1 + later) g.totalWeight,
          List.getElem?_take_of_lt (by omega)]

variable (hsteady : g.Steady (range g.size) moves)

include hspotless hpos hsteady in
/-- Nothing but the number of picks matters for who is picked. -/
theorem picks_eq_turns : g.picks moves = g.turns (moves.countP Move.isSelect) := by
  refine picks_of_matches (range_size_nonempty hpos) ⟨fun _ _ => rfl, fun _ _ => rfl⟩ hsteady
    (steady_of_spotless hspotless _) ?_ (Finset.Subset.refl _) (Finset.Subset.refl _)
  rw [List.length_replicate]

include hlevel hpos hsteady in
/-- How far from its share a slot can be, and that it is not after whole rounds. -/
theorem share (hi : i < g.size) :
    (g.picks moves).count i ≤ (moves.countP Move.isSelect * g.weightAt i) ⌈/⌉ g.totalWeight ∧
      2 * ((moves.countP Move.isSelect : ℤ) * g.weightAt i - g.totalWeight * (g.picks moves).count i) ≤
        (g.size - 1) * g.totalWeight ∧
      ∀ k, moves.countP Move.isSelect = k * g.totalWeight →
        (g.picks moves).count i = k * g.weightAt i ∧ (g.play moves).creditAt i = 0 := by
  have hmem : i ∈ range g.size := mem_range.2 hi
  have hall := Finset.Subset.refl (range g.size)
  have hpos' : 0 < ∑ j ∈ range g.size, g.weightAt j := by rwa [sum_weightAt]
  have htotal : ∑ j ∈ range g.size, (g.weightAt j : ℤ) = g.totalWeight := by
    exact_mod_cast g.sum_weightAt
  rw [count_picks]
  refine ⟨?_, ?_, fun k hk => ?_⟩
  · have hceil := pickCount_le_ceilDiv hlevel hsteady hall hpos' hmem
    rwa [sum_weightAt] at hceil
  · have hbehind := two_mul_creditAt_le hlevel hsteady hall hmem
    rw [creditAt_of_steady hsteady hmem hall, hlevel, htotal, card_range] at hbehind
    linarith
  · rw [← sum_weightAt] at hk
    exact ⟨pickCount_of_cycle hlevel hsteady hall hpos' hk hmem,
      creditAt_of_cycle hlevel hsteady hall hpos' hk hmem⟩

end Turns

/-! ## A new tier -/

/-- The tier to which servers have just been added. -/
def enlist (servers : List (Server α)) : Group α := ({} : Group α).play (servers.map .push)

theorem slots_enlist (servers : List (Server α)) :
    (enlist servers).slots = servers.map fun server => ({ server } : Slot α) := by
  have hpush : ∀ g : Group α, (g.play (servers.map .push)).slots =
      g.slots ++ servers.map fun server => ({ server } : Slot α) := by
    induction servers with
    | nil => simp
    | cons server rest ih =>
        intro g
        rw [List.map_cons, play_cons, ih]
        simp [move, push]
  exact hpush {}

theorem spotless_enlist (servers : List (Server α)) :
    ∀ s ∈ (enlist servers).slots, s.health = {} := by
  simp [slots_enlist]

theorem size_enlist (servers : List (Server α)) : (enlist servers).size = servers.length := by
  simp [size, slots_enlist]

theorem creditAt_enlist (servers : List (Server α)) (i : ℕ) : (enlist servers).creditAt i = 0 := by
  rw [creditAt, slots_enlist, List.getElem?_map]
  cases servers[i]? <;> rfl

theorem weightAt_enlist {servers : List (Server α)} {server : Server α} (hi : servers[i]? = some server) :
    (enlist servers).weightAt i = server.options.effectiveWeight := by
  simp [weightAt, slots_enlist, hi, Slot.weight]

theorem totalWeight_enlist (servers : List (Server α)) :
    (enlist servers).totalWeight = (servers.map (·.options.effectiveWeight)).sum := by
  rw [totalWeight, slots_enlist, List.map_map]
  rfl

theorem totalWeight_enlist_pos {servers : List (Server α)} (hservers : servers ≠ []) :
    0 < (enlist servers).totalWeight := by
  obtain ⟨server, hserver⟩ := List.exists_mem_of_ne_nil _ hservers
  have hone : 1 ≤ server.options.effectiveWeight := Nat.le_max_right _ _
  rw [totalWeight_enlist]
  exact hone.trans (List.single_le_sum (fun _ _ => Nat.zero_le _) _ (List.mem_map_of_mem hserver))

end Group

/-- Over picks at which all servers of a new tier of weight `W` can be picked, as they are while no
request fails, a server of weight `w` has been picked as often as its share `N * w / W` of the first `N`
picks, rounded up, at most, and it is behind that share by no more than `(n - 1) / 2`. Each round of `W`
picks gives every server as many as its weight and leaves all credits at zero, so that the picks repeat. -/
theorem exact_rotation (servers : List (Server α)) (hservers : servers ≠ []) :
    let g := Group.enlist servers
    let n := servers.length
    let W := (servers.map (·.options.effectiveWeight) : List ℕ).sum
    (∀ nows : List Instant, g.Steady (range n) (nows.map .select)) ∧
      ∀ moves : List (Move α), g.Steady (range n) moves →
        let N := moves.countP Move.isSelect
        let picks := g.picks moves
        picks.length = N ∧
          (∀ i server, servers[i]? = some server →
            let w := server.options.effectiveWeight
            let x := picks.count i
            x ≤ (N * w) ⌈/⌉ W ∧ 2 * ((N : ℤ) * w - W * x) ≤ (n - 1) * W ∧
              (∀ k, N = k * W → x = k * w ∧ (g.play moves).creditAt i = 0) ∧
              ∀ k, (k + 1) * W ≤ N → ((picks.drop (k * W)).take W).count i = w) ∧
          ∀ j, j + W < N → picks[j + W]? = picks[j]? := by
  intro g n W
  have hspotless := Group.spotless_enlist servers
  have hlevel := Group.creditAt_enlist servers
  have hpos := Group.totalWeight_enlist_pos hservers
  have hn : g.size = n := Group.size_enlist servers
  have hW : g.totalWeight = W := Group.totalWeight_enlist servers
  rw [← hn, ← hW]
  refine ⟨Group.steady_of_spotless hspotless, fun moves hmoves => ?_⟩
  intro N picks
  have hturns : picks = g.turns N := Group.picks_eq_turns hspotless hpos hmoves
  refine ⟨?_, fun i server hi => ?_, fun j hj => ?_⟩
  · rw [hturns, Group.length_turns hspotless hpos]
  · have hlt : i < g.size := hn ▸ (List.getElem?_eq_some_iff.1 hi).1
    rw [← Group.weightAt_enlist hi]
    obtain ⟨hahead, hbehind, hcycle⟩ := Group.share hlevel hpos hmoves hlt
    refine ⟨hahead, hbehind, hcycle, fun k hk => ?_⟩
    rw [hturns]
    exact Group.count_round hlevel hspotless hpos hk hlt
  · rw [hturns]
    exact Group.getElem?_turns_period hlevel hspotless hpos hj

/-- Weights 5, 1 and 1: A A B A C A A, and then from the start. -/
theorem exact_rotation_fiveOneOne :
    let servers : List (Server Unit) := [⟨⟨.primary, 0⟩, .primary 5, ()⟩, ⟨⟨.primary, 1⟩, .primary 1, ()⟩,
      ⟨⟨.primary, 2⟩, .primary 1, ()⟩]
    let nows : List Instant := [⟨0⟩, ⟨1⟩, ⟨2⟩, ⟨2⟩, ⟨1⟩, ⟨5⟩, ⟨6⟩, ⟨7⟩]
    let g := Group.enlist servers
    servers ≠ [] ∧ g.Steady (range 3) (nows.map .select) ∧
      g.picks (nows.map .select) = [0, 0, 1, 0, 2, 0, 0, 0] ∧
      6 ≤ (8 * 5) ⌈/⌉ 7 ∧ (2 : ℤ) * (8 * 5 - 7 * 6) ≤ (3 - 1) * 7 ∧
      ((g.picks (nows.map .select)).take 7).count 0 = 5 ∧
      (g.picks (nows.map .select))[0 + 7]? = (g.picks (nows.map .select))[0]? := by
  intro servers nows g
  obtain ⟨hsteady, hrotation⟩ := exact_rotation servers (by decide)
  obtain ⟨_, hshare, hperiod⟩ := hrotation (nows.map .select) (hsteady nows)
  have hpicks : g.picks (nows.map .select) = [0, 0, 1, 0, 2, 0, 0, 0] := by decide
  obtain ⟨hahead, hbehind, _, hround⟩ := hshare 0 ⟨⟨.primary, 0⟩, .primary 5, ()⟩ rfl
  have hcount : (g.picks (nows.map .select)).count 0 = 6 := by rw [hpicks]; rfl
  rw [hcount] at hahead hbehind
  exact ⟨by decide, hsteady nows, hpicks, hahead, hbehind, hround 0 (by decide), hperiod 0 (by decide)⟩

end TieredPool
