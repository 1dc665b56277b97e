import TieredPool.Proofs.Credit

/-!
# Proportion — shares in the long run, and nobody left waiting

At each pick the credit of a slot that can be picked grows by its weight, and the picked one pays the
weight of all. Over a stretch of picks the change of a credit therefore tells how far a slot is ahead
of or behind its share, and `Group.InBalance` bounds it, whatever the tier has been through before.

* `Group.pickCount` — how often moves pick a slot.
* `Group.Steady` — moves over which the same slots can be picked at each pick, and none comes back.
* `Group.creditAt_of_steady`, `Group.creditAt_of_unpicked` — what such a stretch does to a credit.
* `proportional_share` — shares follow the weights, and a slot that can be picked is picked in time.
-/

namespace TieredPool

open Finset

variable {α : Type}

namespace Group

/-- The number of moves that pick the slot at `i`. -/
def pickCount (i : ℕ) (g : Group α) (moves : List (Move α)) : ℕ :=
  (g.history moves).countP fun made => made.1.pickedBy made.2 = some i

/-- Over the moves the slots at `S`, and no others, can be picked at each pick, and no slot comes back
from being down. -/
structure Steady (S : Finset ℕ) (g : Group α) (moves : List (Move α)) : Prop where
  candidates : ∀ (g' : Group α) (now : Instant), (g', .select now) ∈ g.history moves →
    g'.candidates now = S
  recovered : ∀ (g' : Group α) (m : Move α), (g', m) ∈ g.history moves → g'.recoveredBy m = none

/-- Over the moves the slot at `i` can be picked at each pick, but is never picked, and does not come
back from being down. -/
structure Waiting (i : ℕ) (g : Group α) (moves : List (Move α)) : Prop where
  candidate : ∀ (g' : Group α) (now : Instant), (g', .select now) ∈ g.history moves →
    i ∈ g'.candidates now
  unpicked : ∀ (g' : Group α) (m : Move α), (g', m) ∈ g.history moves → g'.pickedBy m ≠ some i
  recovered : ∀ (g' : Group α) (m : Move α), (g', m) ∈ g.history moves → g'.recoveredBy m ≠ some i

variable {S : Finset ℕ} {g : Group α} {m : Move α} {rest : List (Move α)} {i : ℕ}

theorem Steady.tail (h : g.Steady S (m :: rest)) : (g.move m).Steady S rest where
  candidates := fun g' now hmem => h.candidates g' now (List.mem_cons_of_mem _ hmem)
  recovered := fun g' m' hmem => h.recovered g' m' (List.mem_cons_of_mem _ hmem)

/-- A move that finds nobody to pick is none of the picks of a steady stretch. -/
theorem Steady.isSelect_eq_false (h : g.Steady S (m :: rest)) (hS : S.Nonempty)
    (hnone : ∀ now, m = .select now → g.candidates now = ∅) : m.isSelect = false := by
  refine Move.isSelect_eq_false fun now hm => ?_
  have hempty := hnone now hm
  subst hm
  rw [h.candidates g now List.mem_cons_self] at hempty
  exact hS.ne_empty hempty

theorem Waiting.tail (h : g.Waiting i (m :: rest)) : (g.move m).Waiting i rest where
  candidate := fun g' now hmem => h.candidate g' now (List.mem_cons_of_mem _ hmem)
  unpicked := fun g' m' hmem => h.unpicked g' m' (List.mem_cons_of_mem _ hmem)
  recovered := fun g' m' hmem => h.recovered g' m' (List.mem_cons_of_mem _ hmem)

theorem pickCount_cons (i : ℕ) (g : Group α) (m : Move α) (rest : List (Move α)) :
    g.pickCount i (m :: rest) =
      (g.move m).pickCount i rest + if g.pickedBy m = some i then 1 else 0 := by
  simp [pickCount, history, List.countP_cons]

theorem weightAt_play {g : Group α} (moves : List (Move α)) {i : ℕ} (hi : i < g.size) :
    (g.play moves).weightAt i = g.weightAt i := by
  induction moves generalizing g with
  | nil => rfl
  | cons m rest ih =>
      rw [play_cons, ih (hi.trans_le (size_move g m)), weightAt_move g m hi]

theorem sum_weightAt_play (moves : List (Move α)) (hS : S ⊆ range g.size) :
    ∑ j ∈ S, ((g.play moves).weightAt j : ℤ) = ∑ j ∈ S, (g.weightAt j : ℤ) :=
  sum_congr rfl fun j hj => by rw [weightAt_play moves (mem_range.1 (hS hj))]

/-! ## Over a steady stretch -/

/-- Over a steady stretch a credit grows by the weight of its slot at each pick, less the weight of all
for each pick of the slot itself. -/
theorem creditAt_of_steady {moves : List (Move α)} (h : g.Steady S moves) (hi : i ∈ S)
    (hS : S ⊆ range g.size) :
    (g.play moves).creditAt i = g.creditAt i + moves.countP Move.isSelect * (g.weightAt i : ℤ) -
      g.pickCount i moves * ∑ j ∈ S, (g.weightAt j : ℤ) := by
  induction moves generalizing g with
  | nil => simp [pickCount, history]
  | cons m rest ih =>
      -- The weights at `S` are those of the start throughout.
      have hrest := ih h.tail (hS.trans (range_subset_range.2 (size_move g m)))
      rw [weightAt_move g m (mem_range.1 (hS hi)), sum_weightAt_move m hS] at hrest
      have hback := h.recovered g m List.mem_cons_self
      rw [play_cons, hrest, pickCount_cons]
      rcases g.credited m with ⟨hpick, _, hnone, hcredit⟩ | ⟨now, k, rfl, hpick, hcredit⟩ |
        ⟨k, _, hback', _⟩
      · simp [hcredit, hpick, h.isSelect_eq_false ⟨i, hi⟩ hnone]
      · have hS' := h.candidates g now List.mem_cons_self
        rw [hS'] at hcredit
        have hi' := hcredit.credit i
        rw [if_pos hi] at hi'
        rw [hi', hpick, List.countP_cons_of_pos (by rfl)]
        by_cases hik : i = k
        · subst hik
          simp only [if_true]
          push_cast
          ring
        · have hki : ¬ (some k = some i) := by simpa using Ne.symm hik
          simp only [hik, hki, if_false]
          push_cast
          ring
      · rw [hback] at hback'
        cases hback'

/-- What every pick among the slots at `S` keeps of the credits lasts over a steady stretch. -/
theorem Steady.creditAt_induction {motive : (ℕ → ℤ) → Prop} {w : ℕ → ℤ} {moves : List (Move α)}
    (hmotive : ∀ (k : ℕ) (c c' : ℕ → ℤ), Turnover S w k c c' → motive c → motive c')
    (h : g.Steady S moves) (hS : S ⊆ range g.size) (hw : ∀ i ∈ S, (g.weightAt i : ℤ) = w i)
    (hstart : motive g.creditAt) : motive (g.play moves).creditAt := by
  induction moves generalizing g with
  | nil => exact hstart
  | cons m rest ih =>
      refine ih h.tail (hS.trans (range_subset_range.2 (size_move g m))) (fun i hi => ?_) ?_
      · rw [weightAt_move g m (mem_range.1 (hS hi)), hw i hi]
      rcases g.credited m with ⟨_, _, _, hcredit⟩ | ⟨now, k, rfl, _, hcredit⟩ | ⟨k, _, hback, _⟩
      · rw [hcredit]
        exact hstart
      · rw [h.candidates g now List.mem_cons_self] at hcredit
        exact hmotive k _ _ (hcredit.congr_weight hw) hstart
      · rw [h.recovered g m List.mem_cons_self] at hback
        cases hback

/-- Balance within bounds that allow for those who can be picked lasts over a steady stretch. -/
theorem balanced_of_steady {moves : List (Move α)} {n : ℕ} {C : ℤ} (h : g.Steady S moves)
    (hbalance : Balanced n C g.creditAt) (hC : ∑ j ∈ S, (g.weightAt j : ℤ) ≤ C)
    (hn : S ⊆ range n) (hS : S ⊆ range g.size) : Balanced n C (g.play moves).creditAt :=
  h.creditAt_induction (fun _ _ _ hturn hbalance => hbalance.turnover hC hn hturn) hS
    (fun _ _ => rfl) hbalance

/-! ## Waiting -/

/-- While a slot waits, its credit grows by its weight at each pick. -/
theorem creditAt_of_waiting {moves : List (Move α)} (h : g.Waiting i moves) :
    (g.play moves).creditAt i =
      g.creditAt i + moves.countP Move.isSelect * ((g.play moves).weightAt i : ℤ) := by
  induction moves generalizing g with
  | nil => simp
  | cons m rest ih =>
      have hpick := h.unpicked g m List.mem_cons_self
      have hback := h.recovered g m List.mem_cons_self
      rw [play_cons, ih h.tail]
      rcases g.credited m with ⟨_, _, hnone, hcredit⟩ | ⟨now, k, rfl, hpick', hcredit⟩ |
        ⟨k, rfl, hback', hcredit⟩
      · have hselect : m.isSelect = false := by
          refine Move.isSelect_eq_false fun now hm => ?_
          subst hm
          have hin := h.candidate g now List.mem_cons_self
          exact notMem_empty i (hnone now rfl ▸ hin)
        simp [hcredit, hselect]
      · have hin := h.candidate g now List.mem_cons_self
        have hlt : i < g.size := mem_range.1 (g.candidates_subset now hin)
        have hik : i ≠ k := by
          rintro rfl
          exact hpick hpick'
        have hweight : ((g.move (.select now)).play rest).weightAt i = g.weightAt i :=
          weightAt_play (.select now :: rest) hlt
        have hi := hcredit.credit i
        rw [if_pos hin, if_neg hik] at hi
        rw [hi, hweight, List.countP_cons_of_pos (by rfl)]
        push_cast
        ring
      · have hik : i ≠ k := by
          rintro rfl
          exact hback hback'
        simp [hcredit, Move.isSelect, Function.update_of_ne hik]

/-- Over a steady stretch that begins with a pick, in a tier whose credits are balanced, the picks of a
slot are its share. -/
theorem Steady.abs_share_le (hbalance : g.InBalance) {t : Instant}
    (h : g.Steady S (.select t :: rest)) (hi : i ∈ S) :
    |((Move.select t :: rest).countP Move.isSelect : ℤ) * g.weightAt i -
        g.pickCount i (.select t :: rest) * ∑ j ∈ S, (g.weightAt j : ℤ)| ≤
      2 * ((g.size : ℤ) - 1) * g.totalWeight := by
  have hcandidates : g.candidates t = S := h.candidates g t List.mem_cons_self
  have hS : S ⊆ range g.size := hcandidates ▸ g.candidates_subset t
  have hC : ∑ j ∈ S, (g.weightAt j : ℤ) ≤ g.totalWeight := by
    rw [← hcandidates]
    exact_mod_cast sum_candidates_le t g
  have hlt : i < g.size := mem_range.1 (hS hi)
  -- The difference is that of two credits, each of which is within its bound.
  have hledger := creditAt_of_steady h hi hS
  rcases abs_le.1 (Balanced.abs_le_mul hbalance hlt) with ⟨hlow, hhigh⟩
  rcases abs_le.1 ((balanced_of_steady h hbalance hC hS hS).abs_le_mul hlt) with ⟨hlow', hhigh'⟩
  exact abs_le.2 ⟨by linarith, by linarith⟩

/-- A slot that waits, in a tier whose credits are balanced, has not waited long. -/
theorem Waiting.mul_weight_le (hbalance : g.InBalance) {moves : List (Move α)}
    (h : g.Waiting i moves) :
    (moves.countP Move.isSelect : ℤ) * (g.play moves).weightAt i ≤
      2 * (((g.play moves).size : ℤ) - 1) * (g.play moves).totalWeight := by
  have hend := hbalance.play moves
  have hweight : (0 : ℤ) ≤ g.totalWeight := Int.natCast_nonneg _
  have htotal : (g.totalWeight : ℤ) ≤ (g.play moves).totalWeight := by
    exact_mod_cast totalWeight_play g moves
  -- At the size and weight of the end the bounds hold at the start as well.
  have hstart : Balanced (g.play moves).size (g.play moves).totalWeight g.creditAt :=
    Balanced.mono hbalance hweight (size_play g moves) htotal fun j hj => creditAt_of_size_le hj
  have hledger := creditAt_of_waiting h
  by_cases hlt : i < (g.play moves).size
  case pos =>
    have hlow := (abs_le.1 (hstart.abs_le_mul hlt)).1
    have hhigh := (abs_le.1 (Balanced.abs_le_mul hend hlt)).2
    linarith
  case neg =>
    -- A slot that has not been added by the end has no weight, and nobody waits there.
    have hzero : (g.play moves).weightAt i = 0 := weightAt_of_size_le (not_lt.1 hlt)
    have hpos := sub_one_mul_totalWeight_nonneg (g.play moves)
    rw [hzero, Nat.cast_zero, mul_zero]
    linarith

end Group

/-! ## Shares -/

/-- However a tier of `n` slots and total weight `C` came about: over any stretch of `N` picks at each
of which the slots at `S` can be picked, and in which none comes back, the picks of one of them are its
share by weight, up to `2 * (n - 1) * C`. And a slot that can be picked at each of `N` picks, but is
not, whatever happens to the others, waits only as long as `N` times its weight is within that bound,
taken at the end. -/
theorem proportional_share (before : List (Move α)) :
    (∀ (t : Instant) (rest : List (Move α)) (S : Finset ℕ) (i : ℕ),
      (({} : Group α).play before).Steady S (.select t :: rest) → i ∈ S →
      let g := ({} : Group α).play before
      |((Move.select t :: rest).countP Move.isSelect : ℤ) * g.weightAt i -
          g.pickCount i (.select t :: rest) * ∑ j ∈ S, (g.weightAt j : ℤ)| ≤
        2 * ((g.size : ℤ) - 1) * g.totalWeight) ∧
    (∀ (moves : List (Move α)) (i : ℕ), (({} : Group α).play before).Waiting i moves →
      let g := ({} : Group α).play (before ++ moves)
      (moves.countP Move.isSelect : ℤ) * g.weightAt i ≤ 2 * ((g.size : ℤ) - 1) * g.totalWeight) := by
  have hbalance := Group.InBalance.empty.play before
  refine ⟨fun t rest S i h hi => h.abs_share_le hbalance hi, fun moves i h => ?_⟩
  rw [Group.play_append]
  exact h.mul_weight_le hbalance

/-- Servers of weights 3 and 1, of which the first has missed two picks. -/
def skewed : List (Move Unit) :=
  [ .push { id := ⟨.primary, 0⟩, options := .primary 3, data := () },
    .push { id := ⟨.primary, 1⟩, options := .primary 1, data := () },
    .failure 0 ⟨0⟩, .select ⟨1⟩, .select ⟨2⟩, .success 0 ]

theorem steady_skewed :
    (({} : Group Unit).play skewed).Steady {0, 1} [.select ⟨3⟩, .select ⟨4⟩, .select ⟨5⟩] where
  candidates := by
    intro g now h
    simp only [Group.history, List.mem_cons, Prod.mk.injEq, Move.select.injEq, List.not_mem_nil,
      or_false] at h
    rcases h with ⟨rfl, rfl⟩ | ⟨rfl, rfl⟩ | ⟨rfl, rfl⟩ <;> decide
  recovered := by
    intro g m h
    simp only [Group.history, List.mem_cons, Prod.mk.injEq, List.not_mem_nil, or_false] at h
    rcases h with ⟨rfl, rfl⟩ | ⟨rfl, rfl⟩ | ⟨rfl, rfl⟩ <;> rfl

theorem waiting_skewed :
    (({} : Group Unit).play skewed).Waiting 1 [.select ⟨3⟩, .select ⟨4⟩] where
  candidate := by
    intro g now h
    simp only [Group.history, List.mem_cons, Prod.mk.injEq, Move.select.injEq, List.not_mem_nil,
      or_false] at h
    rcases h with ⟨rfl, rfl⟩ | ⟨rfl, rfl⟩ <;> decide
  unpicked := by
    intro g m h
    simp only [Group.history, List.mem_cons, Prod.mk.injEq, List.not_mem_nil, or_false] at h
    rcases h with ⟨rfl, rfl⟩ | ⟨rfl, rfl⟩ <;> decide
  recovered := by
    intro g m h
    simp only [Group.history, List.mem_cons, Prod.mk.injEq, List.not_mem_nil, or_false] at h
    rcases h with ⟨rfl, rfl⟩ | ⟨rfl, rfl⟩ <;> decide

theorem proportional_share_skewed :
    (({} : Group Unit).play skewed).pickCount 0 [.select ⟨3⟩, .select ⟨4⟩, .select ⟨5⟩] = 2 ∧
    |(3 : ℤ) * 3 - 2 * 4| ≤ 2 * (2 - 1) * 4 ∧
    (2 : ℤ) * 1 ≤ 2 * (2 - 1) * 4 :=
  have h := proportional_share skewed
  ⟨by decide,
    h.1 ⟨3⟩ [.select ⟨4⟩, .select ⟨5⟩] {0, 1} 0 steady_skewed (by decide),
    h.2 [.select ⟨3⟩, .select ⟨4⟩] 1 waiting_skewed⟩

end TieredPool
