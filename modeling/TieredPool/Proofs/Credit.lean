import TieredPool.Proofs.Balance
import TieredPool.Proofs.Moves

/-!
# Credit — what a tier owes its servers, whatever it has been through

Credits are not conserved: a server that comes back loses its own, and one that is down keeps it
without taking part. They stay balanced all the same, in the sense of `Balanced`.

* `Group.creditAt`, `Group.weightAt`, `Group.candidates` — the slots of a tier by position.
* `Group.credited` — all that a move does to the credits.
* `Group.InBalance` — credits are balanced, as they are in every tier that moves can reach.
* `Group.computed` — the integers that a pick computes, and their bound.
-/

namespace TieredPool

open Finset

variable {α : Type}

namespace Group

/-! ## Slots by position -/

def creditAt (g : Group α) (i : ℕ) : ℤ := (g.slots[i]?).elim 0 Slot.credit

def weightAt (g : Group α) (i : ℕ) : ℕ := (g.slots[i]?).elim 0 Slot.weight

def totalWeight (g : Group α) : ℕ := (g.slots.map Slot.weight).sum

/-- The positions of the slots that can be picked at `now`. -/
def candidates (now : Instant) (g : Group α) : Finset ℕ :=
  (range g.size).filter fun i => (g.slots[i]?).any (·.selectable now)

theorem mem_candidates {now : Instant} {g : Group α} {i : ℕ} :
    i ∈ g.candidates now ↔ ∃ s : Slot α, g.slots[i]? = some s ∧ s.selectable now = true := by
  unfold candidates
  simp only [mem_filter, mem_range, Option.any_eq_true]
  constructor
  · rintro ⟨_, s, hs, hsel⟩
    exact ⟨s, hs, hsel⟩
  · rintro ⟨s, hs, hsel⟩
    exact ⟨(List.getElem?_eq_some_iff.1 hs).1, s, hs, hsel⟩

theorem candidates_subset (now : Instant) (g : Group α) : g.candidates now ⊆ range g.size :=
  filter_subset _ _

theorem creditAt_of_getElem? {g : Group α} {i : ℕ} {s : Slot α} (hs : g.slots[i]? = some s) :
    g.creditAt i = s.credit := by
  simp [creditAt, hs]

theorem weightAt_of_getElem? {g : Group α} {i : ℕ} {s : Slot α} (hs : g.slots[i]? = some s) :
    g.weightAt i = s.weight := by
  simp [weightAt, hs]

theorem creditAt_of_size_le {g : Group α} {i : ℕ} (hi : g.size ≤ i) : g.creditAt i = 0 := by
  have hnone : g.slots[i]? = none := List.getElem?_eq_none hi
  simp [creditAt, hnone]

theorem weightAt_of_size_le {g : Group α} {i : ℕ} (hi : g.size ≤ i) : g.weightAt i = 0 := by
  have hnone : g.slots[i]? = none := List.getElem?_eq_none hi
  simp [weightAt, hnone]

/-- A sum over the positions of a list is the sum over its members. -/
theorem sum_range_elim {M : Type} [AddCommMonoid M] (f : Slot α → M) (l : List (Slot α)) :
    ∑ i ∈ range l.length, (l[i]?).elim 0 f = (l.map f).sum := by
  induction l with
  | nil => rfl
  | cons s rest ih =>
      rw [List.length_cons, sum_range_succ', List.map_cons, List.sum_cons, ← ih, add_comm]
      rfl

theorem sum_weightAt (g : Group α) : ∑ i ∈ range g.size, g.weightAt i = g.totalWeight :=
  sum_range_elim Slot.weight g.slots

theorem sum_creditAt (g : Group α) :
    ∑ i ∈ range g.size, g.creditAt i = (g.slots.map Slot.credit).sum :=
  sum_range_elim Slot.credit g.slots

theorem sum_candidates (now : Instant) (g : Group α) :
    ∑ i ∈ g.candidates now, g.weightAt i = selectableWeight now g.slots := by
  have hlist : ∀ l : List (Slot α), selectableWeight now l =
      (l.map fun s => if s.selectable now then s.weight else 0).sum := by
    intro l
    induction l with
    | nil => rfl
    | cons s rest ih => simp [selectableWeight, ih]
  rw [hlist, ← sum_range_elim, candidates, sum_filter]
  refine sum_congr rfl fun i _ => ?_
  cases hi : g.slots[i]? with
  | none => simp
  | some s => simp [weightAt, hi]

theorem sum_candidates_le (now : Instant) (g : Group α) :
    ∑ i ∈ g.candidates now, g.weightAt i ≤ g.totalWeight := by
  rw [← sum_weightAt]
  exact sum_le_sum_of_subset (g.candidates_subset now)

/-! ## What a move does -/

/-- A move leaves the weights of the slots that are there. -/
theorem map_weight_move (g : Group α) (m : Move α) :
    ∃ added, (g.move m).slots.map Slot.weight = g.slots.map Slot.weight ++ added := by
  rcases map_server_move g m with ⟨added, hadded⟩
  have hweight : ∀ l : List (Slot α), l.map Slot.weight =
      (l.map Slot.server).map fun server => server.options.effectiveWeight := by
    intro l
    rw [List.map_map]
    rfl
  exact ⟨_, by rw [hweight, hadded, List.map_append, ← hweight]⟩

theorem size_move (g : Group α) (m : Move α) : g.size ≤ (g.move m).size := by
  rcases map_weight_move g m with ⟨added, hadded⟩
  have hlength := congrArg List.length hadded
  simp only [List.length_map, List.length_append] at hlength
  unfold size
  omega

theorem totalWeight_move (g : Group α) (m : Move α) : g.totalWeight ≤ (g.move m).totalWeight := by
  rcases map_weight_move g m with ⟨added, hadded⟩
  have hsum := congrArg List.sum hadded
  rw [List.sum_append] at hsum
  unfold totalWeight
  omega

theorem size_play (g : Group α) (moves : List (Move α)) : g.size ≤ (g.play moves).size := by
  induction moves generalizing g with
  | nil => exact le_refl _
  | cons m rest ih => exact (size_move g m).trans (ih (g.move m))

theorem totalWeight_play (g : Group α) (moves : List (Move α)) :
    g.totalWeight ≤ (g.play moves).totalWeight := by
  induction moves generalizing g with
  | nil => exact le_refl _
  | cons m rest ih => exact (totalWeight_move g m).trans (ih (g.move m))

theorem weightAt_eq_getD (g : Group α) (i : ℕ) :
    g.weightAt i = ((g.slots.map Slot.weight)[i]?).getD 0 := by
  rw [List.getElem?_map]
  unfold weightAt
  cases g.slots[i]? <;> rfl

theorem weightAt_move (g : Group α) (m : Move α) {i : ℕ} (hi : i < g.size) :
    (g.move m).weightAt i = g.weightAt i := by
  rcases map_weight_move g m with ⟨added, hadded⟩
  have hlt : i < (g.slots.map Slot.weight).length := by simpa [size] using hi
  rw [weightAt_eq_getD, weightAt_eq_getD, hadded, List.getElem?_append_left hlt]

/-- So what the slots of a set weigh together does not change. -/
theorem sum_weightAt_move {S : Finset ℕ} {g : Group α} (m : Move α) (hS : S ⊆ range g.size) :
    ∑ j ∈ S, ((g.move m).weightAt j : ℤ) = ∑ j ∈ S, (g.weightAt j : ℤ) :=
  sum_congr rfl fun j hj => by rw [weightAt_move g m (mem_range.1 (hS hj))]

theorem creditAt_eq_getD (g : Group α) (i : ℕ) :
    g.creditAt i = ((g.slots.map Slot.credit)[i]?).getD 0 := by
  rw [List.getElem?_map]
  unfold creditAt
  cases g.slots[i]? <;> rfl

/-- Handing out the leader turns over the credits of those who can be picked. -/
theorem turnover_of_leads {g : Group α} {now : Instant} {k : ℕ} {s : Slot α}
    (hleads : g.Leads now k s) :
    Turnover (g.candidates now) (fun i => (g.weightAt i : ℤ)) k g.creditAt
      (g.charged now k).creditAt where
  mem := mem_candidates.2 ⟨s, hleads.get, hleads.selectable⟩
  weight_nonneg := fun i _ => Int.natCast_nonneg _
  greatest := by
    intro i hi
    rcases mem_candidates.1 hi with ⟨t, ht, hsel⟩
    rw [creditAt_of_getElem? ht, weightAt_of_getElem? ht, creditAt_of_getElem? hleads.get,
      weightAt_of_getElem? hleads.get]
    exact hleads.greatest i t ht hsel
  credit := by
    intro i
    have htotal : ∑ j ∈ g.candidates now, (g.weightAt j : ℤ) =
        (selectableWeight now g.slots : ℤ) := by
      exact_mod_cast sum_candidates now g
    rw [htotal]
    -- A slot earns if it can be picked, and pays if it is the leader, which can be.
    cases hi : g.slots[i]? with
    | none =>
        have hik : i ≠ k := by
          rintro rfl
          rw [hleads.get] at hi
          cases hi
        have hout : i ∉ g.candidates now := by
          simp [mem_candidates, hi]
        simp [creditAt, charged_getElem?, hi, hik, hout]
    | some t =>
        have hin : i ∈ g.candidates now ↔ t.selectable now = true := by
          simp [mem_candidates, hi]
        by_cases hik : i = k
        · subst hik
          simp [creditAt, weightAt, charged_getElem?, hi, Slot.accrue_credit, hin]
        · simp [creditAt, weightAt, charged_getElem?, hi, hik, Slot.accrue_credit, hin]

/-- A pick fails only if nobody can be picked. -/
theorem credit_select (g : Group α) (now : Instant) :
    (g.candidates now = ∅ ∧ g.pickedBy (.select now) = none ∧ (g.select now).2 = g) ∨
      ∃ k, g.pickedBy (.select now) = some k ∧
        Turnover (g.candidates now) (fun i => (g.weightAt i : ℤ)) k g.creditAt
          (g.select now).2.creditAt := by
  rcases select_cases now g with ⟨hnone, heq⟩ | ⟨k, s, hleads, heq⟩
  · left
    refine ⟨?_, by simp [pickedBy, heq], by rw [heq]⟩
    refine eq_empty_of_forall_notMem fun i hi => ?_
    rcases mem_candidates.1 hi with ⟨t, ht, hsel⟩
    rw [hnone t (List.mem_of_getElem? ht)] at hsel
    cases hsel
  · right
    refine ⟨k, by simp [pickedBy, heq, charged], ?_⟩
    rw [heq]
    exact turnover_of_leads hleads

/-- The three things a move can do to the credits: nothing, when it neither picks a slot nor brings one
back; turn them over; or forget the credit of the slot that it brings back. -/
inductive Credited (g : Group α) (m : Move α) : Prop where
  | kept (hpick : g.pickedBy m = none) (hback : g.recoveredBy m = none)
      (hnone : ∀ now, m = .select now → g.candidates now = ∅)
      (hcredit : (g.move m).creditAt = g.creditAt)
  | picked (now : Instant) (k : ℕ) (hm : m = .select now) (hpick : g.pickedBy m = some k)
      (hcredit : Turnover (g.candidates now) (fun i => (g.weightAt i : ℤ)) k g.creditAt
        (g.move m).creditAt)
  | forgot (k : ℕ) (hm : m = .success k) (hback : g.recoveredBy m = some k)
      (hcredit : (g.move m).creditAt = Function.update g.creditAt k 0)

theorem credited (g : Group α) (m : Move α) : g.Credited m := by
  cases m with
  | push server =>
      refine .kept rfl rfl (by simp) (funext fun i => ?_)
      have hmap : (g.move (.push server)).slots.map Slot.credit = g.slots.map Slot.credit ++ [0] := by
        simp [move, push]
      rw [creditAt_eq_getD, creditAt_eq_getD, hmap]
      rcases Nat.lt_trichotomy i (g.slots.map Slot.credit).length with hlt | rfl | hgt
      · rw [List.getElem?_append_left hlt]
      · simp
      · rw [List.getElem?_eq_none (by simpa using Nat.succ_le_of_lt hgt), List.getElem?_eq_none (by omega)]
  | select now =>
      rcases credit_select g now with ⟨hnone, hpick, heq⟩ | ⟨k, hpick, hturn⟩
      · refine .kept hpick rfl (fun now' h => ?_) (by rw [move, heq])
        cases h
        exact hnone
      · exact .picked now k rfl hpick hturn
  | success k =>
      -- Only the slot at `k` is touched, and its credit only if it comes back.
      have hcredit : ∀ s : Slot α,
          s.recordSuccess.1.credit = if s.recordSuccess.2 = .up then 0 else s.credit := fun _ => rfl
      have hat : ∀ i, (g.move (.success k)).creditAt i =
          if k = i then (g.slots[k]?).elim 0 (fun s => s.recordSuccess.1.credit)
          else g.creditAt i := by
        intro i
        by_cases hik : k = i
        · subst hik
          cases hk : g.slots[k]? <;> simp [move, creditAt, hk]
        · simp [move, creditAt, hik]
      cases hk : g.slots[k]? with
      | none =>
          refine .kept rfl (by simp [recoveredBy, hk]) (by simp) (funext fun i => ?_)
          rw [hat]
          split
          case isTrue hik => simp [hk, ← hik, creditAt]
          case isFalse => rfl
      | some s =>
          by_cases hup : s.recordSuccess.2 = .up
          · refine .forgot k rfl (by simp [recoveredBy, hk, hup]) (funext fun i => ?_)
            rw [hat, Function.update_apply]
            by_cases hik : k = i
            · subst hik
              simp [hk, hcredit, hup]
            · simp [hik, Ne.symm hik]
          · refine .kept rfl (by simp [recoveredBy, hk, hup]) (by simp) (funext fun i => ?_)
            rw [hat]
            split
            case isTrue hik => simp [hk, ← hik, creditAt, hcredit, hup]
            case isFalse => rfl
  | failure k now =>
      refine .kept rfl rfl (by simp) (funext fun i => ?_)
      have hmap := map_modify_of_eq (h := Slot.credit) (f := fun s => (s.recordFailure now).1)
        (fun _ => rfl) g.slots k
      rw [creditAt_eq_getD, creditAt_eq_getD]
      simp only [move]
      rw [hmap]

/-! ## Balance -/

/-- A move keeps credits balanced within bounds that allow for everyone it can pick. -/
theorem balanced_move {g : Group α} {n : ℕ} {C : ℤ} (h : Balanced n C g.creditAt) (hC : 0 ≤ C)
    (m : Move α)
    (hselect : ∀ now, m = .select now → g.candidates now ⊆ range n ∧
      ∑ i ∈ g.candidates now, (g.weightAt i : ℤ) ≤ C) :
    Balanced n C (g.move m).creditAt := by
  rcases g.credited m with ⟨_, _, _, hcredit⟩ | ⟨now, k, hm, _, hcredit⟩ | ⟨k, _, _, hcredit⟩
  · rw [hcredit]
    exact h
  · rcases hselect now hm with ⟨hsub, hweight⟩
    exact h.turnover hweight hsub hcredit
  · rw [hcredit]
    exact h.update_zero hC k

/-- The credits of the tier are balanced, within the bounds of its size and weight. -/
def InBalance (g : Group α) : Prop := Balanced g.size g.totalWeight g.creditAt

theorem InBalance.empty : ({} : Group α).InBalance := by
  have hempty : ({} : Group α).creditAt = fun _ => 0 := funext fun _ => rfl
  unfold InBalance
  rw [hempty]
  exact Balanced.zero _ (Int.natCast_nonneg _)

theorem InBalance.move {g : Group α} (h : g.InBalance) (m : Move α) : (g.move m).InBalance := by
  have hweight : (0 : ℤ) ≤ g.totalWeight := Int.natCast_nonneg _
  have htotal : (g.totalWeight : ℤ) ≤ (g.move m).totalWeight := by
    exact_mod_cast totalWeight_move g m
  -- Room for a new server is made before the move, as it starts without credit.
  have hroom : Balanced (g.move m).size (g.move m).totalWeight g.creditAt :=
    h.mono hweight (size_move g m) htotal fun i hi => creditAt_of_size_le hi
  refine balanced_move hroom (hweight.trans htotal) m fun now _ => ⟨?_, ?_⟩
  · exact (g.candidates_subset now).trans (range_subset_range.2 (size_move g m))
  · have hcandidates : ∑ i ∈ g.candidates now, (g.weightAt i : ℤ) ≤ g.totalWeight := by
      exact_mod_cast sum_candidates_le now g
    exact hcandidates.trans htotal

theorem InBalance.play {g : Group α} (h : g.InBalance) (moves : List (Move α)) :
    (g.play moves).InBalance :=
  play_induction (fun _ m hg => hg.move m) h moves

theorem InBalance.abs_credit_le {g : Group α} (h : g.InBalance) {s : Slot α} (hs : s ∈ g.slots) :
    |s.credit| ≤ ((g.size : ℤ) - 1) * g.totalWeight := by
  rcases List.mem_iff_getElem?.1 hs with ⟨i, hi⟩
  rw [← creditAt_of_getElem? hi]
  exact h.abs_le_mul (List.getElem?_eq_some_iff.1 hi).1

theorem sub_one_mul_totalWeight_nonneg (g : Group α) :
    0 ≤ ((g.size : ℤ) - 1) * g.totalWeight := by
  cases hslots : g.slots with
  | nil => simp [size, totalWeight, hslots]
  | cons s rest =>
      refine mul_nonneg ?_ (Int.natCast_nonneg _)
      simp [size, hslots]

/-- In every state of a run of a pool, too, the credits of a tier are balanced. -/
theorem inBalance_after (fuel : Nat) (clock : Instant) (requests : List (Request α)) (k : Nat)
    (tier : Tier) : ((({ clock } : State α).after fuel requests k).pool.group tier).InBalance := by
  rcases State.group_after fuel clock requests k tier with ⟨moves, hmoves⟩
  rw [hmoves]
  exact InBalance.empty.play moves

/-! ## The arithmetic of a pick -/

/-- The integers that a pass over the slots computes: for each that can be picked, its raised credit
and then the total weight so far. -/
def tally (now : Instant) : ℤ → List (Slot α) → List ℤ
  | _, [] => []
  | total, s :: rest =>
      if s.selectable now then
        (s.credit + s.weight) :: (total + s.weight) :: tally now (total + s.weight) rest
      else tally now total rest

/-- All integers that a pick computes, the credit of the leader once it has paid last. -/
def computed (now : Instant) (g : Group α) : List ℤ :=
  tally now 0 g.slots ++
    (leader? now (g.slots.map (·.accrue now))).toList.map fun found =>
      found.2.credit - (selectableWeight now g.slots : ℤ)

theorem mem_tally {now : Instant} {total v : ℤ} {l : List (Slot α)} (h : v ∈ tally now total l) :
    (∃ s ∈ l, s.selectable now = true ∧ v = s.credit + s.weight) ∨
      (total ≤ v ∧ v ≤ total + selectableWeight now l) := by
  induction l generalizing total with
  | nil => simp [tally] at h
  | cons s rest ih =>
      by_cases hsel : s.selectable now = true
      case neg =>
        simp only [tally, hsel] at h
        rcases ih h with ⟨t, ht, htsel, hv⟩ | hbetween
        · exact .inl ⟨t, List.mem_cons_of_mem s ht, htsel, hv⟩
        · exact .inr (by simpa [selectableWeight, hsel] using hbetween)
      case pos =>
        simp only [tally, hsel, if_true, List.mem_cons] at h
        have hweight : selectableWeight now (s :: rest) = s.weight + selectableWeight now rest := by
          simp [selectableWeight, hsel]
        rcases h with hv | hv | h
        · exact .inl ⟨s, List.mem_cons_self, hsel, hv⟩
        · right
          rw [hweight]
          omega
        · rcases ih h with ⟨t, ht, htsel, hv⟩ | hbetween
          · exact .inl ⟨t, List.mem_cons_of_mem s ht, htsel, hv⟩
          · right
            rw [hweight]
            omega

/-- Nothing that a pick computes from balanced credits exceeds the number of slots times their total
weight. -/
theorem InBalance.abs_computed_le {g : Group α} (h : g.InBalance) (now : Instant) {v : ℤ}
    (hv : v ∈ g.computed now) : |v| ≤ (g.size : ℤ) * g.totalWeight := by
  have hC : (0 : ℤ) ≤ g.totalWeight := Int.natCast_nonneg _
  have hsel : (selectableWeight now g.slots : ℤ) ≤ g.totalWeight := by
    rw [← sum_candidates]
    exact_mod_cast sum_candidates_le now g
  have hgrow : ((g.size : ℤ) - 1) * g.totalWeight ≤ g.size * g.totalWeight := by linarith
  -- The value is a raised credit, a running total, or what the leader is left with.
  rcases List.mem_append.1 hv with htally | hpaid
  · rcases mem_tally htally with ⟨s, hs, _, rfl⟩ | ⟨hlow, hhigh⟩
    · rcases List.mem_iff_getElem?.1 hs with ⟨i, hi⟩
      have hlt : i < g.size := (List.getElem?_eq_some_iff.1 hi).1
      have hcredit := h.abs_credit_le hs
      have hweight : (s.weight : ℤ) ≤ g.totalWeight := by
        rw [← weightAt_of_getElem? hi]
        have hle : g.weightAt i ≤ ∑ j ∈ range g.size, g.weightAt j :=
          single_le_sum (fun j _ => Nat.zero_le _) (mem_range.2 hlt)
        rw [sum_weightAt] at hle
        exact_mod_cast hle
      have hpos : (0 : ℤ) ≤ s.weight := Int.natCast_nonneg _
      rcases abs_le.1 hcredit with ⟨hlow, hhigh⟩
      exact abs_le.2 ⟨by linarith, by linarith⟩
    · have hone : 1 ≤ g.size := by
        by_contra hzero
        have hnil : g.slots = [] := List.length_eq_zero_iff.1 (Nat.lt_one_iff.1 (not_le.1 hzero))
        rw [hnil] at htally
        simp [tally] at htally
      have hsize : (1 : ℤ) ≤ g.size := by exact_mod_cast hone
      have hCle : (g.totalWeight : ℤ) ≤ g.size * g.totalWeight := by nlinarith
      exact abs_le.2 ⟨by linarith, by linarith⟩
  · rcases List.mem_map.1 hpaid with ⟨⟨k, w⟩, hfound, rfl⟩
    rcases leads_of_leader? (Option.mem_toList.1 hfound) with ⟨s, rfl, hleads⟩
    have hturn := turnover_of_leads hleads
    have hcandidates : ∑ i ∈ g.candidates now, (g.weightAt i : ℤ) ≤ g.totalWeight := by
      exact_mod_cast sum_candidates_le now g
    have hafter := Balanced.turnover h hcandidates (g.candidates_subset now) hturn
    have hlt : k < g.size := (List.getElem?_eq_some_iff.1 hleads.get).1
    have hpaid : (g.charged now k).creditAt k =
        (s.accrue now).credit - (selectableWeight now g.slots : ℤ) := by
      simp [creditAt, charged_getElem?, hleads.get]
    rw [← hpaid]
    exact (hafter.abs_le_mul hlt).trans hgrow

end Group

end TieredPool
