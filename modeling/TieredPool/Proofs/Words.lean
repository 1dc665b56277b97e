import TieredPool.Proofs.Credit

/-!
# Words — picks in 64-bit arithmetic

Credits are unbounded integers. Here they are kept in 64-bit words instead: a pick is one pass over the
slots, every sum in it is a word, and an overflow ends the run.

* `addWord`, `subWord` — sums and differences that fail when they overflow.
* `WordGroup` — a tier whose credits are words, and the exact tier it stands for.
* `WordGroup.select_exact` — where all that a pick computes fits, the pick is the exact one.
* `WordGroup.exact_select_of_select` — a pick that does not overflow is the exact one.
* `WordGroup.play_exact` — so it is along all moves, if it is for the size and weight at the end.
-/

namespace TieredPool

variable {α : Type}

/-! ## Words -/

def addWord (a b : Int64) : Option Int64 :=
  if (a + b).toInt = a.toInt + b.toInt then some (a + b) else none

def subWord (a b : Int64) : Option Int64 :=
  if (a - b).toInt = a.toInt - b.toInt then some (a - b) else none

def FitsWord (v : ℤ) : Prop := -2 ^ 63 ≤ v ∧ v < 2 ^ 63

theorem FitsWord.bmod {v : ℤ} (h : FitsWord v) : v.bmod (2 ^ 64) = v := by
  unfold FitsWord at h
  exact Int.bmod_eq_of_le_mul_two (by omega) (by omega)

theorem addWord_of_fits {a b : Int64} (h : FitsWord (a.toInt + b.toInt)) :
    addWord a b = some (a + b) ∧ (a + b).toInt = a.toInt + b.toInt := by
  have hsum : (a + b).toInt = a.toInt + b.toInt := by rw [Int64.toInt_add, h.bmod]
  exact ⟨if_pos hsum, hsum⟩

theorem subWord_of_fits {a b : Int64} (h : FitsWord (a.toInt - b.toInt)) :
    subWord a b = some (a - b) ∧ (a - b).toInt = a.toInt - b.toInt := by
  have hdiff : (a - b).toInt = a.toInt - b.toInt := by rw [Int64.toInt_sub, h.bmod]
  exact ⟨if_pos hdiff, hdiff⟩

theorem fitsWord_toInt (a : Int64) : FitsWord a.toInt := ⟨a.le_toInt, a.toInt_lt⟩

theorem toInt_of_addWord {a b c : Int64} (h : addWord a b = some c) : c.toInt = a.toInt + b.toInt := by
  unfold addWord at h
  split at h
  case isTrue hsum =>
    cases h
    exact hsum
  case isFalse => cases h

theorem toInt_of_subWord {a b c : Int64} (h : subWord a b = some c) : c.toInt = a.toInt - b.toInt := by
  unfold subWord at h
  split at h
  case isTrue hdiff =>
    cases h
    exact hdiff
  case isFalse => cases h

/-! ## Tiers of words -/

structure WordSlot (α : Type) where
  server : Server α
  health : Health := {}
  credit : Int64 := 0

namespace WordSlot

/-- The slot that `s` stands for. -/
def exact (s : WordSlot α) : Slot α :=
  { server := s.server, health := s.health, credit := s.credit.toInt }

def weight (s : WordSlot α) : Int64 := .ofNat s.server.options.effectiveWeight

def policy (s : WordSlot α) : Policy := s.server.options.policy

def recordSuccess (s : WordSlot α) : WordSlot α :=
  let (health, transition) := s.health.recordSuccess s.policy
  { s with health, credit := if transition = .up then 0 else s.credit }

def recordFailure (now : Instant) (s : WordSlot α) : WordSlot α :=
  { s with health := (s.health.recordFailure s.policy now).1 }

theorem toInt_weight (s : WordSlot α) : s.weight.toInt = s.exact.weight := by
  have hlt : s.server.options.effectiveWeight < 2 ^ 63 := by
    have := s.server.options.weight.toNat_lt
    unfold ServerOptions.effectiveWeight
    omega
  exact Int64.toInt_ofNat_of_lt hlt

theorem exact_recordSuccess (s : WordSlot α) : s.recordSuccess.exact = s.exact.recordSuccess.1 := by
  unfold exact recordSuccess Slot.recordSuccess policy Slot.policy
  dsimp only
  split
  · simp
  · simp

theorem exact_recordFailure (now : Instant) (s : WordSlot α) :
    (s.recordFailure now).exact = (s.exact.recordFailure now).1 := rfl

end WordSlot

structure WordGroup (α : Type) where
  slots : List (WordSlot α) := []
  cursor : Option Nat := none

namespace WordGroup

/-- The tier that `g` stands for. -/
def exact (g : WordGroup α) : Group α :=
  { slots := g.slots.map WordSlot.exact, cursor := g.cursor }

/-! ## A pick in one pass -/

/-- What the pass has found: the slots with their raised credits, the total weight, and the first
position of highest credit, with that credit. -/
structure Scan (α : Type) where
  slots : List (WordSlot α)
  total : Int64
  best : Option (Nat × Int64)

/-- The better of the best so far and the slot at `i`; the earlier one on a tie. -/
def better (best : Option (Nat × Int64)) (i : Nat) (credit : Int64) : Option (Nat × Int64) :=
  match best with
  | some (j, c) => if credit ≤ c then some (j, c) else some (i, credit)
  | none => some (i, credit)

/-- The pass from position `i` on. -/
def scan (now : Instant) :
    Nat → Int64 → Option (Nat × Int64) → List (WordSlot α) → Option (Scan α)
  | _, total, best, [] => some { slots := [], total, best }
  | i, total, best, s :: rest =>
      if s.health.selectable now then do
        let credit ← addWord s.credit s.weight
        let total ← addWord total s.weight
        let found ← scan now (i + 1) total (better best i credit) rest
        return { found with slots := { s with credit } :: found.slots }
      else do
        let found ← scan now (i + 1) total best rest
        return { found with slots := s :: found.slots }

/-- A pick; none if a sum overflows. -/
def select (now : Instant) (g : WordGroup α) : Option (Option (Group.Pick α) × WordGroup α) := do
  let found ← scan now 0 0 none g.slots
  match found.best with
  | none => return (none, { g with slots := found.slots })
  | some (k, _) =>
      let s ← found.slots[k]?
      let credit ← subWord s.credit found.total
      return (some { server := s.server, probe := s.health.isDown },
        { slots := found.slots.set k { s with credit, health := s.health.beginProbe s.policy now },
          cursor := some k })

/-! ### The pass is exact -/

/-- The best so far, against the leader of the slots from position `i` on. -/
def join (best : Option (Nat × ℤ)) (i : Nat) (leader : Option (Nat × Slot α)) : Option (Nat × ℤ) :=
  match leader with
  | none => best
  | some (k, w) =>
      match best with
      | none => some (i + k, w.credit)
      | some (j, c) => if w.credit ≤ c then some (j, c) else some (i + k, w.credit)

/-- The best found, as integers. -/
def exactBest (best : Option (Nat × Int64)) : Option (Nat × ℤ) :=
  best.map fun found => (found.1, found.2.toInt)

theorem exactBest_better (best : Option (Nat × Int64)) (i : Nat) (credit : Int64) :
    exactBest (better best i credit) = match exactBest best with
      | some (j, c) => if credit.toInt ≤ c then some (j, c) else some (i, credit.toInt)
      | none => some (i, credit.toInt) := by
  cases best with
  | none => rfl
  | some found =>
      by_cases h : credit ≤ found.2
      · have h' := Int64.le_iff_toInt_le.1 h
        simp [exactBest, better, h, h']
      · have h' := mt Int64.le_iff_toInt_le.2 h
        simp [exactBest, better, h, h']

/-- Looking at one slot before the rest comes to the same as looking at both together. -/
theorem join_better (best : Option (Nat × Int64)) (i : Nat) (credit : Int64) {s : Slot α}
    {now : Instant} {rest : List (Slot α)} (hsel : s.selectable now = true)
    (hs : s.credit = credit.toInt) :
    join (exactBest (better best i credit)) (i + 1) (Group.leader? now rest) =
      join (exactBest best) i (Group.leader? now (s :: rest)) := by
  rw [exactBest_better]
  cases hrest : Group.leader? now rest with
  | none =>
      cases hbest : exactBest best with
      | none => simp [join, Group.leader?, hrest, hsel, hs]
      | some found => simp [join, Group.leader?, hrest, hsel, hs]
  | some leader =>
      rcases leader with ⟨k, w⟩
      have hk : i + 1 + k = i + (k + 1) := by omega
      cases hbest : exactBest best with
      | none =>
          by_cases hw : w.credit ≤ s.credit
          · simp [join, Group.leader?, hrest, hsel, hw, ← hs]
          · simp [join, Group.leader?, hrest, hsel, hw, ← hs, hk]
      | some found =>
          rcases found with ⟨j, c⟩
          by_cases hw : w.credit ≤ s.credit
          case pos =>
            by_cases hc : s.credit ≤ c
            case pos =>
              have hwc : w.credit ≤ c := Int.le_trans hw hc
              simp [join, Group.leader?, hrest, hsel, hw, hc, hwc, ← hs]
            case neg => simp [join, Group.leader?, hrest, hsel, hw, hc, ← hs]
          case neg =>
            by_cases hc : s.credit ≤ c
            case pos => simp [join, Group.leader?, hrest, hsel, hw, hc, ← hs, hk]
            case neg =>
              have hwc : ¬ w.credit ≤ c := by omega
              simp [join, Group.leader?, hrest, hsel, hw, hc, hwc, ← hs, hk]

/-- A slot that cannot be picked is passed over. -/
theorem join_skip (best : Option (Nat × ℤ)) (i : Nat) {s : Slot α} {now : Instant}
    {rest : List (Slot α)} (hsel : s.selectable now = false) :
    join best (i + 1) (Group.leader? now rest) = join best i (Group.leader? now (s :: rest)) := by
  cases hrest : Group.leader? now rest with
  | none => simp [join, Group.leader?, hrest, hsel]
  | some leader =>
      have hk : i + 1 + leader.1 = i + (leader.1 + 1) := by omega
      cases best <;> simp [join, Group.leader?, hrest, hsel, hk]

theorem join_none (leader : Option (Nat × Slot α)) :
    join none 0 leader = leader.map fun found => (found.1, found.2.credit) := by
  cases leader <;> simp [join]

theorem tally_cons {now : Instant} {s : WordSlot α} (hsel : s.health.selectable now = true)
    (total : ℤ) (rest : List (WordSlot α)) :
    Group.tally now total ((s :: rest).map WordSlot.exact) =
      (s.credit.toInt + s.weight.toInt) :: (total + s.weight.toInt) ::
        Group.tally now (total + s.weight.toInt) (rest.map WordSlot.exact) := by
  have hsame : s.exact.selectable now = true := hsel
  simp only [List.map_cons, Group.tally, hsame, if_true, s.toInt_weight]
  rfl

/-- If all that the exact pass computes fits, the pass in words finds the same. -/
theorem scan_exact {now : Instant} {l : List (WordSlot α)} {total : Int64}
    (hfits : ∀ v ∈ Group.tally now total.toInt (l.map WordSlot.exact), FitsWord v) (i : Nat)
    (best : Option (Nat × Int64)) :
    ∃ found, scan now i total best l = some found ∧
      found.slots.map WordSlot.exact = (l.map WordSlot.exact).map (·.accrue now) ∧
      found.total.toInt =
        total.toInt + (Group.selectableWeight now (l.map WordSlot.exact) : ℤ) ∧
      exactBest found.best =
        join (exactBest best) i
          (Group.leader? now ((l.map WordSlot.exact).map (·.accrue now))) := by
  induction l generalizing total i best with
  | nil => exact ⟨_, rfl, rfl, by simp [Group.selectableWeight], rfl⟩
  | cons s rest ih =>
      -- Health is no number, so words and integers agree on who takes part.
      have hsame : s.exact.selectable now = s.health.selectable now := rfl
      cases hsel : s.health.selectable now with
      | false =>
          have hskip : s.exact.accrue now = s.exact := by simp [Slot.accrue, hsame, hsel]
          rcases ih (by simpa [Group.tally, hsame, hsel] using hfits) (i + 1) best with
            ⟨found, hscan, hslots, htotal, hbest⟩
          refine ⟨{ found with slots := s :: found.slots }, by simp [scan, hsel, hscan], ?_, ?_, ?_⟩
          · simp [hslots, hskip]
          · simpa [Group.selectableWeight, hsame, hsel] using htotal
          · rw [hbest, List.map_cons, List.map_cons, hskip]
            exact join_skip _ i (hsame.trans hsel)
      | true =>
          rw [tally_cons hsel] at hfits
          rcases addWord_of_fits (hfits (s.credit.toInt + s.weight.toInt) (by simp)) with
            ⟨hcredit, hcredit'⟩
          rcases addWord_of_fits (hfits (total.toInt + s.weight.toInt) (by simp)) with
            ⟨htotal, htotal'⟩
          have hearn : s.exact.accrue now =
              WordSlot.exact { s with credit := s.credit + s.weight } := by
            rw [Slot.accrue, if_pos (hsame.trans hsel)]
            simp only [WordSlot.exact] at hcredit' ⊢
            rw [hcredit', s.toInt_weight]
            rfl
          have hrest : ∀ v ∈ Group.tally now (total + s.weight).toInt (rest.map WordSlot.exact),
              FitsWord v := by
            rw [htotal']
            exact fun v hv => hfits v (by simp [hv])
          rcases ih hrest (i + 1) (better best i (s.credit + s.weight)) with
            ⟨found, hscan, hslots, hsum, hbest⟩
          refine ⟨{ found with slots := { s with credit := s.credit + s.weight } :: found.slots },
            by simp [scan, hsel, hcredit, htotal, hscan], ?_, ?_, ?_⟩
          · simp [hslots, hearn]
          · have hweight := s.toInt_weight
            simp only [hsum, htotal', List.map_cons, Group.selectableWeight, hsame, hsel, if_true]
            push_cast
            omega
          · rw [hbest, List.map_cons, List.map_cons]
            exact join_better best i (s.credit + s.weight) (by simpa using hsame.trans hsel)
              (by rw [hearn]; rfl)

/-- If nothing in the pass in words overflows, all that the exact pass computes fits. -/
theorem fits_of_scan {now : Instant} {l : List (WordSlot α)} {i : Nat} {total : Int64}
    {best : Option (Nat × Int64)} {found : Scan α} (h : scan now i total best l = some found) :
    ∀ v ∈ Group.tally now total.toInt (l.map WordSlot.exact), FitsWord v := by
  induction l generalizing i total best found with
  | nil => exact fun v hv => nomatch hv
  | cons s rest ih =>
      rw [scan] at h
      split at h
      case isTrue hsel =>
        simp only [Option.bind_eq_bind, Option.bind_eq_some_iff] at h
        obtain ⟨credit, hcredit, total', htotal, found', hscan, _⟩ := h
        rw [tally_cons hsel, ← toInt_of_addWord hcredit, ← toInt_of_addWord htotal]
        exact List.forall_mem_cons.2 ⟨fitsWord_toInt credit,
          List.forall_mem_cons.2 ⟨fitsWord_toInt total', ih hscan⟩⟩
      case isFalse hsel =>
        simp only [Option.bind_eq_bind, Option.bind_eq_some_iff] at h
        obtain ⟨found', hscan, _⟩ := h
        have hskip : s.exact.selectable now = false := Bool.eq_false_iff.2 hsel
        simpa [Group.tally, hskip] using ih hscan

/-- What the pass over a tier finds is the leader of the exact one, where there is one. -/
theorem scan_leader {now : Instant} {g : WordGroup α}
    (hfits : ∀ v ∈ Group.tally now 0 g.exact.slots, FitsWord v) :
    ∃ found, scan now 0 0 none g.slots = some found ∧
      found.slots.map WordSlot.exact = g.exact.slots.map (·.accrue now) ∧
      found.total.toInt = (Group.selectableWeight now g.exact.slots : ℤ) ∧
      ((Group.leader? now (g.exact.slots.map (·.accrue now)) = none ∧ found.best = none) ∨
        ∃ k c s, Group.leader? now (g.exact.slots.map (·.accrue now)) = some (k, WordSlot.exact s) ∧
          found.best = some (k, c) ∧ found.slots[k]? = some s) := by
  have htally : ∀ v ∈ Group.tally now (0 : Int64).toInt (g.slots.map WordSlot.exact), FitsWord v := hfits
  obtain ⟨found, hscan, hslots, htotal, hbest⟩ := scan_exact htally 0 none
  have hslots' : found.slots.map WordSlot.exact = g.exact.slots.map (·.accrue now) := hslots
  have hbest' : exactBest found.best =
      (Group.leader? now (g.exact.slots.map (·.accrue now))).map
        fun leader => (leader.1, leader.2.credit) :=
    hbest.trans (join_none _)
  refine ⟨found, hscan, hslots', ?_, ?_⟩
  · rw [htotal, Int64.toInt_zero, Int.zero_add]
    rfl
  · cases hleader : Group.leader? now (g.exact.slots.map (·.accrue now)) with
    | none =>
        rw [hleader] at hbest'
        exact .inl ⟨rfl, Option.map_eq_none_iff.1 hbest'⟩
    | some leader =>
        obtain ⟨k, w⟩ := leader
        rw [hleader] at hbest'
        obtain ⟨⟨j, c⟩, hfound, hjc⟩ := Option.map_eq_some_iff.1 hbest'
        obtain rfl : j = k := congrArg Prod.fst hjc
        -- The position found in words holds the leader, so the slot to charge is the same.
        have hat : (found.slots.map WordSlot.exact)[j]? = some w := by
          rw [hslots']
          exact (Group.leader?_spec hleader).1
        rw [List.getElem?_map] at hat
        obtain ⟨s, hs, rfl⟩ := Option.map_eq_some_iff.1 hat
        exact .inr ⟨j, c, s, rfl, hfound, hs⟩

/-- A pick in words is the exact one if all that the exact one computes fits. -/
theorem select_exact {now : Instant} {g : WordGroup α}
    (hfits : ∀ v ∈ g.exact.computed now, FitsWord v) :
    ∃ g', g.select now = some ((g.exact.select now).1, g') ∧
      g'.exact = (g.exact.select now).2 := by
  obtain ⟨found, hscan, hslots, htotal, ⟨hleader, hnone⟩ | ⟨k, c, s, hleader, hfound, hs⟩⟩ :=
    scan_leader fun v hv => hfits v (List.mem_append_left _ hv)
  case inl =>
    have hselect : g.exact.select now = (none, g.exact) := by
      simp only [Group.select, hleader]
    -- Nobody has earned anything in the pass, so it leaves all slots as they are.
    have hsame : g.exact.slots.map (·.accrue now) = g.exact.slots := by
      have hidle := Group.leader?_eq_none_iff.1 hleader
      refine (List.map_congr_left fun s hs => ?_).trans (List.map_id g.exact.slots)
      have hsel := hidle (s.accrue now) (List.mem_map_of_mem hs)
      rw [Slot.accrue_selectable] at hsel
      simp [Slot.accrue, hsel]
    rw [hselect]
    refine ⟨{ g with slots := found.slots }, by simp [select, hscan, hnone], ?_⟩
    unfold exact
    rw [hslots, hsame]
    rfl
  case inr =>
    have hselect : g.exact.select now = (some { server := s.exact.server, probe := s.exact.isDown },
        { slots := (g.exact.slots.map (·.accrue now)).set k
            (s.exact.handOut now (Group.selectableWeight now g.exact.slots)),
          cursor := some k }) := by
      simp only [Group.select, hleader]
    have hfitsLeft : FitsWord (s.credit.toInt - found.total.toInt) := by
      rw [htotal]
      exact hfits _ (List.mem_append_right _ (by simp [hleader, WordSlot.exact]))
    obtain ⟨hcredit, hcredit'⟩ := subWord_of_fits hfitsLeft
    let paid : WordSlot α :=
      { s with credit := s.credit - found.total, health := s.health.beginProbe s.policy now }
    have hpaid : paid.exact = s.exact.handOut now (Group.selectableWeight now g.exact.slots) := by
      unfold Slot.handOut WordSlot.exact
      rw [hcredit', htotal]
      rfl
    rw [hselect]
    refine ⟨{ slots := found.slots.set k paid, cursor := some k }, ?_, ?_⟩
    · simp only [select, hscan, hfound, hs, hcredit, Option.bind_eq_bind, Option.bind_some]
      rfl
    · unfold exact
      rw [List.map_set, hslots, hpaid]
      rfl

/-- And only then: a pick in words that does not overflow has computed what the exact one does. -/
theorem fits_of_select {now : Instant} {g : WordGroup α} {result : Option (Group.Pick α) × WordGroup α}
    (h : g.select now = some result) : ∀ v ∈ g.exact.computed now, FitsWord v := by
  simp only [select, Option.bind_eq_bind, Option.bind_eq_some_iff] at h
  obtain ⟨found, hscan, hrest⟩ := h
  have htally : ∀ v ∈ Group.tally now 0 g.exact.slots, FitsWord v := fits_of_scan hscan
  obtain ⟨found', hscan', _, htotal, hleader⟩ := scan_leader htally
  obtain rfl : found = found' := Option.some.inj (hscan.symm.trans hscan')
  intro v hv
  rcases List.mem_append.1 hv with hv | hv
  · exact htally v hv
  rcases hleader with ⟨hleader, _⟩ | ⟨k, c, s, hleader, hfound, hs⟩
  · rw [hleader] at hv
    cases hv
  · rw [hleader] at hv
    have hpaid : v = s.exact.credit - (Group.selectableWeight now g.exact.slots : ℤ) :=
      List.mem_singleton.1 hv
    simp only [hfound, hs, Option.bind_some, Option.bind_eq_some_iff] at hrest
    obtain ⟨left, hleft, _⟩ := hrest
    have hleft' : left.toInt = v := by
      rw [hpaid, toInt_of_subWord hleft, htotal]
      rfl
    rw [← hleft']
    exact fitsWord_toInt left

/-- A pick in words overflows, or it is the exact one. -/
theorem exact_select_of_select {now : Instant} {g g' : WordGroup α} {pick : Option (Group.Pick α)}
    (h : g.select now = some (pick, g')) : g.exact.select now = (pick, g'.exact) := by
  obtain ⟨g'', hselect, hexact⟩ := select_exact (fits_of_select h)
  rw [h] at hselect
  cases hselect
  exact Prod.ext rfl hexact.symm

/-! ## Moves in words -/

/-- A move; none if a sum overflows. -/
def move (g : WordGroup α) : Move α → Option (WordGroup α)
  | .push server => some { g with slots := g.slots ++ [{ server }] }
  | .select now => (g.select now).map Prod.snd
  | .success k => some { g with slots := g.slots.modify k WordSlot.recordSuccess }
  | .failure k now => some { g with slots := g.slots.modify k (WordSlot.recordFailure now) }

def play (g : WordGroup α) : List (Move α) → Option (WordGroup α)
  | [] => some g
  | m :: rest => (g.move m).bind fun g' => g'.play rest

theorem map_exact_modify (f : WordSlot α → WordSlot α) (f' : Slot α → Slot α)
    (hf : ∀ s, (f s).exact = f' s.exact) (l : List (WordSlot α)) (k : Nat) :
    (l.modify k f).map WordSlot.exact = (l.map WordSlot.exact).modify k f' := by
  apply List.ext_getElem?
  intro i
  rw [List.getElem?_map, List.getElem?_modify, List.getElem?_modify, List.getElem?_map]
  cases l[i]? with
  | none => rfl
  | some s => by_cases hk : k = i <;> simp [hk, hf]

theorem move_exact {g : WordGroup α} (m : Move α)
    (hfits : ∀ now, ∀ v ∈ g.exact.computed now, FitsWord v) :
    ∃ g', g.move m = some g' ∧ g'.exact = g.exact.move m := by
  cases m with
  | push server => exact ⟨_, rfl, by simp [exact, Group.move, Group.push, WordSlot.exact]⟩
  | select now =>
      rcases select_exact (hfits now) with ⟨g', hselect, hexact⟩
      exact ⟨g', by simp [move, hselect], hexact⟩
  | success k =>
      have hslots := map_exact_modify WordSlot.recordSuccess (fun s => s.recordSuccess.1)
        WordSlot.exact_recordSuccess g.slots k
      exact ⟨_, rfl, by simp [exact, Group.move, hslots]⟩
  | failure k now =>
      have hslots := map_exact_modify (WordSlot.recordFailure now)
        (fun s => (s.recordFailure now).1) (WordSlot.exact_recordFailure now) g.slots k
      exact ⟨_, rfl, by simp [exact, Group.move, hslots]⟩

/-- The exact tier fits if the product of its size and weight does. -/
theorem fits_of_inBalance {g : Group α} (h : g.InBalance) (hlt : g.size * g.totalWeight < 2 ^ 63)
    (now : Instant) : ∀ v ∈ g.computed now, FitsWord v := by
  intro v hv
  have hle := abs_le.1 (h.abs_computed_le now hv)
  have hlt' : (g.size : ℤ) * g.totalWeight < 2 ^ 63 := by exact_mod_cast hlt
  exact ⟨by linarith, by linarith⟩

/-- Moves in words are exact if the size and weight that they end with leave room for it. -/
theorem play_exact {g : WordGroup α} (h : g.exact.InBalance) (moves : List (Move α))
    (hlt : (g.exact.play moves).size * (g.exact.play moves).totalWeight < 2 ^ 63) :
    ∃ g', g.play moves = some g' ∧ g'.exact = g.exact.play moves := by
  induction moves generalizing g with
  | nil => exact ⟨g, rfl, rfl⟩
  | cons m rest ih =>
      -- Neither size nor weight ever shrinks, so the bound holds from the start.
      have hnow : g.exact.size * g.exact.totalWeight < 2 ^ 63 :=
        (Nat.mul_le_mul (g.exact.size_play (m :: rest)) (g.exact.totalWeight_play (m :: rest))).trans_lt
          hlt
      rcases move_exact m fun now => fits_of_inBalance h hnow now with ⟨g₁, hmove, hexact⟩
      have hlt₁ : (g₁.exact.play rest).size * (g₁.exact.play rest).totalWeight < 2 ^ 63 := by
        rw [hexact]
        exact hlt
      rcases ih (hexact ▸ h.move m) hlt₁ with ⟨g', hplay, hexact'⟩
      refine ⟨g', by simp [play, hmove, hplay], ?_⟩
      rw [hexact', hexact, Group.play_cons]

end WordGroup

/-! ## Bounded credit -/

/-- Whatever a tier has been through, its credits stay within `n - 1` times its total weight, where `n`
is its size, and all that a pick computes stays within `n` times that weight. If this is less than
`2 ^ 63`, then a run in words, up to any point of it, overflows nowhere and is the exact one. -/
theorem credit_bounded (moves : List (Move α)) :
    let g := ({} : Group α).play moves
    (∀ s ∈ g.slots, |s.credit| ≤ ((g.size : ℤ) - 1) * g.totalWeight) ∧
    (∀ now, ∀ v ∈ g.computed now, |v| ≤ (g.size : ℤ) * g.totalWeight) ∧
    (g.size * g.totalWeight < 2 ^ 63 → ∀ moves₁, moves₁ <+: moves →
      ∃ w : WordGroup α, ({} : WordGroup α).play moves₁ = some w ∧
        w.exact = ({} : Group α).play moves₁ ∧
        ∀ now, ∃ w', w.select now = some ((w.exact.select now).1, w') ∧
          w'.exact = (w.exact.select now).2) := by
  have hbalance := Group.InBalance.empty.play moves
  refine ⟨fun s hs => hbalance.abs_credit_le hs, fun now v hv => hbalance.abs_computed_le now hv, ?_⟩
  rintro hlt moves₁ ⟨moves₂, rfl⟩
  have hlt₁ : (({} : Group α).play moves₁).size * (({} : Group α).play moves₁).totalWeight < 2 ^ 63 := by
    rw [Group.play_append] at hlt
    exact (Nat.mul_le_mul (Group.size_play _ moves₂) (Group.totalWeight_play _ moves₂)).trans_lt hlt
  rcases WordGroup.play_exact (g := {}) Group.InBalance.empty moves₁ hlt₁ with ⟨w, hplay, hexact⟩
  refine ⟨w, hplay, hexact, fun now => WordGroup.select_exact ?_⟩
  rw [hexact]
  exact WordGroup.fits_of_inBalance (Group.InBalance.empty.play moves₁) hlt₁ now

/-- A server goes down after the first pick of two, misses two picks, and comes back for a last one. -/
def outage : List (Move Unit) :=
  [ .push { id := ⟨.primary, 0⟩, options := .primary 3, data := () },
    .push { id := ⟨.primary, 1⟩, options := .primary 1, data := () },
    .select ⟨0⟩, .failure 0 ⟨0⟩, .select ⟨1⟩, .select ⟨2⟩, .success 0, .select ⟨3⟩ ]

theorem credit_bounded_outage :
    (({} : Group Unit).play outage).slots.map Slot.credit = [-1, 2] ∧
    (∀ s ∈ (({} : Group Unit).play outage).slots, |s.credit| ≤ 4) ∧
    ∃ w : WordGroup Unit, ({} : WordGroup Unit).play outage = some w ∧
      w.exact = ({} : Group Unit).play outage := by
  have h := credit_bounded outage
  have hsize : (({} : Group Unit).play outage).size = 2 := by decide
  have hweight : (({} : Group Unit).play outage).totalWeight = 4 := by decide
  dsimp only at h
  rw [hsize, hweight] at h
  rcases h with ⟨hcredit, _, hwords⟩
  rcases hwords (by decide) outage List.prefix_rfl with ⟨w, hplay, hexact, _⟩
  exact ⟨by decide, by simpa using hcredit, w, hplay, hexact⟩

end TieredPool
