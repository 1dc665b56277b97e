import Mathlib.Data.Nat.Count
import TieredPool.Proofs.Words

/-!
# Removal — slots that cannot be picked might as well not be there

A pick looks for the highest credit and prefers the earlier of two slots. Slots that cannot be picked
earn nothing and win nothing, so a tier without them picks the same servers, although every position
behind them is another one.

* `remaining`, `place` — a list without the elements at some positions, and where the others come to be.
* `Barred` — nothing at these positions can be picked.
* `Group.without`, `WordGroup.without` — a tier with slots taken out.
* `Group.select_without`, `WordGroup.select_without` — one pick, exact or in words, there and here.
* `barred_invisible` — any number of picks.
-/

namespace TieredPool

variable {α β γ : Type}

/-! ## Taking elements out of a list -/

/-- The list without the elements at the positions that are `away`. -/
def remaining (away : ℕ → Bool) : List β → List β
  | [] => []
  | x :: rest =>
      if away 0 then remaining (fun k => away (k + 1)) rest
      else x :: remaining (fun k => away (k + 1)) rest

/-- The position, among those that remain, of the element at position `k`. -/
def place (away : ℕ → Bool) (k : ℕ) : ℕ := Nat.count (fun i => away i = false) k

section Remaining

variable {away : ℕ → Bool}

@[simp] theorem place_zero (away : ℕ → Bool) : place away 0 = 0 := Nat.count_zero _

theorem place_succ (away : ℕ → Bool) (k : ℕ) :
    place away (k + 1) = place (fun i => away (i + 1)) k + if away 0 then 0 else 1 := by
  rw [place, Nat.count_succ']
  cases away 0 <;> rfl

theorem remaining_map (f : β → γ) (away : ℕ → Bool) (l : List β) :
    remaining away (l.map f) = (remaining away l).map f := by
  induction l generalizing away with
  | nil => rfl
  | cons x rest ih =>
      rw [List.map_cons, remaining, remaining, ih]
      split <;> rfl

/-- An element that remains is found at its new place. -/
theorem getElem?_remaining {k : ℕ} (hk : away k = false) (l : List β) :
    (remaining away l)[place away k]? = l[k]? := by
  induction l generalizing away k with
  | nil => rfl
  | cons x rest ih =>
      cases k with
      | zero => simp [remaining, hk]
      | succ k =>
          rw [remaining, place_succ, List.getElem?_cons_succ]
          split
          · exact ih hk
          · rw [List.getElem?_cons_succ]
            exact ih hk

/-- Whether an element that remains is changed before or after the others are taken out is the same. -/
theorem remaining_set {k : ℕ} (hk : away k = false) (x : β) (l : List β) :
    remaining away (l.set k x) = (remaining away l).set (place away k) x := by
  induction l generalizing away k with
  | nil => rfl
  | cons y rest ih =>
      cases k with
      | zero => simp [remaining, hk]
      | succ k =>
          have hrest : remaining (fun i => away (i + 1)) (rest.set k x) =
              (remaining (fun i => away (i + 1)) rest).set (place (fun i => away (i + 1)) k) x := ih hk
          rw [List.set_cons_succ, remaining, remaining, place_succ, hrest]
          split
          · rfl
          · rw [List.set_cons_succ]

end Remaining

/-- A position counted anew, if it remains. -/
def placed (away : ℕ → Bool) (position : Option ℕ) : Option ℕ :=
  position.bind fun k => if away k then none else some (place away k)

theorem placed_of_remains {away : ℕ → Bool} {k : ℕ} (hk : away k = false) :
    placed away (some k) = some (place away k) := by
  simp [placed, hk]

/-! ## Slots that cannot be picked -/

/-- Of the servers with these states of health, none at a position that is `away` can be picked. -/
def Barred (away : ℕ → Bool) (now : Instant) (healths : List Health) : Prop :=
  ∀ k h, healths[k]? = some h → away k = true → h.selectable now = false

instance (away : ℕ → Bool) (now : Instant) (healths : List Health) :
    Decidable (Barred away now healths) :=
  decidable_of_iff
    (∀ k, (hk : k < healths.length) → away k = true → healths[k].selectable now = false) <| by
      simp only [Barred, List.getElem?_eq_some_iff]
      exact ⟨fun hb k _ ⟨hk, hget⟩ haway => hget ▸ hb k hk haway,
        fun hb k hk haway => hb k _ ⟨hk, rfl⟩ haway⟩

namespace Barred

variable {away : ℕ → Bool} {now : Instant} {h : Health} {healths : List Health}

theorem head (hb : Barred away now (h :: healths)) (haway : away 0 = true) :
    h.selectable now = false := hb 0 h rfl haway

theorem tail (hb : Barred away now (h :: healths)) :
    Barred (fun k => away (k + 1)) now healths :=
  fun k h' hk haway => hb (k + 1) h' (by simpa using hk) haway

/-- What can be picked remains. -/
theorem remains (hb : Barred away now healths) {k : ℕ} (hk : healths[k]? = some h)
    (hsel : h.selectable now = true) : away k = false := by
  cases haway : away k with
  | false => rfl
  | true => simp [hb k h hk haway] at hsel

end Barred

namespace Group

variable {away : ℕ → Bool} {now : Instant} {g : Group α}

/-- The tier without the slots at the positions that are `away`. -/
def without (away : ℕ → Bool) (g : Group α) : Group α where
  slots := remaining away g.slots
  cursor := placed away g.cursor

theorem selectableWeight_remaining {l : List (Slot α)} (hb : Barred away now (l.map Slot.health)) :
    selectableWeight now (remaining away l) = selectableWeight now l := by
  induction l generalizing away with
  | nil => rfl
  | cons s rest ih =>
      have hrest := ih hb.tail
      rw [remaining, selectableWeight]
      split
      case isTrue haway =>
        have hsel : s.selectable now = false := hb.head haway
        simp [hrest, hsel]
      case isFalse => rw [selectableWeight, hrest]

theorem leader?_remaining {l : List (Slot α)} (hb : Barred away now (l.map Slot.health)) :
    leader? now (remaining away l) =
      (leader? now l).map fun found => (place away found.1, found.2) := by
  induction l generalizing away with
  | nil => rfl
  | cons s rest ih =>
      have hrest := ih hb.tail
      rw [remaining]
      split
      case isTrue haway =>
        -- A slot that is taken out does not lead, so the leader is that of the rest.
        have hsel : s.selectable now = false := hb.head haway
        rw [hrest, leader?]
        cases leader? now rest with
        | none => simp [hsel]
        | some found => simp [hsel, place_succ, haway]
      case isFalse haway =>
        rw [leader?, leader?, hrest]
        cases leader? now rest with
        | none => by_cases hsel : s.selectable now = true <;> simp [hsel]
        | some found =>
            simp only [Option.map_some]
            split <;> simp [place_succ, haway]

/-- A pick finds the same server, and leaves the other slots the same, with or without slots that cannot
be picked. -/
theorem select_without (hb : Barred away now (g.slots.map Slot.health)) :
    (g.without away).select now = ((g.select now).1, (g.select now).2.without away) := by
  have haccrued : Barred away now ((g.slots.map (·.accrue now)).map Slot.health) := by
    simpa [Function.comp_def] using hb
  have hleader := leader?_remaining haccrued
  rw [remaining_map] at hleader
  have hweight := selectableWeight_remaining hb
  simp only [select, without, hleader, hweight]
  cases hfound : leader? now (g.slots.map (·.accrue now)) with
  | none => rfl
  | some found =>
      obtain ⟨i, winner⟩ := found
      obtain ⟨hat, hsel, _, _⟩ := leader?_spec hfound
      have hremains : away i = false :=
        haccrued.remains (h := winner.health) (by rw [List.getElem?_map, hat]; rfl) hsel
      simp [remaining_map, remaining_set hremains, placed_of_remains hremains]

/-- A pick does nothing to a slot that cannot be picked. -/
theorem getElem?_select_of_barred (hb : Barred away now (g.slots.map Slot.health)) {k : ℕ}
    (hk : away k = true) : (g.select now).2.slots[k]? = g.slots[k]? := by
  rcases select_cases now g with ⟨_, hnone⟩ | ⟨i, s, hleads, hsome⟩
  · rw [hnone]
  · rw [hsome, charged_getElem?]
    cases hslot : g.slots[k]? with
    | none => rfl
    | some t =>
        have hsel : t.selectable now = false :=
          hb k t.health (by rw [List.getElem?_map, hslot]; rfl) hk
        have hik : k ≠ i := by
          rintro rfl
          rw [hleads.get] at hslot
          cases hslot
          simp [hleads.selectable] at hsel
        simp [hik, Slot.accrue, hsel]

/-! ## Picks one after the other -/

/-- What picks at the given instants find, and the tier after them. -/
def calls : List Instant → Group α → List (Option (Pick α)) × Group α
  | [], g => ([], g)
  | now :: rest, g =>
      let (pick, g) := g.select now
      let (picks, g) := calls rest g
      (pick :: picks, g)

/-- At each of the picks, no slot that is `away` can be picked. -/
def Bars (away : ℕ → Bool) : List Instant → Group α → Prop
  | [], _ => True
  | now :: rest, g => Barred away now (g.slots.map Slot.health) ∧ Bars away rest (g.select now).2

instance decidableBars (away : ℕ → Bool) : ∀ nows (g : Group α), Decidable (g.Bars away nows)
  | [], _ => isTrue trivial
  | now :: rest, g =>
      have := decidableBars away rest (g.select now).2
      inferInstanceAs (Decidable (_ ∧ _))

theorem calls_without {nows : List Instant} (hb : g.Bars away nows) :
    (g.without away).calls nows = ((g.calls nows).1, (g.calls nows).2.without away) := by
  induction nows generalizing g with
  | nil => rfl
  | cons now rest ih =>
      obtain ⟨hnow, hrest⟩ := hb
      simp only [calls, select_without hnow, ih hrest]

theorem getElem?_calls_of_bars {nows : List Instant} (hb : g.Bars away nows) {k : ℕ}
    (hk : away k = true) : (g.calls nows).2.slots[k]? = g.slots[k]? := by
  induction nows generalizing g with
  | nil => rfl
  | cons now rest ih =>
      obtain ⟨hnow, hrest⟩ := hb
      rw [← getElem?_select_of_barred hnow hk]
      exact ih hrest

end Group

/-! ## The same in words -/

namespace WordGroup

variable {away : ℕ → Bool} {now : Instant} {w : WordGroup α}

/-- The tier without the slots at the positions that are `away`. -/
def without (away : ℕ → Bool) (w : WordGroup α) : WordGroup α where
  slots := remaining away w.slots
  cursor := placed away w.cursor

/-- The best so far, under another numbering of positions. -/
def renumber (r : ℕ → ℕ) (best : Option (ℕ × Int64)) : Option (ℕ × Int64) :=
  best.map fun found => (r found.1, found.2)

theorem better_renumber (r : ℕ → ℕ) (best : Option (ℕ × Int64)) (i : ℕ) (credit : Int64) :
    better (renumber r best) (r i) credit = renumber r (better best i credit) := by
  cases best with
  | none => rfl
  | some found =>
      simp only [renumber, better, Option.map_some]
      split <;> rfl

/-- The pass over the slots that remain is the whole pass without the slots that are taken out, if `r`
numbers the positions from `i` on as they come to be from `j` on. -/
theorem scan_remaining {l : List (WordSlot α)} (hb : Barred away now (l.map WordSlot.health))
    {r : ℕ → ℕ} {i j : ℕ} (hr : ∀ k, r (i + k) = j + place away k) (total : Int64)
    (best : Option (ℕ × Int64)) :
    scan now j total (renumber r best) (remaining away l) =
      (scan now i total best l).map fun found =>
        { slots := remaining away found.slots, total := found.total,
          best := renumber r found.best } := by
  induction l generalizing away i j total best with
  | nil => rfl
  | cons s rest ih =>
      have hi : r i = j := hr 0
      have hrest (k : ℕ) : r (i + 1 + k) =
          j + (if away 0 then 0 else 1) + place (fun i => away (i + 1)) k := by
        rw [Nat.add_right_comm, Nat.add_assoc, hr, place_succ]
        omega
      rw [remaining]
      cases haway : away 0 with
      | true =>
          have hsel : s.health.selectable now = false := hb.head haway
          simp only [haway, if_true, Nat.add_zero] at hrest
          rw [if_pos rfl, ih hb.tail hrest, scan, if_neg (by simp [hsel])]
          cases scan now (i + 1) total best rest <;> simp [remaining, haway]
      | false =>
          simp only [haway, Bool.false_eq_true, if_false] at hrest
          rw [if_neg Bool.false_ne_true, scan, scan]
          split
          · cases addWord s.credit s.weight with
            | none => rfl
            | some credit =>
                cases addWord total s.weight with
                | none => rfl
                | some total =>
                    simp only [Option.bind_eq_bind, Option.bind_some]
                    rw [← hi, better_renumber, hi, ih hb.tail hrest]
                    cases scan now (i + 1) total (better best i credit) rest <;>
                      simp [remaining, haway]
          · rw [ih hb.tail hrest]
            cases scan now (i + 1) total best rest <;> simp [remaining, haway]

/-- A pass leaves a slot that cannot be picked as it is. -/
theorem scan_slots {l : List (WordSlot α)} {i : ℕ} {total : Int64} {best : Option (ℕ × Int64)}
    {found : Scan α} (h : scan now i total best l = some found) {k : ℕ}
    (hk : ∀ s : WordSlot α, l[k]? = some s → s.health.selectable now = false) :
    found.slots[k]? = l[k]? := by
  induction l generalizing i total best found k with
  | nil =>
      cases h
      rfl
  | cons s rest ih =>
      rw [scan] at h
      split at h
      case isTrue hsel =>
        simp only [Option.bind_eq_bind, Option.bind_eq_some_iff] at h
        obtain ⟨credit, _, total', _, found', hscan, hfound⟩ := h
        cases hfound
        cases k with
        | zero => simp [hk s rfl] at hsel
        | succ k => exact ih hscan hk
      case isFalse =>
        simp only [Option.bind_eq_bind, Option.bind_eq_some_iff] at h
        obtain ⟨found', hscan, hfound⟩ := h
        cases hfound
        cases k with
        | zero => rfl
        | succ k => exact ih hscan hk

/-- The best position that a pass finds is the one from before, or that of a slot that can be picked. -/
theorem scan_best {l : List (WordSlot α)} {i : ℕ} {total : Int64} {best : Option (ℕ × Int64)}
    {found : Scan α} (h : scan now i total best l = some found) {k : ℕ} {credit : Int64}
    (hk : found.best = some (k, credit)) :
    (∃ c, best = some (k, c)) ∨
      ∃ (j : ℕ) (s : WordSlot α), k = i + j ∧ l[j]? = some s ∧ s.health.selectable now = true := by
  induction l generalizing i total best found with
  | nil =>
      cases h
      exact .inl ⟨credit, hk⟩
  | cons s rest ih =>
      rw [scan] at h
      split at h
      case isTrue hsel =>
        simp only [Option.bind_eq_bind, Option.bind_eq_some_iff] at h
        obtain ⟨raised, _, total', _, found', hscan, hfound⟩ := h
        cases hfound
        rcases ih hscan hk with ⟨c, hbetter⟩ | ⟨j, t, hj, ht, hsel'⟩
        · have hfirst : (∃ c, best = some (k, c)) ∨ k = i := by
            unfold better at hbetter
            grind
          exact hfirst.imp id fun hki => ⟨0, s, hki, rfl, hsel⟩
        · exact .inr ⟨j + 1, t, by omega, ht, hsel'⟩
      case isFalse =>
        simp only [Option.bind_eq_bind, Option.bind_eq_some_iff] at h
        obtain ⟨found', hscan, hfound⟩ := h
        cases hfound
        rcases ih hscan hk with hbest | ⟨j, t, hj, ht, hsel'⟩
        · exact .inl hbest
        · exact .inr ⟨j + 1, t, by omega, ht, hsel'⟩

/-- Where the pass finds a best position, the slot there remains. -/
theorem remains_of_scan (hb : Barred away now (w.slots.map WordSlot.health)) {found : Scan α}
    (h : scan now 0 0 none w.slots = some found) {k : ℕ} {credit : Int64}
    (hk : found.best = some (k, credit)) : away k = false := by
  rcases scan_best h hk with ⟨_, hnone⟩ | ⟨j, s, hj, hs, hsel⟩
  · cases hnone
  · obtain rfl : k = j := by omega
    exact hb.remains (h := s.health) (by rw [List.getElem?_map, hs]; rfl) hsel

/-- In words, too, a pick is the same without slots that cannot be picked; it overflows in both cases or
in neither. -/
theorem select_without (hb : Barred away now (w.slots.map WordSlot.health)) :
    (w.without away).select now = (w.select now).map fun result => (result.1, result.2.without away) := by
  have hscan := scan_remaining hb (r := place away) (i := 0) (j := 0) (by simp) 0 none
  have hscan' : scan now 0 0 none (w.without away).slots = _ := hscan
  rw [select, hscan', select]
  cases hfound : scan now 0 0 none w.slots with
  | none => rfl
  | some found =>
      simp only [Option.bind_eq_bind, Option.bind_some, Option.map_some]
      cases hbest : found.best with
      | none => rfl
      | some best =>
          obtain ⟨k, credit⟩ := best
          have hremains := remains_of_scan hb hfound hbest
          simp only [renumber, Option.map_some, getElem?_remaining hremains]
          cases found.slots[k]? with
          | none => rfl
          | some s =>
              simp only [Option.bind_some]
              cases subWord s.credit found.total with
              | none => rfl
              | some left => simp [without, remaining_set hremains, placed_of_remains hremains]

/-- A pick does nothing to a slot that cannot be picked. -/
theorem getElem?_select_of_barred (hb : Barred away now (w.slots.map WordSlot.health))
    {pick : Option (Group.Pick α)} {w' : WordGroup α} (h : w.select now = some (pick, w')) {k : ℕ}
    (hk : away k = true) : w'.slots[k]? = w.slots[k]? := by
  simp only [select, Option.bind_eq_bind, Option.bind_eq_some_iff] at h
  obtain ⟨found, hscan, hrest⟩ := h
  have hslot : found.slots[k]? = w.slots[k]? :=
    scan_slots hscan fun s hs => hb k s.health (by rw [List.getElem?_map, hs]; rfl) hk
  rw [← hslot]
  split at hrest
  case h_1 =>
    cases hrest
    rfl
  case h_2 i credit hbest =>
    simp only [Option.bind_eq_some_iff] at hrest
    obtain ⟨s, _, left, _, hw'⟩ := hrest
    cases hw'
    have hik : i ≠ k := by
      rintro rfl
      simp [remains_of_scan hb hscan hbest] at hk
    exact List.getElem?_set_ne hik

/-! ## Picks in words -/

/-- What picks at the given instants find, and the tier after them; none if one of them overflows. -/
def calls : List Instant → WordGroup α → Option (List (Option (Group.Pick α)) × WordGroup α)
  | [], w => some ([], w)
  | now :: rest, w => do
      let (pick, w) ← w.select now
      let (picks, w) ← calls rest w
      return (pick :: picks, w)

/-- At each of the picks up to an overflow, no slot that is `away` can be picked. -/
def Bars (away : ℕ → Bool) : List Instant → WordGroup α → Prop
  | [], _ => True
  | now :: rest, w =>
      Barred away now (w.slots.map WordSlot.health) ∧
        ∀ pick w', w.select now = some (pick, w') → Bars away rest w'

instance decidableBars (away : ℕ → Bool) : ∀ nows (w : WordGroup α), Decidable (w.Bars away nows)
  | [], _ => isTrue trivial
  | now :: rest, w =>
      match hw : w.select now with
      | none => decidable_of_iff (Barred away now (w.slots.map WordSlot.health)) (by simp [Bars, hw])
      | some (_, w') =>
          have := decidableBars away rest w'
          decidable_of_iff (Barred away now (w.slots.map WordSlot.health) ∧ w'.Bars away rest)
            (by simp [Bars, hw])

theorem calls_without {nows : List Instant} (hb : w.Bars away nows) :
    (w.without away).calls nows = (w.calls nows).map fun result => (result.1, result.2.without away) := by
  induction nows generalizing w with
  | nil => rfl
  | cons now rest ih =>
      obtain ⟨hnow, hrest⟩ := hb
      rw [calls, select_without hnow, calls]
      cases hselect : w.select now with
      | none => rfl
      | some result =>
          obtain ⟨pick, w'⟩ := result
          simp only [Option.map_some, Option.bind_eq_bind, Option.bind_some]
          rw [ih (hrest pick w' hselect)]
          cases w'.calls rest <;> rfl

theorem getElem?_calls_of_bars {nows : List Instant} (hb : w.Bars away nows)
    {picks : List (Option (Group.Pick α))} {w' : WordGroup α} (h : w.calls nows = some (picks, w'))
    {k : ℕ} (hk : away k = true) : w'.slots[k]? = w.slots[k]? := by
  induction nows generalizing w picks with
  | nil =>
      cases h
      rfl
  | cons now rest ih =>
      obtain ⟨hnow, hrest⟩ := hb
      simp only [calls, Option.bind_eq_bind, Option.bind_eq_some_iff] at h
      obtain ⟨⟨pick, w₁⟩, hselect, ⟨picks', w₂⟩, hcalls, hdone⟩ := h
      cases hdone
      rw [← getElem?_select_of_barred hnow hselect hk]
      exact ih (hrest pick w₁ hselect) hcalls

end WordGroup

/-! ## Invisible slots -/

/-- Slots that cannot be picked at any of some picks are invisible to them. The picks hand out the same
servers, or none, from the tier without these slots, and they leave the other slots with the same credit
and health there; the slots themselves end as they started. So it is with exact credits, whatever state
the tier is in, and with credits in words, where in addition both runs overflow at the same pick or not at
all. -/
theorem barred_invisible (away : ℕ → Bool) (nows : List Instant) :
    (∀ g : Group α, g.Bars away nows →
      ((g.without away).calls nows).1 = (g.calls nows).1 ∧
      ((g.without away).calls nows).2 = (g.calls nows).2.without away ∧
      (∀ k, away k = false →
        ((g.without away).calls nows).2.slots[place away k]? = (g.calls nows).2.slots[k]?) ∧
      ∀ k, away k = true → (g.calls nows).2.slots[k]? = g.slots[k]?) ∧
    ∀ w : WordGroup α, w.Bars away nows →
      (w.without away).calls nows =
        (w.calls nows).map (fun result => (result.1, result.2.without away)) ∧
      ∀ picks w', w.calls nows = some (picks, w') →
        ∀ k, away k = true → w'.slots[k]? = w.slots[k]? := by
  refine ⟨fun g hb => ?exact, fun w hb => ?words⟩
  case exact =>
    have hcalls := Group.calls_without hb
    rw [hcalls]
    exact ⟨rfl, rfl, fun k hk => getElem?_remaining hk _, fun k hk => Group.getElem?_calls_of_bars hb hk⟩
  case words =>
    exact ⟨WordGroup.calls_without hb, fun picks w' h k hk => WordGroup.getElem?_calls_of_bars hb h hk⟩

/-- A server that is up, one that stays down, and one that is probed at the third pick and then left alone
again. -/
def recovering : WordGroup Unit where
  slots :=
    [ { server := { id := ⟨.primary, 0⟩, options := .primary 1, data := () } },
      { server := { id := ⟨.primary, 1⟩, options := .primary 5, data := () }, credit := 7,
        health := { failCounter := 1, timer := .recoveryDeadline ⟨4⟩ } },
      { server := { id := ⟨.primary, 2⟩, options := .primary 1, data := () },
        health := { failCounter := 1, timer := .recoveryDeadline ⟨1⟩ } } ]
  cursor := some 1

theorem barred_invisible_recovering :
    let away := fun k => k == 1
    let nows : List Instant := [⟨0⟩, ⟨1⟩, ⟨2⟩, ⟨3⟩]
    let g := recovering.exact
    g.Bars away nows ∧ recovering.Bars away nows ∧
      (g.without away).size = 2 ∧
      (g.calls nows).1.map (·.map fun pick => (pick.server.id.index, pick.probe)) =
        [some (0, false), some (0, false), some (2, true), some (0, false)] ∧
      ((g.without away).calls nows).1 = (g.calls nows).1 ∧
      ((g.without away).calls nows).2.slots[1]? = (g.calls nows).2.slots[2]? ∧
      (g.calls nows).2.slots[1]? = g.slots[1]? ∧
      (recovering.without away).calls nows =
        (recovering.calls nows).map (fun result => (result.1, result.2.without away)) := by
  intro away nows g
  have hexact : g.Bars away nows := by decide
  have hwords : recovering.Bars away nows := by decide
  obtain ⟨hg, hw⟩ := @barred_invisible Unit away nows
  obtain ⟨hpicks, _, hothers, hgone⟩ := hg g hexact
  exact ⟨hexact, hwords, by decide, by decide, hpicks, hothers 2 rfl, hgone 1 rfl,
    (hw recovering hwords).1⟩

end TieredPool
