import TieredPool.Proofs.Unrolling

/-!
# Moves — the life of one tier

To one tier, whatever happens to a pool is a sequence of pushes, picks and outcomes. What its slots
are owed depends on nothing else, so it is studied over such sequences.

* `Move`, `Group.move`, `Group.play` — one of those changes; a sequence of them.
* `Group.pickedBy`, `Group.recoveredBy` — the slot that a move hands out, or brings back.
* `Group.history` — the moves of a sequence, each with the tier on which it is made.
* `State.group_after` — the tiers of every state of a run have been reached by moves.
-/

namespace TieredPool

variable {α : Type}

/-! ## Moves -/

inductive Move (α : Type) where
  | push (server : Server α)
  | select (now : Instant)
  | success (k : Nat)
  | failure (k : Nat) (now : Instant)

/-- Whether the move is a request for a server. -/
def Move.isSelect : Move α → Bool
  | .select _ => true
  | _ => false

theorem Move.isSelect_eq_false {m : Move α} (h : ∀ now, m ≠ .select now) : m.isSelect = false := by
  cases m with
  | select now => exact absurd rfl (h now)
  | push server => rfl
  | success k => rfl
  | failure k now => rfl

namespace Group

def move (g : Group α) : Move α → Group α
  | .push server => g.push server
  | .select now => (g.select now).2
  | .success k => { g with slots := g.slots.modify k fun s => s.recordSuccess.1 }
  | .failure k now => { g with slots := g.slots.modify k fun s => (s.recordFailure now).1 }

def play (g : Group α) (moves : List (Move α)) : Group α := moves.foldl move g

@[simp] theorem play_nil (g : Group α) : g.play [] = g := rfl

@[simp] theorem play_cons (g : Group α) (m : Move α) (moves : List (Move α)) :
    g.play (m :: moves) = (g.move m).play moves := rfl

@[simp] theorem play_append (g : Group α) (moves moves' : List (Move α)) :
    g.play (moves ++ moves') = (g.play moves).play moves' := by
  simp [play]

/-- What the change `f` leaves alone in a slot, changing one slot by `f` leaves alone in all. -/
theorem map_modify_of_eq {β : Type} {h : Slot α → β} {f : Slot α → Slot α} (hf : ∀ s, h (f s) = h s)
    (l : List (Slot α)) (k : Nat) : (l.modify k f).map h = l.map h := by
  apply List.ext_getElem?
  intro i
  rw [List.getElem?_map, List.getElem?_map, List.getElem?_modify]
  cases l[i]? with
  | none => rfl
  | some s => by_cases hk : k = i <;> simp [hk, hf]

/-- A move leaves the servers that are there in their places. -/
theorem map_server_move (g : Group α) (m : Move α) :
    ∃ added, (g.move m).slots.map Slot.server = g.slots.map Slot.server ++ added := by
  cases m with
  | push server => exact ⟨[server], by simp [move, push]⟩
  | select now =>
      have hmap := map_slots_select Slot.server now g (by simp) (by simp)
      exact ⟨[], by simpa [move] using hmap⟩
  | success k =>
      have hmap := map_modify_of_eq (h := Slot.server) (f := fun s => s.recordSuccess.1)
        (fun _ => rfl) g.slots k
      exact ⟨[], by simpa [move] using hmap⟩
  | failure k now =>
      have hmap := map_modify_of_eq (h := Slot.server) (f := fun s => (s.recordFailure now).1)
        (fun _ => rfl) g.slots k
      exact ⟨[], by simpa [move] using hmap⟩

theorem map_server_play (g : Group α) (moves : List (Move α)) :
    ∃ added, (g.play moves).slots.map Slot.server = g.slots.map Slot.server ++ added := by
  induction moves generalizing g with
  | nil => exact ⟨[], by simp⟩
  | cons m rest ih =>
      rcases map_server_move g m with ⟨added, hadded⟩
      rcases ih (g.move m) with ⟨added', hadded'⟩
      exact ⟨added ++ added', by rw [play_cons, hadded', hadded, List.append_assoc]⟩

/-- What every move keeps, a sequence of moves keeps. -/
theorem play_induction {motive : Group α → Prop}
    (hmove : ∀ (g : Group α) (m : Move α), motive g → motive (g.move m)) {g : Group α}
    (hg : motive g) (moves : List (Move α)) : motive (g.play moves) := by
  induction moves generalizing g with
  | nil => exact hg
  | cons m rest ih => exact ih (hmove g m hg)

/-- The position of the slot that the move hands out. -/
def pickedBy (g : Group α) : Move α → Option Nat
  | .select now => if (g.select now).1.isSome then (g.select now).2.cursor else none
  | _ => none

/-- The position of the slot that the move brings back from being down. -/
def recoveredBy (g : Group α) : Move α → Option Nat
  | .success k => if (g.slots[k]?).any fun s => s.recordSuccess.2 = .up then some k else none
  | _ => none

/-- The moves of a sequence, each with the tier on which it is made. -/
def history (g : Group α) : List (Move α) → List (Group α × Move α)
  | [] => []
  | m :: rest => (g, m) :: (g.move m).history rest

end Group

/-! ## The tiers of a pool move -/

namespace Pool

/-- The tiers of `p'` are those of `p` after some moves. -/
def Moves (p p' : Pool α) : Prop := ∀ tier, ∃ moves, p'.group tier = (p.group tier).play moves

namespace Moves

variable {p p' p'' : Pool α}

theorem refl (p : Pool α) : p.Moves p := fun _ => ⟨[], rfl⟩

theorem trans (h : p.Moves p') (h' : p'.Moves p'') : p.Moves p'' := by
  intro tier
  rcases h tier with ⟨moves, hmoves⟩
  rcases h' tier with ⟨moves', hmoves'⟩
  exact ⟨moves ++ moves', by rw [hmoves', hmoves, Group.play_append]⟩

theorem setGroup (p : Pool α) (tier : Tier) (m : Move α) :
    p.Moves (p.setGroup tier ((p.group tier).move m)) := by
  intro tier'
  by_cases htier : tier' = tier
  · subst htier
    exact ⟨[m], by rw [group_setGroup_self]; rfl⟩
  · exact ⟨[], group_setGroup_of_ne htier _ p⟩

/-- Neither the count of primaries that are up nor the handler is part of a tier. -/
theorem of_groups (h : p.Moves p') (hprimary : p''.primary = p'.primary)
    (hbackup : p''.backup = p'.backup) : p.Moves p'' := by
  intro tier
  cases tier with
  | primary => simpa [Pool.group, hprimary] using h .primary
  | backup => simpa [Pool.group, hbackup] using h .backup

theorem register (options : ServerOptions) (data : α) (p : Pool α) :
    p.Moves (p.register options data).2 := by
  let server : Server α :=
    { id := { tier := options.tier, index := (p.group options.tier).size }, options, data }
  have hpush := setGroup p options.tier (.push server)
  unfold Pool.register
  dsimp only
  split
  · exact hpush.of_groups rfl rfl
  · exact hpush

theorem next (now : Instant) (p : Pool α) : p.Moves (p.next now).2 := by
  rcases next_cases now p with ⟨pick, _, heq⟩ | ⟨_, pick, _, heq⟩ | ⟨_, _, heq⟩
  · rw [heq]
    exact setGroup p .primary (.select now)
  · rw [heq]
    exact setGroup p .backup (.select now)
  · rw [heq]
    exact refl p

/-- Putting back the slot at `id` after the change `f` is the move that makes this change. -/
theorem setSlot {p : Pool α} {id : ServerId} {s : Slot α} {f : Slot α → Slot α} (m : Move α)
    (hs : p.slot? id = some s)
    (hm : ∀ g : Group α, g.move m = { g with slots := g.slots.modify id.index f }) :
    p.Moves (p.setSlot id (f s)) := by
  -- The slot that is changed is the one that was found, so writing it back is changing it in place.
  have hmodify : (p.group id.tier).slots.modify id.index f =
      (p.group id.tier).slots.set id.index (f s) := by
    have hs' : (p.group id.tier).slots[id.index]? = some s := hs
    have : Inhabited (Slot α) := ⟨s⟩
    rw [List.modify_eq_set, hs', Option.getD_some]
  have hgroup := setGroup p id.tier m
  rw [hm, hmodify] at hgroup
  exact hgroup

theorem reportSuccess (id : ServerId) (p : Pool α) : p.Moves (p.reportSuccess id).2 := by
  cases hs : p.slot? id with
  | none => simpa [Pool.reportSuccess, hs] using refl p
  | some s =>
      have hset : p.Moves (p.setSlot id s.recordSuccess.1) :=
        setSlot (.success id.index) hs fun _ => rfl
      have hcounted : p.Moves { p.setSlot id s.recordSuccess.1 with
          primaryOnline := (p.setSlot id s.recordSuccess.1).primaryOnline + 1 } :=
        hset.of_groups rfl rfl
      unfold Pool.reportSuccess
      simp only [hs]
      split
      · exact hcounted
      · exact hset

theorem reportFailure (now : Instant) (id : ServerId) (p : Pool α) :
    p.Moves (p.reportFailure now id).2 := by
  cases hs : p.slot? id with
  | none => simpa [Pool.reportFailure, hs] using refl p
  | some s =>
      have hset : p.Moves (p.setSlot id (s.recordFailure now).1) :=
        setSlot (.failure id.index now) hs fun _ => rfl
      have hcounted : p.Moves { p.setSlot id (s.recordFailure now).1 with
          primaryOnline := (p.setSlot id (s.recordFailure now).1).primaryOnline - 1 } :=
        hset.of_groups rfl rfl
      unfold Pool.reportFailure
      simp only [hs]
      split
      · exact hcounted
      · exact hset

theorem respects : Respects (Moves : Pool α → Pool α → Prop) where
  refl := refl
  trans := fun _ _ _ => trans
  register := register
  next := next
  reportSuccess := reportSuccess
  reportFailure := reportFailure
  handler := fun _ p => (refl p).of_groups rfl rfl

/-- A server that a tier holds is found at its position in every later state of that tier. -/
theorem getElem?_server (h : p.Moves p') {tier : Tier} {k : Nat} {s : Slot α}
    (hs : (p.group tier).slots[k]? = some s) :
    ∃ s' : Slot α, (p'.group tier).slots[k]? = some s' ∧ s'.server = s.server := by
  rcases h tier with ⟨moves, hmoves⟩
  -- Moves only append servers, so positions that are taken stay as they are.
  rcases Group.map_server_play (p.group tier) moves with ⟨added, hadded⟩
  have hserver : ((p.group tier).slots.map Slot.server)[k]? = some s.server := by
    rw [List.getElem?_map, hs]
    rfl
  have hlt := (List.getElem?_eq_some_iff.1 hserver).1
  have hserver' : ((p'.group tier).slots.map Slot.server)[k]? = some s.server := by
    rw [hmoves, hadded, List.getElem?_append_left hlt, hserver]
  rw [List.getElem?_map] at hserver'
  exact Option.map_eq_some_iff.1 hserver'

end Moves
end Pool

/-- Each tier of a state of a run has been reached from the empty one by moves. -/
theorem State.group_after (fuel : Nat) (clock : Instant) (requests : List (Request α)) (k : Nat)
    (tier : Tier) : ∃ moves,
      (({ clock } : State α).after fuel requests k).pool.group tier =
        ({} : Group α).play moves := by
  have hmoves := Pool.Moves.respects.after ({ clock } : State α) fuel requests (Nat.zero_le k) tier
  cases tier with
  | primary => exact hmoves
  | backup => exact hmoves

end TieredPool
