import TieredPool.Proofs.Downtime

/-!
# Reordering — outcomes that several clients report at the same time

Clients that share a pool report one after the other, in an order that nobody has chosen. A report
changes the slot of its own server and the count of primaries that are up. That count is exact after
each report, whatever came before, so it carries no trace of the order, and what a slot has come to is
decided by the reports of its server alone.

* `Verdict`, `Pool.settle` — the outcome of a request as it is reported, and what that changes.
* `Verdict.Reorders` — reports in another order, in which each server hears the same as before.
* `Pool.slot?_settleAll` — a slot after any reports; `Pool.Sound.eq_of_slots` — slots and cursors are
  all that tells sound pools apart.
* `Interleaves` — a list that several lists have been merged to.
* `reports_commute` — reordered reports lead to the same pool.
-/

namespace TieredPool

variable {α β : Type}

/-! ## Reports -/

/-- The outcome of a request, as a client reports it. A failure carries the reading of the clock at
which it counts, and may carry an error. -/
inductive Verdict where
  | success (id : ServerId)
  | failure (id : ServerId) (now : Instant) (error : Option String)
  deriving DecidableEq, Repr

/-- The server that the request went to. -/
def Verdict.id : Verdict → ServerId
  | .success id => id
  | .failure id _ _ => id

def Slot.settle (s : Slot α) : Verdict → Slot α
  | .success _ => s.recordSuccess.1
  | .failure _ now _ => (s.recordFailure now).1

namespace Pool

def settle (p : Pool α) : Verdict → Pool α
  | .success id => (p.reportSuccess id).2
  | .failure id now _ => (p.reportFailure now id).2

def settleAll (p : Pool α) (vs : List Verdict) : Pool α := vs.foldl settle p

end Pool

namespace Run

/-- A client reports. The clock shows what the client has read from it, early or late. -/
def settle (notify : Notice α → Run α Unit) : Verdict → Run α Unit
  | .success id => reportSuccess notify id
  | .failure id now error => do
      modify fun m => { m with clock := now }
      reportFailure notify id error

def settleAll (notify : Notice α → Run α Unit) : List Verdict → Run α Unit
  | [] => return
  | v :: rest => do
      settle notify v
      settleAll notify rest

end Run

/-- The same reports in another order, in which each server hears of its own in the order of before. -/
def Verdict.Reorders (vs vs' : List Verdict) : Prop :=
  ∀ id, vs.filter (fun v => v.id = id) = vs'.filter fun v => v.id = id

/-! ## What reports change -/

namespace Pool

variable {p p' : Pool α}

/-- A report changes one slot, and perhaps the count of primaries that are up. -/
theorem settle_eq {v : Verdict} {s : Slot α} (hs : p.slot? v.id = some s) :
    ∃ n, p.settle v = { p.setSlot v.id (s.settle v) with primaryOnline := n } := by
  cases v with
  | success id =>
      have hs' : p.slot? id = some s := hs
      by_cases hup : s.recordSuccess.2 = .up
      · refine ⟨(p.setSlot id s.recordSuccess.1).primaryOnline + 1, ?_⟩
        simp only [settle, reportSuccess, hs', hup, if_true]
        rfl
      · refine ⟨(p.setSlot id s.recordSuccess.1).primaryOnline, ?_⟩
        simp only [settle, reportSuccess, hs', hup, if_false]
        rfl
  | failure id now error =>
      have hs' : p.slot? id = some s := hs
      by_cases hdown : (s.recordFailure now).2 = .down
      · refine ⟨(p.setSlot id (s.recordFailure now).1).primaryOnline - 1, ?_⟩
        simp only [settle, reportFailure, hs', hdown, if_true]
        rfl
      · refine ⟨(p.setSlot id (s.recordFailure now).1).primaryOnline, ?_⟩
        simp only [settle, reportFailure, hs', hdown, if_false]
        rfl

theorem settle_of_absent {v : Verdict} (hs : p.slot? v.id = none) : p.settle v = p := by
  cases v with
  | success id =>
      have hs' : p.slot? id = none := hs
      simp [settle, reportSuccess, hs']
  | failure id now error =>
      have hs' : p.slot? id = none := hs
      simp [settle, reportFailure, hs']

theorem slot?_settle (p : Pool α) (v : Verdict) (id : ServerId) :
    (p.settle v).slot? id = (p.slot? id).map fun s => if v.id = id then s.settle v else s := by
  cases hs : p.slot? v.id with
  | none =>
      rw [settle_of_absent hs]
      by_cases hid : v.id = id
      · rw [← hid, hs]
        rfl
      · simp [hid]
  | some s =>
      obtain ⟨n, heq⟩ := settle_eq hs
      rw [heq]
      by_cases hid : v.id = id
      · subst hid
        rw [slot?_setSlot hs, hs]
        simp
      · rw [slot?_setSlot_of_ne (Ne.symm hid)]
        simp [hid]

/-- Whose turn it is, and who listens, is no matter of reports. -/
theorem frame_settle (p : Pool α) (v : Verdict) :
    (∀ tier, ((p.settle v).group tier).cursor = (p.group tier).cursor) ∧
      (p.settle v).handler = p.handler := by
  cases hs : p.slot? v.id with
  | none =>
      rw [settle_of_absent hs]
      exact ⟨fun _ => rfl, rfl⟩
  | some s =>
      obtain ⟨n, heq⟩ := settle_eq hs
      rw [heq, setSlot]
      constructor
      · intro tier
        cases v.id.tier <;> cases tier <;> rfl
      · cases v.id.tier <;> rfl

/-- What has become of a slot is decided by the reports of its own server. -/
theorem slot?_settleAll (p : Pool α) (vs : List Verdict) (id : ServerId) :
    (p.settleAll vs).slot? id =
      (p.slot? id).map fun s => (vs.filter fun v => v.id = id).foldl Slot.settle s := by
  induction vs generalizing p with
  | nil => simp [settleAll]
  | cons v rest ih =>
      calc
        (p.settleAll (v :: rest)).slot? id
            = ((p.settle v).slot? id).map fun s =>
                (rest.filter fun v => v.id = id).foldl Slot.settle s := ih (p.settle v)
        _ = (p.slot? id).map fun s =>
              ((v :: rest).filter fun v => v.id = id).foldl Slot.settle s := by
            rw [slot?_settle, Option.map_map]
            congr 1
            funext s
            by_cases hid : v.id = id <;> simp [hid]

theorem frame_settleAll (p : Pool α) (vs : List Verdict) :
    (∀ tier, ((p.settleAll vs).group tier).cursor = (p.group tier).cursor) ∧
      (p.settleAll vs).handler = p.handler := by
  induction vs generalizing p with
  | nil => exact ⟨fun _ => rfl, rfl⟩
  | cons v rest ih =>
      obtain ⟨hcursor, hhandler⟩ := ih (p.settle v)
      obtain ⟨hcursor', hhandler'⟩ := frame_settle p v
      exact ⟨fun tier => (hcursor tier).trans (hcursor' tier), hhandler.trans hhandler'⟩

namespace Sound

theorem settle (hp : p.Sound) (v : Verdict) : (p.settle v).Sound := by
  cases v with
  | success id => exact hp.reportSuccess id
  | failure id now error => exact hp.reportFailure now id

theorem settleAll (hp : p.Sound) (vs : List Verdict) : (p.settleAll vs).Sound := by
  induction vs generalizing p with
  | nil => exact hp
  | cons v rest ih => exact ih (hp.settle v)

/-- Sound pools with the same slots, cursors and handler are the same: the count of primaries that are
up says nothing that the slots do not say. -/
theorem eq_of_slots (hp : p.Sound) (hp' : p'.Sound) (hslots : ∀ id, p.slot? id = p'.slot? id)
    (hcursor : ∀ tier, (p.group tier).cursor = (p'.group tier).cursor)
    (hhandler : p.handler = p'.handler) : p = p' := by
  have hgroup (tier : Tier) : p.group tier = p'.group tier := by
    have hlist : (p.group tier).slots = (p'.group tier).slots :=
      List.ext_getElem? fun i => hslots { tier, index := i }
    have hturn := hcursor tier
    revert hlist hturn
    cases p.group tier
    cases p'.group tier
    rintro rfl rfl
    rfl
  have hprimary : p.primary = p'.primary := hgroup .primary
  have hbackup : p.backup = p'.backup := hgroup .backup
  have honline : p.primaryOnline = p'.primaryOnline := by
    rw [hp.online, hp'.online, hprimary]
  cases p
  cases p'
  simp_all

end Sound
end Pool

/-- Reordered reports lead a sound pool to the same state. -/
theorem Verdict.Reorders.settleAll_eq {vs vs' : List Verdict} (h : Reorders vs vs') {p : Pool α}
    (hp : p.Sound) : p.settleAll vs = p.settleAll vs' := by
  obtain ⟨hcursor, hhandler⟩ := p.frame_settleAll vs
  obtain ⟨hcursor', hhandler'⟩ := p.frame_settleAll vs'
  refine (hp.settleAll vs).eq_of_slots (hp.settleAll vs') ?_ ?_ (hhandler.trans hhandler'.symm)
  · intro id
    rw [Pool.slot?_settleAll, Pool.slot?_settleAll, h id]
  · intro tier
    rw [hcursor, hcursor']

/-! ## Reports on a machine -/

namespace Run

variable {m : Machine α}

/-- With no handler to hear of it, a report comes to its end and does nothing else. -/
theorem settle_ok (hm : m.pool.handler = none) (fuel : Nat) (v : Verdict) :
    ∃ m', settle (notify fuel) v m = .ok () m' ∧ m'.pool = m.pool.settle v := by
  have hhandler : (m.pool.settle v).handler = none := (m.pool.frame_settle v).2.trans hm
  cases v with
  | success id =>
      rcases hback : m.pool.reportSuccess id with ⟨_ | server, p⟩
      · exact ⟨{ m with pool := p }, by simp [settle, reportSuccess_apply, hback],
          by simp [Pool.settle, hback]⟩
      · have hnone : p.handler = none := by simpa [Pool.settle, hback] using hhandler
        refine ⟨announce .up id none (.markedUp id p.primaryOnline) p m, ?_,
          by simp [Pool.settle, hback, announce]⟩
        simp only [settle, reportSuccess_apply, hback]
        exact notify_of_no_handler hnone fuel _
  | failure id now error =>
      rcases hlost : m.pool.reportFailure now id with ⟨_ | server, p⟩
      · exact ⟨{ m with pool := p, clock := now }, by simp [settle, reportFailure_apply, hlost],
          by simp [Pool.settle, hlost]⟩
      · have hnone : p.handler = none := by simpa [Pool.settle, hlost] using hhandler
        refine ⟨announce .down id error (.markedDown id p.primaryOnline error) p
          { m with clock := now }, ?_, by simp [Pool.settle, hlost, announce]⟩
        simp only [settle, bind_apply, modify_apply, reportFailure_apply, hlost]
        exact notify_of_no_handler hnone fuel _

theorem settleAll_ok (hm : m.pool.handler = none) (fuel : Nat) (vs : List Verdict) :
    ∃ m', settleAll (notify fuel) vs m = .ok () m' ∧ m'.pool = m.pool.settleAll vs := by
  induction vs generalizing m with
  | nil => exact ⟨m, rfl, rfl⟩
  | cons v rest ih =>
      obtain ⟨m₁, hfirst, hpool⟩ := settle_ok hm fuel v
      have hm₁ : m₁.pool.handler = none := by rw [hpool, (m.pool.frame_settle v).2, hm]
      obtain ⟨m', hrest, hpool'⟩ := ih hm₁
      refine ⟨m', by simp [settleAll, hfirst, hrest], ?_⟩
      rw [hpool', hpool]
      rfl

end Run

/-! ## Several clients -/

/-- The last list has been merged from the others: each of its elements came from the front of one. -/
inductive Interleaves : List (List β) → List β → Prop
  | done {lists : List (List β)} (empty : ∀ l ∈ lists, l = []) : Interleaves lists []
  | turn {front rear : List (List β)} {x : β} {l merged : List β}
      (rest : Interleaves (front ++ l :: rear) merged) :
      Interleaves (front ++ (x :: l) :: rear) (x :: merged)

namespace Interleaves

variable {lists : List (List β)} {merged : List β}

theorem filter (h : Interleaves lists merged) (keep : β → Bool) :
    Interleaves (lists.map (List.filter keep)) (merged.filter keep) := by
  induction h with
  | done hempty =>
      refine .done fun l hl => ?_
      obtain ⟨l', hl', rfl⟩ := List.mem_map.1 hl
      rw [hempty l' hl', List.filter_nil]
  | turn hrest ih =>
      rename_i front rear x l merged
      rw [List.map_append, List.map_cons] at ih ⊢
      cases hkeep : keep x with
      | true =>
          rw [List.filter_cons_of_pos hkeep, List.filter_cons_of_pos hkeep]
          exact .turn ih
      | false =>
          rw [List.filter_cons_of_neg (by simp [hkeep]), List.filter_cons_of_neg (by simp [hkeep])]
          exact ih

/-- Where no two of the lists have elements there is one way only to merge them. -/
theorem eq_flatten (h : Interleaves lists merged)
    (hone : lists.Pairwise fun l l' => l = [] ∨ l' = []) : merged = lists.flatten := by
  induction h with
  | done hempty => exact (List.flatten_eq_nil_iff.2 hempty).symm
  | turn hrest ih =>
      rename_i front rear x l merged
      obtain ⟨hfront, hback, hacross⟩ := List.pairwise_append.1 hone
      obtain ⟨hhead, hrear⟩ := List.pairwise_cons.1 hback
      -- The list whose turn it was has an element, so all others are empty.
      have hfront' : ∀ l' ∈ front, l' = [] := fun l' hl' =>
        (hacross l' hl' _ List.mem_cons_self).resolve_right (by simp)
      have hrear' : ∀ l' ∈ rear, l' = [] := fun l' hl' => (hhead l' hl').resolve_left (by simp)
      have hrest' : merged = (front ++ l :: rear).flatten := by
        refine ih (List.pairwise_append.2 ⟨hfront, List.pairwise_cons.2 ⟨?_, hrear⟩, ?_⟩)
        · exact fun l' hl' => .inr (hrear' l' hl')
        · exact fun l' hl' _ _ => .inl (hfront' l' hl')
      rw [hrest', List.flatten_append, List.flatten_append, List.flatten_cons, List.flatten_cons,
        List.flatten_eq_nil_iff.2 hfront']
      rfl

end Interleaves

/-- Clients that report of different servers cannot get in each other's way. -/
theorem Interleaves.reorders {clients : List (List Verdict)} {vs vs' : List Verdict}
    (h : Interleaves clients vs) (h' : Interleaves clients vs')
    (hapart : clients.Pairwise fun own other => ∀ v ∈ own, ∀ w ∈ other, v.id ≠ w.id) :
    Verdict.Reorders vs vs' := by
  intro id
  have hone : (clients.map (List.filter fun v => v.id = id)).Pairwise
      fun own other => own = [] ∨ other = [] := by
    refine List.pairwise_map.2 (hapart.imp fun {own other} hapart => ?_)
    -- If one client has something to report of the server, no other has.
    by_cases hown : own.filter (fun v => v.id = id) = []
    · exact .inl hown
    · right
      obtain ⟨v, hv⟩ := List.exists_mem_of_ne_nil _ hown
      obtain ⟨hv, hid⟩ := List.mem_filter.1 hv
      refine List.filter_eq_nil_iff.2 fun w hw hid' => hapart v hv w hw ?_
      rw [of_decide_eq_true hid, of_decide_eq_true hid']
  rw [(h.filter _).eq_flatten hone, (h'.filter _).eq_flatten hone]

/-! ## Every state of every run -/

/-- In a state of a run in which no handler is installed, reports that are reordered, with the order
of those on each server kept, lead to the same pool: to the same slots, with their failures, timers and
credits, the same count of primaries that are up and the same cursors. So does a machine that carries
them out, each failure at the reading of the clock that it came with. In particular this is so of the
ways to merge the reports of several clients in which each server hears its own in the same order, and
if no two clients report of the same server, of all ways. -/
theorem reports_commute (fuel : Nat) (clock : Instant) (requests : List (Request α)) (k : Nat)
    (hhandler : (({ clock } : State α).after fuel requests k).pool.handler = none) :
    let p := (({ clock } : State α).after fuel requests k).pool
    (∀ vs vs', Verdict.Reorders vs vs' →
      p.settleAll vs = p.settleAll vs' ∧
      ∀ (depth : Nat) (m : Machine α), m.pool = p →
        ∃ m₁ m₂, Run.settleAll (notify depth) vs m = .ok () m₁ ∧
          Run.settleAll (notify depth) vs' m = .ok () m₂ ∧
          m₁.pool = p.settleAll vs ∧ m₂.pool = m₁.pool) ∧
    ∀ (clients : List (List Verdict)) (vs vs' : List Verdict),
      (clients.Pairwise fun own other => ∀ v ∈ own, ∀ w ∈ other, v.id ≠ w.id) →
      Interleaves clients vs → Interleaves clients vs' → p.settleAll vs = p.settleAll vs' := by
  intro p
  have hp : p.Sound := State.sound_after fuel clock requests k
  constructor
  · intro vs vs' h
    have heq := h.settleAll_eq hp
    refine ⟨heq, ?_⟩
    intro depth m hm
    have hnone : m.pool.handler = none := by rw [hm, hhandler]
    obtain ⟨m₁, hrun, hpool⟩ := Run.settleAll_ok hnone depth vs
    obtain ⟨m₂, hrun', hpool'⟩ := Run.settleAll_ok hnone depth vs'
    rw [hm] at hpool hpool'
    exact ⟨m₁, m₂, hrun, hrun', hpool, by rw [hpool', hpool, heq]⟩
  · intro clients vs vs' hapart h h'
    exact (h.reorders h' hapart).settleAll_eq hp

/-- Two primaries, the second of which stands two failures, and a request to the first. -/
def couple : List (Request Unit) :=
  let client : Caller := { handle := some 0 }
  [ { caller := client, op := .add (.primary 3) () },
    { caller := client, op := .add { maxFails := 2 } () },
    { caller := client, op := .next } ]

/-- One client's reports of the first server, and after them another's of the second. -/
def inTurn : List Verdict :=
  [ .failure ⟨.primary, 0⟩ ⟨5⟩ (some "refused"), .success ⟨.primary, 0⟩,
    .failure ⟨.primary, 1⟩ ⟨3⟩ none, .failure ⟨.primary, 1⟩ ⟨4⟩ none ]

/-- The same reports, taken from the two clients by turns. -/
def crossed : List Verdict :=
  [ .failure ⟨.primary, 1⟩ ⟨3⟩ none, .failure ⟨.primary, 0⟩ ⟨5⟩ (some "refused"),
    .failure ⟨.primary, 1⟩ ⟨4⟩ none, .success ⟨.primary, 0⟩ ]

theorem reorders_crossed : Verdict.Reorders inTurn crossed := by
  intro id
  by_cases hfirst : id = ⟨.primary, 0⟩
  · subst hfirst
    decide
  · by_cases hsecond : id = ⟨.primary, 1⟩
    · subst hsecond
      decide
    · simp [inTurn, crossed, Verdict.id, Ne.symm hfirst, Ne.symm hsecond]

/-- On the way no primary is up in one order, while both of them are in the other. -/
theorem reports_commute_crossed :
    let p := (({ clock := ⟨0⟩ } : State Unit).after 1 couple 3).pool
    p.handler = none ∧ (p.settleAll (crossed.take 3)).primaryOnline = 0 ∧
    (p.settleAll (inTurn.take 3)).primaryOnline = 2 ∧ (p.settleAll inTurn).primaryOnline = 1 ∧
    p.settleAll inTurn = p.settleAll crossed :=
  have hnone : (({ clock := ⟨0⟩ } : State Unit).after 1 couple 3).pool.handler = none := by decide
  ⟨hnone, by decide, by decide, by decide,
    ((reports_commute 1 ⟨0⟩ couple 3 hnone).1 inTurn crossed reorders_crossed).1⟩

end TieredPool
