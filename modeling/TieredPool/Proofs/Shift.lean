import TieredPool.Proofs.Unrolling

/-!
# Shift — a pool on a clock that started later

The zero of the clock has no meaning of its own: only distances between instants decide what happens. So
a pool that is handled in the same way, but later by `d`, does the same with every timer armed later by
`d` — as long as the end of the clock is out of reach.

* `Instant.shift`, `Pool.shift`, `State.shift` — what is later by so many nanoseconds, all else being equal.
* `Op.shift`, `Request.shift` — the same operation; a clock that is to be set is set later.
* `Fits`, `Step.sums`, `Step.Fits` — the sums of an instant and a duration that an operation computes.
* `State.apply_shift`, `State.notice?_shift` — an operation later.
-/

namespace TieredPool

variable {α : Type} {d : Nat}

/-! ## Later by so many nanoseconds -/

def Instant.shift (d : Nat) (t : Instant) : Instant := ⟨t.nanos + d⟩

def Timer.shift (d : Nat) : Timer → Timer
  | .idle => .idle
  | .windowExpiry expiry => .windowExpiry (expiry.shift d)
  | .recoveryDeadline deadline => .recoveryDeadline (deadline.shift d)

def Health.shift (d : Nat) (h : Health) : Health := { h with timer := h.timer.shift d }

def Slot.shift (d : Nat) (s : Slot α) : Slot α := { s with health := s.health.shift d }

def Group.shift (d : Nat) (g : Group α) : Group α := { g with slots := g.slots.map (Slot.shift d) }

mutual

/-- The same operation: one that sets the clock sets it later, also from within a script. -/
def Op.shift (d : Nat) : Op α → Op α
  | .setClock target => .setClock (target.shift d)
  | .install label only script => .install label only (Op.shiftAll d script)
  | .add options data => .add options data
  | .next => .next
  | .reportSuccess target => .reportSuccess target
  | .reportFailure target error => .reportFailure target error
  | .count => .count
  | .clear => .clear
  | .advance span => .advance span
  | .panic => .panic

def Op.shiftAll (d : Nat) : List (Op α) → List (Op α)
  | [] => []
  | op :: rest => Op.shift d op :: Op.shiftAll d rest

end

def Handler.shift (d : Nat) (h : Handler α) : Handler α := { h with script := Op.shiftAll d h.script }

def Pool.shift (d : Nat) (p : Pool α) : Pool α where
  primary := p.primary.shift d
  backup := p.backup.shift d
  primaryOnline := p.primaryOnline
  handler := p.handler.map (Handler.shift d)

def State.shift (d : Nat) (s : State α) : State α where
  pool := s.pool.shift d
  clock := s.clock.shift d

def Request.shift (d : Nat) (r : Request α) : Request α := { r with op := r.op.shift d }

/-! ## Sums that the clock can show -/

/-- The clock can show the sum of an instant and a duration. -/
def Fits (sum : Instant × Duration) : Prop := (sum.1.add? sum.2).isSome = true

instance : DecidablePred Fits := fun sum => inferInstanceAs (Decidable ((sum.1.add? sum.2).isSome = true))

/-- A failure counts: the server is tracked and up. -/
def Health.Counts (p : Policy) (h : Health) : Prop :=
  p.tracking = true ∧ h.isDown = false ∧ h.failCounter < p.maxFails

instance (p : Policy) (h : Health) : Decidable (h.Counts p) :=
  inferInstanceAs (Decidable (p.tracking = true ∧ h.isDown = false ∧ h.failCounter < p.maxFails))

/-- A failure at `now` sets the timer: it opens a window, or it is the one that takes the server down. -/
def Health.Arms (p : Policy) (now : Instant) (h : Health) : Prop :=
  h.Counts p ∧
    ((h.countFailure p now).failCounter = 1 ∨ (h.countFailure p now).failCounter = p.maxFails)

instance (p : Policy) (now : Instant) (h : Health) : Decidable (h.Arms p now) :=
  inferInstanceAs (Decidable (_ ∧ (_ ∨ _)))

/-- The sums that an operation computes by itself: the new time of a clock that is moved on, and the
deadline of a server that is probed or whose failure sets its timer. -/
def Step.sums (t : Step α) : List (Instant × Duration) :=
  match t.request.op with
  | .advance span => [(t.before.clock, span)]
  | .next =>
      if t.request.caller.handle.isNone then [] else
        match (t.before.pool.next t.before.clock).1 with
        | some c => if c.pick.probe then [(t.before.clock, c.pick.server.options.failTimeout)] else []
        | none => []
  | .reportFailure target _ =>
      match (t.request.caller.resolve target).bind t.before.pool.slot? with
      | some s =>
          if s.health.Arms s.policy t.before.clock then [(t.before.clock, s.policy.failTimeout)] else []
      | none => []
  | _ => []

/-- The clock can show every sum that the operation computes. -/
def Step.Fits (t : Step α) : Prop := ∀ sum ∈ t.sums, TieredPool.Fits sum

instance (t : Step α) : Decidable t.Fits := inferInstanceAs (Decidable (∀ sum ∈ t.sums, TieredPool.Fits sum))

/-! ## Instants and deadlines -/

namespace Instant

@[simp] theorem shift_lt_shift {t u : Instant} : t.shift d < u.shift d ↔ t < u :=
  Nat.add_lt_add_iff_right

@[simp] theorem shift_le_shift {t u : Instant} : t.shift d ≤ u.shift d ↔ t ≤ u :=
  Nat.add_le_add_iff_right

/-- A sum that the clock can show later it can also show earlier. -/
theorem add?_shift {t : Instant} {span : Duration} (h : Fits (t.shift d, span)) :
    ∃ u, t.add? span = some u ∧ (t.shift d).add? span = some (u.shift d) := by
  -- The later sum lies before the end of the clock, and so all the more does the earlier one.
  have hlater : t.nanos + d + span.nanos < limit := by
    refine Decidable.byContradiction fun hover => ?_
    simp [Fits, add?, shift, hover] at h
  have hearlier : t.nanos + span.nanos < limit := by omega
  refine ⟨⟨t.nanos + span.nanos⟩, by simp [add?, hearlier], ?_⟩
  simp [add?, shift, hlater, Nat.add_right_comm]

@[simp] theorem millisSince_shift (t start : Instant) :
    (t.shift d).millisSince (start.shift d) = t.millisSince start := by
  simp [millisSince, shift, Nat.add_sub_add_right]

end Instant

theorem Policy.deadline_shift {p : Policy} {now : Instant} (h : Fits (now.shift d, p.failTimeout)) :
    p.deadline (now.shift d) = (p.deadline now).shift d := by
  obtain ⟨u, hu, hu'⟩ := Instant.add?_shift h
  simp [deadline, hu, hu']

/-! ## One server -/

namespace Health

variable {p : Policy} {now : Instant} {h : Health}

@[simp] theorem failCounter_shift (h : Health) : (h.shift d).failCounter = h.failCounter := rfl

@[simp] theorem isDown_shift (h : Health) : (h.shift d).isDown = h.isDown := by
  cases ht : h.timer <;> simp [shift, isDown, Timer.shift, ht]

@[simp] theorem selectable_shift (now : Instant) (h : Health) :
    (h.shift d).selectable (now.shift d) = h.selectable now := by
  cases ht : h.timer <;> simp [shift, selectable, Timer.shift, ht]

theorem recordSuccess_shift (p : Policy) (h : Health) :
    (h.shift d).recordSuccess p = ((h.recordSuccess p).1.shift d, (h.recordSuccess p).2) := by
  cases hp : p.tracking <;> simp [recordSuccess, hp]
  rfl

/-- A failure that opens a window computes its deadline. -/
theorem countFailure_shift
    (hfits : (h.countFailure p now).failCounter = 1 → Fits (now.shift d, p.failTimeout)) :
    (h.shift d).countFailure p (now.shift d) = (h.countFailure p now).shift d := by
  -- A window is opened if there has been no failure, or if the last window has expired.
  rcases h with ⟨_ | n, timer⟩
  · have hdeadline := Policy.deadline_shift (hfits rfl)
    simp [countFailure, shift, Timer.shift, hdeadline]
  · cases timer with
    | idle => rfl
    | recoveryDeadline deadline => rfl
    | windowExpiry expiry =>
        by_cases hlate : expiry < now
        · have hdeadline := Policy.deadline_shift (hfits (by simp [countFailure, hlate]))
          simp [countFailure, shift, Timer.shift, hlate, hdeadline]
        · simp [countFailure, shift, Timer.shift, hlate]

theorem failCounter_countFailure_shift (p : Policy) (now : Instant) (h : Health) :
    ((h.shift d).countFailure p (now.shift d)).failCounter = (h.countFailure p now).failCounter := by
  rcases h with ⟨_ | n, timer⟩
  · rfl
  · cases timer with
    | idle => rfl
    | recoveryDeadline deadline => rfl
    | windowExpiry expiry =>
        by_cases hlate : expiry < now <;> simp [countFailure, shift, Timer.shift, hlate]

theorem counts_shift : (h.shift d).Counts p ↔ h.Counts p := by
  simp [Counts]

theorem arms_shift : (h.shift d).Arms p (now.shift d) ↔ h.Arms p now := by
  rw [Arms, Arms, counts_shift, failCounter_countFailure_shift]

theorem recordFailure_of_not_counts (hcounts : ¬ h.Counts p) (now : Instant) :
    h.recordFailure p now = (h, .none) := by
  cases hp : p.tracking <;> cases hd : h.isDown <;> simp [Counts, recordFailure, hp, hd] at hcounts ⊢
  omega

theorem recordFailure_of_counts (hcounts : h.Counts p) (now : Instant) :
    h.recordFailure p now =
      if (h.countFailure p now).failCounter = p.maxFails then
        ({ h.countFailure p now with timer := .recoveryDeadline (p.deadline now) }, .down)
      else (h.countFailure p now, .none) := by
  obtain ⟨hp, hd, hroom⟩ := hcounts
  simp [recordFailure, hp, hd, Nat.not_le.2 hroom]

theorem recordFailure_shift (hfits : h.Arms p now → Fits (now.shift d, p.failTimeout)) :
    (h.shift d).recordFailure p (now.shift d) =
      ((h.recordFailure p now).1.shift d, (h.recordFailure p now).2) := by
  by_cases hcounts : h.Counts p
  case neg =>
    have hcounts' : ¬ (h.shift d).Counts p := mt counts_shift.1 hcounts
    rw [recordFailure_of_not_counts hcounts, recordFailure_of_not_counts hcounts']
  case pos =>
    have hcounts' : (h.shift d).Counts p := counts_shift.2 hcounts
    have hcount := countFailure_shift (d := d) fun hone => hfits ⟨hcounts, .inl hone⟩
    rw [recordFailure_of_counts hcounts, recordFailure_of_counts hcounts', hcount, failCounter_shift]
    split
    case isTrue hfull =>
      -- The failure that takes the server down computes a deadline of its own.
      rw [Policy.deadline_shift (hfits ⟨hcounts, .inr hfull⟩)]
      rfl
    case isFalse => rfl

/-- A probe computes a deadline if the one that was set has come. -/
theorem beginProbe_shift
    (hfits : h.isDown = true → h.selectable now = true → Fits (now.shift d, p.failTimeout)) :
    (h.shift d).beginProbe p (now.shift d) = (h.beginProbe p now).shift d := by
  rcases h with ⟨count, timer⟩
  cases timer with
  | idle => rfl
  | windowExpiry expiry => rfl
  | recoveryDeadline deadline =>
      by_cases hcome : deadline ≤ now
      · have hdeadline := Policy.deadline_shift (hfits rfl (by simpa [selectable] using hcome))
        simp [beginProbe, shift, Timer.shift, hcome, hdeadline]
      · simp [beginProbe, shift, Timer.shift, hcome]

end Health

/-! ## One tier -/

namespace Slot

variable {now : Instant} {s : Slot α}

@[simp] theorem server_shift (s : Slot α) : (s.shift d).server = s.server := rfl

@[simp] theorem credit_shift (s : Slot α) : (s.shift d).credit = s.credit := rfl

@[simp] theorem weight_shift (s : Slot α) : (s.shift d).weight = s.weight := rfl

@[simp] theorem isDown_shift (s : Slot α) : (s.shift d).isDown = s.isDown := by
  simp [isDown, shift]

@[simp] theorem selectable_shift (now : Instant) (s : Slot α) :
    (s.shift d).selectable (now.shift d) = s.selectable now := by
  simp [selectable, shift]

theorem recordSuccess_shift (s : Slot α) :
    (s.shift d).recordSuccess = (s.recordSuccess.1.shift d, s.recordSuccess.2) := by
  have hhealth : (s.shift d).health.recordSuccess (s.shift d).policy =
      ((s.health.recordSuccess s.policy).1.shift d, (s.health.recordSuccess s.policy).2) :=
    Health.recordSuccess_shift s.policy s.health
  simp only [recordSuccess, hhealth]
  rfl

theorem recordFailure_shift
    (hfits : s.health.Arms s.policy now → Fits (now.shift d, s.policy.failTimeout)) :
    (s.shift d).recordFailure (now.shift d) =
      ((s.recordFailure now).1.shift d, (s.recordFailure now).2) := by
  have hhealth : (s.shift d).health.recordFailure (s.shift d).policy (now.shift d) =
      ((s.health.recordFailure s.policy now).1.shift d, (s.health.recordFailure s.policy now).2) :=
    Health.recordFailure_shift hfits
  simp only [recordFailure, hhealth]
  rfl

theorem accrue_shift (now : Instant) (s : Slot α) :
    (s.shift d).accrue (now.shift d) = (s.accrue now).shift d := by
  by_cases hs : s.selectable now = true <;> simp [accrue, hs]
  rfl

theorem handOut_shift (total : Nat)
    (hfits : s.isDown = true → s.selectable now = true → Fits (now.shift d, s.policy.failTimeout)) :
    (s.shift d).handOut (now.shift d) total = (s.handOut now total).shift d := by
  have hhealth : (s.shift d).health.beginProbe (s.shift d).policy (now.shift d) =
      (s.health.beginProbe s.policy now).shift d := Health.beginProbe_shift hfits
  simp only [handOut, hhealth]
  rfl

end Slot

namespace Group

variable {now : Instant} {g : Group α}

@[simp] theorem size_shift (g : Group α) : (g.shift d).size = g.size := List.length_map _

theorem push_shift (server : Server α) (g : Group α) :
    (g.shift d).push server = (g.push server).shift d := by
  simp [shift, push, Slot.shift, Health.shift, Timer.shift]

theorem selectableWeight_shift (now : Instant) (l : List (Slot α)) :
    selectableWeight (now.shift d) (l.map (Slot.shift d)) = selectableWeight now l := by
  induction l with
  | nil => rfl
  | cons s rest ih => simp [selectableWeight, ih]

theorem leader?_shift (now : Instant) (l : List (Slot α)) :
    leader? (now.shift d) (l.map (Slot.shift d)) =
      (leader? now l).map fun found => (found.1, found.2.shift d) := by
  induction l with
  | nil => rfl
  | cons s rest ih =>
      rw [List.map_cons, leader?, ih, leader?]
      cases leader? now rest with
      | none => by_cases hs : s.selectable now = true <;> simp [hs]
      | some found =>
          by_cases hs : s.selectable now = true <;> by_cases hlead : found.2.credit ≤ s.credit <;>
            simp [hs, hlead]

/-- A pick computes a deadline if it is a probe. -/
theorem select_shift
    (hfits : ∀ pick, ((g.shift d).select (now.shift d)).1 = some pick → pick.probe = true →
      Fits (now.shift d, pick.server.options.failTimeout)) :
    (g.shift d).select (now.shift d) = ((g.select now).1, (g.select now).2.shift d) := by
  have haccrued : (g.shift d).slots.map (·.accrue (now.shift d)) =
      (g.slots.map (·.accrue now)).map (Slot.shift d) := by
    simp [shift, Function.comp_def, Slot.accrue_shift]
  have hleader := leader?_shift (d := d) now (g.slots.map (·.accrue now))
  have hweight : selectableWeight (now.shift d) (g.shift d).slots = selectableWeight now g.slots :=
    selectableWeight_shift now g.slots
  simp only [select, haccrued, hleader, hweight] at hfits ⊢
  cases hfound : leader? now (g.slots.map (·.accrue now)) with
  | none => rfl
  | some found =>
      rw [hfound] at hfits
      have hout := Slot.handOut_shift (s := found.2) (selectableWeight now g.slots) fun hdown _ =>
        hfits _ rfl ((Slot.isDown_shift found.2).trans hdown)
      simp [hout, shift, List.map_set]

end Group

/-! ## The pool -/

namespace Pool

variable {now : Instant} {p : Pool α}

@[simp] theorem primaryOnline_shift (p : Pool α) : (p.shift d).primaryOnline = p.primaryOnline := rfl

@[simp] theorem size_shift (p : Pool α) : (p.shift d).size = p.size := by
  simp [size, shift]

@[simp] theorem servers_shift (p : Pool α) : (p.shift d).servers = p.servers := by
  simp [servers, slots, shift, Group.shift, Function.comp_def]

@[simp] theorem snapshot_shift (p : Pool α) : (p.shift d).snapshot = p.snapshot := by
  have hstatuses (g : Group α) : statuses (g.shift d) = statuses g := by
    refine List.ext_getElem? fun i => ?_
    simp only [statuses, Group.shift, List.getElem?_mapIdx, List.getElem?_map]
    cases g.slots[i]? with
    | none => rfl
    | some s =>
        simp [Slot.shift, Slot.isDown]
        rfl
  simp [snapshot, shift, hstatuses]

theorem group_shift (tier : Tier) (p : Pool α) : (p.shift d).group tier = (p.group tier).shift d := by
  cases tier <;> rfl

theorem setGroup_shift (tier : Tier) (g : Group α) (p : Pool α) :
    (p.shift d).setGroup tier (g.shift d) = (p.setGroup tier g).shift d := by
  cases tier <;> rfl

theorem slot?_shift (id : ServerId) (p : Pool α) :
    (p.shift d).slot? id = (p.slot? id).map (Slot.shift d) := by
  rw [slot?, group_shift, slot?]
  exact List.getElem?_map

theorem setSlot_shift (id : ServerId) (s : Slot α) (p : Pool α) :
    (p.shift d).setSlot id (s.shift d) = (p.setSlot id s).shift d := by
  rw [setSlot, setSlot, ← setGroup_shift, group_shift]
  simp [Group.shift, List.map_set]

theorem register_shift (options : ServerOptions) (data : α) (p : Pool α) :
    (p.shift d).register options data =
      ((p.register options data).1, (p.register options data).2.shift d) := by
  simp only [register, group_shift, Group.size_shift, Group.push_shift, setGroup_shift]
  split <;> rfl

theorem next_shift
    (hfits : ∀ c, ((p.shift d).next (now.shift d)).1 = some c → c.pick.probe = true →
      Fits (now.shift d, c.pick.server.options.failTimeout)) :
    (p.shift d).next (now.shift d) = ((p.next now).1, (p.next now).2.shift d) := by
  rw [next_eq_nextInOrder] at hfits ⊢
  rw [next_eq_nextInOrder]
  -- Whichever tier is asked, its pick is that of the pool, so the sum of a probe is one that fits.
  have hprimary : (p.primary.shift d).select (now.shift d) =
      ((p.primary.select now).1, (p.primary.select now).2.shift d) := by
    refine Group.select_shift fun pick hpick hprobe => hfits { pick, source := .primary } ?_ hprobe
    rcases hselect : (p.primary.shift d).select (now.shift d) with ⟨_ | pick', g⟩ <;>
      rw [hselect] at hpick <;> cases hpick
    simp [nextInOrder, hselect, shift]
  rcases hselect : p.primary.select now with ⟨_ | pick, g⟩ <;> rw [hselect] at hprimary
  case some => simp [nextInOrder, hprimary, hselect, setGroup, shift]
  case none =>
    have hbackup : (p.backup.shift d).select (now.shift d) =
        ((p.backup.select now).1, (p.backup.select now).2.shift d) := by
      refine Group.select_shift fun pick hpick hprobe => hfits { pick, source := .backup } ?_ hprobe
      rcases hselect' : (p.backup.shift d).select (now.shift d) with ⟨_ | pick', g'⟩ <;>
        rw [hselect'] at hpick <;> cases hpick
      simp [nextInOrder, hprimary, hselect', setGroup, shift]
    rcases hselect' : p.backup.select now with ⟨_ | pick, g'⟩ <;> rw [hselect'] at hbackup <;>
      simp [nextInOrder, hprimary, hbackup, hselect, hselect', setGroup, shift]

theorem reportSuccess_shift (id : ServerId) (p : Pool α) :
    (p.shift d).reportSuccess id = ((p.reportSuccess id).1, (p.reportSuccess id).2.shift d) := by
  rw [reportSuccess, slot?_shift, reportSuccess]
  cases p.slot? id with
  | none => rfl
  | some s =>
      simp only [Option.map_some, Slot.recordSuccess_shift, setSlot_shift]
      split <;> rfl

theorem reportFailure_shift {id : ServerId}
    (hfits : ∀ s, p.slot? id = some s → s.health.Arms s.policy now →
      Fits (now.shift d, s.policy.failTimeout)) :
    (p.shift d).reportFailure (now.shift d) id =
      ((p.reportFailure now id).1, (p.reportFailure now id).2.shift d) := by
  rw [reportFailure, slot?_shift, reportFailure]
  cases hs : p.slot? id with
  | none => rfl
  | some s =>
      simp only [Option.map_some, Slot.recordFailure_shift (hfits s hs), setSlot_shift]
      split <;> rfl

end Pool

/-! ## One operation -/

namespace State

variable {s : State α} {r : Request α}

theorem through_shift {caller : Caller} {f f' : Pool α → Pool α}
    (hf : caller.handle.isNone = false → f' (s.pool.shift d) = (f s.pool).shift d) :
    (s.shift d).through caller f' = (s.through caller f).shift d := by
  unfold through
  cases hhandle : caller.handle.isNone with
  | true => rfl
  | false =>
      have hpool := hf hhandle
      simp [shift, hpool]

theorem next_shift_of_fits {caller : Caller} (hhandle : caller.handle.isNone = false)
    (hfits : Step.Fits { before := s.shift d, request := { caller, op := .next } }) :
    (s.pool.shift d).next (s.clock.shift d) =
      ((s.pool.next s.clock).1, (s.pool.next s.clock).2.shift d) := by
  refine Pool.next_shift fun c hc hprobe => hfits _ ?_
  have hchoice : ((s.shift d).pool.next (s.shift d).clock).1 = some c := hc
  simp [Step.sums, hhandle, hchoice, hprobe]
  rfl

theorem reportFailure_shift_of_fits {caller : Caller} {target : Target} {error : Option String}
    {id : ServerId} (hid : caller.resolve target = some id)
    (hfits : Step.Fits { before := s.shift d, request := { caller, op := .reportFailure target error } }) :
    (s.pool.shift d).reportFailure (s.clock.shift d) id =
      ((s.pool.reportFailure s.clock id).1, (s.pool.reportFailure s.clock id).2.shift d) := by
  refine Pool.reportFailure_shift fun slot hslot harms => hfits _ ?_
  have hslot' : (s.shift d).pool.slot? id = some (slot.shift d) := by
    rw [shift, Pool.slot?_shift, hslot, Option.map_some]
  have harms' : (slot.shift d).health.Arms (slot.shift d).policy (s.shift d).clock :=
    Health.arms_shift.2 harms
  simp [Step.sums, hid, hslot', harms']
  exact ⟨rfl, rfl⟩

theorem apply_shift (hfits : Step.Fits { before := s.shift d, request := r.shift d }) :
    (s.shift d).apply (r.shift d) = (s.apply r).shift d := by
  rcases r with ⟨caller, op⟩
  cases op with
  | add options data =>
      simp only [apply, Request.shift, Op.shift]
      refine through_shift fun _ => ?_
      cases options.check with
      | error why => rfl
      | ok _ => exact congrArg Prod.snd (Pool.register_shift options data s.pool)
  | next =>
      simp only [apply, Request.shift, Op.shift]
      exact through_shift fun hhandle => congrArg Prod.snd (next_shift_of_fits hhandle hfits)
  | reportSuccess target =>
      have hpool (id : ServerId) := congrArg Prod.snd (Pool.reportSuccess_shift (d := d) id s.pool)
      cases hid : caller.resolve target with
      | none => simp [apply, Request.shift, Op.shift, hid]
      | some id => simpa [apply, Request.shift, Op.shift, hid, shift] using hpool id
  | reportFailure target error =>
      cases hid : caller.resolve target with
      | none => simp [apply, Request.shift, Op.shift, hid]
      | some id =>
          have hpool := congrArg Prod.snd (reportFailure_shift_of_fits hid hfits)
          simpa [apply, Request.shift, Op.shift, hid, shift] using hpool
  | install label only script =>
      simp only [apply, Request.shift, Op.shift]
      exact through_shift fun _ => rfl
  | clear =>
      simp only [apply, Request.shift, Op.shift]
      exact through_shift fun _ => rfl
  | advance span =>
      obtain ⟨u, hu, hu'⟩ := Instant.add?_shift (hfits (s.clock.shift d, span) List.mem_cons_self)
      simp [apply, Request.shift, Op.shift, shift, hu, hu']
  | setClock target =>
      by_cases hlater : s.clock < target <;> simp [apply, Request.shift, Op.shift, shift, hlater]
  | count => rfl
  | panic => rfl

theorem notice?_shift (hfits : Step.Fits { before := s.shift d, request := r.shift d }) :
    (s.shift d).notice? (r.shift d) = s.notice? r := by
  rcases r with ⟨caller, op⟩
  cases op with
  | reportSuccess target =>
      cases hid : caller.resolve target with
      | none => simp [notice?, Request.shift, Op.shift, hid]
      | some id => simp [notice?, Request.shift, Op.shift, hid, shift, Pool.reportSuccess_shift]
  | reportFailure target error =>
      cases hid : caller.resolve target with
      | none => simp [notice?, Request.shift, Op.shift, hid]
      | some id =>
          simp [notice?, Request.shift, Op.shift, hid, shift, reportFailure_shift_of_fits hid hfits]
  | _ => rfl

theorem halts_shift (hfits : Step.Fits { before := s.shift d, request := r.shift d }) :
    (s.shift d).halts (r.shift d) = s.halts r := by
  rcases r with ⟨caller, op⟩
  cases op with
  | advance span =>
      obtain ⟨u, hu, hu'⟩ := Instant.add?_shift (hfits (s.clock.shift d, span) List.mem_cons_self)
      simp [halts, Request.shift, Op.shift, shift, hu, hu']
  | _ => rfl

end State

end TieredPool
