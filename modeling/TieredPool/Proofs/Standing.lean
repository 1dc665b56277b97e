import TieredPool.Proofs.Invariant

/-!
# Standing — who is registered, who is down, and which operations change that

Most of what a pool tells its surroundings depends on no more of its state than which servers it
holds and which of them are down. This module says once what each operation does to that.

* `Pool.Alike` — pools that hold the same servers, of which the same are down.
* `Pool.Turns` — a pool before and after one server went down or came back.
* `Step.answer?` — the answer to a request for a server.
* `Step.Way`, `Pool.Sound.way` — all that an operation can be: it changes none of this, answers a
  request, registers a server, or has one go down or come back.
-/

namespace TieredPool

variable {α : Type}

/-! ## Standing -/

/-- A server, and whether it is down. -/
def Slot.standing (s : Slot α) : Server α × Bool := (s.server, s.isDown)

def Group.standings (g : Group α) : List (Server α × Bool) := g.slots.map Slot.standing

/-- The server at `id`, and whether it is down. -/
def Pool.standing? (id : ServerId) (p : Pool α) : Option (Server α × Bool) :=
  (p.group id.tier).standings[id.index]?

theorem Pool.standing?_eq (id : ServerId) (p : Pool α) :
    p.standing? id = (p.slot? id).map Slot.standing := by
  simp [standing?, Group.standings, slot?]

theorem Pool.isDown_eq_standing? (id : ServerId) (p : Pool α) :
    p.isDown id = (p.standing? id).any (·.2) := by
  rw [standing?_eq, isDown]
  cases p.slot? id <;> rfl

theorem Group.standings_select (now : Instant) (g : Group α) :
    (g.select now).2.standings = g.standings := by
  refine map_slots_select Slot.standing now g ?_ ?_
  · simp [Slot.standing]
  · simp [Slot.standing]

theorem Group.standings_push (server : Server α) (g : Group α) :
    (g.push server).standings = g.standings ++ [(server, false)] := by
  simp [standings, push, Slot.standing, Slot.isDown]

theorem Group.length_standings (g : Group α) : g.standings.length = g.size := by
  simp [standings, size]

/-- The pools hold the same servers, of which the same are down. -/
structure Pool.Alike (p p' : Pool α) : Prop where
  standings : ∀ tier, (p'.group tier).standings = (p.group tier).standings
  online : p'.primaryOnline = p.primaryOnline

/-- The pool `p'` is `p` after `server`, which stands at `id`, went down or came back. -/
structure Pool.Turns (event : Event) (server : Server α) (id : ServerId) (p p' : Pool α) : Prop where
  id_eq : server.id = id
  tier_eq : id.tier = .primary
  tracked : server.tracked = true
  found : p.standing? id = some (server, decide (event = .up))
  standings : ∀ tier, (p'.group tier).standings =
    if tier = id.tier then (p.group tier).standings.set id.index (server, decide (event = .down))
    else (p.group tier).standings
  online : p'.primaryOnline =
    match event with
    | .up => p.primaryOnline + 1
    | .down => p.primaryOnline - 1

/-- The transition of a server of which an event tells. -/
def Event.transition : Event → Transition
  | .up => .up
  | .down => .down

namespace Pool

variable {p p' : Pool α} {id : ServerId} {server : Server α} {event : Event}

theorem Alike.refl (p : Pool α) : p.Alike p where
  standings := fun _ => rfl
  online := rfl

theorem Alike.standing?_eq (h : p.Alike p') (id : ServerId) : p'.standing? id = p.standing? id := by
  rw [standing?, standing?, h.standings]

theorem Alike.isDown_eq (h : p.Alike p') (id : ServerId) : p'.isDown id = p.isDown id := by
  rw [isDown_eq_standing?, isDown_eq_standing?, h.standing?_eq]

theorem Alike.size_eq (h : p.Alike p') (tier : Tier) : (p'.group tier).size = (p.group tier).size := by
  rw [← Group.length_standings, ← Group.length_standings, h.standings]

theorem Turns.standing?_self (h : p.Turns event server id p') :
    p'.standing? id = some (server, decide (event = .down)) := by
  have hlt : id.index < (p.group id.tier).standings.length := (List.getElem?_eq_some_iff.1 h.found).1
  rw [standing?, h.standings, if_pos rfl, List.getElem?_set_self hlt]

theorem Turns.standing?_of_ne (h : p.Turns event server id p') {id' : ServerId} (hne : id' ≠ id) :
    p'.standing? id' = p.standing? id' := by
  rw [standing?, standing?, h.standings]
  split
  case isFalse => rfl
  case isTrue htier =>
    have hindex : id.index ≠ id'.index := by
      intro hindex
      apply hne
      cases id
      cases id'
      simp_all
    rw [List.getElem?_set_ne hindex]

theorem Turns.isDown_self (h : p.Turns event server id p') :
    p'.isDown id = decide (event = .down) := by
  rw [isDown_eq_standing?, h.standing?_self]
  rfl

theorem Turns.isDown_of_ne (h : p.Turns event server id p') {id' : ServerId} (hne : id' ≠ id) :
    p'.isDown id' = p.isDown id' := by
  rw [isDown_eq_standing?, isDown_eq_standing?, h.standing?_of_ne hne]

theorem Turns.isDown_before (h : p.Turns event server id p') :
    p.isDown id = decide (event = .up) := by
  rw [isDown_eq_standing?, h.found]
  rfl

theorem isDown_empty (id : ServerId) : ({} : Pool α).isDown id = false := by
  cases htier : id.tier <;> simp [isDown, slot?, group, htier]

/-! ### Changes of state -/

/-- A request is a pick from one of the tiers, or changes nothing. -/
theorem next_eq_select (now : Instant) (p : Pool α) :
    (∃ source pick, ((p.group source).select now).1 = some pick ∧
      p.next now = (some { pick, source }, p.setGroup source ((p.group source).select now).2)) ∨
    p.next now = (none, p) := by
  rcases next_cases now p with ⟨pick, hpick, heq⟩ | ⟨_, pick, hpick, heq⟩ | ⟨_, _, heq⟩
  · exact .inl ⟨.primary, pick, hpick, heq⟩
  · exact .inl ⟨.backup, pick, hpick, heq⟩
  · exact .inr heq

theorem alike_next (now : Instant) (p : Pool α) : p.Alike (p.next now).2 := by
  rcases next_eq_select now p with ⟨source, pick, _, heq⟩ | heq
  · rw [heq]
    refine ⟨fun tier => ?_, primaryOnline_setGroup _ _ _⟩
    by_cases htier : tier = source
    · subst htier
      rw [group_setGroup_self, Group.standings_select]
    · rw [group_setGroup_of_ne htier]
  · rw [heq]
    exact .refl p

theorem group_register (options : ServerOptions) (data : α) (p : Pool α) (tier : Tier) :
    (p.register options data).2.group tier =
      if tier = options.tier then (p.group tier).push (p.register options data).1
      else p.group tier := by
  unfold register
  cases htier : options.tier <;> cases tier <;> simp [group, setGroup]

theorem standings_register (options : ServerOptions) (data : α) (p : Pool α) (tier : Tier) :
    ((p.register options data).2.group tier).standings =
      if tier = options.tier then (p.group tier).standings ++ [((p.register options data).1, false)]
      else (p.group tier).standings := by
  rw [group_register]
  split
  · exact Group.standings_push _ _
  · rfl

/-- Nobody stands where the next server is going to. -/
theorem standing?_fresh (options : ServerOptions) (data : α) (p : Pool α) :
    p.standing? (p.register options data).1.id = none :=
  List.getElem?_eq_none (Nat.le_of_eq (Group.length_standings _))

theorem standing?_register (options : ServerOptions) (data : α) (p : Pool α) (id : ServerId) :
    (p.register options data).2.standing? id =
      if id = (p.register options data).1.id then some ((p.register options data).1, false)
      else p.standing? id := by
  have hnew : (p.register options data).1.id =
      { tier := options.tier, index := (p.group options.tier).size } := rfl
  rw [standing?, standings_register, hnew]
  by_cases htier : id.tier = options.tier
  case neg =>
    have hid : id ≠ { tier := options.tier, index := (p.group options.tier).size } :=
      fun hid => htier (congrArg ServerId.tier hid)
    rw [if_neg htier, if_neg hid, standing?]
  case pos =>
    rw [if_pos htier]
    rcases Nat.lt_trichotomy id.index (p.group id.tier).standings.length with hlt | heq | hgt
    · have hid : id ≠ { tier := options.tier, index := (p.group options.tier).size } := by
        rintro rfl
        simp [Group.length_standings] at hlt
      rw [List.getElem?_append_left hlt, if_neg hid, standing?]
    · have hid : id = { tier := options.tier, index := (p.group options.tier).size } := by
        rw [← htier, ← Group.length_standings, ← heq]
      rw [heq, List.getElem?_concat_length, if_pos hid]
    · have hid : id ≠ { tier := options.tier, index := (p.group options.tier).size } := by
        rintro rfl
        simp [Group.length_standings] at hgt
      rw [if_neg hid, standing?, List.getElem?_eq_none (Nat.le_of_lt hgt), List.getElem?_eq_none]
      simpa using Nat.succ_le_of_lt hgt

theorem isDown_register (options : ServerOptions) (data : α) (p : Pool α) (id : ServerId) :
    (p.register options data).2.isDown id = p.isDown id := by
  rw [isDown_eq_standing?, isDown_eq_standing?, standing?_register]
  split
  case isTrue hid =>
    rw [hid, standing?_fresh]
    rfl
  case isFalse => rfl

theorem alike_handler (handler : Option (Handler α)) (p : Pool α) : p.Alike { p with handler } where
  standings := by
    intro tier
    cases tier <;> rfl
  online := rfl

theorem standings_setSlot (id : ServerId) (s : Slot α) (p : Pool α) (n : Nat) (tier : Tier) :
    (({ p.setSlot id s with primaryOnline := n } : Pool α).group tier).standings =
      if tier = id.tier then (p.group tier).standings.set id.index s.standing
      else (p.group tier).standings := by
  have hgroup : ({ p.setSlot id s with primaryOnline := n } : Pool α).group tier =
      (p.setSlot id s).group tier := by
    cases tier <;> rfl
  rw [hgroup, setSlot]
  split
  case isTrue htier =>
    subst htier
    simp [Group.standings, List.map_set]
  case isFalse htier => rw [group_setGroup_of_ne htier]

/-- An outcome with no transition changes nobody's standing. -/
theorem alike_setSlot {s s' : Slot α} (hs : p.slot? id = some s) (turn : Slot.Turn .none s s') :
    p.Alike { p.setSlot id s' with primaryOnline := p.primaryOnline } where
  standings := by
    intro tier
    rw [standings_setSlot]
    split
    case isFalse => rfl
    case isTrue htier =>
      subst htier
      have hstanding : s'.standing = s.standing := by
        have hdown : s'.isDown = s.isDown := turn.shows_isDown
        rw [Slot.standing, Slot.standing, turn.server, hdown]
      obtain ⟨hlt, hget⟩ := List.getElem?_eq_some_iff.1 hs
      rw [hstanding, Group.standings, ← List.map_set, ← hget, List.set_getElem_self]
  online := rfl

/-- What an outcome does to the standing of servers is what it is told of. -/
theorem Sound.turns_of_report (hp : p.Sound) (event : Event) {r : Option (Server α) × Pool α}
    (h : Report event.transition id p r) :
    (∀ server, r.1 = some server → p.Turns event server id r.2) ∧ (r.1 = none → p.Alike r.2) := by
  rcases h with ⟨_, rfl⟩ | ⟨s, s', t, hs, turn, ht, rfl⟩
  · exact ⟨by simp, fun _ => .refl p⟩
  · -- The slot made the transition of which the report tells, or none.
    by_cases htold : t = event.transition
    case neg =>
      have hnone : t = .none := ht.resolve_right htold
      subst hnone
      refine ⟨by simp [htold], fun _ => ?_⟩
      simpa [Transition.recount] using alike_setSlot hs turn
    case pos =>
      subst htold
      refine ⟨fun server hserver => ?_, by simp⟩
      have hne : event.transition ≠ .none := by cases event <;> simp [Event.transition]
      have hshows := turn.shows_isDown
      have hdown : s.isDown = decide (event = .up) ∧ s'.isDown = decide (event = .down) := by
        cases event <;> simpa [Event.transition, Transition.Shows] using hshows
      obtain rfl : s.server = server := by simpa using hserver
      refine ⟨(hp.group id.tier).placed _ _ hs, hp.primary_of_turn hs turn hne, turn.tracked hne,
        ?_, ?_, ?_⟩
      · rw [standing?_eq, hs, Option.map_some, Slot.standing, hdown.1]
      · intro tier
        rw [standings_setSlot, Slot.standing, turn.server, hdown.2]
      · cases event <;> rfl

end Pool

/-! ## Operations -/

namespace State

theorem sound_apply {s : State α} (hs : s.pool.Sound) (r : Request α) : (s.apply r).pool.Sound :=
  Pool.Sound.respects.apply s r hs

theorem sound_of_mem_trail {s : State α} (hs : s.pool.Sound) {rs : List (Request α)} {t : Step α}
    (ht : t ∈ s.trail rs) : t.before.pool.Sound := by
  induction rs generalizing s with
  | nil => cases ht
  | cons r rest ih =>
      rcases List.mem_cons.1 ht with rfl | ht
      · exact hs
      · exact ih (sound_apply hs r) ht

end State

/-- The answer to a request for a server, if the operation is one that goes through. -/
def Step.answer? (t : Step α) : Option (Except PoolError (Server α)) :=
  match t.request.op with
  | .next =>
      if t.request.caller.handle.isNone then none
      else some (Run.served (t.before.pool.next t.before.clock).1)
  | _ => none

/-- A machine gives that answer, or none if the handle has been dropped. -/
theorem perform_next {t : Step α} (hop : t.request.op = .next) {m : Machine α}
    (hm : m.state = t.before) (notify : Notice α → Run α Unit) :
    ∃ m', perform notify t.request.caller .next m =
      .ok (match t.answer? with
        | some a => .server a
        | none => .detached) m' := by
  rcases t with ⟨s, caller, op⟩
  obtain rfl : op = .next := hop
  subst hm
  cases hhandle : caller.handle.isNone with
  | true => exact ⟨m, by simp [perform, hhandle, Step.answer?]⟩
  | false =>
      obtain ⟨m', hnext, _⟩ := Run.next_spec m
      exact ⟨m', by simp [perform, hhandle, Step.answer?, hnext, Machine.state]⟩

/-- The counter that an answer moves. -/
def selectionMetric : Except PoolError (Server α) → Metric
  | .ok server => .selection server.id.tier
  | .error _ => .noAvailable

/-- What goes with a notice `n`: its server went down or came back, as the outcome of a request to it
has been reported. -/
structure Step.Notifies (t : Step α) (n : Notice α) : Prop where
  turns : t.before.pool.Turns n.event n.server n.server.id t.after.pool
  tells : ∃ line, t.tells =
    announcement n.event n.server.id n.error line t.after.pool.primaryOnline
  report : ∃ target, t.request.caller.resolve target = some n.server.id ∧
    ((n.event = .up ∧ n.error = none ∧ t.request.op = .reportSuccess target) ∨
      (n.event = .down ∧ t.request.op = .reportFailure target n.error))

theorem Step.notifies {t : Step α} {n : Notice α} (hp : t.before.pool.Sound)
    (h : t.notice? = some n) : t.Notifies n := by
  rcases t with ⟨s, caller, op⟩
  cases op with
  | reportSuccess target =>
      cases hid : caller.resolve target with
      | none => simp [notice?, State.notice?, hid] at h
      | some id =>
          have hreport := (hp.turns_of_report .up (Pool.report_reportSuccess id s.pool)).1
          rcases hback : s.pool.reportSuccess id with ⟨_ | server, p⟩
          · simp [notice?, State.notice?, hid, hback] at h
          · obtain rfl : n = { event := .up, server, error := none } := by
              simpa [notice?, State.notice?, hid, hback] using h.symm
            rw [hback] at hreport
            have hturns := hreport server rfl
            refine ⟨?_, ⟨.markedUp id p.primaryOnline, ?_⟩, target, ?_, .inl ⟨rfl, rfl, rfl⟩⟩
            · simpa [after, State.apply, hid, hback, hturns.id_eq] using hturns
            · simp [tells, hid, hback, after, State.apply, hturns.id_eq]
            · rw [hid, hturns.id_eq]
  | reportFailure target error =>
      cases hid : caller.resolve target with
      | none => simp [notice?, State.notice?, hid] at h
      | some id =>
          have hreport := (hp.turns_of_report .down
            (Pool.report_reportFailure hp.healthy s.clock id)).1
          rcases hlost : s.pool.reportFailure s.clock id with ⟨_ | server, p⟩
          · simp [notice?, State.notice?, hid, hlost] at h
          · obtain rfl : n = { event := .down, server, error } := by
              simpa [notice?, State.notice?, hid, hlost] using h.symm
            rw [hlost] at hreport
            have hturns := hreport server rfl
            refine ⟨?_, ⟨.markedDown id p.primaryOnline error, ?_⟩, target, ?_, .inr ⟨rfl, rfl⟩⟩
            · simpa [after, State.apply, hid, hlost, hturns.id_eq] using hturns
            · simp [tells, hid, hlost, after, State.apply, hturns.id_eq]
            · rw [hid, hturns.id_eq]
  | _ => simp [notice?, State.notice?] at h

/-- All that an operation can be, as far as standing, notices and metrics go. -/
inductive Step.Way (t : Step α) : Prop
  | quiet (notice : t.notice? = none) (answer : t.answer? = none)
      (metrics : Trace.metrics t.tells = [])
      (alike : t.before.pool.Alike t.after.pool)
  | answers (a : Except PoolError (Server α)) (notice : t.notice? = none)
      (answer : t.answer? = some a)
      (metrics : Trace.metrics t.tells = [selectionMetric a])
      (alike : t.before.pool.Alike t.after.pool)
  | registers (options : ServerOptions) (data : α) (notice : t.notice? = none)
      (answer : t.answer? = none)
      (metrics : Trace.metrics t.tells =
        let (server, p) := t.before.pool.register options data
        (if server.tracked then [.serverUp server.id true] else []) ++
          [.primaryOnline p.primaryOnline])
      (after : t.after.pool = (t.before.pool.register options data).2)
  | turns (n : Notice α) (notice : t.notice? = some n) (answer : t.answer? = none)
      (metrics : Trace.metrics t.tells =
        [.transition n.event, .serverUp n.server.id (n.event = .up),
          .primaryOnline t.after.pool.primaryOnline])
      (turns : t.before.pool.Turns n.event n.server n.server.id t.after.pool)

theorem Trace.metrics_selection (choice : Option (Pool.Choice α)) (online : Nat) :
    Trace.metrics (selection choice online) = [selectionMetric (Run.served choice)] := by
  cases choice with
  | none => rfl
  | some c =>
      cases hprobe : c.pick.probe <;> by_cases hsource : c.source = .backup <;>
        simp [selection, Trace.metrics, Run.served, selectionMetric, hprobe, hsource]

theorem Trace.metrics_registration (options : ServerOptions) (server : Server α) (online : Nat) :
    Trace.metrics (registration options server online) =
      (if server.tracked then [.serverUp server.id true] else []) ++ [.primaryOnline online] := by
  cases htracked : server.tracked <;> simp [registration, Trace.metrics, htracked]

/-- An operation through a handle that tells nothing and changes nobody's standing. -/
theorem Step.way_of_through {t : Step α} {f : Pool α → Pool α} (hnotice : t.notice? = none)
    (hanswer : t.answer? = none) (hmetrics : Trace.metrics t.tells = [])
    (hafter : t.after = t.before.through t.request.caller f)
    (halike : t.before.pool.Alike (f t.before.pool)) : t.Way := by
  refine .quiet hnotice hanswer hmetrics ?_
  rw [hafter, State.through]
  split
  · exact .refl _
  · exact halike

/-- What an operation on a sound pool can be. -/
theorem Step.way {t : Step α} (hp : t.before.pool.Sound) : t.Way := by
  -- A notice comes of a report that turned its server, and without one only `add` and `next` tell.
  cases hnotice : t.notice? with
  | some n =>
      have h := notifies hp hnotice
      obtain ⟨line, htells⟩ := h.tells
      obtain ⟨target, _, hreport⟩ := h.report
      refine .turns n hnotice ?_ (by rw [htells]; rfl) h.turns
      rcases hreport with ⟨_, _, hop⟩ | ⟨_, hop⟩ <;> simp [answer?, hop]
  | none =>
      rcases t with ⟨s, caller, op⟩
      cases op with
      | add options data =>
          cases hhandle : caller.handle.isNone with
          | true =>
              refine .quiet rfl rfl (by simp [tells, hhandle, Trace.metrics]) ?_
              simpa [after, State.apply, State.through, hhandle] using Pool.Alike.refl s.pool
          | false =>
              cases hcheck : options.check with
              | error why =>
                  refine .quiet rfl rfl (by simp [tells, hhandle, hcheck, Trace.metrics]) ?_
                  simpa [after, State.apply, State.through, hhandle, hcheck] using
                    Pool.Alike.refl s.pool
              | ok _ =>
                  refine .registers options data rfl rfl ?_ ?_
                  · simp [tells, hhandle, hcheck, Trace.metrics_registration]
                  · simp [after, State.apply, State.through, hhandle, hcheck]
      | next =>
          cases hhandle : caller.handle.isNone with
          | true =>
              refine .quiet rfl (by simp [answer?, hhandle])
                (by simp [tells, hhandle, Trace.metrics]) ?_
              simpa [after, State.apply, State.through, hhandle] using Pool.Alike.refl s.pool
          | false =>
              refine .answers (Run.served (s.pool.next s.clock).1) rfl (by simp [answer?, hhandle])
                ?_ ?_
              · simp [tells, hhandle, Trace.metrics_selection]
              · simpa [after, State.apply, State.through, hhandle] using
                  Pool.alike_next s.clock s.pool
      | reportSuccess target =>
          cases hid : caller.resolve target with
          | none =>
              refine .quiet hnotice rfl (by simp [tells, hid, Trace.metrics]) ?_
              simpa [after, State.apply, hid] using Pool.Alike.refl s.pool
          | some id =>
              have hnone : (s.pool.reportSuccess id).1 = none := by
                simpa [notice?, State.notice?, hid] using hnotice
              have halike := (hp.turns_of_report .up
                (Pool.report_reportSuccess id s.pool)).2 hnone
              refine .quiet hnotice rfl ?_ (by simpa [after, State.apply, hid] using halike)
              rcases hback : s.pool.reportSuccess id with ⟨_ | server, p⟩
              · simp [tells, hid, hback, Trace.metrics]
              · simp [hback] at hnone
      | reportFailure target error =>
          cases hid : caller.resolve target with
          | none =>
              refine .quiet hnotice rfl (by simp [tells, hid, Trace.metrics]) ?_
              simpa [after, State.apply, hid] using Pool.Alike.refl s.pool
          | some id =>
              have hnone : (s.pool.reportFailure s.clock id).1 = none := by
                simpa [notice?, State.notice?, hid] using hnotice
              have halike := (hp.turns_of_report .down
                (Pool.report_reportFailure hp.healthy s.clock id)).2 hnone
              refine .quiet hnotice rfl ?_ (by simpa [after, State.apply, hid] using halike)
              rcases hlost : s.pool.reportFailure s.clock id with ⟨_ | server, p⟩
              · simp [tells, hid, hlost, Trace.metrics]
              · simp [hlost] at hnone
      | count => exact .quiet rfl rfl rfl (.refl _)
      | install label only script =>
          let handler : Handler α := { label, only, script, holder := caller.handle }
          exact way_of_through (f := fun p => { p with handler := some handler }) rfl rfl rfl rfl
            (Pool.alike_handler (some handler) s.pool)
      | clear =>
          exact way_of_through (f := fun p => { p with handler := none }) rfl rfl rfl rfl
            (Pool.alike_handler none s.pool)
      | advance span => exact .quiet rfl rfl rfl (.refl _)
      | setClock target => exact .quiet rfl rfl rfl (.refl _)
      | panic => exact .quiet rfl rfl rfl (.refl _)

end TieredPool
