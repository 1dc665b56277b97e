import Mathlib.Algebra.Ring.Int.Defs
import Mathlib.Data.List.Basic
import TieredPool.Proofs.Standing

/-!
# Delivery — every change of availability is told, once, to whoever listens then

A handler may use the pool that called it, so events nest: a server that a handler brings back is told
of before the handler of its loss has come to its end, and a handler may replace itself or panic half
way. In the order in which the operations are carried out, nothing of this shows.

* `Trace.news`, `Step.news` — the changes of availability and the handler calls of a trace; those that
  an operation leads to.
* `Step.Announces` — an operation is told of exactly if a server goes down or comes back by it.
* `eventsOf`, `Event.alternating` — the events of one server; events that take turns.
* `events_delivered` — what is told in a run, and to whom.
-/

namespace TieredPool

variable {α : Type}

/-! ## News -/

def Effect.news? : Effect α → Option (Effect α)
  | .changed event id error => some (.changed event id error)
  | .entered call => some (.entered call)
  | _ => none

/-- The changes of availability and the handler calls of a trace, in order. -/
def Trace.news (trace : List (Effect α)) : List (Effect α) := trace.filterMap Effect.news?

/-- The change of availability that an operation brings about, and the call of the handler that is
installed then, if there is one. -/
def Step.news (t : Step α) : List (Effect α) :=
  match t.notice? with
  | none => []
  | some n => .changed n.event n.server.id n.error :: t.calls

/-- What an operation has to do with the availability of servers. -/
structure Step.Announces (t : Step α) : Prop where
  /-- A server goes down or comes back exactly if there is a notice of it. -/
  flips : ∀ id, t.after.pool.isDown id ≠ t.before.pool.isDown id ↔
    ∃ n, t.notice? = some n ∧ n.server.id = id
  /-- Once the operation is through, the server is what the notice says. -/
  shows : ∀ n, t.notice? = some n → t.after.pool.isDown n.server.id = decide (n.event = .down)
  /-- A server that came back was reported to have succeeded, and there is no error. -/
  up : ∀ n, t.notice? = some n → n.event = .up → n.error = none ∧
    ∃ target, t.request.op = .reportSuccess target ∧
      t.request.caller.resolve target = some n.server.id
  /-- A server that went down was reported to have failed, with the error of the notice. -/
  down : ∀ n, t.notice? = some n → n.event = .down →
    ∃ target, t.request.op = .reportFailure target n.error ∧
      t.request.caller.resolve target = some n.server.id

namespace Step

variable {t : Step α} {n : Notice α}

/-- A notice comes with a turn of its server, and an operation without one leaves all servers as they
are. -/
theorem isDown_after (hp : t.before.pool.Sound) (id : ServerId) :
    (∃ n, t.notice? = some n ∧ n.server.id = id ∧ t.before.pool.isDown id = decide (n.event = .up) ∧
      t.after.pool.isDown id = decide (n.event = .down)) ∨
    ((∀ n, t.notice? = some n → n.server.id ≠ id) ∧
      t.after.pool.isDown id = t.before.pool.isDown id) := by
  cases way hp with
  | quiet notice _ _ alike =>
      right
      exact ⟨by simp [notice], alike.isDown_eq id⟩
  | answers a notice _ _ alike =>
      right
      exact ⟨by simp [notice], alike.isDown_eq id⟩
  | registers options data notice _ _ hafter =>
      right
      refine ⟨by simp [notice], ?_⟩
      rw [hafter, Pool.isDown_register]
  | turns n notice _ _ turns =>
      by_cases hid : n.server.id = id
      · subst hid
        left
        exact ⟨n, notice, rfl, turns.isDown_before, turns.isDown_self⟩
      · right
        refine ⟨?_, turns.isDown_of_ne (Ne.symm hid)⟩
        intro n' hn'
        rw [notice] at hn'
        cases hn'
        exact hid

theorem announces (hp : t.before.pool.Sound) : t.Announces where
  flips := by
    intro id
    rcases isDown_after hp id with ⟨n, hn, hid, hbefore, hafter⟩ | ⟨hother, hsame⟩
    · rw [hbefore, hafter]
      refine ⟨fun _ => ⟨n, hn, hid⟩, fun _ => ?_⟩
      cases n.event <;> simp
    · rw [hsame]
      constructor
      · intro h
        exact absurd rfl h
      · rintro ⟨n, hn, hid⟩
        exact absurd hid (hother n hn)
  shows := by
    intro n hn
    rcases isDown_after hp n.server.id with ⟨n', hn', _, _, hafter⟩ | ⟨hother, _⟩
    · rw [hn] at hn'
      cases hn'
      exact hafter
    · exact absurd rfl (hother n hn)
  up := by
    intro n hn hup
    rcases (notifies hp hn).report with ⟨target, hid, ⟨_, herror, hop⟩ | ⟨hdown, _⟩⟩
    · exact ⟨herror, target, hop, hid⟩
    · rw [hup] at hdown
      cases hdown
  down := by
    intro n hn hdown
    rcases (notifies hp hn).report with ⟨target, hid, ⟨hup, _⟩ | ⟨_, hop⟩⟩
    · rw [hdown] at hup
      cases hup
    · exact ⟨target, hop, hid⟩

/-- An operation that brings about no change of availability tells of none. -/
theorem news_tells_of_no_notice (h : t.notice? = none) : t.tells.filterMap Effect.news? = [] := by
  rcases t with ⟨s, caller, op⟩
  cases op with
  | add options data =>
      cases hhandle : caller.handle.isNone <;> cases hcheck : options.check <;>
        cases htracked : (s.pool.register options data).1.tracked <;>
        simp [tells, hhandle, hcheck, registration, htracked, Effect.news?]
  | next =>
      cases hhandle : caller.handle.isNone with
      | true => simp [tells, hhandle]
      | false =>
          rcases hnext : s.pool.next s.clock with ⟨_ | c, p⟩
          · simp [tells, hhandle, hnext, selection, Effect.news?]
          · cases hprobe : c.pick.probe <;> by_cases hsource : c.source = .backup <;>
              simp [tells, hhandle, hnext, selection, hprobe, hsource, Effect.news?]
  | reportSuccess target =>
      cases hid : caller.resolve target with
      | none => simp [tells, hid]
      | some id =>
          rcases hback : s.pool.reportSuccess id with ⟨_ | server, p⟩
          · simp [tells, hid, hback]
          · simp [notice?, State.notice?, hid, hback] at h
  | reportFailure target error =>
      cases hid : caller.resolve target with
      | none => simp [tells, hid]
      | some id =>
          rcases hlost : s.pool.reportFailure s.clock id with ⟨_ | server, p⟩
          · simp [tells, hid, hlost]
          · simp [notice?, State.notice?, hid, hlost] at h
  | _ => rfl

/-- What is read of an operation in a trace are its news. -/
theorem news_eq (hp : t.before.pool.Sound) : (t.tells ++ t.calls).filterMap Effect.news? = t.news := by
  unfold news
  cases hnotice : t.notice? with
  | none => simp [news_tells_of_no_notice hnotice, calls_of_no_notice hnotice]
  | some n =>
      obtain ⟨line, htells⟩ := (notifies hp hnotice).tells
      have hcalls : t.calls.filterMap Effect.news? = t.calls := by
        unfold calls
        split <;> rfl
      rw [List.filterMap_append, htells, hcalls]
      rfl

end Step

/-! ## The events of one server -/

/-- What an operation tells of the server at `id`. -/
def Step.event? (id : ServerId) (t : Step α) : Option Event :=
  t.notice?.bind fun n => if n.server.id = id then some n.event else none

/-- The events of the server at `id`. -/
def eventsOf (id : ServerId) (steps : List (Step α)) : List Event := steps.filterMap (Step.event? id)

/-- The first `n` events of a server that is down, or up, at the start and takes turns. -/
def Event.alternating (down : Bool) : Nat → List Event
  | 0 => []
  | n + 1 => (if down then .up else .down) :: alternating (!down) n

theorem Step.event?_cases {t : Step α} (hp : t.before.pool.Sound) (id : ServerId) :
    (t.event? id = none ∧ t.after.pool.isDown id = t.before.pool.isDown id) ∨
      (t.event? id = some (if t.before.pool.isDown id then .up else .down) ∧
        t.after.pool.isDown id = !t.before.pool.isDown id) := by
  rcases isDown_after hp id with ⟨n, hn, hid, hbefore, hafter⟩ | ⟨hother, hsame⟩
  · right
    cases hevent : n.event <;>
      simp [event?, hn, hid, hbefore, hafter, hevent]
  · left
    refine ⟨?_, hsame⟩
    cases hn : t.notice? with
    | none => simp [event?, hn]
    | some n => simp [event?, hn, hother n hn]

namespace State

/-- The events of a server take turns, from what it is at the start. -/
theorem eventsOf_trail {s : State α} (hs : s.pool.Sound) (id : ServerId) (rs : List (Request α)) :
    ∃ n, eventsOf id (s.trail rs) = Event.alternating (s.pool.isDown id) n := by
  -- The first operation either leaves the server as it is or makes the first of its turns.
  induction rs generalizing s with
  | nil => exact ⟨0, rfl⟩
  | cons r rest ih =>
      rcases ih (sound_apply hs r) with ⟨n, hn⟩
      rw [eventsOf] at hn
      rcases Step.event?_cases (t := { before := s, request := r }) hs id with
        ⟨hevent, hsame⟩ | ⟨hevent, hturned⟩
      · refine ⟨n, ?_⟩
        rw [eventsOf, trail_cons, List.filterMap_cons_none hevent, hn]
        exact congrArg (Event.alternating · n) hsame
      · refine ⟨n + 1, ?_⟩
        rw [eventsOf, trail_cons, List.filterMap_cons_some hevent, hn, Event.alternating]
        exact congrArg (_ :: Event.alternating · n) hturned

/-- Each event of a server leaves it as it says, so the losses are one ahead of the returns exactly
while it is down. -/
theorem count_eventsOf {s : State α} (hs : s.pool.Sound) (id : ServerId) (rs : List (Request α)) :
    (eventsOf id (s.trail rs)).count .down + (s.pool.isDown id).toNat =
      (eventsOf id (s.trail rs)).count .up + ((s.applyAll rs).pool.isDown id).toNat := by
  induction rs generalizing s with
  | nil => simp [eventsOf]
  | cons r rest ih =>
      have hrest := ih (sound_apply hs r)
      rw [eventsOf] at hrest
      rcases Step.event?_cases (t := { before := s, request := r }) hs id with
        ⟨hevent, hsame⟩ | ⟨hevent, hturned⟩
      · have hsame' : (s.apply r).pool.isDown id = s.pool.isDown id := hsame
        rw [eventsOf, trail_cons, List.filterMap_cons_none hevent, applyAll_cons, ← hrest, hsame']
      · have hturned' : (s.apply r).pool.isDown id = !s.pool.isDown id := hturned
        rw [eventsOf, trail_cons, List.filterMap_cons_some hevent, applyAll_cons]
        rw [hturned'] at hrest
        cases hdown : s.pool.isDown id <;> simp [hdown] at hrest ⊢ <;> omega

end State

/-! ## All servers together -/

theorem Group.sum_isDown (g : Group α) :
    (g.slots.map fun s => (s.isDown.toNat : Int)).sum = g.size - g.upCount := by
  unfold size upCount
  induction g.slots with
  | nil => simp
  | cons s rest ih =>
      rw [List.map_cons, List.sum_cons, ih, List.countP_cons]
      cases s.isDown with
      | true =>
          simp only [Bool.toNat_true, Bool.not_true, Bool.false_eq_true, if_false, List.length_cons]
          omega
      | false =>
          simp only [Bool.toNat_false, Bool.not_false, if_true, List.length_cons]
          omega

namespace Pool.Sound

variable {p : Pool α}

theorem isDown_of_mem (hp : p.Sound) (tier : Tier) {s : Slot α} (hs : s ∈ (p.group tier).slots) :
    p.isDown s.server.id = s.isDown := by
  rcases List.mem_iff_getElem?.1 hs with ⟨k, hk⟩
  have hslot : p.slot? s.server.id = some s := by
    rw [(hp.group tier).placed k s hk]
    exact hk
  rw [isDown, hslot]
  rfl

theorem sum_isDown (hp : p.Sound) :
    (p.slots.map fun s => ((p.isDown s.server.id).toNat : Int)).sum =
      p.primary.size - p.primaryOnline := by
  have hprimary : p.primary.slots.map (fun s => ((p.isDown s.server.id).toNat : Int)) =
      p.primary.slots.map fun s => (s.isDown.toNat : Int) :=
    List.map_congr_left fun s hs => by rw [hp.isDown_of_mem .primary hs]
  have hbackup : p.backup.slots.map (fun s => ((p.isDown s.server.id).toNat : Int)) =
      p.backup.slots.map fun _ => 0 := by
    refine List.map_congr_left fun s hs => ?_
    -- Nothing that is reported of a backup counts.
    have hflag : s.server.options.isBackup = true :=
      (ServerOptions.isBackup_of_tier ((hp.group .backup).tier_eq s hs)).2 rfl
    have hup := (hp.consistent.untracked s (List.mem_append_right _ hs) (.inl hflag)).2.2
    rw [hp.isDown_of_mem .backup hs, hup]
    rfl
  rw [slots, List.map_append, List.sum_append, hprimary, hbackup, Group.sum_isDown, hp.online]
  simp

end Pool.Sound

/-! ## Every run -/

theorem Step.entered_of_news {t : Step α} {call : Call α} (h : .entered call ∈ t.news) :
    .entered call ∈ t.calls := by
  unfold news at h
  split at h
  · cases h
  · simpa using h

/-- The handler that is called is the one installed, and finds its server as the event says. -/
theorem Step.entered_of_calls {t : Step α} (ht : t.Announces) {call : Call α}
    (h : .entered call ∈ t.calls) :
    call.pool.handler = some call.handler ∧ call.down = decide (call.event = .down) := by
  unfold calls at h
  split at h
  case h_1 n handler hnotice hhandler =>
    cases List.mem_singleton.1 h
    exact ⟨hhandler, ht.shows n hnotice⟩
  case h_2 => cases h

theorem Machine.news_serve (fuel : Nat) (clock : Instant) (requests : List (Request α))
    (hend : ({ clock } : Machine α).finishes fuel requests = true) :
    Trace.news (({ clock } : Machine α).serve fuel requests).trace.toList =
      (({ clock } : State α).course fuel requests).flatMap Step.news := by
  -- The run comes to its end, so no handler misses an event for want of fuel.
  have hwalk : ({ clock } : Machine α).Walks False _ _ :=
    (walks_serve fuel requests _).mono (by rw [hend]; simp)
  have hheard := hwalk.heard (f := Effect.news?) (by intro e he; cases e <;> first | rfl | cases he)
  rw [Trace.news, hheard, List.filterMap_nil, List.nil_append]
  refine List.flatMap_congr fun t ht => ?_
  exact Step.news_eq (State.sound_of_mem_trail Pool.Sound.empty ht)

/-- In a run that comes to its end, though handlers may panic in it, the changes of availability and
the handler calls are those of its operations, in order, and so is the state that it ends in: a server
that goes down or comes back is told of once, to the handler that is installed then, and no handler is
called otherwise. On its entry the server is what the event says. After any number of operations the
events of each server have taken turns, beginning with a loss, and the losses are ahead of the returns
by one exactly if it is down. -/
theorem events_delivered (fuel : Nat) (clock : Instant) (requests : List (Request α))
    (hend : ({ clock } : Machine α).finishes fuel requests = true) :
    let start : State α := { clock }
    let course := start.course fuel requests
    let m := ({ clock } : Machine α).serve fuel requests
    Trace.news m.trace.toList = course.flatMap Step.news ∧
    m.state = start.after fuel requests course.length ∧
    (∀ t ∈ course, t.Announces) ∧
    (∀ call, .entered call ∈ m.trace.toList →
      call.pool.handler = some call.handler ∧ call.down = decide (call.event = .down)) ∧
    ∀ k,
      let p := (start.after fuel requests k).pool
      let told := fun id => eventsOf id (course.take k)
      (∀ id, (∃ n, told id = Event.alternating false n) ∧
        (told id).count .down = (told id).count .up + if p.isDown id then 1 else 0) ∧
      (p.slots.map fun s =>
        ((told s.server.id).count .down : Int) - (told s.server.id).count .up).sum =
        p.primary.size - p.primaryOnline := by
  intro start course m
  have hempty : start.pool.Sound := Pool.Sound.empty
  have hannounces : ∀ t ∈ course, t.Announces :=
    fun t ht => Step.announces (State.sound_of_mem_trail hempty ht)
  have hnews := Machine.news_serve fuel clock requests hend
  refine ⟨hnews, ?_, hannounces, ?_, ?_⟩
  · have hlength : course.length = (State.unrollAll fuel requests start).length := State.length_trail _ _
    rw [State.after, hlength, List.take_length]
    exact (Machine.follows_serve fuel requests ({ clock } : Machine α)).state
  · -- A call in the trace is one of the news, and so belongs to an operation.
    intro call hcall
    have hmem : .entered call ∈ Trace.news m.trace.toList :=
      List.mem_filterMap.2 ⟨.entered call, hcall, rfl⟩
    rw [hnews] at hmem
    obtain ⟨t, ht, hentered⟩ := List.mem_flatMap.1 hmem
    exact Step.entered_of_calls (hannounces t ht) (Step.entered_of_news hentered)
  · intro k p told
    have hup : ∀ id, start.pool.isDown id = false := Pool.isDown_empty
    have hcount : ∀ id, (told id).count .down = (told id).count .up + (p.isDown id).toNat := by
      intro id
      have h := State.count_eventsOf hempty id ((State.unrollAll fuel requests start).take k)
      rw [State.trail_take, hup id] at h
      exact h
    refine ⟨fun id => ⟨?_, ?_⟩, ?_⟩
    · have h := State.eventsOf_trail hempty id ((State.unrollAll fuel requests start).take k)
      rw [State.trail_take, hup id] at h
      exact h
    · rw [hcount]
      cases p.isDown id <;> rfl
    · have hp : p.Sound := State.sound_after fuel clock requests k
      rw [← hp.sum_isDown]
      refine congrArg List.sum (List.map_congr_left fun s _ => ?_)
      rw [hcount]
      omega

/-- A handler that brings its server back from within the event of its loss, replaces itself and
panics; its successor hears of one more loss, and nobody of the return after that. -/
def succession : List (Request Unit) :=
  let client : Caller := { handle := some 0 }
  let server : Target := .server ⟨.primary, 0⟩
  [ { caller := client, op := .add (.primary 1) () },
    { caller := client,
      op := .install 0 (some .down) [.reportSuccess .subject, .install 1 none [], .panic] },
    { caller := client, op := .reportFailure server (some "refused") },
    { caller := client, op := .reportFailure server none },
    { caller := client, op := .clear },
    { caller := client, op := .reportSuccess server } ]

theorem events_delivered_succession :
    let start : State Unit := { clock := ⟨0⟩ }
    let m := ({ clock := ⟨0⟩ } : Machine Unit).serve 2 succession
    ({ clock := ⟨0⟩ } : Machine Unit).finishes 2 succession = true ∧
    Trace.news m.trace.toList = (start.course 2 succession).flatMap Step.news ∧
    (Trace.news m.trace.toList).length = 7 ∧
    eventsOf ⟨.primary, 0⟩ ((start.course 2 succession).take 7) = [.down, .up, .down] ∧
    (eventsOf ⟨.primary, 0⟩ ((start.course 2 succession).take 7)).count .down =
      (eventsOf ⟨.primary, 0⟩ ((start.course 2 succession).take 7)).count .up +
        if (start.after 2 succession 7).pool.isDown ⟨.primary, 0⟩ then 1 else 0 :=
  have hend : ({ clock := ⟨0⟩ } : Machine Unit).finishes 2 succession = true := by decide +kernel
  have h := events_delivered 2 ⟨0⟩ succession hend
  ⟨hend, h.1, by decide +kernel, by decide +kernel, ((h.2.2.2.2 7).1 ⟨.primary, 0⟩).2⟩

end TieredPool
