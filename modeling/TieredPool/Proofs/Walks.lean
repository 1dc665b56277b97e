import TieredPool.Trace
import TieredPool.Proofs.Unrolling

/-!
# Walks — what a machine does and tells, operation by operation

A machine that performs an operation may run handlers to any depth before it is through. Its trace is
all the same that of the unrolled operations one after the other: what each of them tells by itself,
the handler call that it leads to, and marks where an operation of a script or a handler ends.

* `Step.tells`, `Step.calls` — what an operation tells, and the handler call that it leads to.
* `Machine.Walks` — a machine after a sequence of operations, whoever issued them.
* `perform_unroll` — a machine that performs an operation walks its unrolling.
* `Machine.serve` — the requests of clients in order; `walks_serve` — they walk their unrolling.
* `Walks.told`, `Walks.heard`, `Walks.of_pause` — how the trace of a walk is read, as a whole and up to
  a point at which a handler is entered or an operation has come to its end.
-/

namespace TieredPool

variable {α β γ : Type}

/-! ## Running a computation -/

namespace Run

@[simp] theorem bind_apply (x : Run α β) (f : β → Run α γ) (m : Machine α) :
    (x >>= f) m = match x m with
      | .ok b m' => f b m'
      | .error why m' => .error why m' := by
  simp only [bind, EStateM.bind]
  cases x m <;> rfl

@[simp] theorem map_apply (f : β → γ) (x : Run α β) (m : Machine α) :
    (f <$> x) m = match x m with
      | .ok b m' => .ok (f b) m'
      | .error why m' => .error why m' := by
  simp only [Functor.map, EStateM.map]
  cases x m <;> rfl

@[simp] theorem ite_apply (c : Prop) [Decidable c] (x y : Run α β) (m : Machine α) :
    (if c then x else y) m = if c then x m else y m := by
  split <;> rfl

@[simp] theorem pure_apply (b : β) (m : Machine α) : (pure b : Run α β) m = .ok b m := rfl

@[simp] theorem throw_apply (why : Halt) (m : Machine α) :
    (throw why : Run α β) m = .error why m := rfl

@[simp] theorem get_apply (m : Machine α) : (get : Run α (Machine α)) m = .ok m m := rfl

@[simp] theorem modify_apply (f : Machine α → Machine α) (m : Machine α) :
    (modify f : Run α Unit) m = .ok () (f m) := rfl

@[simp] theorem emit_apply (e : Effect α) (m : Machine α) :
    emit e m = .ok () { m with trace := m.trace.push e } := rfl

@[simp] theorem getPool_apply (m : Machine α) : (getPool : Run α (Pool α)) m = .ok m.pool m := by
  simp [getPool]

@[simp] theorem setPool_apply (p : Pool α) (m : Machine α) :
    setPool p m = .ok () { m with pool := p } := rfl

end Run

/-! ## What an operation tells -/

/-- What is told of a server that is registered. -/
def registration (options : ServerOptions) (server : Server α) (online : Nat) : List (Effect α) :=
  .log (.serverAdded server.id options) ::
    ((if server.tracked then [.metric (.serverUp server.id true)] else []) ++
      [.metric (.primaryOnline online)])

/-- What is told of the choice that a request comes to. -/
def selection (choice : Option (Pool.Choice α)) (online : Nat) : List (Effect α) :=
  match choice with
  | some c =>
      (if c.pick.probe then [.log (.probing c.pick.server.id)] else []) ++
        (if c.source = .backup then [.log (.fallingBack online)] else []) ++
          [.metric (.selection c.pick.server.id.tier)]
  | none => [.log .nothingAvailable, .metric .noAvailable]

/-- What is told of a server that went down or came back. -/
def announcement (event : Event) (id : ServerId) (error : Option String) (line : LogLine)
    (online : Nat) : List (Effect α) :=
  [.changed event id error, .log line, .metric (.transition event),
    .metric (.serverUp id (event = .up)), .metric (.primaryOnline online)]

/-- What an operation tells by itself. -/
def Step.tells (t : Step α) : List (Effect α) :=
  match t.request.op with
  | .add options data =>
      if t.request.caller.handle.isNone then [] else
        match options.check with
        | .error _ => []
        | .ok () =>
            let (server, p) := t.before.pool.register options data
            registration options server p.primaryOnline
  | .next =>
      if t.request.caller.handle.isNone then [] else
        let (choice, p) := t.before.pool.next t.before.clock
        selection choice p.primaryOnline
  | .reportSuccess target =>
      match t.request.caller.resolve target with
      | none => []
      | some id =>
          match t.before.pool.reportSuccess id with
          | (none, _) => []
          | (some _, p) => announcement .up id none (.markedUp id p.primaryOnline) p.primaryOnline
  | .reportFailure target error =>
      match t.request.caller.resolve target with
      | none => []
      | some id =>
          match t.before.pool.reportFailure t.before.clock id with
          | (none, _) => []
          | (some _, p) =>
              announcement .down id error (.markedDown id p.primaryOnline error) p.primaryOnline
  | _ => []

/-- The handler call that an operation leads to: the handler that is installed once it is through
hears of the change that it brought about. -/
def Step.calls (t : Step α) : List (Effect α) :=
  match t.notice?, t.after.pool.handler with
  | some n, some handler =>
      [.entered { handler, event := n.event, server := n.server, error := n.error,
                  pool := t.after.pool, clock := t.after.clock }]
  | _, _ => []

/-- Where an operation of a script, or a handler, has come to its end. -/
def Effect.isMark : Effect α → Bool
  | .answered _ => true
  | .left => true
  | _ => false

/-! ## Walks -/

/-- The machine that has walked the operations `done` from `m`. Which operation comes next, and who
issues it, is open. The proposition `dry` says that a handler may miss its event, fuel having run out. -/
inductive Machine.Walks (dry : Prop) (m : Machine α) : List (Request α) → Machine α → Prop
  | start : Walks dry m [] m
  | operation {done : List (Request α)} {m' m'' : Machine α} (r : Request α)
      (before : Walks dry m done m') (state : m''.state = m'.state.apply r)
      (trace : m''.trace.toList = m'.trace.toList ++
        (Step.tells { before := m'.state, request := r } ++
          Step.calls { before := m'.state, request := r })) :
      Walks dry m (done ++ [r]) m''
  | unheard {done : List (Request α)} {m' m'' : Machine α} (r : Request α) (missed : dry)
      (before : Walks dry m done m') (state : m''.state = m'.state.apply r)
      (trace : m''.trace.toList = m'.trace.toList ++
        Step.tells { before := m'.state, request := r }) :
      Walks dry m (done ++ [r]) m''
  | mark {done : List (Request α)} {m' m'' : Machine α} (e : Effect α) (marks : e.isMark = true)
      (before : Walks dry m done m') (state : m''.state = m'.state)
      (trace : m''.trace.toList = m'.trace.toList ++ [e]) :
      Walks dry m done m''

namespace Machine.Walks

variable {dry dry' : Prop} {m m' m'' : Machine α} {done done' : List (Request α)} {r : Request α}

theorem mono (himp : dry → dry') (h : m.Walks dry done m') : m.Walks dry' done m' := by
  induction h with
  | start => exact .start
  | operation r _ hstate htrace ih => exact .operation r ih hstate htrace
  | unheard r hdry _ hstate htrace ih => exact .unheard r (himp hdry) ih hstate htrace
  | mark e hmark _ hstate htrace ih => exact .mark e hmark ih hstate htrace

theorem trans (h : m.Walks dry done m') (h' : m'.Walks dry done' m'') :
    m.Walks dry (done ++ done') m'' := by
  induction h' with
  | start => simpa using h
  | operation r _ hstate htrace ih =>
      rw [← List.append_assoc]
      exact .operation r ih hstate htrace
  | unheard r hdry _ hstate htrace ih =>
      rw [← List.append_assoc]
      exact .unheard r hdry ih hstate htrace
  | mark e hmark _ hstate htrace ih => exact .mark e hmark ih hstate htrace

theorem state_eq (h : m.Walks dry done m') : m'.state = m.state.applyAll done := by
  induction h with
  | start => rfl
  | operation r _ hstate _ ih => rw [hstate, ih, State.applyAll_append]; rfl
  | unheard r _ _ hstate _ ih => rw [hstate, ih, State.applyAll_append]; rfl
  | mark e _ _ hstate _ ih => rw [hstate, ih]

/-- One operation of which no handler hears. -/
theorem of_quiet (hcalls : Step.calls { before := m.state, request := r } = [])
    (hstate : m'.state = m.state.apply r)
    (htrace : m'.trace.toList = m.trace.toList ++ Step.tells { before := m.state, request := r }) :
    m.Walks dry [r] m' :=
  .operation r .start hstate (by rw [hcalls, List.append_nil, htrace])

end Machine.Walks

theorem Step.calls_of_no_notice {t : Step α} (h : t.notice? = none) : t.calls = [] := by
  simp [calls, h]

theorem Step.calls_of_no_handler {t : Step α} (h : t.after.pool.handler = none) : t.calls = [] := by
  unfold calls
  split
  case h_1 n handler _ hhandler =>
    rw [h] at hhandler
    cases hhandler
  case h_2 => rfl

/-! ## One operation -/

namespace Run

/-- What registering answers and leaves behind. -/
theorem add_spec (options : ServerOptions) (data : α) (m : Machine α) :
    ∃ m', add options data m = .ok (match options.check with
        | .error why => .error (.invalidOptions why)
        | .ok () => .ok (m.pool.register options data).1) m' ∧
      m'.state = { m.state with pool := match options.check with
        | .error _ => m.pool
        | .ok () => (m.pool.register options data).2 } ∧
      m'.trace.toList = m.trace.toList ++ match options.check with
        | .error _ => []
        | .ok () => registration options (m.pool.register options data).1
            (m.pool.register options data).2.primaryOnline := by
  cases hcheck : options.check with
  | error why => exact ⟨m, by simp [add, hcheck], rfl, by simp⟩
  | ok _ =>
      cases htracked : (m.pool.register options data).1.tracked <;>
        simp [add, hcheck, htracked, log, metric, Machine.state, registration]

/-- The answer to a request that came to `choice`. -/
def served (choice : Option (Pool.Choice α)) : Except PoolError (Server α) :=
  match choice with
  | some c => .ok c.pick.server
  | none => .error .noAvailableServer

/-- What a request answers and leaves behind. -/
theorem next_spec (m : Machine α) :
    ∃ m', next m = .ok (served (m.pool.next m.clock).1) m' ∧
      m'.state = { m.state with pool := (m.pool.next m.clock).2 } ∧
      m'.trace.toList = m.trace.toList ++
        selection (m.pool.next m.clock).1 (m.pool.next m.clock).2.primaryOnline := by
  rcases hnext : m.pool.next m.clock with ⟨_ | choice, p⟩
  · have hp : m.pool = p := by
      have hsame := Pool.next_snd_of_none (congrArg Prod.fst hnext)
      rw [hnext] at hsame
      exact hsame.symm
    simpa [next, hnext, served, log, metric, Machine.state, selection] using hp
  · cases hprobe : choice.pick.probe <;> by_cases hsource : choice.source = .backup <;>
      simp [next, hnext, served, hprobe, hsource, log, metric, Machine.state, selection]

/-- The machine after an outcome that changed the availability of `id` and left the pool `p`. -/
def announce (event : Event) (id : ServerId) (error : Option String) (line : LogLine) (p : Pool α)
    (m : Machine α) : Machine α :=
  { m with
    pool := p
    trace := ((((m.trace.push (.changed event id error)).push (.log line)).push
      (.metric (.transition event))).push (.metric (.serverUp id (event = .up)))).push
      (.metric (.primaryOnline p.primaryOnline)) }

theorem announce_trace (event : Event) (id : ServerId) (error : Option String) (line : LogLine)
    (p : Pool α) (m : Machine α) :
    (announce event id error line p m).trace.toList =
      m.trace.toList ++ announcement event id error line p.primaryOnline := by
  simp [announce, announcement]

theorem reportSuccess_apply (notify : Notice α → Run α Unit) (id : ServerId) (m : Machine α) :
    reportSuccess notify id m = match m.pool.reportSuccess id with
      | (none, p) => .ok () { m with pool := p }
      | (some server, p) => notify { event := .up, server, error := none }
          (announce .up id none (.markedUp id p.primaryOnline) p m) := by
  rcases hback : m.pool.reportSuccess id with ⟨_ | server, p⟩ <;>
    simp [reportSuccess, hback, log, metric, announce]

theorem reportFailure_apply (notify : Notice α → Run α Unit) (id : ServerId) (error : Option String)
    (m : Machine α) :
    reportFailure notify id error m = match m.pool.reportFailure m.clock id with
      | (none, p) => .ok () { m with pool := p }
      | (some server, p) => notify { event := .down, server, error }
          (announce .down id error (.markedDown id p.primaryOnline error) p m) := by
  rcases hlost : m.pool.reportFailure m.clock id with ⟨_ | server, p⟩ <;>
    simp [reportFailure, hlost, log, metric, announce]

/-- The computation `x` walks what `u` lists, and halts if `u` does. Handlers miss events only if fuel
runs out. -/
def Unrolls (x : Run α β) (m : Machine α) (u : State.Unrolled α) : Prop :=
  match x m with
  | .ok _ m' => u.halted = false ∧ m.Walks False u.done m'
  | .error why m' => u.halted = true ∧ m.Walks (why = .outOfFuel) u.done m'

theorem unrolls_of_ok {x : Run α β} {m : Machine α} {u : State.Unrolled α} {b : β} (m' : Machine α)
    (hx : x m = .ok b m') (hu : u.halted = false) (hwalks : m.Walks False u.done m') :
    x.Unrolls m u := by
  unfold Unrolls
  rw [hx]
  exact ⟨hu, hwalks⟩

theorem unrolls_of_error {x : Run α β} {m : Machine α} {u : State.Unrolled α} {why : Halt}
    (m' : Machine α) (hx : x m = .error why m') (hu : u.halted = true)
    (hwalks : m.Walks (why = .outOfFuel) u.done m') : x.Unrolls m u := by
  unfold Unrolls
  rw [hx]
  exact ⟨hu, hwalks⟩

end Run

/-- Whether the operation goes through a pool handle. -/
def Op.needsHandle : Op α → Bool
  | .add _ _ => true
  | .next => true
  | .count => true
  | .install _ _ _ => true
  | .clear => true
  | _ => false

/-- An operation through a handle that has been dropped is answered, and nothing else happens. -/
theorem perform_of_lost {caller : Caller} {op : Op α} (hop : op.needsHandle = true)
    (hhandle : caller.handle.isNone = true) (notify : Notice α → Run α Unit) (m : Machine α) :
    (perform notify caller op).Unrolls m
      { done := [{ caller, op }], halted := m.state.halts { caller, op } } := by
  cases op with
  | add options data =>
      refine Run.unrolls_of_ok m (by simp [perform, hhandle]; rfl) rfl (.of_quiet rfl ?_ ?_)
      · simp [State.apply, State.through, hhandle]
      · simp [Step.tells, hhandle]
  | next =>
      refine Run.unrolls_of_ok m (by simp [perform, hhandle]; rfl) rfl (.of_quiet rfl ?_ ?_)
      · simp [State.apply, State.through, hhandle]
      · simp [Step.tells, hhandle]
  | count =>
      exact Run.unrolls_of_ok m (by simp [perform, hhandle]; rfl) rfl
        (.of_quiet rfl rfl (by simp [Step.tells]))
  | install label only script =>
      refine Run.unrolls_of_ok m (by simp [perform, hhandle]; rfl) rfl (.of_quiet rfl ?_ ?_)
      · simp [State.apply, State.through, hhandle]
      · simp [Step.tells]
  | clear =>
      refine Run.unrolls_of_ok m (by simp [perform, hhandle]; rfl) rfl (.of_quiet rfl ?_ ?_)
      · simp [State.apply, State.through, hhandle]
      · simp [Step.tells]
  | _ => cases hop

open Run in
/-- An operation of which no handler hears. -/
theorem perform_of_quiet {m : Machine α} {r : Request α} (hr : m.state.notice? r = none)
    (notify : Notice α → Run α Unit) :
    (perform notify r.caller r.op).Unrolls m { done := [r], halted := m.state.halts r } := by
  have hcalls : Step.calls { before := m.state, request := r } = [] := Step.calls_of_no_notice hr
  rcases r with ⟨caller, op⟩
  by_cases hlost : op.needsHandle = true ∧ caller.handle.isNone = true
  case pos => exact perform_of_lost hlost.1 hlost.2 notify m
  -- From here on the operation has the handle that it needs.
  have hhandle : op.needsHandle = true → caller.handle.isNone = false := by
    intro hop
    cases hnone : caller.handle.isNone with
    | true => exact absurd ⟨hop, hnone⟩ hlost
    | false => rfl
  cases op with
  | add options data =>
      rcases add_spec options data m with ⟨m', hx, hstate, htrace⟩
      refine unrolls_of_ok m' (by simp [perform, hhandle rfl, hx]; rfl) rfl (.of_quiet hcalls ?_ ?_)
      · rw [hstate]
        cases hcheck : options.check <;>
          simp [State.apply, State.through, hhandle rfl, hcheck, Machine.state]
      · rw [htrace]
        cases hcheck : options.check <;> simp [Step.tells, hhandle rfl, hcheck, Machine.state]
  | next =>
      rcases next_spec m with ⟨m', hx, hstate, htrace⟩
      refine unrolls_of_ok m' (by simp [perform, hhandle rfl, hx]; rfl) rfl (.of_quiet hcalls ?_ ?_)
      · rw [hstate]
        simp [State.apply, State.through, hhandle rfl, Machine.state]
      · rw [htrace]
        simp [Step.tells, hhandle rfl, Machine.state]
  | reportSuccess target =>
      cases hid : caller.resolve target with
      | none =>
          refine unrolls_of_ok m (by simp [perform, hid]; rfl) rfl (.of_quiet hcalls ?_ ?_)
          · simp [State.apply, hid]
          · simp [Step.tells, hid]
      | some id =>
          rcases hback : m.pool.reportSuccess id with ⟨_ | server, p⟩
          · refine unrolls_of_ok { m with pool := p }
              (by simp [perform, hid, reportSuccess_apply, hback]; rfl) rfl (.of_quiet hcalls ?_ ?_)
            · simp [State.apply, hid, Machine.state, hback]
            · simp [Step.tells, hid, Machine.state, hback]
          · -- The server is back, and that would have been announced.
            simp [State.notice?, hid, Machine.state, hback] at hr
  | reportFailure target error =>
      cases hid : caller.resolve target with
      | none =>
          refine unrolls_of_ok m (by simp [perform, hid]; rfl) rfl (.of_quiet hcalls ?_ ?_)
          · simp [State.apply, hid]
          · simp [Step.tells, hid]
      | some id =>
          rcases hdown : m.pool.reportFailure m.clock id with ⟨_ | server, p⟩
          · refine unrolls_of_ok { m with pool := p }
              (by simp [perform, hid, reportFailure_apply, hdown]; rfl) rfl (.of_quiet hcalls ?_ ?_)
            · simp [State.apply, hid, Machine.state, hdown]
            · simp [Step.tells, hid, Machine.state, hdown]
          · -- The server is down, and that would have been announced.
            simp [State.notice?, hid, Machine.state, hdown] at hr
  | count =>
      exact unrolls_of_ok m (by simp [perform, hhandle rfl]; rfl) rfl
        (.of_quiet hcalls rfl (by simp [Step.tells]))
  | install label only script =>
      let handler : Handler α := { label, only, script, holder := caller.handle }
      refine unrolls_of_ok { m with pool := { m.pool with handler := some handler } }
        (by simp [perform, hhandle rfl, handler]; rfl) rfl (.of_quiet hcalls ?_ ?_)
      · simp [State.apply, State.through, hhandle rfl, Machine.state, handler]
      · simp [Step.tells]
  | clear =>
      refine unrolls_of_ok { m with pool := { m.pool with handler := none } }
        (by simp [perform, hhandle rfl]; rfl) rfl (.of_quiet hcalls ?_ ?_)
      · simp [State.apply, State.through, hhandle rfl, Machine.state]
      · simp [Step.tells]
  | advance span =>
      cases hclock : m.clock.add? span with
      | none =>
          refine unrolls_of_error m (by simp [perform, Run.advance, hclock]; rfl) ?_
            (.of_quiet hcalls ?_ ?_)
          · simp [State.halts, Machine.state, hclock]
          · simp [State.apply, Machine.state, hclock]
          · simp [Step.tells]
      | some clock =>
          refine unrolls_of_ok { m with clock } (by simp [perform, Run.advance, hclock]; rfl) ?_
            (.of_quiet hcalls ?_ ?_)
          · simp [State.halts, Machine.state, hclock]
          · simp [State.apply, Machine.state, hclock]
          · simp [Step.tells]
  | setClock target =>
      exact unrolls_of_ok { m with clock := if m.clock < target then target else m.clock }
        (by simp [perform, Run.setClock]; rfl) rfl (.of_quiet hcalls rfl (by simp [Step.tells]))
  | panic =>
      exact unrolls_of_error m (by simp [perform]; rfl) rfl
        (.of_quiet hcalls rfl (by simp [Step.tells]))

open Run in
/-- An operation that brings about a change of availability hands that on at its end. -/
theorem perform_of_notice {m : Machine α} {r : Request α} {n : Notice α}
    (hr : m.state.notice? r = some n) :
    ∃ m', m'.state = m.state.apply r ∧
      m'.trace.toList = m.trace.toList ++ Step.tells { before := m.state, request := r } ∧
      ∀ notify : Notice α → Run α Unit,
        perform notify r.caller r.op m = (notify n >>= fun _ => pure .done) m' := by
  rcases r with ⟨caller, op⟩
  cases op with
  | reportSuccess target =>
      cases hid : caller.resolve target with
      | none => simp [State.notice?, hid] at hr
      | some id =>
          rcases hback : m.pool.reportSuccess id with ⟨_ | server, p⟩
          · simp [State.notice?, hid, Machine.state, hback] at hr
          · have hn : n = { event := .up, server, error := none } := by
              simpa [State.notice?, hid, Machine.state, hback] using hr.symm
            subst hn
            refine ⟨announce .up id none (.markedUp id p.primaryOnline) p m, ?_, ?_, fun notify => ?_⟩
            · simp [State.apply, hid, Machine.state, hback, announce]
            · simp [Step.tells, hid, Machine.state, hback, announce_trace]
            · simp [perform, hid, reportSuccess_apply, hback]
  | reportFailure target error =>
      cases hid : caller.resolve target with
      | none => simp [State.notice?, hid] at hr
      | some id =>
          rcases hdown : m.pool.reportFailure m.clock id with ⟨_ | server, p⟩
          · simp [State.notice?, hid, Machine.state, hdown] at hr
          · have hn : n = { event := .down, server, error } := by
              simpa [State.notice?, hid, Machine.state, hdown] using hr.symm
            subst hn
            refine ⟨announce .down id error (.markedDown id p.primaryOnline error) p m, ?_, ?_,
              fun notify => ?_⟩
            · simp [State.apply, hid, Machine.state, hdown, announce]
            · simp [Step.tells, hid, Machine.state, hdown, announce_trace]
            · simp [perform, hid, reportFailure_apply, hdown]
  | _ => simp [State.notice?] at hr

/-! ## Scripts and handlers -/

section Nested

variable {notify : Notice α → Run α Unit} {unroll : State α → Request α → State.Unrolled α}

/-- If every operation walks its unrolling, so does every script. -/
theorem runScript_unrolls
    (hop : ∀ (m : Machine α) (r : Request α),
      (perform notify r.caller r.op).Unrolls m (unroll m.state r))
    (caller : Caller) (script : List (Op α)) (m : Machine α) :
    (runScript notify caller script).Unrolls m (State.unrollScript unroll caller script m.state) := by
  -- Each operation starts where the one before it stopped, so `m` is not fixed.
  induction script generalizing m with
  | nil => exact Run.unrolls_of_ok m (by simp [runScript]; rfl) rfl .start
  | cons op rest ih =>
      have hfirst := hop m { caller, op }
      cases hx : perform notify caller op m with
      | error why m' =>
          simp only [Run.Unrolls, hx] at hfirst
          refine Run.unrolls_of_error m' (by simp [runScript, hx]; rfl) ?_ ?_
          · simp [State.unrollScript, hfirst.1]
          · simpa [State.unrollScript, hfirst.1] using hfirst.2
      | ok answer m' =>
          simp only [Run.Unrolls, hx] at hfirst
          obtain ⟨hhalted, hwalks⟩ := hfirst
          -- Between two operations the answer of the first goes into the trace.
          let m₁ : Machine α := { m' with trace := m'.trace.push (.answered answer) }
          have hanswered : m.Walks False (unroll m.state { caller, op }).done m₁ :=
            .mark (.answered answer) rfl hwalks rfl (by simp [m₁])
          have hstate : m₁.state = m.state.applyAll (unroll m.state { caller, op }).done :=
            hanswered.state_eq
          have hrest := ih m₁
          rw [hstate] at hrest
          cases hy : runScript notify caller rest m₁ with
          | ok _ m'' =>
              simp only [Run.Unrolls, hy] at hrest
              refine Run.unrolls_of_ok m'' (by simp [runScript, hx, m₁] at hy ⊢; exact hy) ?_ ?_
              · simp [State.unrollScript, hhalted, hrest.1]
              · simpa [State.unrollScript, hhalted] using hanswered.trans hrest.2
          | error why m'' =>
              simp only [Run.Unrolls, hy] at hrest
              refine Run.unrolls_of_error m'' (by simp [runScript, hx, m₁] at hy ⊢; exact hy) ?_ ?_
              · simp [State.unrollScript, hhalted, hrest.1]
              · simpa [State.unrollScript, hhalted] using (hanswered.mono False.elim).trans hrest.2

end Nested

namespace Machine

def enter (handler : Handler α) (n : Notice α) (m : Machine α) : Machine α :=
  let call : Call α :=
    { handler, event := n.event, server := n.server, error := n.error, pool := m.pool,
      clock := m.clock }
  { m with trace := m.trace.push (.entered call) }

def leave (m : Machine α) : Machine α := { m with trace := m.trace.push .left }

theorem Walks.leave {dry : Prop} {m m' : Machine α} {done : List (Request α)}
    (h : m.Walks dry done m') : m.Walks dry done m'.leave :=
  .mark .left rfl h rfl (by simp [Machine.leave])

/-- Once an operation is through, the handler that is installed then is entered. -/
theorem walks_enter {dry : Prop} {m m' : Machine α} {r : Request α} {n : Notice α}
    {handler : Handler α} (hr : m.state.notice? r = some n)
    (hhandler : (m.state.apply r).pool.handler = some handler) (hstate : m'.state = m.state.apply r)
    (htrace : m'.trace.toList = m.trace.toList ++ Step.tells { before := m.state, request := r }) :
    m.Walks dry [r] (m'.enter handler n) := by
  refine .operation r .start hstate ?_
  have hpool : m'.pool = (m.state.apply r).pool := congrArg State.pool hstate
  have hclock : m'.clock = (m.state.apply r).clock := congrArg State.clock hstate
  simp [Machine.enter, htrace, Step.calls, Step.notice?, Step.after, hr, hhandler, hpool, hclock]

end Machine

theorem notify_of_no_handler {m : Machine α} (hm : m.pool.handler = none) (fuel : Nat)
    (n : Notice α) : notify fuel n m = .ok () m := by
  cases fuel <;> simp [notify, hm]

theorem notify_zero {m : Machine α} {handler : Handler α} (hm : m.pool.handler = some handler)
    (n : Notice α) : notify 0 n m = .error .outOfFuel m := by
  simp [notify, hm]

theorem notify_succ {m : Machine α} {handler : Handler α} (hm : m.pool.handler = some handler)
    (fuel : Nat) (n : Notice α) :
    notify (fuel + 1) n m =
      if handler.reactsTo n.event then
        match runScript (notify fuel) { handle := handler.holder, subject := some n.server.id }
            handler.script (m.enter handler n) with
        | .ok _ m' => .ok () m'.leave
        | .error why m' => .error why m'
      else .ok () (m.enter handler n).leave := by
  cases hreacts : handler.reactsTo n.event with
  | false => simp [notify, hm, hreacts, Machine.enter, Machine.leave]
  | true =>
      simp only [notify, Run.bind_apply, Run.get_apply, hm, Run.emit_apply, hreacts, if_true,
        Machine.enter]
      generalize runScript (notify fuel) _ handler.script _ = result
      cases result <;> rfl

/-- Unless a handler hears of it, an operation walks its unrolling at any fuel. -/
theorem perform_unroll_of_unheard (fuel : Nat) {m : Machine α} {r : Request α}
    (hunheard : ∀ n handler, m.state.notice? r = some n →
      (m.state.apply r).pool.handler ≠ some handler) :
    (perform (notify fuel) r.caller r.op).Unrolls m (m.state.unroll fuel r) := by
  cases hr : m.state.notice? r with
  | none =>
      rw [State.unroll_of_quiet hr]
      exact perform_of_quiet hr _
  | some n =>
      rcases perform_of_notice hr with ⟨m', hstate, htrace, hperform⟩
      have hnone : (m.state.apply r).pool.handler = none :=
        Option.eq_none_iff_forall_ne_some.2 fun handler => hunheard n handler hr
      have hhandler : m'.pool.handler = none := by
        have hpool : m'.pool = (m.state.apply r).pool := congrArg State.pool hstate
        rw [hpool, hnone]
      rw [State.unroll_of_no_handler hr hnone]
      exact Run.unrolls_of_ok m'
        (by simp [hperform, notify_of_no_handler hhandler]; rfl) rfl
        (.of_quiet (Step.calls_of_no_handler hnone) hstate htrace)

/-- If operations walk their unrolling at some fuel, then one that a handler hears of does so at one
more. -/
theorem perform_unroll_of_heard {fuel : Nat}
    (hop : ∀ (m : Machine α) (r : Request α),
      (perform (notify fuel) r.caller r.op).Unrolls m (m.state.unroll fuel r))
    {m : Machine α} {r : Request α} {n : Notice α} {handler : Handler α}
    (hr : m.state.notice? r = some n) (hhandler : (m.state.apply r).pool.handler = some handler) :
    (perform (notify (fuel + 1)) r.caller r.op).Unrolls m (m.state.unroll (fuel + 1) r) := by
  rcases perform_of_notice hr with ⟨m', hstate, htrace, hperform⟩
  have hhandler' : m'.pool.handler = some handler := by
    have hpool : m'.pool = (m.state.apply r).pool := congrArg State.pool hstate
    rw [hpool, hhandler]
  have hentered : ∀ dry, m.Walks dry [r] (m'.enter handler n) :=
    fun _ => Machine.walks_enter hr hhandler hstate htrace
  cases hreacts : handler.reactsTo n.event with
  | false =>
      have hunroll : m.state.unroll (fuel + 1) r = { done := [r], halted := false } := by
        simp [State.unroll_succ hr hhandler, hreacts]
      rw [hunroll]
      exact Run.unrolls_of_ok (m'.enter handler n).leave
        (by simp [hperform, notify_succ hhandler', hreacts]; rfl) rfl (hentered _).leave
  | true =>
      -- The script starts in the state that the operation has left, and runs at the lower fuel.
      let caller : Caller := { handle := handler.holder, subject := some n.server.id }
      have hscript := runScript_unrolls hop caller handler.script (m'.enter handler n)
      have hstate' : (m'.enter handler n).state = m.state.apply r := hstate
      have hunroll : m.state.unroll (fuel + 1) r =
          let u := State.unrollScript (State.unroll fuel) caller handler.script (m.state.apply r)
          { u with done := r :: u.done } := by
        simp [State.unroll_succ hr hhandler, hreacts, caller]
      rw [hunroll]
      rw [hstate'] at hscript
      cases hx : runScript (notify fuel) caller handler.script (m'.enter handler n) with
      | ok _ m'' =>
          have hrun : perform (notify (fuel + 1)) r.caller r.op m = .ok .done m''.leave := by
            simp only [hperform, Run.bind_apply, notify_succ hhandler', hreacts, if_true, caller, hx]
            rfl
          simp only [Run.Unrolls, hx] at hscript
          exact Run.unrolls_of_ok m''.leave hrun hscript.1 ((hentered _).trans hscript.2).leave
      | error why m'' =>
          have hrun : perform (notify (fuel + 1)) r.caller r.op m = .error why m'' := by
            simp only [hperform, Run.bind_apply, notify_succ hhandler', hreacts, if_true, caller, hx]
          simp only [Run.Unrolls, hx] at hscript
          exact Run.unrolls_of_error m'' hrun hscript.1 ((hentered _).trans hscript.2)

/-- A machine that performs an operation walks the unrolling of that operation, and halts if the
unrolling does. -/
theorem perform_unroll (fuel : Nat) (m : Machine α) (r : Request α) :
    (perform (notify fuel) r.caller r.op).Unrolls m (m.state.unroll fuel r) := by
  -- A handler runs at less fuel than the operation that it hears of.
  induction fuel generalizing m r with
  | zero =>
      by_cases hheard : ∃ n handler, m.state.notice? r = some n ∧
          (m.state.apply r).pool.handler = some handler
      case neg =>
        exact perform_unroll_of_unheard 0 fun n handler hn hh => hheard ⟨n, handler, hn, hh⟩
      case pos =>
        rcases hheard with ⟨n, handler, hr, hhandler⟩
        rcases perform_of_notice hr with ⟨m', hstate, htrace, hperform⟩
        have hpool : m'.pool = (m.state.apply r).pool := congrArg State.pool hstate
        -- A handler would hear of it, but there is no fuel left to run it.
        rw [State.unroll_zero hr hhandler]
        rw [← hpool] at hhandler
        exact Run.unrolls_of_error m'
          (by simp [hperform, notify_zero hhandler]) rfl (.unheard r rfl .start hstate htrace)
  | succ fuel ih =>
      by_cases hheard : ∃ n handler, m.state.notice? r = some n ∧
          (m.state.apply r).pool.handler = some handler
      case neg =>
        exact perform_unroll_of_unheard (fuel + 1) fun n handler hn hh =>
          hheard ⟨n, handler, hn, hh⟩
      case pos =>
        rcases hheard with ⟨n, handler, hr, hhandler⟩
        exact perform_unroll_of_heard ih hr hhandler

/-! ## A client's run -/

namespace Machine

/-- The requests of clients in order. A halt ends its own request only. -/
def serve (fuel : Nat) : List (Request α) → Machine α → Machine α
  | [], m => m
  | r :: rest, m => serve fuel rest (m.step fuel r.caller r.op).2

/-- Whether all requests come to an end with the fuel: they may panic, but none runs dry. -/
def finishes (fuel : Nat) : List (Request α) → Machine α → Bool
  | [], _ => true
  | r :: rest, m =>
      match (m.step fuel r.caller r.op).1 with
      | .error .outOfFuel => false
      | _ => finishes fuel rest (m.step fuel r.caller r.op).2

theorem steps_serve (fuel : Nat) (caller : Caller) (ops : List (Op α)) (m : Machine α) :
    (m.steps fuel caller ops).2 = m.serve fuel (ops.map fun op => { caller, op }) := by
  induction ops generalizing m with
  | nil => rfl
  | cons op rest ih => simpa [steps, serve] using ih (m.step fuel caller op).2

theorem walks_step (fuel : Nat) (m : Machine α) (r : Request α) :
    m.Walks ((m.step fuel r.caller r.op).1 = .error .outOfFuel) (m.state.unroll fuel r).done
      (m.step fuel r.caller r.op).2 := by
  have hunroll := perform_unroll fuel m r
  unfold Run.Unrolls at hunroll
  unfold step exec
  cases hx : perform (notify fuel) r.caller r.op m with
  | ok answer m' =>
      rw [hx] at hunroll
      exact hunroll.2.mono False.elim
  | error why m' =>
      rw [hx] at hunroll
      exact hunroll.2.mono fun hwhy => by rw [hwhy]

/-- A run walks its unrolling; handlers miss events only if the run does not finish. -/
theorem walks_serve (fuel : Nat) (requests : List (Request α)) (m : Machine α) :
    m.Walks (m.finishes fuel requests = false) (State.unrollAll fuel requests m.state)
      (m.serve fuel requests) := by
  induction requests generalizing m with
  | nil => exact .start
  | cons r rest ih =>
      have hfirst := walks_step fuel m r
      have hrest := ih (m.step fuel r.caller r.op).2
      rw [hfirst.state_eq] at hrest
      refine (hfirst.mono ?_).trans (hrest.mono ?_)
      · intro hdry
        simp [finishes, hdry]
      · intro hdry
        unfold finishes
        split
        · rfl
        · exact hdry

end Machine

/-! ## Reading the trace of a walk -/

/-- An element of two lists in a row is in one of them. -/
theorem append_cons_cases {l l' before after : List β} {x : β} (h : l ++ l' = before ++ x :: after) :
    (∃ after', l = before ++ x :: after') ∨
      ∃ before', before = l ++ before' ∧ l' = before' ++ x :: after := by
  rcases List.append_eq_append_iff.1 h with ⟨c, hbefore, hl'⟩ | ⟨c, hl, hafter⟩
  · exact .inr ⟨c, hbefore, hl'⟩
  · cases c with
    | nil => exact .inr ⟨[], by simpa using hl.symm, by simpa using hafter.symm⟩
    | cons y c =>
        rw [List.cons_append, List.cons.injEq] at hafter
        exact .inl ⟨c, by rw [hl, hafter.1]⟩

/-- Where one operation stops and another may follow: a handler is entered, or there is a mark. -/
def Effect.isPause : Effect α → Bool
  | .entered _ => true
  | e => e.isMark

theorem Step.notMem_tells_of_pause (t : Step α) {e : Effect α} (he : e.isPause = true) :
    e ∉ t.tells := by
  unfold tells registration selection announcement
  intro h
  cases e with
  | entered _ | answered _ | left =>
      repeat' split at h
      all_goals simp at h
  | log _ | metric _ | changed _ _ _ => cases he

/-- An operation enters one handler at most, and that in the state which it has left. -/
theorem Step.calls_cases (t : Step α) :
    t.calls = [] ∨ ∃ call, t.calls = [.entered call] ∧
      t.after = { pool := call.pool, clock := call.clock } := by
  unfold calls
  split
  · exact .inr ⟨_, rfl, rfl⟩
  · exact .inl rfl

namespace Machine.Walks

variable {dry : Prop} {m m' : Machine α} {done : List (Request α)}

/-- What is read of the trace of a walk, if neither handler calls nor marks are. -/
theorem told {f : Effect α → Option β} (hpause : ∀ e, e.isPause = true → f e = none)
    (h : m.Walks dry done m') :
    m'.trace.toList.filterMap f =
      m.trace.toList.filterMap f ++ (m.state.trail done).flatMap fun t => t.tells.filterMap f := by
  -- Calls are not read, so it makes no difference whether a handler has missed its event.
  have hcalls (t : Step α) : t.calls.filterMap f = [] := by
    rcases t.calls_cases with hnone | ⟨call, hcall, _⟩
    · rw [hnone, List.filterMap_nil]
    · simp [hcall, hpause (.entered call) rfl]
  induction h with
  | start => simp
  | operation r hbefore _ htrace ih =>
      rw [htrace, State.trail_append, hbefore.state_eq]
      simp [ih, hcalls]
  | unheard r _ hbefore _ htrace ih =>
      rw [htrace, State.trail_append, hbefore.state_eq]
      simp [ih]
  | mark e he _ _ htrace ih =>
      have hnone : f e = none := hpause e (by cases e <;> first | rfl | cases he)
      rw [htrace]
      simp [ih, hnone]

/-- What is read of the trace of a walk on which no handler missed an event, if marks are not. -/
theorem heard {f : Effect α → Option β} (hmark : ∀ e, e.isMark = true → f e = none)
    (h : m.Walks False done m') :
    m'.trace.toList.filterMap f = m.trace.toList.filterMap f ++
      (m.state.trail done).flatMap fun t => (t.tells ++ t.calls).filterMap f := by
  induction h with
  | start => simp
  | operation r hbefore _ htrace ih =>
      rw [htrace, State.trail_append, hbefore.state_eq]
      simp [ih]
  | unheard r hfalse => exact hfalse.elim
  | mark e he _ _ htrace ih =>
      rw [htrace]
      simp [ih, hmark e he]

/-- At a pause the machine has walked the first of its operations, and nothing else has been told. A
handler is entered in the state that these have left. -/
theorem of_pause (h : m.Walks dry done m') {e : Effect α} (he : e.isPause = true)
    {earlier later : List (Effect α)}
    (htrace : m'.trace.toList = m.trace.toList ++ earlier ++ e :: later) :
    ∃ done₀, done₀ <+: done ∧
      (∀ call, e = .entered call →
        m.state.applyAll done₀ = { pool := call.pool, clock := call.clock }) ∧
      ∀ f : Effect α → Option β, (∀ e, e.isPause = true → f e = none) →
        (m.trace.toList ++ earlier).filterMap f = m.trace.toList.filterMap f ++
          (m.state.trail done₀).flatMap fun t => t.tells.filterMap f := by
  -- The pause is in the trace from before the last step of the walk, or is what that step has added.
  induction h generalizing later with
  | start => simp at htrace
  | @operation done m₀ _ r hbefore _ hsteps ih =>
      rw [hsteps] at htrace
      rcases append_cons_cases htrace with ⟨later', hold⟩ | ⟨rest, hearlier, hnew⟩
      · obtain ⟨done₀, hpre, hrest⟩ := ih hold
        exact ⟨done₀, hpre.trans (List.prefix_append _ _), hrest⟩
      · rcases append_cons_cases hnew with ⟨later', htells⟩ | ⟨rest', hrest, hcalls⟩
        · exact absurd (htells ▸ List.mem_append_cons_self) (Step.notMem_tells_of_pause _ he)
        · rcases Step.calls_cases { before := m₀.state, request := r } with hnone | ⟨call, hcall, hafter⟩
          · simp [hnone] at hcalls
          · -- The call is all that is left of the trace.
            obtain ⟨rfl, rfl⟩ : rest' = [] ∧ .entered call = e := by
              rw [hcall] at hcalls
              cases rest' with
              | nil => exact ⟨rfl, (List.cons.inj hcalls).1⟩
              | cons _ rest' => simp at hcalls
            refine ⟨done ++ [r], List.prefix_rfl, ?_, fun f hf => ?_⟩
            · intro call' hcall'
              cases hcall'
              rw [State.applyAll_append, ← hbefore.state_eq]
              exact hafter
            · rw [hearlier, hrest, List.append_nil, List.filterMap_append, hbefore.told hf,
                State.trail_append, ← hbefore.state_eq]
              simp
  | @unheard done m₀ _ r _ hbefore _ hsteps ih =>
      rw [hsteps] at htrace
      rcases append_cons_cases htrace with ⟨later', hold⟩ | ⟨rest, _, htells⟩
      · obtain ⟨done₀, hpre, hrest⟩ := ih hold
        exact ⟨done₀, hpre.trans (List.prefix_append _ _), hrest⟩
      · exact absurd (htells ▸ List.mem_append_cons_self) (Step.notMem_tells_of_pause _ he)
  | @mark done m₀ _ e' hmark hbefore _ hsteps ih =>
      rw [hsteps] at htrace
      rcases append_cons_cases htrace with ⟨later', hold⟩ | ⟨rest, hearlier, hnew⟩
      · exact ih hold
      · obtain ⟨rfl, rfl⟩ : rest = [] ∧ e' = e := by
          cases rest with
          | nil => exact ⟨rfl, (List.cons.inj hnew).1⟩
          | cons _ rest => simp at hnew
        refine ⟨done, List.prefix_rfl, ?_, fun f hf => ?_⟩
        · rintro call rfl
          cases hmark
        · rw [hearlier, List.append_nil, hbefore.told hf]

end Machine.Walks

/-! ### The states that a walk passes through -/

/-- The state in which an effect enters a handler. -/
def Effect.entry? : Effect α → Option (State α)
  | .entered call => some { pool := call.pool, clock := call.clock }
  | _ => none

/-- The states in which a machine has entered handlers. -/
def Machine.entries (m : Machine α) : List (State α) := m.trace.toList.filterMap Effect.entry?

/-- The machine `m'` is in the state of `m` after the operations `done`, between which it has entered
handlers. -/
structure Machine.Follows (m : Machine α) (done : List (Request α)) (m' : Machine α) : Prop where
  state : m'.state = m.state.applyAll done
  entries : ∃ entered, m'.entries = m.entries ++ entered ∧
    ∀ e ∈ entered, ∃ rs, rs <+: done ∧ e = m.state.applyAll rs

/-- A handler is entered in the state that the operation which calls it has left. -/
theorem Step.after_of_calls {t : Step α} {call : Call α} (h : .entered call ∈ t.calls) :
    t.after = { pool := call.pool, clock := call.clock } := by
  rcases t.calls_cases with hnone | ⟨call', hcall, hafter⟩
  · simp [hnone] at h
  · rw [hcall] at h
    cases List.mem_singleton.1 h
    exact hafter

theorem Step.entry?_of_mem {t : Step α} {s : State α}
    (h : s ∈ (t.tells ++ t.calls).filterMap Effect.entry?) : s = t.after := by
  obtain ⟨e, he, hentry⟩ := List.mem_filterMap.1 h
  cases e with
  | entered call =>
      cases hentry
      rcases List.mem_append.1 he with htells | hcalls
      · exact absurd htells (t.notMem_tells_of_pause rfl)
      · exact (after_of_calls hcalls).symm
  | _ => cases hentry

namespace Machine

variable {dry : Prop} {m m' : Machine α} {done : List (Request α)}

theorem Walks.follows (h : m.Walks dry done m') : m.Follows done m' := by
  refine ⟨h.state_eq, ?_⟩
  unfold entries
  induction h with
  | start => exact ⟨[], by simp⟩
  | @operation done m' _ r hbefore _ htrace ih =>
      rcases ih with ⟨entered, heq, hall⟩
      refine ⟨entered ++ (Step.tells { before := m'.state, request := r } ++
        Step.calls { before := m'.state, request := r }).filterMap Effect.entry?, ?_, ?_⟩
      · rw [htrace, List.filterMap_append, heq, List.append_assoc]
      · intro e he
        rcases List.mem_append.1 he with he | he
        · obtain ⟨rs, hrs, rfl⟩ := hall e he
          exact ⟨rs, hrs.trans (List.prefix_append _ _), rfl⟩
        · refine ⟨done ++ [r], List.prefix_rfl, ?_⟩
          rw [Step.entry?_of_mem he, Step.after, hbefore.state_eq, State.applyAll_append]
          rfl
  | @unheard done m' _ r _ _ _ htrace ih =>
      rcases ih with ⟨entered, heq, hall⟩
      have hnone : (Step.tells { before := m'.state, request := r }).filterMap Effect.entry? = [] := by
        refine List.filterMap_eq_nil_iff.2 fun e he => ?_
        cases e with
        | entered call => exact absurd he (Step.notMem_tells_of_pause _ rfl)
        | _ => rfl
      refine ⟨entered, by rw [htrace, List.filterMap_append, hnone, List.append_nil, heq], ?_⟩
      intro e he
      obtain ⟨rs, hrs, rfl⟩ := hall e he
      exact ⟨rs, hrs.trans (List.prefix_append _ _), rfl⟩
  | mark e he _ _ htrace ih =>
      have hnone : Effect.entry? e = none := by cases e <;> first | rfl | cases he
      rw [htrace, List.filterMap_append]
      simpa [hnone] using ih

theorem follows_serve (fuel : Nat) (requests : List (Request α)) (m : Machine α) :
    m.Follows (State.unrollAll fuel requests m.state) (m.serve fuel requests) :=
  (walks_serve fuel requests m).follows

/-- A run ends in one of the states that its unrolling passes through. -/
theorem serve_state (fuel : Nat) (requests : List (Request α)) (m : Machine α) :
    ∃ k, (m.serve fuel requests).state = m.state.after fuel requests k :=
  ⟨(State.unrollAll fuel requests m.state).length, by
    rw [(follows_serve fuel requests m).state, State.after, List.take_length]⟩

/-- A run enters handlers only in such states. -/
theorem serve_entries (fuel : Nat) (requests : List (Request α)) {m : Machine α}
    (hm : m.entries = []) {e : State α} (he : e ∈ (m.serve fuel requests).entries) :
    ∃ k, e = m.state.after fuel requests k := by
  obtain ⟨entered, heq, hall⟩ := (follows_serve fuel requests m).entries
  rw [heq, hm, List.nil_append] at he
  obtain ⟨rs, hrs, rfl⟩ := hall e he
  exact ⟨rs.length, by rw [State.after, ← List.prefix_iff_eq_take.1 hrs]⟩

end Machine

end TieredPool
