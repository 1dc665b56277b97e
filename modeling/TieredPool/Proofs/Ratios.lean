import TieredPool.Proofs.Replay
import TieredPool.Proofs.Scale

/-!
# Ratios — only the ratios of weights matter

Two pools that are handled alike, the servers of the second having `k` times the weights of those of the
first, go side by side through any run, within handlers too. They hand out the same servers, tell of the same
events and lose the same servers; the credits of the second are `k` times those of the first.

* `State.Scaled.unroll`, `State.Scaled.after`, `State.Scaled.course` — the operations of both runs, nested
  ones among them, and the states between them.
* `Run.Scales` — computations that keep two machines apart by the factor; `Run.Scales.bind` — in sequence.
* `perform_scales`, `notify_scales` — one operation of a machine, with all that it leads to.
* `ServerOptions.times` — options with `k` times the weight.
* `ratios_decide` — whole runs.
-/

namespace TieredPool

variable {α β γ : Type} {k : Nat}

/-! ## Unrolled runs -/

structure State.Unrolled.Scaled (k : Nat) (u u' : Unrolled α) : Prop where
  done : List.Forall₂ (Request.Scaled k) u.done u'.done
  halted : u'.halted = u.halted

structure Step.Scaled (k : Nat) (t t' : Step α) : Prop where
  before : t.before.Scaled k t'.before
  request : t.request.Scaled k t'.request

namespace State.Scaled

variable {s s' : State α} {r r' : Request α} {rs rs' : List (Request α)}

theorem applyAll (hk : 0 < k) (h : s.Scaled k s') (hrs : List.Forall₂ (Request.Scaled k) rs rs') :
    (s.applyAll rs).Scaled k (s'.applyAll rs') := by
  induction hrs generalizing s s' with
  | nil => exact h
  | cons hr _ ih => exact ih (h.apply hk hr)

theorem trail (hk : 0 < k) (h : s.Scaled k s') (hrs : List.Forall₂ (Request.Scaled k) rs rs') :
    List.Forall₂ (Step.Scaled k) (s.trail rs) (s'.trail rs') := by
  induction hrs generalizing s s' with
  | nil => exact .nil
  | cons hr _ ih => exact .cons ⟨h, hr⟩ (ih (h.apply hk hr))

/-- If operations unroll alike, so do scripts. -/
theorem unrollScript (hk : 0 < k) {unroll : State α → Request α → Unrolled α}
    (hop : ∀ {s s' : State α} {r r' : Request α}, s.Scaled k s' → r.Scaled k r' →
      (unroll s r).Scaled k (unroll s' r'))
    {script script' : List (Op α)} (hscript : List.Forall₂ (Op.Scaled k) script script')
    (h : s.Scaled k s') (caller : Caller) :
    (State.unrollScript unroll caller script s).Scaled k (State.unrollScript unroll caller script' s') := by
  induction hscript generalizing s s' with
  | nil => exact ⟨.nil, rfl⟩
  | @cons op op' rest rest' hfirst _ ih =>
      have hrequest : Request.Scaled k { caller, op } { caller, op := op' } := ⟨rfl, hfirst⟩
      have hu := hop h hrequest
      have hrest := ih (h.applyAll hk hu.done)
      simp only [State.unrollScript, hu.halted]
      split
      · exact hu
      · exact ⟨List.rel_append hu.done hrest.done, hrest.halted⟩

theorem unroll (hk : 0 < k) (fuel : Nat) (h : s.Scaled k s') (hr : r.Scaled k r') :
    (s.unroll fuel r).Scaled k (s'.unroll fuel r') := by
  -- A handler runs at less fuel than the operation that it hears of.
  induction fuel using Nat.strongRecOn generalizing s s' r r' with
  | ind fuel ih =>
  have hquiet : List.Forall₂ (Request.Scaled k) [r] [r'] := .cons hr .nil
  have hafter := h.apply hk hr
  have hnotice := h.notice? hr
  have hhandler := hafter.pool.handler
  generalize hn : s.notice? r = notice at hnotice
  generalize hn' : s'.notice? r' = notice' at hnotice
  cases hnotice with
  | none =>
      rw [unroll_of_quiet hn, unroll_of_quiet hn']
      exact ⟨hquiet, h.halts hr⟩
  | @some n n' hnn =>
      generalize hheard : (s.apply r).pool.handler = handler at hhandler
      generalize hheard' : (s'.apply r').pool.handler = handler' at hhandler
      cases hhandler with
      | none =>
          rw [unroll_of_no_handler hn hheard, unroll_of_no_handler hn' hheard']
          exact ⟨hquiet, rfl⟩
      | @some handler handler' hsame =>
          cases fuel with
          | zero =>
              rw [unroll_zero hn hheard, unroll_zero hn' hheard']
              exact ⟨hquiet, rfl⟩
          | succ fuel =>
              have hscript := unrollScript hk (ih fuel (Nat.lt_succ_self fuel)) hsame.script hafter
                { handle := handler.holder, subject := some n.server.id }
              rw [unroll_succ hn hheard, unroll_succ hn' hheard', hsame.reactsTo, hnn.event, hsame.holder,
                hnn.server.id]
              split
              · exact ⟨.cons hr hscript.done, hscript.halted⟩
              · exact ⟨hquiet, rfl⟩

theorem unrollAll (hk : 0 < k) (fuel : Nat) (h : s.Scaled k s')
    (hrs : List.Forall₂ (Request.Scaled k) rs rs') :
    List.Forall₂ (Request.Scaled k) (State.unrollAll fuel rs s) (State.unrollAll fuel rs' s') := by
  induction hrs generalizing s s' with
  | nil => exact .nil
  | cons hr _ ih =>
      have hdone := (h.unroll hk fuel hr).done
      exact List.rel_append hdone (ih (h.applyAll hk hdone))

/-- The operations of both runs, with the states that they find. -/
theorem course (hk : 0 < k) (fuel : Nat) (h : s.Scaled k s')
    (hrs : List.Forall₂ (Request.Scaled k) rs rs') :
    List.Forall₂ (Step.Scaled k) (s.course fuel rs) (s'.course fuel rs') :=
  h.trail hk (h.unrollAll hk fuel hrs)

/-- The states of both runs after as many operations. -/
theorem after (hk : 0 < k) (fuel : Nat) (h : s.Scaled k s')
    (hrs : List.Forall₂ (Request.Scaled k) rs rs') (j : Nat) :
    (s.after fuel rs j).Scaled k (s'.after fuel rs' j) :=
  h.applyAll hk (List.forall₂_take j (h.unrollAll hk fuel hrs))

end State.Scaled

/-! ## What is answered and told -/

structure Call.Scaled (k : Nat) (c c' : Call α) : Prop where
  handler : c.handler.Scaled k c'.handler
  event : c'.event = c.event
  server : c.server.Scaled k c'.server
  error : c'.error = c.error
  pool : c.pool.Scaled k c'.pool
  clock : c'.clock = c.clock

/-- The same server, or the same refusal. -/
inductive Served.Scaled (k : Nat) : Except PoolError (Server α) → Except PoolError (Server α) → Prop
  | server {s s' : Server α} (server : s.Scaled k s') : Scaled k (.ok s) (.ok s')
  | refused (why : PoolError) : Scaled k (.error why) (.error why)

inductive Answer.Scaled (k : Nat) : Answer α → Answer α → Prop
  | server {result result' : Except PoolError (Server α)} (served : Served.Scaled k result result') :
      Scaled k (.server result) (.server result')
  | online (count : Nat) : Scaled k (.online count) (.online count)
  | done : Scaled k .done .done
  | detached : Scaled k .detached .detached

/-- The same answer, or the same halt. -/
inductive Reply.Scaled (k : Nat) : Except Halt (Answer α) → Except Halt (Answer α) → Prop
  | answer {a a' : Answer α} (answer : a.Scaled k a') : Scaled k (.ok a) (.ok a')
  | halt (why : Halt) : Scaled k (.error why) (.error why)

/-- The same line: a weight is shown only where a server is added. -/
def LogLine.Scaled (k : Nat) : LogLine → LogLine → Prop
  | .serverAdded id o, .serverAdded id' o' => id' = id ∧ o.Scaled k o'
  | line, line' => line' = line

inductive Effect.Scaled (k : Nat) : Effect α → Effect α → Prop
  | log {line line' : LogLine} (same : line.Scaled k line') : Scaled k (.log line) (.log line')
  | metric (update : Metric) : Scaled k (.metric update) (.metric update)
  | changed (event : Event) (id : ServerId) (error : Option String) :
      Scaled k (.changed event id error) (.changed event id error)
  | entered {c c' : Call α} (call : c.Scaled k c') : Scaled k (.entered c) (.entered c')
  | answered {a a' : Answer α} (answer : a.Scaled k a') : Scaled k (.answered a) (.answered a')
  | left : Scaled k .left .left

structure Machine.Scaled (k : Nat) (m m' : Machine α) : Prop where
  pool : m.pool.Scaled k m'.pool
  clock : m'.clock = m.clock
  trace : List.Forall₂ (Effect.Scaled k) m.trace.toList m'.trace.toList

theorem Machine.Scaled.state {m m' : Machine α} (h : m.Scaled k m') : m.state.Scaled k m'.state :=
  ⟨h.pool, h.clock⟩

/-! ## Computations that keep the factor -/

namespace Run

/-- The same end: an answer that is in the relation `R` to the other, or the same halt. -/
inductive Ends (k : Nat) (R : β → β → Prop) :
    EStateM.Result Halt (Machine α) β → EStateM.Result Halt (Machine α) β → Prop
  | ok {b b' : β} {m m' : Machine α} (answer : R b b') (machine : m.Scaled k m') :
      Ends k R (.ok b m) (.ok b' m')
  | error {m m' : Machine α} (why : Halt) (machine : m.Scaled k m') : Ends k R (.error why m) (.error why m')

/-- From machines that are apart by the factor `k` the computations come to the same end, and leave such
machines. -/
structure Scales (k : Nat) (R : β → β → Prop) (x x' : Run α β) : Prop where
  ends : ∀ {m m' : Machine α}, m.Scaled k m' → Ends k R (x m) (x' m')

namespace Scales

variable {R : β → β → Prop} {S : γ → γ → Prop} {x x' : Run α β} {f f' : β → Run α γ}

theorem pure {b b' : β} (h : R b b') : Scales k R (pure b : Run α β) (pure b') :=
  ⟨fun hm => .ok h hm⟩

theorem bind (hx : Scales k R x x') (hf : ∀ {b b'}, R b b' → Scales k S (f b) (f' b')) :
    Scales k S (x >>= f) (x' >>= f') := by
  refine ⟨fun {m m'} hm => ?_⟩
  have hends := hx.ends hm
  rw [bind_apply, bind_apply]
  generalize x m = result at hends ⊢
  generalize x' m' = result' at hends ⊢
  cases hends with
  | ok hb hm => exact (hf hb).ends hm
  | error why hm => exact .error why hm

theorem throw (why : Halt) : Scales k R (throw why : Run α β) (throw why) :=
  ⟨fun hm => .error why hm⟩

theorem get : Scales k (Machine.Scaled k) (get : Run α (Machine α)) get :=
  ⟨fun hm => .ok hm hm⟩

theorem getPool : Scales k (Pool.Scaled k) (getPool : Run α (Pool α)) getPool := by
  refine ⟨fun {m m'} hm => ?_⟩
  rw [getPool_apply, getPool_apply]
  exact .ok hm.pool hm

theorem setPool {p p' : Pool α} (h : p.Scaled k p') : Scales k Eq (setPool p) (setPool p') :=
  ⟨fun hm => .ok rfl ⟨h, hm.clock, hm.trace⟩⟩

theorem emit {e e' : Effect α} (h : e.Scaled k e') : Scales k Eq (emit e) (emit e') := by
  refine ⟨fun hm => .ok rfl ⟨hm.pool, hm.clock, ?_⟩⟩
  simpa using List.rel_append hm.trace (.cons h .nil)

theorem log {line line' : LogLine} (h : line.Scaled k line') :
    Scales k Eq (log line : Run α Unit) (log line') :=
  emit (.log h)

theorem metric (update : Metric) : Scales k Eq (metric update : Run α Unit) (metric update) :=
  emit (.metric update)

theorem ite {y y' : Run α β} (c : Prop) [Decidable c] (hx : Scales k R x x') (hy : Scales k R y y') :
    Scales k R (if c then x else y) (if c then x' else y') := by
  split
  · exact hx
  · exact hy

/-- A step that may be left out, with all that comes after it. -/
theorem optional {step step' : Run α Unit} {rest rest' : Unit → Run α β} (c : Prop) [Decidable c]
    (hstep : Scales k Eq step step') (hrest : Scales k R (rest ()) (rest' ())) :
    Scales k R (if c then step >>= rest else rest ()) (if c then step' >>= rest' else rest' ()) :=
  ite c (hstep.bind fun _ => hrest) hrest

end Scales

/-! ## What a client asks of a pool -/

variable {o o' : ServerOptions}

theorem add_scales (check : o.check = .ok ()) (check' : o'.check = .ok ()) (options : o.Scaled k o')
    (data : α) : Scales k (Served.Scaled k) (add o data) (add o' data) := by
  unfold add
  rw [check, check']
  refine .bind .getPool fun {p p'} hp => ?_
  obtain ⟨hserver, hpool⟩ := hp.register options data
  dsimp only
  rw [hserver.tracked, hserver.id, hpool.primaryOnline]
  exact .bind (.setPool hpool) fun _ => .bind (.log ⟨rfl, options⟩) fun _ =>
    .optional _ (.metric _) (.bind (.metric _) fun _ => .pure (.server hserver))

theorem next_scales (hk : 0 < k) :
    Scales k (Served.Scaled k) (next : Run α (Except PoolError (Server α))) next := by
  unfold next
  refine .bind .get fun {m m'} hm => ?_
  rw [hm.clock]
  obtain ⟨hchoice, hpool⟩ := hm.pool.next hk m.clock
  generalize m.pool.next m.clock = found at hchoice hpool ⊢
  generalize m'.pool.next m.clock = found' at hchoice hpool ⊢
  obtain ⟨choice, p⟩ := found
  obtain ⟨choice', p'⟩ := found'
  cases hchoice with
  | none => exact .bind (.log rfl) fun _ => .bind (.metric _) fun _ => .pure (.refused _)
  | some hchoice =>
      dsimp only
      rw [hchoice.pick.probe, hchoice.pick.server.id, hchoice.source, hpool.primaryOnline]
      exact .bind (.setPool hpool) fun _ => .optional _ (.log rfl) (.optional _ (.log rfl)
        (.bind (.metric _) fun _ => .pure (.server hchoice.pick.server)))

section Reports

variable {notify : Notice α → Run α Unit}

theorem reportSuccess_scales
    (hnotify : ∀ {n n' : Notice α}, n.Scaled k n' → Scales k Eq (notify n) (notify n')) (id : ServerId) :
    Scales k Eq (reportSuccess notify id) (reportSuccess notify id) := by
  unfold reportSuccess
  refine .bind .getPool fun {p p'} hp => ?_
  obtain ⟨hback, hpool⟩ := hp.reportSuccess id
  generalize p.reportSuccess id = result at hback hpool ⊢
  generalize p'.reportSuccess id = result' at hback hpool ⊢
  obtain ⟨back, p⟩ := result
  obtain ⟨back', p'⟩ := result'
  cases hback with
  | none => exact .bind (.setPool hpool) fun _ => .pure rfl
  | some hserver =>
      dsimp only
      rw [hpool.primaryOnline]
      exact .bind (.setPool hpool) fun _ => .bind (.emit (.changed ..)) fun _ => .bind (.log rfl) fun _ =>
        .bind (.metric _) fun _ => .bind (.metric _) fun _ => .bind (.metric _) fun _ =>
          hnotify ⟨rfl, hserver, rfl⟩

theorem reportFailure_scales
    (hnotify : ∀ {n n' : Notice α}, n.Scaled k n' → Scales k Eq (notify n) (notify n')) (id : ServerId)
    (error : Option String) :
    Scales k Eq (reportFailure notify id error) (reportFailure notify id error) := by
  unfold reportFailure
  refine .bind .get fun {m m'} hm => ?_
  rw [hm.clock]
  obtain ⟨hlost, hpool⟩ := hm.pool.reportFailure m.clock id
  generalize m.pool.reportFailure m.clock id = result at hlost hpool ⊢
  generalize m'.pool.reportFailure m.clock id = result' at hlost hpool ⊢
  obtain ⟨lost, p⟩ := result
  obtain ⟨lost', p'⟩ := result'
  cases hlost with
  | none => exact .bind (.setPool hpool) fun _ => .pure rfl
  | some hserver =>
      dsimp only
      rw [hpool.primaryOnline]
      exact .bind (.setPool hpool) fun _ => .bind (.emit (.changed ..)) fun _ => .bind (.log rfl) fun _ =>
        .bind (.metric _) fun _ => .bind (.metric _) fun _ => .bind (.metric _) fun _ =>
          hnotify ⟨rfl, hserver, rfl⟩

end Reports

theorem advance_scales (span : Duration) : Scales k Eq (advance span : Run α Unit) (advance span) := by
  unfold advance
  refine .bind .get fun {m m'} hm => ?_
  rw [hm.clock]
  cases m.clock.add? span with
  | none => exact .throw _
  | some clock => exact ⟨fun hm => .ok rfl ⟨hm.pool, rfl, hm.trace⟩⟩

theorem setClock_scales (target : Instant) :
    Scales k Eq (setClock target : Run α Unit) (setClock target) :=
  ⟨fun hm => .ok rfl ⟨hm.pool, by simp only [hm.clock], hm.trace⟩⟩

end Run

/-! ## One operation -/

/-- If events are handled alike, so are operations. -/
theorem perform_scales (hk : 0 < k) {notify : Notice α → Run α Unit}
    (hnotify : ∀ {n n' : Notice α}, n.Scaled k n' → Run.Scales k Eq (notify n) (notify n'))
    (caller : Caller) {op op' : Op α} (hop : op.Scaled k op') :
    Run.Scales k (Answer.Scaled k) (perform notify caller op) (perform notify caller op') := by
  cases hop with
  | admitted check check' options =>
      exact .ite _ (.pure .detached) (.bind (Run.add_scales check check' options _) fun h => .pure (.server h))
  | refused check check' =>
      simp only [perform, Run.add, check, check']
      exact .ite _ (.pure .detached) (.pure (.server (.refused _)))
  | next => exact .ite _ (.pure .detached) (.bind (Run.next_scales hk) fun h => .pure (.server h))
  | reportSuccess target =>
      simp only [perform]
      cases caller.resolve target with
      | none => exact .pure .done
      | some id => exact .bind (Run.reportSuccess_scales hnotify id) fun _ => .pure .done
  | reportFailure target error =>
      simp only [perform]
      cases caller.resolve target with
      | none => exact .pure .done
      | some id => exact .bind (Run.reportFailure_scales hnotify id error) fun _ => .pure .done
  | count =>
      refine .ite _ (.pure .detached) (.bind .getPool fun {p p'} hp => ?_)
      rw [hp.primaryOnline]
      exact .pure (.online _)
  | install label only scripts =>
      exact .ite _ (.pure .detached) (.bind .getPool fun hp =>
        .bind (.setPool (hp.install (.some ⟨rfl, rfl, scripts, rfl⟩))) fun _ => .pure .done)
  | clear =>
      exact .ite _ (.pure .detached) (.bind .getPool fun hp =>
        .bind (.setPool (hp.install .none)) fun _ => .pure .done)
  | advance span => exact .bind (Run.advance_scales span) fun _ => .pure .done
  | setClock target => exact .bind (Run.setClock_scales target) fun _ => .pure .done
  | panic => exact .throw _

/-- If operations are carried out alike, so are scripts. -/
theorem runScript_scales {notify : Notice α → Run α Unit} {caller : Caller}
    (hop : ∀ {op op' : Op α}, op.Scaled k op' →
      Run.Scales k (Answer.Scaled k) (perform notify caller op) (perform notify caller op'))
    {script script' : List (Op α)} (hscript : List.Forall₂ (Op.Scaled k) script script') :
    Run.Scales k Eq (runScript notify caller script) (runScript notify caller script') := by
  induction hscript with
  | nil => exact .pure rfl
  | cons hfirst _ ih => exact .bind (hop hfirst) fun h => .bind (.emit (.answered h)) fun _ => ih

/-- Events are handled alike, at any depth. -/
theorem notify_scales (hk : 0 < k) (fuel : Nat) {n n' : Notice α} (hn : n.Scaled k n') :
    Run.Scales k Eq (notify fuel n) (notify fuel n') := by
  -- A handler runs at less fuel than the event that it hears of.
  induction fuel generalizing n n' with
  | zero =>
      unfold notify
      refine .bind .get fun {m m'} hm => ?_
      have hhandler := hm.pool.handler
      generalize m.pool.handler = handler at hhandler ⊢
      generalize m'.pool.handler = handler' at hhandler ⊢
      cases hhandler with
      | none => exact .pure rfl
      | some _ => exact .throw _
  | succ fuel ih =>
      unfold notify
      refine .bind .get fun {m m'} hm => ?_
      have hhandler := hm.pool.handler
      generalize m.pool.handler = handler at hhandler ⊢
      generalize m'.pool.handler = handler' at hhandler ⊢
      cases hhandler with
      | none => exact .pure rfl
      | @some handler handler' hsame =>
          have hcall : Call.Scaled k
              { handler, event := n.event, server := n.server, error := n.error, pool := m.pool,
                clock := m.clock }
              { handler := handler', event := n.event, server := n'.server, error := n'.error,
                pool := m'.pool, clock := m'.clock } :=
            ⟨hsame, rfl, hn.server, hn.error, hm.pool, hm.clock⟩
          have hscript := runScript_scales
            (fun h => perform_scales hk ih { handle := handler.holder, subject := some n.server.id } h)
            hsame.script
          dsimp only
          rw [hsame.reactsTo, hn.event, hsame.holder, hn.server.id]
          exact .bind (.emit (.entered hcall)) fun _ => .optional _ hscript (.emit .left)

/-! ## A client's run -/

namespace Machine

theorem Scaled.step (hk : 0 < k) (fuel : Nat) {m m' : Machine α} {r r' : Request α} (hm : m.Scaled k m')
    (hr : r.Scaled k r') :
    Reply.Scaled k (m.step fuel r.caller r.op).1 (m'.step fuel r'.caller r'.op).1 ∧
      (m.step fuel r.caller r.op).2.Scaled k (m'.step fuel r'.caller r'.op).2 := by
  have hends := (perform_scales hk (notify_scales hk fuel) r.caller hr.op).ends hm
  rw [hr.caller]
  unfold Machine.step exec
  generalize perform (notify fuel) r.caller r.op m = result at hends ⊢
  generalize perform (notify fuel) r.caller r'.op m' = result' at hends ⊢
  cases hends with
  | ok hanswer hm => exact ⟨.answer hanswer, hm⟩
  | error why hm => exact ⟨.halt why, hm⟩

theorem Scaled.serve (hk : 0 < k) (fuel : Nat) {m m' : Machine α} {rs rs' : List (Request α)}
    (hm : m.Scaled k m') (hrs : List.Forall₂ (Request.Scaled k) rs rs') :
    List.Forall₂ (Reply.Scaled k) (m.replies fuel rs) (m'.replies fuel rs') ∧
      (m.serve fuel rs).Scaled k (m'.serve fuel rs') := by
  induction hrs generalizing m m' with
  | nil => exact ⟨.nil, hm⟩
  | cons hr _ ih =>
      obtain ⟨hreply, hstep⟩ := hm.step hk fuel hr
      obtain ⟨hreplies, hserve⟩ := ih hstep
      exact ⟨.cons hreply hreplies, hserve⟩

end Machine

/-! ## Options with `k` times the weight -/

namespace ServerOptions

def times (k : Nat) (o : ServerOptions) : ServerOptions :=
  { o with weight := .ofNat (k * o.effectiveWeight) }

variable {o : ServerOptions}

theorem weight_times (hfit : k * o.effectiveWeight < UInt32.size) :
    (o.times k).weight.toNat = k * o.effectiveWeight :=
  UInt32.toNat_ofNat_of_lt hfit

/-- A weight of zero counts as one before it is multiplied. -/
theorem scaled_times (hk : 0 < k) (hfit : k * o.effectiveWeight < UInt32.size) : o.Scaled k (o.times k) := by
  refine ⟨?_, rfl, rfl, rfl⟩
  have hpos : 0 < k * o.effectiveWeight := Nat.mul_pos hk (by simp [effectiveWeight])
  rw [effectiveWeight, weight_times hfit]
  omega

theorem check_times (hk : 0 < k) (hfit : k * o.effectiveWeight < UInt32.size) (h : o.check = .ok ()) :
    (o.times k).check = .ok () := by
  have hpos : 0 < k * o.effectiveWeight := Nat.mul_pos hk (by simp [effectiveWeight])
  have hweight : (o.times k).weight ≠ 0 := by
    intro hzero
    rw [← weight_times hfit, hzero] at hpos
    exact absurd hpos (by decide)
  -- All that is left to look at is the timeout, which is the same.
  have htimeout : ¬ (0 < o.maxFails ∧ o.isBackup = false ∧ o.failTimeout.isZero) := by
    intro hnever
    unfold check at h
    split_ifs at h
  unfold check
  rw [if_neg fun hzero => hweight hzero.1]
  exact if_neg htimeout

end ServerOptions

theorem Op.Scaled.add_times {o : ServerOptions} (hk : 0 < k) (hfit : k * o.effectiveWeight < UInt32.size)
    (hcheck : o.check = .ok ()) (data : α) : Op.Scaled k (.add o data) (.add (o.times k) data) :=
  .admitted hcheck (o.check_times hk hfit hcheck) (o.scaled_times hk hfit)

/-! ## Whole runs -/

/-- Two pools start empty, and clients issue the same requests to both, but that all servers which are
added to the second, by clients or by handlers, have `k` times the weight. Then, within handlers too, the
same servers are handed out, the same operations are refused, and the same is told. After any number of
operations the pools agree in the servers that are down, in their failures and timers, in the count of
primaries that are up and in the positions last picked, and all credits of the second are `k` times those of
the first. -/
theorem ratios_decide (hk : 0 < k) (fuel : Nat) (clock : Instant) {requests requests' : List (Request α)}
    (h : List.Forall₂ (Request.Scaled k) requests requests') :
    let m : Machine α := { clock }
    List.Forall₂ (Reply.Scaled k) (m.replies fuel requests) (m.replies fuel requests') ∧
    List.Forall₂ (Effect.Scaled k)
      (m.serve fuel requests).trace.toList (m.serve fuel requests').trace.toList ∧
    List.Forall₂ (Step.Scaled k) (m.state.course fuel requests) (m.state.course fuel requests') ∧
    ∀ j,
      let s := m.state.after fuel requests j
      let s' := m.state.after fuel requests' j
      s'.clock = s.clock ∧ s'.pool.primaryOnline = s.pool.primaryOnline ∧
      ∀ tier, (s'.pool.group tier).cursor = (s.pool.group tier).cursor ∧
        List.Forall₂ (fun slot slot' : Slot α => slot'.server.id = slot.server.id ∧
            slot'.server.data = slot.server.data ∧ slot'.isDown = slot.isDown ∧
            slot'.health = slot.health ∧ slot'.credit = k * slot.credit)
          (s.pool.group tier).slots (s'.pool.group tier).slots := by
  intro m
  have hm : m.Scaled k m := ⟨⟨.empty, .empty, rfl, .none⟩, rfl, .nil⟩
  obtain ⟨hreplies, hserve⟩ := hm.serve hk fuel h
  refine ⟨hreplies, hserve.trace, hm.state.course hk fuel h, fun j => ?_⟩
  have hj := hm.state.after hk fuel h j
  refine ⟨hj.clock, hj.pool.primaryOnline, fun tier => ?_⟩
  have hgroup := hj.pool.group tier
  exact ⟨hgroup.cursor, hgroup.slots.imp fun _ _ hs =>
    ⟨hs.server.id, hs.server.data, hs.isDown, hs.health, hs.credit⟩⟩

/-- Two servers of the same weight and one of the double weight. The first goes down, a handler then adds a
spare and asks for a server, and the first comes back. -/
def relief (scale : ServerOptions → ServerOptions) : List (Request Unit) :=
  let client : Caller := { handle := some 0 }
  let script : List (Op Unit) := [.add (scale (.primary 3)) (), .next]
  [ .install 0 (some .down) script, .add (scale (.primary 2)) (), .add (scale (.primary 1)) (),
    .add (scale (.primary 1)) (), .next, .next, .reportFailure (.server ⟨.primary, 0⟩) none, .next,
    .advance (.ofSeconds 11), .next, .reportSuccess (.server ⟨.primary, 0⟩), .next ].map
    fun op => { caller := client, op }

theorem forall₂_relief : List.Forall₂ (Request.Scaled 5) (relief id) (relief (.times 5)) := by
  have hadd (w : UInt32) (hw : 5 * (ServerOptions.primary w).effectiveWeight < UInt32.size)
      (hcheck : (ServerOptions.primary w).check = .ok ()) :
      Op.Scaled 5 (.add (.primary w) ()) (.add ((ServerOptions.primary w).times 5) ()) :=
    .add_times (by decide) hw hcheck ()
  have hscript : List.Forall₂ (Op.Scaled 5) [.add (.primary 3) (), .next]
      [.add ((ServerOptions.primary 3).times 5) (), .next] :=
    .cons (hadd 3 (by decide) rfl) (.cons .next .nil)
  have h2 := hadd 2 (by decide) rfl
  have h1 := hadd 1 (by decide) rfl
  exact .cons ⟨rfl, .install 0 _ hscript⟩ <| .cons ⟨rfl, h2⟩ <| .cons ⟨rfl, h1⟩ <| .cons ⟨rfl, h1⟩ <|
    .cons ⟨rfl, .next⟩ <| .cons ⟨rfl, .next⟩ <| .cons ⟨rfl, .reportFailure _ _⟩ <|
    .cons ⟨rfl, .next⟩ <| .cons ⟨rfl, .advance _⟩ <| .cons ⟨rfl, .next⟩ <|
    .cons ⟨rfl, .reportSuccess _⟩ <| .cons ⟨rfl, .next⟩ .nil

/-- Before the first server comes back it has earned a credit of 2, or five times that. -/
theorem ratios_decide_relief :
    let m : Machine Unit := { clock := ⟨0⟩ }
    let p := (m.state.after 2 (relief id) 12).pool
    let p' := (m.state.after 2 (relief (.times 5)) 12).pool
    List.Forall₂ (Request.Scaled 5) (relief id) (relief (.times 5)) ∧
    p.primary.slots.map Slot.isDown = [true, false, false, false] ∧
    p.primary.slots.map Slot.credit = [2, 1, 0, -3] ∧ p'.primary.slots.map Slot.credit = [10, 5, 0, -15] ∧
    List.Forall₂ (Reply.Scaled 5) (m.replies 2 (relief id)) (m.replies 2 (relief (.times 5))) :=
  ⟨forall₂_relief, by decide, by decide, by decide,
    (ratios_decide (by decide) 2 ⟨0⟩ forall₂_relief).1⟩

end TieredPool
