import Mathlib.Data.List.Basic
import TieredPool.Proofs.Standing
import TieredPool.Proofs.Texts

/-!
# Readings — what the metrics read is what the pool is

A metric is told after the change of state that it is about, next to handlers that may use the pool
again or panic. Each operation tells all of its own metrics before any handler hears of it, so the
values read at a pause are those of the pool at that moment.

* `Metric.reading` — the value of a series after a list of updates.
* `Metric.series_eq_iff` — updates belong to one series exactly if they differ in their values only.
* `Mirrors` — the readings that go with a pool and the operations so far.
* `metrics_mirror` — the readings in every run.
-/

namespace TieredPool

variable {α : Type}

/-! ## Series -/

theorem Tier.text_inj {tier tier' : Tier} (h : tier.text = tier'.text) : tier = tier' := by
  cases tier <;> cases tier' <;> simp [text] at h ⊢

theorem Event.text_inj {event event' : Event} (h : event.text = event'.text) : event = event' := by
  cases event <;> cases event' <;> simp [text] at h ⊢

theorem ServerId.text_inj {id id' : ServerId} (h : id.text = id'.text) : id = id' := by
  have hsign (tier : Tier) : '#' ∉ tier.text.toList := by cases tier <;> decide
  obtain ⟨htier, htext⟩ := append_sign_inj (hsign id.tier) (hsign id'.tier) h
  have hindex : id.index = id'.index := toString_inj htext
  cases id
  cases id'
  simpa using ⟨Tier.text_inj htier, hindex⟩

namespace Metric

/-- An update up to its value. -/
def topic : Metric → Metric
  | .serverUp id _ => .serverUp id true
  | .primaryOnline _ => .primaryOnline 0
  | m => m

theorem kind_topic (m : Metric) : m.topic.kind = m.kind := by cases m <;> rfl

theorem series_eq_iff {m m' : Metric} : m.series = m'.series ↔ m.topic = m'.topic := by
  constructor
  · intro h
    have hsign (m : Metric) : '\x7b' ∉ m.name.toList := by cases m <;> simp [name]
    obtain ⟨hname, hlabel⟩ : m.name = m'.name ∧ m.label = m'.label := by
      have h' : m.name ++ "\x7b" ++ (m.label ++ "\x7d") = m'.name ++ "\x7b" ++ (m'.label ++ "\x7d") := by
        simpa [series, String.append_assoc] using h
      obtain ⟨hname, hrest⟩ := append_sign_inj (hsign m) (hsign m') h'
      exact ⟨hname, (String.append_left_inj _).1 hrest⟩
    cases m <;> cases m' <;> simp [name] at hname <;> simp [label, topic] at hlabel ⊢
    · exact Tier.text_inj hlabel
    · exact Event.text_inj hlabel
    · exact ServerId.text_inj hlabel
  · intro h
    cases m <;> cases m' <;> simp [topic] at h <;> simp [series, name, label, h]

/-! ## Values -/

/-- The value of a series that read `value` before the update `m`. -/
def record (series : String) (value : Option Nat) (m : Metric) : Option Nat :=
  if m.series = series then
    match m.kind with
    | .counter => some (value.getD 0 + m.value)
    | .gauge => some m.value
  else value

/-- The value of a series after updates, if there is one. -/
def reading (series : String) (ms : List Metric) : Option Nat := ms.foldl (record series) none

/-- The value of a counter, which is zero before its first update. -/
def total (series : String) (ms : List Metric) : Nat := (reading series ms).getD 0

theorem reading_append (series : String) (ms ms' : List Metric) :
    reading series (ms ++ ms') = ms'.foldl (record series) (reading series ms) :=
  List.foldl_append

theorem total_append (series : String) (ms ms' : List Metric) :
    total series (ms ++ ms') = (ms'.foldl (record series) (reading series ms)).getD 0 := by
  rw [total, reading_append]

theorem record_series (m m' : Metric) (value : Option Nat) :
    record m'.series value m =
      if m.topic = m'.topic then
        match m.kind with
        | .counter => some (value.getD 0 + m.value)
        | .gauge => some m.value
      else value := by
  simp only [record, series_eq_iff]

/-- Updates of other series do not count. -/
theorem reading_append_of_ne {m' : Metric} {ms' : List Metric} (h : ∀ m ∈ ms', m.topic ≠ m'.topic)
    (ms : List Metric) : reading m'.series (ms ++ ms') = reading m'.series ms := by
  rw [reading_append]
  induction ms' generalizing ms with
  | nil => rfl
  | cons m rest ih =>
      rw [List.foldl_cons, record_series, if_neg (h m List.mem_cons_self)]
      exact ih (fun m hm => h m (List.mem_cons_of_mem _ hm)) ms

theorem total_append_of_ne {m' : Metric} {ms' : List Metric} (h : ∀ m ∈ ms', m.topic ≠ m'.topic)
    (ms : List Metric) : total m'.series (ms ++ ms') = total m'.series ms := by
  rw [total, reading_append_of_ne h, total]

end Metric

/-! ## Mirrors -/

/-- The answers to the requests for a server that went through, in order. -/
def answers (past : List (Step α)) : List (Except PoolError (Server α)) :=
  past.filterMap Step.answer?

def servedFrom (tier : Tier) : Except PoolError (Server α) → Bool
  | .ok server => server.id.tier = tier
  | .error _ => false

def refused : Except PoolError (Server α) → Bool
  | .ok _ => false
  | .error _ => true

/-- After the operations `past` the pool is `p`, and the metrics told are `ms`. -/
structure Mirrors (past : List (Step α)) (p : Pool α) (ms : List Metric) : Prop where
  /-- The gauge of the primaries online is there once a server has been added. -/
  online : Metric.reading (Metric.primaryOnline 0).series ms =
    if p.size = 0 then none else some p.primaryOnline
  /-- A server has a gauge exactly if its health is tracked. -/
  up : ∀ id, Metric.reading (Metric.serverUp id true).series ms =
    ((p.slot? id).filter fun s => s.server.tracked).map fun s => if s.isDown then 0 else 1
  transitions : Metric.total (Metric.transition .down).series ms =
    Metric.total (Metric.transition .up).series ms + p.primary.slots.countP fun s => s.isDown
  selections : ∀ tier, Metric.total (Metric.selection tier).series ms =
    (answers past).countP (servedFrom tier)
  refusals : Metric.total Metric.noAvailable.series ms = (answers past).countP refused

theorem Pool.up_eq_standing? (id : ServerId) (p : Pool α) :
    (((p.slot? id).filter fun s => s.server.tracked).map fun s => if s.isDown then 0 else 1) =
      (p.standing? id).bind fun x => if x.1.tracked then some (if x.2 then 0 else 1) else none := by
  rw [standing?_eq]
  cases p.slot? id with
  | none => rfl
  | some s => cases htracked : s.server.tracked <;> simp [Slot.standing, htracked]

theorem Pool.size_ne_zero {p : Pool α} {id : ServerId} {x : Server α × Bool}
    (h : p.standing? id = some x) : p.size ≠ 0 := by
  have hlt : id.index < (p.group id.tier).size := by
    rw [← Group.length_standings]
    exact (List.getElem?_eq_some_iff.1 h).1
  unfold size
  cases htier : id.tier <;> simp [group, htier] at hlt <;> omega

/-! ### The primaries that are down -/

theorem Group.countP_isDown (g : Group α) :
    (g.slots.countP fun s => s.isDown) = g.standings.countP fun x => x.2 := by
  rw [standings, List.countP_map]
  rfl

theorem Pool.Alike.countP_isDown {p p' : Pool α} (h : p.Alike p') :
    (p'.primary.slots.countP fun s => s.isDown) = p.primary.slots.countP fun s => s.isDown := by
  rw [Group.countP_isDown, Group.countP_isDown]
  exact congrArg _ (h.standings .primary)

theorem Pool.countP_isDown_register (options : ServerOptions) (data : α) (p : Pool α) :
    ((p.register options data).2.primary.slots.countP fun s => s.isDown) =
      p.primary.slots.countP fun s => s.isDown := by
  have h := standings_register options data p .primary
  rw [Group.countP_isDown, Group.countP_isDown]
  simp only [group] at h
  rw [h]
  split <;> simp

theorem Pool.Turns.countP_isDown {p p' : Pool α} {event : Event} {server : Server α} {id : ServerId}
    (h : p.Turns event server id p') :
    (p'.primary.slots.countP fun s => s.isDown) + (if event = .up then 1 else 0) =
      (p.primary.slots.countP fun s => s.isDown) + (if event = .down then 1 else 0) := by
  have hstandings : p'.primary.standings =
      p.primary.standings.set id.index (server, decide (event = .down)) := by
    simpa [Pool.group, h.tier_eq] using h.standings .primary
  have hfound : p.primary.standings[id.index]? = some (server, decide (event = .up)) := by
    simpa [Pool.standing?, Pool.group, h.tier_eq] using h.found
  obtain ⟨hlt, hget⟩ := List.getElem?_eq_some_iff.1 hfound
  have hcount := List.boole_getElem_le_countP (p := fun x : Server α × Bool => x.2) hlt
  rw [Group.countP_isDown, Group.countP_isDown, hstandings, List.countP_set hlt, hget]
  rw [hget] at hcount
  cases event with
  | up =>
      simp only [decide_true, if_true] at hcount
      simp
      omega
  | down => simp

namespace Mirrors

variable {past : List (Step α)} {p : Pool α} {ms : List Metric}

theorem empty : Mirrors ([] : List (Step α)) {} [] where
  online := rfl
  up := by
    intro id
    cases htier : id.tier <;> simp [Metric.reading, Pool.slot?, Pool.group, htier]
  transitions := rfl
  selections := fun _ => rfl
  refusals := rfl

/-- Each answered request is in one of the three counters. -/
theorem completed (h : Mirrors past p ms) :
    Metric.total (Metric.selection .primary).series ms +
        Metric.total (Metric.selection .backup).series ms +
        Metric.total Metric.noAvailable.series ms =
      (answers past).length := by
  rw [h.selections, h.selections, h.refusals]
  induction answers past with
  | nil => rfl
  | cons a rest ih =>
      rw [List.countP_cons, List.countP_cons, List.countP_cons, List.length_cons, ← ih]
      cases a with
      | error why => simp [servedFrom, refused]; omega
      | ok server => cases htier : server.id.tier <;> simp [servedFrom, refused, htier] <;> omega

/-! ### What one operation does -/

variable {p' : Pool α} {t : Step α}

theorem answers_concat (past : List (Step α)) (t : Step α) :
    answers (past ++ [t]) = answers past ++ t.answer?.toList := by
  cases hanswer : t.answer? <;> simp [answers, hanswer]

theorem of_no_answer (h : Mirrors past p ms) (hanswer : t.answer? = none) :
    Mirrors (past ++ [t]) p ms where
  online := h.online
  up := h.up
  transitions := h.transitions
  selections := by simpa [answers_concat, hanswer] using h.selections
  refusals := by simpa [answers_concat, hanswer] using h.refusals

theorem of_answer (h : Mirrors past p ms) {a : Except PoolError (Server α)}
    (hanswer : t.answer? = some a) : Mirrors (past ++ [t]) p (ms ++ [selectionMetric a]) := by
  have hanswers : answers (past ++ [t]) = answers past ++ [a] := by
    simp [answers_concat, hanswer]
  constructor
  · rw [Metric.reading_append_of_ne (by cases a <;> simp [selectionMetric, Metric.topic]), h.online]
  · intro id
    rw [Metric.reading_append_of_ne (by cases a <;> simp [selectionMetric, Metric.topic]), h.up]
  · rw [Metric.total_append_of_ne (by cases a <;> simp [selectionMetric, Metric.topic]),
      Metric.total_append_of_ne (by cases a <;> simp [selectionMetric, Metric.topic]), h.transitions]
  · intro tier
    rw [hanswers, List.countP_append, ← h.selections, List.countP_singleton, Metric.total_append]
    cases a with
    | error why => simp [selectionMetric, Metric.record_series, Metric.topic, servedFrom, Metric.total]
    | ok server =>
        by_cases htier : server.id.tier = tier <;>
          simp [selectionMetric, Metric.record_series, Metric.topic, servedFrom, Metric.total, htier,
            Metric.kind, Metric.value]
  · rw [hanswers, List.countP_append, ← h.refusals, List.countP_singleton, Metric.total_append]
    cases a <;> simp [selectionMetric, Metric.record_series, Metric.topic, refused, Metric.total,
      Metric.kind, Metric.value]

/-- Nobody's standing has changed. -/
theorem of_alike (h : Mirrors past p ms) (halike : p.Alike p') : Mirrors past p' ms where
  online := by
    have hsize : p'.size = p.size :=
      congrArg₂ (· + ·) (halike.size_eq .primary) (halike.size_eq .backup)
    rw [h.online, hsize, halike.online]
  up := by
    intro id
    rw [h.up, Pool.up_eq_standing?, Pool.up_eq_standing?, halike.standing?_eq]
  transitions := by rw [h.transitions, halike.countP_isDown]
  selections := h.selections
  refusals := h.refusals

theorem of_register (h : Mirrors past p ms) (options : ServerOptions) (data : α) :
    Mirrors past (p.register options data).2
      (ms ++ ((if (p.register options data).1.tracked then
          [.serverUp (p.register options data).1.id true] else []) ++
        [.primaryOnline (p.register options data).2.primaryOnline])) := by
  have hsize : (p.register options data).2.size ≠ 0 :=
    Pool.size_ne_zero ((Pool.standing?_register options data p _).trans (if_pos rfl))
  have hcounter (m : Metric) (hm : m.kind = .counter) :
      Metric.total m.series (ms ++ ((if (p.register options data).1.tracked then
          [.serverUp (p.register options data).1.id true] else []) ++
        [.primaryOnline (p.register options data).2.primaryOnline])) = Metric.total m.series ms := by
    refine Metric.total_append_of_ne (fun m' hm' heq => ?_) ms
    -- Registering updates gauges only.
    have hgauge : m'.kind = .gauge := by
      cases htracked : (p.register options data).1.tracked <;> simp [htracked] at hm'
      · rw [hm']
        rfl
      · rcases hm' with rfl | rfl <;> rfl
    have hkind : m'.kind = m.kind := by rw [← Metric.kind_topic, heq, Metric.kind_topic]
    rw [hgauge, hm] at hkind
    cases hkind
  refine ⟨?_, fun id => ?_, ?_, fun tier => ?_, ?_⟩
  · cases htracked : (p.register options data).1.tracked <;>
      simp [Metric.reading_append, Metric.record_series, Metric.topic, Metric.kind, Metric.value, hsize]
  · -- The server that is new gets a gauge if it is tracked, and the others keep theirs.
    have hup := h.up id
    rw [Pool.up_eq_standing?] at hup
    rw [Pool.up_eq_standing?, Pool.standing?_register, Metric.reading_append, hup]
    by_cases hid : id = (p.register options data).1.id
    · subst hid
      cases htracked : (p.register options data).1.tracked <;>
        simp [Metric.record_series, Metric.topic, Metric.kind, Metric.value, htracked,
          Pool.standing?_fresh]
    · cases htracked : (p.register options data).1.tracked <;>
        simp [Metric.record_series, Metric.topic, hid, Ne.symm hid]
  · rw [hcounter _ rfl, hcounter _ rfl, h.transitions, Pool.countP_isDown_register]
  · rw [hcounter _ rfl, h.selections]
  · rw [hcounter _ rfl, h.refusals]

theorem of_turns (h : Mirrors past p ms) {n : Notice α}
    (hturns : p.Turns n.event n.server n.server.id p') :
    Mirrors past p'
      (ms ++ [.transition n.event, .serverUp n.server.id (n.event = .up),
        .primaryOnline p'.primaryOnline]) := by
  have hsize : p'.size ≠ 0 := Pool.size_ne_zero hturns.standing?_self
  refine ⟨?_, fun id => ?_, ?_, fun tier => ?_, ?_⟩
  · simp [Metric.reading_append, Metric.record_series, Metric.topic, Metric.kind, Metric.value, hsize]
  · have hup := h.up id
    rw [Pool.up_eq_standing?] at hup
    rw [Pool.up_eq_standing?, Metric.reading_append, hup]
    by_cases hid : id = n.server.id
    · subst hid
      rw [hturns.standing?_self]
      cases hevent : n.event <;>
        simp [Metric.record_series, Metric.topic, Metric.kind, Metric.value, hturns.tracked]
    · rw [hturns.standing?_of_ne hid]
      simp [Metric.record_series, Metric.topic, Ne.symm hid]
  · have hcount := hturns.countP_isDown
    have htransitions := h.transitions
    rw [Metric.total, Metric.total] at htransitions
    rw [Metric.total_append, Metric.total_append]
    cases hevent : n.event <;>
      simp [Metric.record_series, Metric.topic, Metric.kind, Metric.value, hevent] at hcount ⊢ <;>
      omega
  · rw [Metric.total_append_of_ne (by simp [Metric.topic]), h.selections]
  · rw [Metric.total_append_of_ne (by simp [Metric.topic]), h.refusals]

/-- What an operation tells goes with what it does. -/
theorem step (h : Mirrors past t.before.pool ms) (hp : t.before.pool.Sound) :
    Mirrors (past ++ [t]) t.after.pool (ms ++ Trace.metrics t.tells) := by
  cases Step.way hp with
  | quiet _ hanswer hmetrics halike =>
      rw [hmetrics, List.append_nil]
      exact (h.of_alike halike).of_no_answer hanswer
  | answers a _ hanswer hmetrics halike =>
      rw [hmetrics]
      exact (h.of_alike halike).of_answer hanswer
  | registers options data _ hanswer hmetrics hafter =>
      rw [hmetrics, hafter]
      exact (h.of_register options data).of_no_answer hanswer
  | turns n _ hanswer hmetrics hturns =>
      rw [hmetrics]
      exact (h.of_turns hturns).of_no_answer hanswer

theorem trail {s : State α} (h : Mirrors past s.pool ms) (hs : s.pool.Sound) (rs : List (Request α)) :
    Mirrors (past ++ s.trail rs) (s.applyAll rs).pool
      (ms ++ (s.trail rs).flatMap fun t => Trace.metrics t.tells) := by
  induction rs generalizing s past ms with
  | nil => simpa using h
  | cons r rest ih =>
      have hfirst := h.step (t := { before := s, request := r }) hs
      simpa using ih (s := s.apply r) hfirst (Pool.Sound.respects.apply s r hs)

end Mirrors

/-! ## Every run -/

def Effect.metric? : Effect α → Option Metric
  | .metric update => some update
  | _ => none

theorem Effect.metric?_of_pause (e : Effect α) (he : e.isPause = true) : e.metric? = none := by
  cases e <;> first | rfl | cases he

/-- In every run, handlers and panics in it or not, the metrics told up to a point are those of the
operations up to there, and their readings those of the pool as it is then: after any number of
operations, at the end, and wherever a handler is entered or an operation of a handler has come to its
end. -/
theorem metrics_mirror (fuel : Nat) (clock : Instant) (requests : List (Request α)) :
    let start : State α := { clock }
    let course := start.course fuel requests
    let m := ({ clock } : Machine α).serve fuel requests
    let told := fun steps : List (Step α) => steps.flatMap fun t => Trace.metrics t.tells
    (∀ k, Mirrors (course.take k) (start.after fuel requests k).pool (told (course.take k)) ∧
      Metric.total (Metric.selection .primary).series (told (course.take k)) +
          Metric.total (Metric.selection .backup).series (told (course.take k)) +
          Metric.total Metric.noAvailable.series (told (course.take k)) =
        (answers (course.take k)).length) ∧
    (Trace.metrics m.trace.toList = told course ∧ Mirrors course m.pool (told course)) ∧
    (∀ (earlier later : List (Effect α)) (e : Effect α), e.isPause = true →
      m.trace.toList = earlier ++ e :: later →
      ∃ k, Trace.metrics earlier = told (course.take k) ∧
        (∀ call, e = .entered call → call.pool = (start.after fuel requests k).pool)) ∧
    ∀ t ∈ course, t.request.op = .next → ∀ (n : Machine α) (notify : Notice α → Run α Unit),
      n.state = t.before →
        ∃ n', perform notify t.request.caller .next n =
          .ok (match t.answer? with
            | some a => .server a
            | none => .detached) n' := by
  intro start course m told
  have hmirrors (rs : List (Request α)) :
      Mirrors (start.trail rs) (start.applyAll rs).pool (told (start.trail rs)) := by
    have h : Mirrors (α := α) [] start.pool [] := .empty
    simpa using h.trail Pool.Sound.empty rs
  have hwalk := Machine.walks_serve fuel requests ({ clock } : Machine α)
  refine ⟨fun k => ?_, ⟨?_, ?_⟩, ?_, ?_⟩
  · have h := hmirrors ((State.unrollAll fuel requests start).take k)
    rw [State.trail_take] at h
    exact ⟨h, h.completed⟩
  · have hread := hwalk.told Effect.metric?_of_pause
    rw [List.filterMap_nil, List.nil_append] at hread
    exact hread
  · have h := hmirrors (State.unrollAll fuel requests start)
    have hpool : m.pool = (start.applyAll (State.unrollAll fuel requests start)).pool :=
      congrArg State.pool hwalk.state_eq
    rw [hpool]
    exact h
  · -- What has been told before a pause is what the operations walked so far have told.
    intro earlier later e he htrace
    obtain ⟨done, hpre, hcall, htold⟩ := hwalk.of_pause he (by simpa using htrace)
    have hdone : done = (State.unrollAll fuel requests start).take done.length :=
      List.prefix_iff_eq_take.1 hpre
    have hsteps : course.take done.length = start.trail done := by
      have hcourse : course = start.trail (State.unrollAll fuel requests start) := rfl
      rw [hcourse, ← State.trail_take, ← hdone]
    refine ⟨done.length, ?_, ?_⟩
    · have hread := htold Effect.metric? Effect.metric?_of_pause
      rw [List.filterMap_append, List.filterMap_nil, List.nil_append, List.nil_append] at hread
      rw [hsteps]
      exact hread
    · intro call hentered
      rw [State.after, ← hdone]
      exact (congrArg State.pool (hcall call hentered)).symm
  · intro t _ hop n notify hn
    exact perform_next hop hn notify

/-- A handler that finds no server while the only one is down, brings it back and panics. -/
def rescue : List (Request Unit) :=
  let client : Caller := { handle := some 0 }
  [ { caller := client, op := .add (.primary 1) () },
    { caller := client, op := .install 0 (some .down) [.next, .reportSuccess .subject, .panic] },
    { caller := client, op := .reportFailure (.server ⟨.primary, 0⟩) none },
    { caller := client, op := .next } ]

theorem metrics_mirror_rescue :
    let course := ({ clock := ⟨0⟩ } : State Unit).course 2 rescue
    let m := ({ clock := ⟨0⟩ } : Machine Unit).serve 2 rescue
    (Mirrors course m.pool (Trace.metrics m.trace.toList) ∧
      (answers course).map refused = [true, false]) ∧
    (∃ e, m.trace.toList[8]? = some e ∧ e.isPause = true ∧
      ∃ k, Trace.metrics (m.trace.toList.take 8) =
        (course.take k).flatMap fun t => Trace.metrics t.tells) ∧
    ∃ t ∈ course, t.request.op = .next ∧ ∃ (n n' : Machine Unit) (a : Answer Unit), n.state = t.before ∧
      perform (notify 1) t.request.caller .next n = .ok a n' := by
  intro course m
  have h := metrics_mirror 2 ⟨0⟩ rescue
  refine ⟨⟨h.2.1.1 ▸ h.2.1.2, by decide +kernel⟩, ?_, ?_⟩
  · have hpause : m.trace.toList[8]?.any Effect.isPause = true := by decide +kernel
    obtain ⟨e, he, hpause⟩ := (Option.any_eq_true ..).1 hpause
    obtain ⟨hlt, hget⟩ := List.getElem?_eq_some_iff.1 he
    have hsplit : m.trace.toList = m.trace.toList.take 8 ++ e :: m.trace.toList.drop 9 := by
      rw [← hget, ← List.drop_eq_getElem_cons hlt, List.take_append_drop]
    obtain ⟨k, hk, _⟩ := h.2.2.1 _ _ e hpause hsplit
    exact ⟨e, he, hpause, k, hk⟩
  · have hlt : 6 < course.length := by decide +kernel
    let t := course[6]
    have hop : t.request.op = .next := rfl
    let n : Machine Unit := { pool := t.before.pool, clock := t.before.clock }
    obtain ⟨n', hn'⟩ := h.2.2.2 t (List.getElem_mem hlt) hop n (notify 1) rfl
    exact ⟨t, List.getElem_mem hlt, hop, n, n', _, rfl, hn'⟩

end TieredPool
