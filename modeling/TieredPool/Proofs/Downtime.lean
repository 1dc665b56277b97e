import TieredPool.Proofs.Slots

/-!
# Downtime — how often a server that is down is tried

A server that went down is left alone for a whole timeout, and for one more after each request that
tries it, until a success brings it back. What is reported of other servers, failures that come late
and requests that go elsewhere make no difference to that.

* `Policy.respite` — the time for which a server is left alone.
* `Pool.Rests` — the server is down, and is not tried before some reading of the clock.
* `Step.rests` — what an operation does to a server at rest.
* `Spaced` — readings of the clock that keep their distance.
* `Downtime` — part of a run throughout which a server is down; `downtime_spaced` — who is sent to it.
-/

namespace TieredPool

variable {α : Type}

/-! ## Deadlines -/

namespace Policy

/-- The timeout, but a century at most: the time for which a server is left alone, in nanoseconds. -/
def respite (p : Policy) : Nat := min p.failTimeout.nanos farFuture.nanos

/-- The clock can show a deadline that is set at `now`. -/
def InReach (p : Policy) (now : Instant) : Prop :=
  (now.add? p.failTimeout).isSome = true ∨ (now.add? farFuture).isSome = true

theorem respite_le_deadline {p : Policy} {now : Instant} (h : p.InReach now) :
    now.nanos + p.respite ≤ (p.deadline now).nanos := by
  unfold deadline respite
  cases htimeout : now.add? p.failTimeout with
  | some t =>
      have := Instant.nanos_of_add? htimeout
      simp only
      omega
  | none =>
      rcases h with h | h
      · simp [htimeout] at h
      · obtain ⟨t, ht⟩ := Option.isSome_iff_exists.1 h
        have := Instant.nanos_of_add? ht
        simp only [ht, Option.getD_some]
        omega

end Policy

/-! ## One slot -/

/-- What a pick does to one slot: it is handed out, which it was fit for, or keeps its health. -/
theorem Group.Sound.select_slot {g : Group α} {tier : Tier} (hg : g.Sound tier) (now : Instant)
    {k : Nat} {s : Slot α} (hs : g.slots[k]? = some s) :
    ∃ s' : Slot α, (g.select now).2.slots[k]? = some s' ∧ s'.server = s.server ∧
      (((∃ pick, (g.select now).1 = some pick ∧ pick.server.id = { tier, index := k }) ∧
          s.selectable now = true ∧ s'.health = s.health.beginProbe s.policy now) ∨
        ((∀ pick, (g.select now).1 = some pick → pick.server.id ≠ { tier, index := k }) ∧
          s'.health = s.health)) := by
  rcases Group.select_cases now g with ⟨_, hnone⟩ | ⟨j, w, hleads, hsome⟩
  · rw [hnone]
    exact ⟨s, hs, rfl, .inr ⟨by simp, rfl⟩⟩
  · have hid : w.server.id = { tier, index := j } := hg.placed j w hleads.get
    rw [hsome, Group.charged_getElem?, hs, Option.map_some]
    by_cases hkj : k = j
    · subst hkj
      obtain rfl : s = w := Option.some.inj (hs.symm.trans hleads.get)
      refine ⟨_, rfl, by simp, .inl ⟨⟨_, rfl, hid⟩, hleads.selectable, by simp⟩⟩
    · refine ⟨_, rfl, by simp [hkj], .inr ⟨?_, by simp [hkj]⟩⟩
      intro pick hpick
      cases hpick
      rw [hid]
      simpa using Ne.symm hkj

theorem Group.Sound.tier_of_select {g : Group α} {tier : Tier} (hg : g.Sound tier) {now : Instant}
    {pick : Group.Pick α} (hpick : (g.select now).1 = some pick) : pick.server.id.tier = tier := by
  rcases Group.select_cases now g with ⟨_, hnone⟩ | ⟨k, s, hleads, hsome⟩
  · simp [hnone] at hpick
  · rw [hsome] at hpick
    cases hpick
    exact congrArg ServerId.tier (hg.placed k s hleads.get)

/-- What a pick from the tier `source` does to one slot of the pool. -/
theorem Pool.Sound.select_slot {p : Pool α} (hp : p.Sound) {now : Instant} {source : Tier}
    {pick : Group.Pick α} (hpick : ((p.group source).select now).1 = some pick) {id : ServerId}
    {s : Slot α} (hs : p.slot? id = some s) :
    ∃ s' : Slot α, (p.setGroup source ((p.group source).select now).2).slot? id = some s' ∧
      s'.server = s.server ∧
      ((pick.server.id = id ∧ s.selectable now = true ∧
          s'.health = s.health.beginProbe s.policy now) ∨
        (pick.server.id ≠ id ∧ s'.health = s.health)) := by
  by_cases htier : id.tier = source
  · subst htier
    obtain ⟨s', hs', hserver, ⟨⟨pick', hpick', hid⟩, hrest⟩ | ⟨hother, hhealth⟩⟩ :=
      (hp.group id.tier).select_slot now hs
    · obtain rfl : pick = pick' := Option.some.inj (hpick.symm.trans hpick')
      exact ⟨s', by rw [slot?, group_setGroup_self, hs'], hserver, .inl ⟨hid, hrest⟩⟩
    · exact ⟨s', by rw [slot?, group_setGroup_self, hs'], hserver, .inr ⟨hother pick hpick, hhealth⟩⟩
  · refine ⟨s, by rw [slot?, group_setGroup_of_ne htier]; exact hs, rfl, .inr ⟨?_, rfl⟩⟩
    rintro rfl
    exact htier ((hp.group source).tier_of_select hpick)

/-- What a request does to one slot. -/
theorem Pool.Sound.next_slot {p : Pool α} (hp : p.Sound) (now : Instant) {id : ServerId} {s : Slot α}
    (hs : p.slot? id = some s) :
    ∃ s' : Slot α, (p.next now).2.slot? id = some s' ∧ s'.server = s.server ∧
      (((∃ c, (p.next now).1 = some c ∧ c.pick.server.id = id) ∧
          s.selectable now = true ∧ s'.health = s.health.beginProbe s.policy now) ∨
        ((∀ c, (p.next now).1 = some c → c.pick.server.id ≠ id) ∧ s'.health = s.health)) := by
  rcases next_eq_select now p with ⟨source, pick, hpick, heq⟩ | heq
  · obtain ⟨s', hs', hserver, hhealth⟩ := hp.select_slot hpick hs
    rw [heq]
    refine ⟨s', hs', hserver, ?_⟩
    rcases hhealth with ⟨hid, hrest⟩ | ⟨hid, hsame⟩
    · exact .inl ⟨⟨_, rfl, hid⟩, hrest⟩
    · refine .inr ⟨?_, hsame⟩
      intro c hc
      cases hc
      exact hid
  · rw [heq]
    exact ⟨s, hs, rfl, .inr ⟨by simp, rfl⟩⟩

/-! ## One slot in one operation -/

namespace Step

variable {t : Step α} {id : ServerId} {s : Slot α}

/-- A request is sent to the server at `id`. -/
def handsOut (id : ServerId) (t : Step α) : Bool :=
  match t.answer? with
  | some (.ok server) => server.id = id
  | _ => false

/-- The outcome of a request to the server at `id` is reported. -/
def Reports (id : ServerId) (t : Step α) : Prop :=
  ∃ target, t.request.caller.resolve target = some id ∧
    (t.request.op = .reportSuccess target ∨ ∃ error, t.request.op = .reportFailure target error)

theorem slot?_through {before : State α} {f : Pool α → Pool α}
    (hf : (f before.pool).slot? id = before.pool.slot? id) (caller : Caller) :
    (before.through caller f).pool.slot? id = before.pool.slot? id := by
  unfold State.through
  split
  · rfl
  · exact hf

/-- An operation that neither asks for a server nor reports of the one at `id` leaves it as it is. -/
theorem slot?_after (hp : t.before.pool.Sound) (hs : t.before.pool.slot? id = some s)
    (hnext : t.request.op ≠ .next) (hreports : ¬ t.Reports id) :
    t.after.pool.slot? id = some s := by
  rw [← hs]
  rcases t with ⟨before, caller, op⟩
  cases op with
  | add options data =>
      refine slot?_through ?_ caller
      cases options.check with
      | error why => rfl
      | ok _ => exact (Pool.slot?_register hs options data).trans hs.symm
  | next => exact absurd rfl hnext
  | reportSuccess target =>
      cases hid : caller.resolve target with
      | none => simp [after, State.apply, hid]
      | some id' =>
          have hne : id ≠ id' := by
            rintro rfl
            exact hreports ⟨target, hid, .inl rfl⟩
          simpa [after, State.apply, hid] using
            (Pool.report_reportSuccess id' before.pool).slot?_of_ne hne
  | reportFailure target error =>
      cases hid : caller.resolve target with
      | none => simp [after, State.apply, hid]
      | some id' =>
          have hne : id ≠ id' := by
            rintro rfl
            exact hreports ⟨target, hid, .inr ⟨error, rfl⟩⟩
          simpa [after, State.apply, hid] using
            (Pool.report_reportFailure hp.healthy before.clock id').slot?_of_ne hne
  | install label only script => exact slot?_through (Pool.slot?_handler _ id before.pool) caller
  | clear => exact slot?_through (Pool.slot?_handler none id before.pool) caller
  | count => rfl
  | advance span => rfl
  | setClock target => rfl
  | panic => rfl

/-- What an operation does to a slot of which it does not report. -/
theorem slot_after (hp : t.before.pool.Sound) (hs : t.before.pool.slot? id = some s)
    (hreports : ¬ t.Reports id) :
    ∃ s' : Slot α, t.after.pool.slot? id = some s' ∧ s'.server = s.server ∧
      ((t.handsOut id = true ∧ s.selectable t.before.clock = true ∧
          s'.health = s.health.beginProbe s.policy t.before.clock) ∨
        (t.handsOut id = false ∧ s'.health = s.health)) := by
  rcases t with ⟨before, caller, op⟩
  -- The other operations do not touch the slot.
  by_cases hnext : op = .next
  case neg =>
    refine ⟨s, slot?_after hp hs hnext hreports, rfl, .inr ⟨?_, rfl⟩⟩
    cases op <;> first | rfl | exact absurd rfl hnext
  subst hnext
  cases hhandle : caller.handle.isNone with
  | true =>
      refine ⟨s, ?_, rfl, .inr ⟨by simp [handsOut, answer?, hhandle], rfl⟩⟩
      simpa [after, State.apply, State.through, hhandle] using hs
  | false =>
      obtain ⟨s', hs', hserver, hhealth⟩ := hp.next_slot before.clock hs
      refine ⟨s', by simpa [after, State.apply, State.through, hhandle] using hs', hserver, ?_⟩
      rcases hhealth with ⟨⟨c, hc, hid⟩, hrest⟩ | ⟨hother, hsame⟩
      · have hc' : (before.pool.next before.clock).1 = some c := hc
        exact .inl ⟨by simp [handsOut, answer?, hhandle, hc', Run.served, hid], hrest⟩
      · refine .inr ⟨?_, hsame⟩
        cases hc : (before.pool.next before.clock).1 with
        | none => simp [handsOut, answer?, hhandle, hc, Run.served]
        | some c => simpa [handsOut, answer?, hhandle, hc, Run.served] using hother c hc

end Step

/-! ## A server at rest -/

/-- The server is down, and is not tried before the clock reads `earliest`. -/
def Pool.Rests (server : Server α) (earliest : Nat) (p : Pool α) : Prop :=
  ∃ (s : Slot α) (deadline : Instant), p.slot? server.id = some s ∧ s.server = server ∧
    s.health.timer = .recoveryDeadline deadline ∧ earliest ≤ deadline.nanos

theorem Pool.Rests.isDown {p : Pool α} {server : Server α} {earliest : Nat}
    (h : p.Rests server earliest) : p.isDown server.id = true := by
  obtain ⟨s, deadline, hs, _, htimer, _⟩ := h
  have hdown : s.isDown = true := Health.isDown_iff.2 ⟨deadline, htimer⟩
  simp [Pool.isDown, hs, hdown]

/-- A failure that takes a server down lays it to rest. -/
theorem Pool.Sound.rests_of_reportFailure {p : Pool α} (hp : p.Sound) {now : Instant} {id : ServerId}
    {server : Server α} (h : (p.reportFailure now id).1 = some server)
    (hreach : server.options.policy.InReach now) :
    (p.reportFailure now id).2.Rests server (now.nanos + server.options.policy.respite) := by
  cases hs : p.slot? id with
  | none => simp [Pool.reportFailure, hs] at h
  | some s =>
      rcases Health.recordFailure_cases (hp.healthy id s hs) now with
        ⟨_, heq⟩ | ⟨_, _, _, heq⟩ | ⟨_, _, heq⟩
      · simp [Pool.reportFailure, hs, Slot.recordFailure, heq] at h
      · simp [Pool.reportFailure, hs, Slot.recordFailure, heq] at h
      · simp only [Pool.reportFailure, hs, Slot.recordFailure, heq, if_true, Option.some.injEq] at h ⊢
        have hid : server.id = id := by
          rw [← h]
          exact (hp.group id.tier).placed id.index s hs
        let health : Health :=
          { failCounter := s.policy.maxFails, timer := .recoveryDeadline (s.policy.deadline now) }
        refine ⟨{ s with health }, s.policy.deadline now, ?_, h, rfl, ?_⟩
        · rw [hid]
          exact slot?_setSlot hs _ _
        · rw [Slot.policy, h]
          exact Policy.respite_le_deadline hreach

namespace Step

variable {t : Step α} {server : Server α} {earliest : Nat}

/-- A failure of a server at rest changes nothing and is told to nobody. -/
theorem after_of_failure (h : t.before.pool.Rests server earliest) {target : Target}
    {error : Option String} (hop : t.request.op = .reportFailure target error)
    (hid : t.request.caller.resolve target = some server.id) :
    t.after = t.before ∧ t.notice? = none ∧ t.tells = [] := by
  obtain ⟨s, deadline, hs, _, htimer, _⟩ := h
  have hdown : s.isDown = true := Health.isDown_iff.2 ⟨deadline, htimer⟩
  rcases t with ⟨before, caller, op⟩
  obtain rfl : op = .reportFailure target error := hop
  have hid' : caller.resolve target = some server.id := hid
  have hnothing := Pool.reportFailure_of_down hs hdown before.clock
  simp [after, State.apply, notice?, State.notice?, tells, hid', hnothing]

/-- A success of a server at rest brings it back. -/
theorem notice_of_success (hp : t.before.pool.Sound) (h : t.before.pool.Rests server earliest)
    {target : Target} (hop : t.request.op = .reportSuccess target)
    (hid : t.request.caller.resolve target = some server.id) :
    t.notice? = some { event := .up, server, error := none } := by
  obtain ⟨s, deadline, hs, hserver, htimer, _⟩ := h
  have hdown : s.health.isDown = true := Health.isDown_iff.2 ⟨deadline, htimer⟩
  have htracked : s.server.tracked = true := ((hp.healthy server.id s hs).down_iff.1 hdown).1
  rcases t with ⟨before, caller, op⟩
  obtain rfl : op = .reportSuccess target := hop
  have hid' : caller.resolve target = some server.id := hid
  have hback := Pool.reportSuccess_of_down hs hdown htracked
  simp [notice?, State.notice?, hid', hback, hserver]

/-- A server at rest stays so, unless a success is reported of it. If a request is sent to it, the
time for which it has been left alone is over, and another one begins. -/
theorem rests (hp : t.before.pool.Sound) (h : t.before.pool.Rests server earliest)
    (hstays : ∀ n, t.notice? = some n → n.server.id = server.id → n.event ≠ .up)
    (hreach : t.handsOut server.id = true → server.options.policy.InReach t.before.clock) :
    (t.handsOut server.id = true ∧ earliest ≤ t.before.clock.nanos ∧
        t.after.pool.Rests server (t.before.clock.nanos + server.options.policy.respite)) ∨
      (t.handsOut server.id = false ∧ t.after.pool.Rests server earliest) := by
  by_cases hreports : t.Reports server.id
  case pos =>
    -- A success would bring the server back, and a failure does nothing.
    obtain ⟨target, hid, hop | ⟨error, hop⟩⟩ := hreports
    · exact absurd rfl (hstays _ (notice_of_success hp h hop hid) rfl)
    · refine .inr ⟨by simp [handsOut, answer?, hop], ?_⟩
      rw [(after_of_failure h hop hid).1]
      exact h
  case neg =>
    obtain ⟨s, deadline, hs, hserver, htimer, hle⟩ := h
    obtain ⟨s', hs', hserver', ⟨hsent, hselectable, hprobe⟩ | ⟨hquiet, hsame⟩⟩ :=
      slot_after hp hs hreports
    · -- It is down, and was fit to be tried; so its deadline has passed, and a new one is set.
      have hdue : deadline ≤ t.before.clock := by
        simpa [Slot.selectable, Health.selectable, htimer] using hselectable
      refine .inl ⟨hsent, Nat.le_trans hle hdue, s', server.options.policy.deadline t.before.clock,
        hs', hserver'.trans hserver, ?_, Policy.respite_le_deadline (hreach hsent)⟩
      rw [hprobe, ← hserver]
      simp [Health.beginProbe, htimer, hdue, Slot.policy]
    · exact .inr ⟨hquiet, s', deadline, hs', hserver'.trans hserver, hsame ▸ htimer, hle⟩

/-- A server that goes down is at rest from then on. -/
theorem rests_of_loss (hp : t.before.pool.Sound) {n : Notice α} (hn : t.notice? = some n)
    (hdown : n.event = .down) (hreach : n.server.options.policy.InReach t.before.clock) :
    t.after.pool.Rests n.server (t.before.clock.nanos + n.server.options.policy.respite) := by
  obtain ⟨target, hid, ⟨hup, _⟩ | ⟨_, hop⟩⟩ := (notifies hp hn).report
  · rw [hdown] at hup
    cases hup
  · rcases t with ⟨before, caller, op⟩
    obtain rfl : op = .reportFailure target n.error := hop
    have hid' : caller.resolve target = some n.server.id := hid
    have hlost : (before.pool.reportFailure before.clock n.server.id).1 = some n.server := by
      cases hfirst : (before.pool.reportFailure before.clock n.server.id).1 with
      | none => simp [notice?, State.notice?, hid', hfirst] at hn
      | some server =>
          have hn' : some { event := .down, server, error := n.error } = some n := by
            simpa [notice?, State.notice?, hid', hfirst] using hn
          rw [← Option.some.inj hn']
    simpa [after, State.apply, hid'] using hp.rests_of_reportFailure hlost hreach

end Step

/-! ## Readings that keep their distance -/

/-- The readings come one after the other, `gap` apart at least, the first not before `earliest`. -/
def Spaced (gap : Nat) : Nat → List Nat → Prop
  | _, [] => True
  | earliest, t :: rest => earliest ≤ t ∧ Spaced gap (t + gap) rest

namespace Spaced

variable {gap earliest : Nat} {times : List Nat}

theorem le_of_mem (h : Spaced gap earliest times) {t : Nat} (ht : t ∈ times) : earliest ≤ t := by
  induction times generalizing earliest with
  | nil => cases ht
  | cons u rest ih =>
      rcases List.mem_cons.1 ht with rfl | ht
      · exact h.1
      · have := ih h.2 ht
        have := h.1
        omega

theorem pairwise (h : Spaced gap earliest times) : times.Pairwise fun t u => t + gap ≤ u := by
  induction times generalizing earliest with
  | nil => exact .nil
  | cons t rest ih => exact .cons (fun u hu => h.2.le_of_mem hu) (ih h.2)

/-- Each reading up to `last` but the first takes up a gap of its own. -/
theorem countP_mul_le (h : Spaced gap earliest times) (last : Nat) :
    times.countP (· ≤ last) = 0 ∨ times.countP (· ≤ last) * gap + earliest ≤ last + gap := by
  induction times generalizing earliest with
  | nil => exact .inl rfl
  | cons t rest ih =>
      have hfirst := h.1
      rw [List.countP_cons]
      by_cases ht : t ≤ last
      · right
        rw [if_pos (by simpa using ht), Nat.succ_mul]
        rcases ih h.2 with hzero | hrest
        · rw [hzero]
          omega
        · omega
      · -- Later readings are later still.
        left
        rw [if_neg (by simpa using ht), Nat.add_zero, List.countP_eq_zero]
        intro u hu
        have := h.2.le_of_mem hu
        simp only [decide_eq_true_eq]
        omega

theorem countP_le_div (h : Spaced gap (earliest + gap) times) (hgap : 0 < gap) (span : Nat) :
    times.countP (· ≤ earliest + span) ≤ span / gap := by
  rw [Nat.le_div_iff_mul_le hgap]
  rcases h.countP_mul_le (earliest + span) with hzero | hle
  · rw [hzero]
    omega
  · omega

end Spaced

/-! ## Every run -/

namespace State

/-- Part of a course, from an operation on, is a course of its own. -/
theorem trail_of_infix {s : State α} (hs : s.pool.Sound) {rs : List (Request α)} {t : Step α}
    {mid : List (Step α)} (h : t :: mid <:+: s.trail rs) :
    t.before.pool.Sound ∧ ∃ rs', mid = t.after.trail rs' := by
  induction rs generalizing s with
  | nil => simp at h
  | cons r rest ih =>
      rcases List.infix_cons_iff.1 h with hpre | hin
      · obtain ⟨rfl, hmid⟩ := List.cons_prefix_cons.1 hpre
        refine ⟨hs, rest.take mid.length, ?_⟩
        rw [trail_take]
        exact List.prefix_iff_eq_take.1 hmid
      · exact ih (sound_apply hs r) hin

/-- The requests that are sent to a server at rest keep their distance, and it rests all the while. -/
theorem spaced_trail {s : State α} (hs : s.pool.Sound) {server : Server α} {earliest : Nat}
    (h : s.pool.Rests server earliest) (rs : List (Request α))
    (hlasts : ∀ t ∈ s.trail rs, ∀ n, t.notice? = some n → n.server.id = server.id → n.event ≠ .up)
    (hreach : ∀ t ∈ s.trail rs, t.handsOut server.id = true →
      server.options.policy.InReach t.before.clock) :
    Spaced server.options.policy.respite earliest
        (((s.trail rs).filter (Step.handsOut server.id)).map (·.before.clock.nanos)) ∧
      ∀ t ∈ s.trail rs, (∃ e, t.before.pool.Rests server e) ∧ ∃ e, t.after.pool.Rests server e := by
  induction rs generalizing s earliest with
  | nil => exact ⟨trivial, by simp⟩
  | cons r rest ih =>
      rw [trail_cons] at hlasts hreach ⊢
      -- Whether or not the first request is sent there, the server rests, and the others come later.
      obtain ⟨e, hafter, hspaced⟩ : ∃ e, (s.apply r).pool.Rests server e ∧
          ∀ times, Spaced server.options.policy.respite e times →
            Spaced server.options.policy.respite earliest
              ((if Step.handsOut server.id { before := s, request := r } then [s.clock.nanos]
                else []) ++ times) := by
        rcases Step.rests hs h (hlasts _ List.mem_cons_self) (hreach _ List.mem_cons_self) with
          ⟨hsent, hdue, hafter⟩ | ⟨hquiet, hafter⟩
        · exact ⟨_, hafter, fun times htimes => by rw [if_pos hsent]; exact ⟨hdue, htimes⟩⟩
        · exact ⟨_, hafter, fun times htimes => by rw [if_neg (by simp [hquiet])]; exact htimes⟩
      obtain ⟨htimes, hall⟩ := ih (sound_apply hs r) hafter
        (fun t ht => hlasts t (List.mem_cons_of_mem _ ht))
        (fun t ht => hreach t (List.mem_cons_of_mem _ ht))
      refine ⟨?_, List.forall_mem_cons.2 ⟨⟨⟨_, h⟩, ⟨_, hafter⟩⟩, hall⟩⟩
      have h' := hspaced _ htimes
      rw [List.filter_cons]
      cases hsent : Step.handsOut server.id { before := s, request := r } with
      | true => simpa [hsent] using h'
      | false => simpa [hsent] using h'

end State

/-- A machine that is asked for a server gives the one at `id` exactly if the operation hands it out. -/
theorem Step.handsOut_iff_perform {t : Step α} (id : ServerId) (hop : t.request.op = .next)
    {m : Machine α} (hm : m.state = t.before) (notify : Notice α → Run α Unit) :
    t.handsOut id = true ↔ ∃ (server : Server α) (m' : Machine α), server.id = id ∧
      perform notify t.request.caller .next m = .ok (.server (.ok server)) m' := by
  obtain ⟨m', hperform⟩ := perform_next hop hm notify
  rw [hperform]
  unfold handsOut
  cases t.answer? with
  | none => simp
  | some a => cases a <;> simp

/-- The operation `fall` takes the server down, and no operation of `period`, which comes next in the
course, brings it back. -/
structure Downtime (course : List (Step α)) (server : Server α) (fall : Step α)
    (period : List (Step α)) : Prop where
  placed : fall :: period <:+: course
  falls : ∃ n, fall.notice? = some n ∧ n.event = .down ∧ n.server = server
  lasts : ∀ t ∈ period, ∀ n, t.notice? = some n → n.server.id = server.id → n.event ≠ .up

/-- While a server is down, no request is sent to it before a respite is over, and each that is sent
begins another; so there are no more of them in any span from its loss on than respites fit into it.
Failures that are reported of it meanwhile change nothing, and no request brings it back. The clock
must be able to show the deadlines that are set. -/
theorem downtime_spaced (fuel : Nat) (clock : Instant) (requests : List (Request α))
    {server : Server α} {fall : Step α} {period : List (Step α)}
    (hdowntime : Downtime (({ clock } : State α).course fuel requests) server fall period)
    (htimeout : 0 < server.options.failTimeout.nanos)
    (hreach : ∀ t ∈ fall :: period, t = fall ∨ t.handsOut server.id = true →
      (t.before.clock.add? server.options.failTimeout).isSome = true ∨
        (t.before.clock.add? Policy.farFuture).isSome = true) :
    let loss := fall.before.clock.nanos
    let respite := min server.options.failTimeout.nanos Policy.farFuture.nanos
    let sent := (period.filter (Step.handsOut server.id)).map (·.before.clock.nanos)
    (∀ time ∈ sent, loss + respite ≤ time) ∧
    sent.Pairwise (fun time time' => time + respite ≤ time') ∧
    (∀ span, sent.countP (· ≤ loss + span) ≤ span / respite) ∧
    (∀ t ∈ period, t.before.pool.isDown server.id = true ∧ t.after.pool.isDown server.id = true) ∧
    (∀ t ∈ period, ∀ target error, t.request.op = .reportFailure target error →
      t.request.caller.resolve target = some server.id →
        t.after = t.before ∧ t.notice? = none ∧ t.tells = []) ∧
    ∀ t ∈ period, t.request.op = .next → ∀ (m : Machine α) (notify : Notice α → Run α Unit),
      m.state = t.before →
        (t.handsOut server.id = true ↔ ∃ (server' : Server α) (m' : Machine α),
          server'.id = server.id ∧
            perform notify t.request.caller .next m = .ok (.server (.ok server')) m') := by
  intro loss respite sent
  obtain ⟨n, hn, hdown, rfl⟩ := hdowntime.falls
  obtain ⟨hsound, rs, hperiod⟩ := State.trail_of_infix Pool.Sound.empty hdowntime.placed
  have hrests : fall.after.pool.Rests n.server (loss + respite) :=
    Step.rests_of_loss hsound hn hdown (hreach fall List.mem_cons_self (.inl rfl))
  have hsound' : fall.after.pool.Sound := State.sound_apply hsound fall.request
  subst hperiod
  obtain ⟨hspaced, hall⟩ := State.spaced_trail hsound' hrests rs hdowntime.lasts
    fun t ht hsent => hreach t (List.mem_cons_of_mem _ ht) (.inr hsent)
  have hpos : 0 < respite := Nat.lt_min.2 ⟨htimeout, by decide⟩
  refine ⟨fun time htime => hspaced.le_of_mem htime, hspaced.pairwise,
    fun span => hspaced.countP_le_div hpos span, ?_, ?_, ?_⟩
  · intro t ht
    obtain ⟨⟨_, hbefore⟩, ⟨_, hafter⟩⟩ := hall t ht
    exact ⟨hbefore.isDown, hafter.isDown⟩
  · intro t ht target error hop hid
    obtain ⟨⟨_, hbefore⟩, _⟩ := hall t ht
    exact Step.after_of_failure hbefore hop hid
  · intro t _ hop m notify hm
    exact Step.handsOut_iff_perform n.server.id hop hm notify

/-- The only server goes down, and is tried after ten seconds and after twenty-five more. A failure that
comes late, just before the second trial, does not put it off. -/
def trials : List (Request Unit) :=
  let client : Caller := { handle := some 0 }
  let server : Target := .server ⟨.primary, 0⟩
  [ { caller := client, op := .add (.primary 1) () },
    { caller := client, op := .reportFailure server none },
    { caller := client, op := .next },
    { caller := client, op := .advance (.ofSeconds 10) },
    { caller := client, op := .next },
    { caller := client, op := .advance (.ofSeconds 25) },
    { caller := client, op := .reportFailure server none },
    { caller := client, op := .next } ]

theorem downtime_spaced_trials :
    let course := ({ clock := ⟨0⟩ } : State Unit).course 1 trials
    let server : Server Unit := { id := ⟨.primary, 0⟩, options := .primary 1, data := () }
    let sent := ((course.drop 2).filter (Step.handsOut server.id)).map (·.before.clock.nanos)
    ∃ fall, course[1]? = some fall ∧ Downtime course server fall (course.drop 2) ∧
      0 < server.options.failTimeout.nanos ∧
      (∀ t ∈ fall :: course.drop 2, t = fall ∨ t.handsOut server.id = true →
        (t.before.clock.add? server.options.failTimeout).isSome = true ∨
          (t.before.clock.add? Policy.farFuture).isSome = true) ∧
      sent = [10000000000, 35000000000] ∧ sent.countP (· ≤ 36000000000) ≤ 3 := by
  intro course server sent
  have hlt : 1 < course.length := by decide +kernel
  let fall := course[1]
  have hsplit : fall :: course.drop 2 = course.drop 1 := (List.drop_eq_getElem_cons hlt).symm
  have hdowntime : Downtime course server fall (course.drop 2) := {
    placed := hsplit ▸ List.drop_suffix 1 course |>.isInfix
    falls := ⟨{ event := .down, server, error := none }, rfl, rfl, rfl⟩
    lasts := by
      intro t ht n hn
      have hquiet : (course.drop 2).all (fun t => t.notice?.isNone) = true := by decide +kernel
      have := List.all_eq_true.1 hquiet t ht
      simp [hn] at this }
  have hreach : ∀ t ∈ fall :: course.drop 2, t = fall ∨ t.handsOut server.id = true →
      (t.before.clock.add? server.options.failTimeout).isSome = true ∨
        (t.before.clock.add? Policy.farFuture).isSome = true := by
    intro t ht _
    have hall : (course.drop 1).all
        (fun t => (t.before.clock.add? (.ofSeconds 10)).isSome) = true := by decide +kernel
    exact .inl (List.all_eq_true.1 hall t (hsplit ▸ ht))
  have h := downtime_spaced 1 ⟨0⟩ trials hdowntime (by decide) hreach
  have hcount := h.2.2.1 36000000000
  have hloss : fall.before.clock.nanos = 0 := rfl
  have hrespite : min server.options.failTimeout.nanos Policy.farFuture.nanos = 10000000000 := by decide
  rw [hloss, Nat.zero_add, hrespite] at hcount
  exact ⟨fall, List.getElem?_eq_getElem hlt, hdowntime, by decide, hreach, by decide +kernel, hcount⟩

end TieredPool
