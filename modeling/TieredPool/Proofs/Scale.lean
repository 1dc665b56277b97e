import Mathlib.Data.List.Forall2
import Mathlib.Data.Option.Basic
import Mathlib.Tactic.Ring
import TieredPool.Proofs.Unrolling

/-!
# Scale — a pool whose weights are multiples of those of another

A pick compares credits, and credits are sums of weights. If all weights are `k` times as much, all credits
are, and comparing them comes to the same. So two pools that are handled alike, one of them with the weights
of the other times `k`, make the same choices and agree in everything but their weights and credits.

* `ServerOptions.Scaled`, `Server.Scaled`, `Slot.Scaled`, `Pool.Scaled`, `State.Scaled` — the second has `k`
  times the weights, and the credits that go with them, of the first.
* `Op.Scaled`, `Request.Scaled` — the same operation on either; what is added has `k` times the weight.
* `Group.Scaled.select` — a pick.
* `State.Scaled.apply`, `State.Scaled.notice?`, `State.Scaled.halts_eq` — an operation.
-/

namespace TieredPool

variable {α : Type} {k : Nat}

/-! ## Weights and credits times `k` -/

/-- The same options, but for an effective weight that is `k` times as much. -/
structure ServerOptions.Scaled (k : Nat) (o o' : ServerOptions) : Prop where
  weight : o'.effectiveWeight = k * o.effectiveWeight
  maxFails : o'.maxFails = o.maxFails
  failTimeout : o'.failTimeout = o.failTimeout
  isBackup : o'.isBackup = o.isBackup

structure Server.Scaled (k : Nat) (s s' : Server α) : Prop where
  id : s'.id = s.id
  data : s'.data = s.data
  options : s.options.Scaled k s'.options

structure Slot.Scaled (k : Nat) (s s' : Slot α) : Prop where
  server : s.server.Scaled k s'.server
  health : s'.health = s.health
  credit : s'.credit = k * s.credit

structure Group.Scaled (k : Nat) (g g' : Group α) : Prop where
  slots : List.Forall₂ (Slot.Scaled k) g.slots g'.slots
  cursor : g'.cursor = g.cursor

/-- The same operation on either pool. A server that is added to the one has a counterpart that is added
to the other; what is refused is refused by both for the same reason. -/
inductive Op.Scaled (k : Nat) : Op α → Op α → Prop
  | admitted {o o' : ServerOptions} {data : α} (check : o.check = .ok ()) (check' : o'.check = .ok ())
      (options : o.Scaled k o') : Scaled k (.add o data) (.add o' data)
  | refused {o o' : ServerOptions} {data data' : α} {why : OptionsError} (check : o.check = .error why)
      (check' : o'.check = .error why) : Scaled k (.add o data) (.add o' data')
  | next : Scaled k .next .next
  | reportSuccess (target : Target) : Scaled k (.reportSuccess target) (.reportSuccess target)
  | reportFailure (target : Target) (error : Option String) :
      Scaled k (.reportFailure target error) (.reportFailure target error)
  | count : Scaled k .count .count
  | install {script script' : List (Op α)} (label : Nat) (only : Option Event)
      (scripts : List.Forall₂ (Scaled k) script script') :
      Scaled k (.install label only script) (.install label only script')
  | clear : Scaled k .clear .clear
  | advance (span : Duration) : Scaled k (.advance span) (.advance span)
  | setClock (target : Instant) : Scaled k (.setClock target) (.setClock target)
  | panic : Scaled k .panic .panic

structure Handler.Scaled (k : Nat) (h h' : Handler α) : Prop where
  label : h'.label = h.label
  only : h'.only = h.only
  script : List.Forall₂ (Op.Scaled k) h.script h'.script
  holder : h'.holder = h.holder

structure Pool.Scaled (k : Nat) (p p' : Pool α) : Prop where
  primary : p.primary.Scaled k p'.primary
  backup : p.backup.Scaled k p'.backup
  primaryOnline : p'.primaryOnline = p.primaryOnline
  handler : Option.Rel (Handler.Scaled k) p.handler p'.handler

structure State.Scaled (k : Nat) (s s' : State α) : Prop where
  pool : s.pool.Scaled k s'.pool
  clock : s'.clock = s.clock

structure Request.Scaled (k : Nat) (r r' : Request α) : Prop where
  caller : r'.caller = r.caller
  op : r.op.Scaled k r'.op

structure Notice.Scaled (k : Nat) (n n' : Notice α) : Prop where
  event : n'.event = n.event
  server : n.server.Scaled k n'.server
  error : n'.error = n.error

structure Group.Pick.Scaled (k : Nat) (c c' : Group.Pick α) : Prop where
  server : c.server.Scaled k c'.server
  probe : c'.probe = c.probe

structure Pool.Choice.Scaled (k : Nat) (c c' : Pool.Choice α) : Prop where
  pick : c.pick.Scaled k c'.pick
  source : c'.source = c.source

namespace ServerOptions.Scaled

variable {o o' : ServerOptions}

theorem tier (h : o.Scaled k o') : o'.tier = o.tier := by
  simp [ServerOptions.tier, h.isBackup]

theorem policy (h : o.Scaled k o') : o'.policy = o.policy := by
  simp [ServerOptions.policy, h.isBackup, h.maxFails, h.failTimeout]

end ServerOptions.Scaled

theorem Handler.Scaled.reactsTo {h h' : Handler α} (hh : h.Scaled k h') (event : Event) :
    h'.reactsTo event = h.reactsTo event := by
  simp [Handler.reactsTo, hh.only]

theorem Server.Scaled.tracked {s s' : Server α} (h : s.Scaled k s') : s'.tracked = s.tracked := by
  simp [Server.tracked, h.options.policy]

/-! ## Slots -/

namespace Slot.Scaled

variable {s s' : Slot α} {now : Instant}

theorem weight (h : s.Scaled k s') : s'.weight = k * s.weight := h.server.options.weight

theorem policy (h : s.Scaled k s') : s'.policy = s.policy := h.server.options.policy

theorem isDown (h : s.Scaled k s') : s'.isDown = s.isDown := by
  simp [Slot.isDown, h.health]

theorem selectable (h : s.Scaled k s') (now : Instant) : s'.selectable now = s.selectable now := by
  simp [Slot.selectable, h.health]

theorem recordSuccess (h : s.Scaled k s') :
    s.recordSuccess.1.Scaled k s'.recordSuccess.1 ∧ s'.recordSuccess.2 = s.recordSuccess.2 := by
  have hhealth : s'.health.recordSuccess s'.policy = s.health.recordSuccess s.policy := by
    rw [h.health, h.policy]
  simp only [Slot.recordSuccess, hhealth]
  refine ⟨⟨h.server, rfl, ?_⟩, trivial⟩
  -- A credit that is dropped is zero in either pool.
  dsimp only
  split
  · simp
  · exact h.credit

theorem recordFailure (h : s.Scaled k s') (now : Instant) :
    (s.recordFailure now).1.Scaled k (s'.recordFailure now).1 ∧
      (s'.recordFailure now).2 = (s.recordFailure now).2 := by
  have hhealth : s'.health.recordFailure s'.policy now = s.health.recordFailure s.policy now := by
    rw [h.health, h.policy]
  simp only [Slot.recordFailure, hhealth]
  exact ⟨⟨h.server, rfl, h.credit⟩, trivial⟩

theorem accrue (h : s.Scaled k s') (now : Instant) : (s.accrue now).Scaled k (s'.accrue now) := by
  unfold Slot.accrue
  rw [h.selectable now]
  split
  · refine ⟨h.server, h.health, ?_⟩
    simp only [h.credit, h.weight]
    push_cast
    ring
  · exact h

theorem handOut (h : s.Scaled k s') (now : Instant) (total : Nat) :
    (s.handOut now total).Scaled k (s'.handOut now (k * total)) := by
  refine ⟨h.server, by simp [Slot.handOut, h.health, h.policy], ?_⟩
  simp only [Slot.handOut, h.credit]
  push_cast
  ring

end Slot.Scaled

/-! ## One tier -/

namespace Group.Scaled

variable {g g' : Group α} {l l' : List (Slot α)} {now : Instant}

theorem empty : ({} : Group α).Scaled k {} := ⟨.nil, rfl⟩

theorem size (h : g.Scaled k g') : g'.size = g.size := h.slots.length_eq.symm

theorem push {server server' : Server α} (h : g.Scaled k g') (hserver : server.Scaled k server') :
    (g.push server).Scaled k (g'.push server') := by
  refine ⟨List.rel_append h.slots (.cons ⟨hserver, rfl, ?_⟩ .nil), h.cursor⟩
  simp

theorem selectableWeight (h : List.Forall₂ (Slot.Scaled k) l l') (now : Instant) :
    selectableWeight now l' = k * selectableWeight now l := by
  induction h with
  | nil => rfl
  | cons hs _ ih =>
      simp only [Group.selectableWeight, hs.selectable now, hs.weight, ih]
      split
      · ring
      · ring

/-- The leader has the same position in either pool: multiplying by `k` keeps the order of credits, ties
among them. -/
theorem leader? (hk : 0 < k) (h : List.Forall₂ (Slot.Scaled k) l l') (now : Instant) :
    Option.Rel (fun found found' => found'.1 = found.1 ∧ found.2.Scaled k found'.2)
      (leader? now l) (leader? now l') := by
  induction h with
  | nil => exact .none
  | @cons s s' rest rest' hs hrest ih =>
      have hsel := hs.selectable now
      simp only [Group.leader?, hsel]
      generalize Group.leader? now rest = found at ih ⊢
      generalize Group.leader? now rest' = found' at ih ⊢
      cases ih with
      | none =>
          dsimp only
          split
          · exact .some ⟨rfl, hs⟩
          · exact .none
      | @some best best' hbest =>
          obtain ⟨i, best⟩ := best
          obtain ⟨i', best'⟩ := best'
          obtain ⟨rfl, hbest⟩ : i' = i ∧ best.Scaled k best' := hbest
          have horder : decide (best'.credit ≤ s'.credit) = decide (best.credit ≤ s.credit) := by
            rw [hbest.credit, hs.credit]
            exact decide_eq_decide.2 (Int.mul_le_mul_left (by exact_mod_cast hk))
          dsimp only
          rw [horder]
          split
          · exact .some ⟨rfl, hs⟩
          · exact .some ⟨rfl, hbest⟩

/-- Slots that are put in one place of either tier. -/
theorem set {s s' : Slot α} (h : List.Forall₂ (Slot.Scaled k) l l') (hs : s.Scaled k s') (i : Nat) :
    List.Forall₂ (Slot.Scaled k) (l.set i s) (l'.set i s') := by
  induction h generalizing i with
  | nil => exact .nil
  | cons hfirst hrest ih =>
      cases i with
      | zero => exact .cons hs hrest
      | succ i => exact .cons hfirst (ih i)

theorem select (hk : 0 < k) (h : g.Scaled k g') (now : Instant) :
    Option.Rel (Pick.Scaled k) (g.select now).1 (g'.select now).1 ∧
      (g.select now).2.Scaled k (g'.select now).2 := by
  have haccrued : List.Forall₂ (Slot.Scaled k) (g.slots.map (·.accrue now)) (g'.slots.map (·.accrue now)) :=
    List.rel_map (fun _ _ hs => hs.accrue now) h.slots
  have hleader := leader? hk haccrued now
  unfold Group.select
  dsimp only
  generalize Group.leader? now (g.slots.map (·.accrue now)) = found at hleader ⊢
  generalize Group.leader? now (g'.slots.map (·.accrue now)) = found' at hleader ⊢
  cases hleader with
  | none => exact ⟨.none, h⟩
  | @some best best' hbest =>
      obtain ⟨i, winner⟩ := best
      obtain ⟨i', winner'⟩ := best'
      obtain ⟨rfl, hwinner⟩ : i' = i ∧ winner.Scaled k winner' := hbest
      have hout := hwinner.handOut now (Group.selectableWeight now g.slots)
      rw [← selectableWeight h.slots now] at hout
      exact ⟨.some ⟨hwinner.server, hwinner.isDown⟩, set haccrued hout i', rfl⟩

end Group.Scaled

/-! ## The pool -/

namespace Pool.Scaled

variable {p p' : Pool α}

theorem group (h : p.Scaled k p') (tier : Tier) : (p.group tier).Scaled k (p'.group tier) := by
  cases tier with
  | primary => exact h.primary
  | backup => exact h.backup

theorem setGroup {g g' : Group α} (h : p.Scaled k p') (hg : g.Scaled k g') (tier : Tier) :
    (p.setGroup tier g).Scaled k (p'.setGroup tier g') := by
  cases tier with
  | primary => exact ⟨hg, h.backup, h.primaryOnline, h.handler⟩
  | backup => exact ⟨h.primary, hg, h.primaryOnline, h.handler⟩

theorem online (h : p.Scaled k p') {n n' : Nat} (hn : n' = n) :
    ({ p with primaryOnline := n } : Pool α).Scaled k { p' with primaryOnline := n' } :=
  ⟨h.primary, h.backup, hn, h.handler⟩

theorem install (h : p.Scaled k p') {handler handler' : Option (Handler α)}
    (hhandler : Option.Rel (Handler.Scaled k) handler handler') :
    ({ p with handler } : Pool α).Scaled k { p' with handler := handler' } :=
  ⟨h.primary, h.backup, h.primaryOnline, hhandler⟩

theorem slot? (h : p.Scaled k p') (id : ServerId) :
    Option.Rel (Slot.Scaled k) (p.slot? id) (p'.slot? id) := by
  have hget {l l' : List (Slot α)} (h : List.Forall₂ (Slot.Scaled k) l l') (i : Nat) :
      Option.Rel (Slot.Scaled k) l[i]? l'[i]? := by
    induction h generalizing i with
    | nil => exact .none
    | cons hs _ ih =>
        cases i with
        | zero => exact .some hs
        | succ i => exact ih i
  exact hget (h.group id.tier).slots id.index

theorem setSlot {s s' : Slot α} (h : p.Scaled k p') (hs : s.Scaled k s') (id : ServerId) :
    (p.setSlot id s).Scaled k (p'.setSlot id s') := by
  have hg := h.group id.tier
  have hset : Group.Scaled k
      { p.group id.tier with slots := (p.group id.tier).slots.set id.index s }
      { p'.group id.tier with slots := (p'.group id.tier).slots.set id.index s' } :=
    ⟨Group.Scaled.set hg.slots hs id.index, hg.cursor⟩
  exact h.setGroup hset id.tier

theorem register {o o' : ServerOptions} (h : p.Scaled k p') (ho : o.Scaled k o') (data : α) :
    (p.register o data).1.Scaled k (p'.register o' data).1 ∧
      (p.register o data).2.Scaled k (p'.register o' data).2 := by
  have hg := h.group o.tier
  have hserver : Server.Scaled k
      { id := { tier := o.tier, index := (p.group o.tier).size }, options := o, data }
      { id := { tier := o.tier, index := (p'.group o.tier).size }, options := o', data } :=
    ⟨by rw [hg.size], rfl, ho⟩
  simp only [Pool.register, ho.tier]
  refine ⟨hserver, ?_⟩
  split
  · refine (h.setGroup (hg.push hserver) o.tier).online ?_
    cases o.tier <;> simp [Pool.setGroup, h.primaryOnline]
  · exact h.setGroup (hg.push hserver) o.tier

theorem next (hk : 0 < k) (h : p.Scaled k p') (now : Instant) :
    Option.Rel (Choice.Scaled k) (p.next now).1 (p'.next now).1 ∧
      (p.next now).2.Scaled k (p'.next now).2 := by
  obtain ⟨hpick, hprimary⟩ := h.primary.select hk now
  obtain ⟨hpick', hbackup⟩ := h.backup.select hk now
  simp only [next_eq_nextInOrder, nextInOrder]
  generalize p.primary.select now = found at hpick hprimary ⊢
  generalize p'.primary.select now = found' at hpick hprimary ⊢
  rcases found with ⟨pick, g⟩
  rcases found' with ⟨pick', g'⟩
  cases hpick with
  | some hpick => exact ⟨.some ⟨hpick, rfl⟩, h.setGroup hprimary .primary⟩
  | none =>
      -- A search of the primaries leaves the backups as they are.
      have htried := h.setGroup hprimary .primary
      have hspare : (p.setGroup .primary g).backup.select now = p.backup.select now := rfl
      have hspare' : (p'.setGroup .primary g').backup.select now = p'.backup.select now := rfl
      simp only [hspare, hspare']
      generalize p.backup.select now = spare at hpick' hbackup ⊢
      generalize p'.backup.select now = spare' at hpick' hbackup ⊢
      rcases spare with ⟨pick, g⟩
      rcases spare' with ⟨pick', g'⟩
      cases hpick' with
      | some hpick => exact ⟨.some ⟨hpick, rfl⟩, htried.setGroup hbackup .backup⟩
      | none => exact ⟨.none, htried.setGroup hbackup .backup⟩

theorem reportSuccess (h : p.Scaled k p') (id : ServerId) :
    Option.Rel (Server.Scaled k) (p.reportSuccess id).1 (p'.reportSuccess id).1 ∧
      (p.reportSuccess id).2.Scaled k (p'.reportSuccess id).2 := by
  have hslot := h.slot? id
  unfold Pool.reportSuccess
  generalize p.slot? id = found at hslot ⊢
  generalize p'.slot? id = found' at hslot ⊢
  cases hslot with
  | none => exact ⟨.none, h⟩
  | @some s s' hs =>
      obtain ⟨hs', htransition⟩ := hs.recordSuccess
      dsimp only
      rw [htransition]
      have hset := h.setSlot hs' id
      split
      · exact ⟨.some hs'.server, hset.online (by rw [hset.primaryOnline])⟩
      · exact ⟨.none, hset⟩

theorem reportFailure (h : p.Scaled k p') (now : Instant) (id : ServerId) :
    Option.Rel (Server.Scaled k) (p.reportFailure now id).1 (p'.reportFailure now id).1 ∧
      (p.reportFailure now id).2.Scaled k (p'.reportFailure now id).2 := by
  have hslot := h.slot? id
  unfold Pool.reportFailure
  generalize p.slot? id = found at hslot ⊢
  generalize p'.slot? id = found' at hslot ⊢
  cases hslot with
  | none => exact ⟨.none, h⟩
  | @some s s' hs =>
      obtain ⟨hs', htransition⟩ := hs.recordFailure now
      dsimp only
      rw [htransition]
      have hset := h.setSlot hs' id
      split
      · exact ⟨.some hs'.server, hset.online (by rw [hset.primaryOnline])⟩
      · exact ⟨.none, hset⟩

end Pool.Scaled

/-! ## One operation -/

namespace State.Scaled

variable {s s' : State α} {r r' : Request α}

theorem through {caller : Caller} {f f' : Pool α → Pool α} (h : s.Scaled k s')
    (hf : (f s.pool).Scaled k (f' s'.pool)) : (s.through caller f).Scaled k (s'.through caller f') := by
  unfold State.through
  split
  · exact h
  · exact ⟨hf, h.clock⟩

theorem apply (hk : 0 < k) (h : s.Scaled k s') (hr : r.Scaled k r') :
    (s.apply r).Scaled k (s'.apply r') := by
  obtain ⟨caller, op⟩ := r
  obtain ⟨caller', op'⟩ := r'
  obtain ⟨rfl, hop⟩ : caller' = caller ∧ op.Scaled k op' := ⟨hr.caller, hr.op⟩
  obtain ⟨hpool, hclock⟩ := h
  cases hop with
  | admitted check check' options =>
      simp only [State.apply, check, check']
      exact through ⟨hpool, hclock⟩ (hpool.register options _).2
  | refused check check' =>
      simp only [State.apply, check, check']
      exact through ⟨hpool, hclock⟩ hpool
  | next =>
      simp only [State.apply, hclock]
      exact through ⟨hpool, hclock⟩ (hpool.next hk s.clock).2
  | reportSuccess target =>
      cases hid : caller'.resolve target with
      | none => simpa only [State.apply, hid] using ⟨hpool, hclock⟩
      | some id => simpa only [State.apply, hid] using ⟨(hpool.reportSuccess id).2, hclock⟩
  | reportFailure target error =>
      cases hid : caller'.resolve target with
      | none => simpa only [State.apply, hid] using ⟨hpool, hclock⟩
      | some id =>
          simp only [State.apply, hid, hclock]
          exact ⟨(hpool.reportFailure s.clock id).2, rfl⟩
  | count => exact ⟨hpool, hclock⟩
  | install label only scripts =>
      simp only [State.apply]
      refine through ⟨hpool, hclock⟩ ?_
      exact hpool.install (.some ⟨rfl, rfl, scripts, rfl⟩)
  | clear =>
      simp only [State.apply]
      refine through ⟨hpool, hclock⟩ ?_
      exact hpool.install .none
  | advance span => exact ⟨hpool, by simp only [State.apply, hclock]⟩
  | setClock target => exact ⟨hpool, by simp only [State.apply, hclock]⟩
  | panic => exact ⟨hpool, hclock⟩

/-- The same change of availability comes about. -/
theorem notice? (h : s.Scaled k s') (hr : r.Scaled k r') :
    Option.Rel (Notice.Scaled k) (s.notice? r) (s'.notice? r') := by
  obtain ⟨caller, op⟩ := r
  obtain ⟨caller', op'⟩ := r'
  obtain ⟨rfl, hop⟩ : caller' = caller ∧ op.Scaled k op' := ⟨hr.caller, hr.op⟩
  cases hop with
  | reportSuccess target =>
      cases hid : caller'.resolve target with
      | none => simp [State.notice?, hid]
      | some id =>
          obtain ⟨hback, _⟩ := h.pool.reportSuccess id
          simp only [State.notice?, hid, Option.bind_some]
          generalize (s.pool.reportSuccess id).1 = found at hback ⊢
          generalize (s'.pool.reportSuccess id).1 = found' at hback ⊢
          cases hback with
          | none => exact .none
          | some hserver => exact .some ⟨rfl, hserver, rfl⟩
  | reportFailure target error =>
      cases hid : caller'.resolve target with
      | none => simp [State.notice?, hid]
      | some id =>
          obtain ⟨hlost, _⟩ := h.pool.reportFailure s.clock id
          simp only [State.notice?, hid, Option.bind_some, h.clock]
          generalize (s.pool.reportFailure s.clock id).1 = found at hlost ⊢
          generalize (s'.pool.reportFailure s.clock id).1 = found' at hlost ⊢
          cases hlost with
          | none => exact .none
          | some hserver => exact .some ⟨rfl, hserver, rfl⟩
  | _ => exact .none

theorem halts (h : s.Scaled k s') (hr : r.Scaled k r') : s'.halts r' = s.halts r := by
  have hclock := h.clock
  obtain ⟨caller, op⟩ := r
  obtain ⟨caller', op'⟩ := r'
  have hop : op.Scaled k op' := hr.op
  cases hop <;> simp [State.halts, hclock]

end State.Scaled
end TieredPool
