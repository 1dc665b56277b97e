import Mathlib.Algebra.GroupWithZero.Nat
import TieredPool.Simulation
import TieredPool.Proofs.Registration
import TieredPool.Url.Parse

/-!
# Accounting — what the figures of a simulation add up to

Every request either reaches a server, after as many waits as there were attempts in vain, or is given
up after the last attempt, which no wait follows. Whatever chance decides, all figures of a report
follow from that.

* `InOrder` — picks by name, in order and each name once; `names_addPick` — counting one more of them
  leaves the names as they are.
* `Tally.Ends` — how one request ends; `Tally.Balanced` — the figures after some requests.
* `Simulation.Passes` — the pool goes on, and time goes by.
* `Simulation.Settles` — one request from its first attempt to its end; `Simulation.run_ok` — all of
  them.
* `simulation_accounts` — the figures of every simulation that comes to its report.
-/

namespace TieredPool

variable {α β γ : Type}

/-! ## Picks by name -/

/-- The names come in order, each of them once. -/
def InOrder (picks : List (String × Nat)) : Prop := (picks.map (·.1)).Pairwise (· < ·)

theorem mem_names_addPick {name : String} {n : Nat} {picks : List (String × Nat)} {other : String} :
    other ∈ (addPick name n picks).map (·.1) ↔ other = name ∨ other ∈ picks.map (·.1) := by
  induction picks with
  | nil => simp [addPick]
  | cons p rest ih =>
      unfold addPick
      split
      case isTrue heq => simp [heq]
      case isFalse hne =>
        split
        · simp
        · rw [List.map_cons, List.mem_cons, ih, List.map_cons, List.mem_cons]
          exact or_left_comm

theorem inOrder_addPick {picks : List (String × Nat)} (h : InOrder picks) (name : String) (n : Nat) :
    InOrder (addPick name n picks) := by
  induction picks with
  | nil => simp [InOrder, addPick]
  | cons p rest ih =>
      obtain ⟨hfirst, hrest⟩ := List.pairwise_cons.1 h
      unfold addPick
      split
      case isTrue heq =>
        subst heq
        exact h
      case isFalse hne =>
        split
        case isTrue hlt =>
          refine List.pairwise_cons.2 ⟨fun other hother => ?_, h⟩
          rcases List.mem_cons.1 hother with rfl | hother
          · exact hlt
          · exact String.lt_trans hlt (hfirst other hother)
        case isFalse hnlt =>
          have hlt : p.1 < name := by
            rcases Std.lt_trichotomy p.1 name with hlt | heq | hgt
            · exact hlt
            · exact absurd heq hne
            · exact absurd hgt hnlt
          refine List.pairwise_cons.2 ⟨fun other hother => ?_, ih hrest⟩
          rcases mem_names_addPick.1 hother with rfl | hother
          · exact hlt
          · exact hfirst other hother

/-- A name that is there already keeps its place. -/
theorem names_addPick {picks : List (String × Nat)} (h : InOrder picks) {name : String}
    (hname : name ∈ picks.map (·.1)) (n : Nat) :
    (addPick name n picks).map (·.1) = picks.map (·.1) := by
  induction picks with
  | nil => cases hname
  | cons p rest ih =>
      obtain ⟨hfirst, hrest⟩ := List.pairwise_cons.1 h
      unfold addPick
      split
      case isTrue heq => rw [List.map_cons, List.map_cons, heq]
      case isFalse hne =>
        have hlater : name ∈ rest.map (·.1) := (List.mem_cons.1 hname).resolve_left (Ne.symm hne)
        -- It comes after the first name, so it is not put before it.
        have hnlt : ¬ name < p.1 := fun hlt =>
          String.lt_irrefl _ (String.lt_trans hlt (hfirst name hlater))
        rw [if_neg hnlt, List.map_cons, List.map_cons, ih hrest hlater]

theorem sum_addPick (name : String) (n : Nat) (picks : List (String × Nat)) :
    ((addPick name n picks).map (·.2)).sum = (picks.map (·.2)).sum + n := by
  induction picks with
  | nil => simp [addPick]
  | cons p rest ih =>
      unfold addPick
      split
      · simp only [List.map_cons, List.sum_cons]
        omega
      · split
        · simp only [List.map_cons, List.sum_cons]
          omega
        · simp only [List.map_cons, List.sum_cons, ih]
          omega

/-- The empty account of some names: they are in order, and nothing has been picked. -/
theorem noPicks_spec (names : List String) :
    InOrder (noPicks names) ∧ (∀ name, name ∈ (noPicks names).map (·.1) ↔ name ∈ names) ∧
      ((noPicks names).map (·.2)).sum = 0 := by
  -- The names are entered one by one, after any that are there already.
  have hfold (picks : List (String × Nat)) (h : InOrder picks) :
      InOrder (names.foldl (fun ps name => addPick name 0 ps) picks) ∧
        (∀ name, name ∈ (names.foldl (fun ps name => addPick name 0 ps) picks).map (·.1) ↔
          name ∈ names ∨ name ∈ picks.map (·.1)) ∧
        ((names.foldl (fun ps name => addPick name 0 ps) picks).map (·.2)).sum =
          (picks.map (·.2)).sum := by
    induction names generalizing picks with
    | nil => exact ⟨h, by simp, rfl⟩
    | cons name rest ih =>
        obtain ⟨horder, hmem, hsum⟩ := ih _ (inOrder_addPick h name 0)
        refine ⟨horder, fun other => ?_, ?_⟩
        · rw [List.foldl_cons, hmem, mem_names_addPick, List.mem_cons, or_assoc]
          exact or_left_comm
        · rw [List.foldl_cons, hsum, sum_addPick, Nat.add_zero]
  simpa [noPicks] using hfold [] (by simp [InOrder])

theorem picksOf_cons (p : String × Nat) (picks : List (String × Nat)) (name : String) :
    picksOf (p :: picks) name = if p.1 = name then p.2 else picksOf picks name := by
  by_cases hp : p.1 = name <;> simp [picksOf, hp]

theorem picksOf_of_notMem {picks : List (String × Nat)} {name : String}
    (h : name ∉ picks.map (·.1)) : picksOf picks name = 0 := by
  induction picks with
  | nil => rfl
  | cons p rest ih =>
      rw [List.map_cons, List.mem_cons, not_or] at h
      rw [picksOf_cons, if_neg (Ne.symm h.1), ih h.2]

/-- The count under a name goes up, and under no other. -/
theorem picksOf_addPick {picks : List (String × Nat)} (h : InOrder picks) (name : String) (n : Nat)
    (other : String) :
    picksOf (addPick name n picks) other = picksOf picks other + if name = other then n else 0 := by
  induction picks with
  | nil => by_cases hname : name = other <;> simp [addPick, picksOf, hname]
  | cons p rest ih =>
      obtain ⟨hfirst, hrest⟩ := List.pairwise_cons.1 h
      unfold addPick
      split
      case isTrue heq =>
        subst heq
        rw [picksOf_cons, picksOf_cons]
        split <;> rfl
      case isFalse hne =>
        split
        case isTrue hlt =>
          -- The name comes before all others, so it has not been there yet.
          rw [picksOf_cons]
          split
          case isTrue heq =>
            have hnew : other ∉ (p :: rest).map (·.1) := by
              subst heq
              rw [List.map_cons, List.mem_cons, not_or]
              refine ⟨Ne.symm hne, fun hmem => ?_⟩
              exact String.lt_irrefl _ (String.lt_trans hlt (hfirst name hmem))
            rw [picksOf_of_notMem hnew, Nat.zero_add]
          case isFalse => rfl
        case isFalse =>
          rw [picksOf_cons, picksOf_cons, ih hrest]
          split
          case isTrue heq =>
            subst heq
            rw [if_neg (Ne.symm hne), Nat.add_zero]
          case isFalse => rfl

theorem picksOf_le_sum (picks : List (String × Nat)) (name : String) :
    picksOf picks name ≤ (picks.map (·.2)).sum := by
  induction picks with
  | nil => exact Nat.le_refl _
  | cons p rest ih =>
      rw [picksOf_cons, List.map_cons, List.sum_cons]
      split
      · exact Nat.le_add_right _ _
      · exact Nat.le_trans ih (Nat.le_add_left _ _)

theorem picksOf_noPicks (names : List String) (name : String) : picksOf (noPicks names) name = 0 :=
  Nat.le_zero.1 ((noPicks_spec names).2.2 ▸ picksOf_le_sum (noPicks names) name)

/-! ## The books -/

/-- How one request ends, after so many waits: it reaches a server under one of the names, or is given
up when no attempt is `left`. -/
inductive Tally.Ends (names : List String) (left waits : Nat) (t t' : Tally) : Prop
  | served (name : String) (known : name ∈ names) (le : waits ≤ left)
      (succeeded : t'.succeeded + t'.failed = t.succeeded + t.failed + 1)
      (unavailable : t'.unavailable = t.unavailable + waits) (dropped : t'.dropped = t.dropped)
      (picks : t'.picks = addPick name 1 t.picks)
  | dropped (eq : waits = left) (succeeded : t'.succeeded + t'.failed = t.succeeded + t.failed)
      (unavailable : t'.unavailable = t.unavailable + waits + 1) (dropped : t'.dropped = t.dropped + 1)
      (picks : t'.picks = t.picks)

/-- The figures after `n` requests, each with so many attempts `left` after its first, and `waits` waits
in all of them together. -/
structure Tally.Balanced (names : List String) (left n waits : Nat) (t : Tally) : Prop where
  requests : t.succeeded + t.failed + t.dropped = n
  inOrder : InOrder t.picks
  names : ∀ name, name ∈ t.picks.map (·.1) ↔ name ∈ names
  picked : (t.picks.map (·.2)).sum = t.succeeded + t.failed
  unavailable : t.unavailable = t.dropped + waits
  least : t.dropped * left ≤ waits
  most : waits ≤ t.dropped * left + (t.succeeded + t.failed) * left

/-- An attempt in vain and the wait after it come before the rest of a request. -/
theorem Tally.Ends.wait {names : List String} {left waits : Nat} {t t₁ t' : Tally}
    (h : t₁.Ends names left waits t') (ht : t₁ = { t with unavailable := t.unavailable + 1 }) :
    t.Ends names (left + 1) (waits + 1) t' := by
  subst ht
  cases h with
  | served name known le succeeded unavailable dropped picks =>
      exact .served name known (Nat.succ_le_succ le) succeeded
        (by rw [unavailable]; exact Nat.add_right_comm _ _ _) dropped picks
  | dropped eq succeeded unavailable dropped picks =>
      exact .dropped (congrArg (· + 1) eq) succeeded
        (by rw [unavailable]; exact congrArg (· + 1) (Nat.add_right_comm _ _ _)) dropped picks

namespace Tally.Balanced

variable {names : List String} {left n waits waits' : Nat} {t t' : Tally}

theorem start {configured : List String} (h : ∀ name, name ∈ configured ↔ name ∈ names) (left : Nat) :
    Balanced names left 0 0 { picks := noPicks configured } := by
  obtain ⟨horder, hnames, hsum⟩ := noPicks_spec configured
  exact ⟨rfl, horder, fun name => (hnames name).trans (h name), hsum, rfl, by simp, by simp⟩

theorem step (h : Balanced names left n waits t) (hends : t.Ends names left waits' t') :
    Balanced names left (n + 1) (waits + waits') t' := by
  cases hends with
  | served name known le succeeded unavailable dropped picks =>
      have hkeys := names_addPick h.inOrder ((h.names name).2 known) 1
      refine ⟨?_, ?_, ?_, ?_, ?_, ?_, ?_⟩
      · have := h.requests
        omega
      · rw [picks]
        exact inOrder_addPick h.inOrder name 1
      · rw [picks, hkeys]
        exact h.names
      · rw [picks, sum_addPick, h.picked, succeeded]
      · have := h.unavailable
        omega
      · have := h.least
        rw [dropped]
        omega
      · have := h.most
        rw [dropped, succeeded, Nat.succ_mul]
        omega
  | dropped eq succeeded unavailable dropped picks =>
      refine ⟨?_, ?_, ?_, ?_, ?_, ?_, ?_⟩
      · have := h.requests
        omega
      · rw [picks]
        exact h.inOrder
      · rw [picks]
        exact h.names
      · rw [picks, h.picked, succeeded]
      · have := h.unavailable
        omega
      · have := h.least
        rw [dropped, Nat.succ_mul]
        omega
      · have := h.most
        rw [dropped, succeeded, Nat.succ_mul]
        omega

theorem bounds (h : Balanced names left n waits t) :
    t.dropped * (left + 1) ≤ t.unavailable ∧
      t.unavailable ≤ t.dropped * (left + 1) + (n - t.dropped) * left := by
  have hleast := h.least
  have hmost := h.most
  have hunavailable := h.unavailable
  have hserved : n - t.dropped = t.succeeded + t.failed := by
    have := h.requests
    omega
  rw [hserved, Nat.mul_succ]
  omega

end Tally.Balanced

/-! ## Steps of a simulation -/

/-- An operation that is heard of in silence is all that is carried out. -/
theorem State.unroll_of_silent {s : State α} {r : Request α}
    (h : ∀ handler, (s.apply r).pool.handler = some handler → handler.script = []) (fuel : Nat) :
    (s.unroll fuel r).done = [r] := by
  cases hn : s.notice? r with
  | none => rw [unroll_of_quiet hn]
  | some n =>
      cases hhandler : (s.apply r).pool.handler with
      | none => rw [unroll_of_no_handler hn hhandler]
      | some handler =>
          cases fuel with
          | zero => rw [unroll_zero hn hhandler]
          | succ fuel =>
              rw [unroll_succ hn hhandler, h handler hhandler]
              split <;> rfl

theorem perform_ok_of_silent {fuel : Nat} {r : Request α} {a : Answer α} {m m' : Machine α}
    (hsilent : ∀ handler, (m.state.apply r).pool.handler = some handler → handler.script = [])
    (h : perform (notify fuel) r.caller r.op m = .ok a m') : m'.state = m.state.apply r := by
  have hunroll := perform_unroll fuel m r
  rw [Run.Unrolls, h] at hunroll
  rw [hunroll.2.state_eq, State.unroll_of_silent hsilent]
  rfl

namespace Simulation

variable {rng : RandomSource γ} {retry : RetryConfig} {params : SimulationParams}
  {s s' : Simulation γ}

theorem onPool_ok {x : Run Endpoint β} {b : β} (h : onPool x s = .ok b s') :
    ∃ m, x s.machine = .ok b m ∧ s' = { s with machine := m } := by
  unfold onPool at h
  split at h
  case h_1 b' m hx =>
    cases h
    exact ⟨m, hx, rfl⟩
  case h_2 => cases h

theorem record_ok {f : Tally → Tally} (h : record f s = .ok () s') :
    s' = { s with tally := f s.tally } := by
  cases h
  rfl

theorem draw_ok {f : γ → β × γ} {b : β} (h : draw f s = .ok b s') :
    b = (f s.random).1 ∧ s' = { s with random := (f s.random).2 } := by
  cases h
  exact ⟨rfl, rfl⟩

/-- The pool is sound, and its handler does nothing. -/
structure InService (s : Simulation γ) : Prop where
  sound : s.machine.pool.Sound
  silent : ∀ handler, s.machine.pool.handler = some handler → handler.script = []

/-- From `s` to `s'` the pool has gone on, and the clock by so many nanoseconds. -/
structure Passes (nanos : Nat) (s s' : Simulation γ) : Prop where
  pool : s.machine.pool.Continues s'.machine.pool
  clock : s'.machine.clock.nanos = s.machine.clock.nanos + nanos

theorem Passes.refl (s : Simulation γ) : s.Passes 0 s := ⟨.refl _, rfl⟩

theorem Passes.trans {nanos nanos' : Nat} {s'' : Simulation γ} (h : s.Passes nanos s')
    (h' : s'.Passes nanos' s'') : s.Passes (nanos + nanos') s'' where
  pool := h.pool.trans h'.pool
  clock := by rw [h'.clock, h.clock, Nat.add_assoc]

theorem Passes.inService {nanos : Nat} (h : s.Passes nanos s') (hs : s.InService) : s'.InService where
  sound := h.pool.sound hs.sound
  silent := by
    rw [h.pool.handler]
    exact hs.silent

/-- An outcome that is reported while the handler does nothing. -/
theorem passes_of_perform (hs : s.InService) (fuel : Nat) {r : Request Endpoint}
    {a : Answer Endpoint} {m : Machine Endpoint}
    (hcontinues : s.machine.pool.Continues (s.machine.state.apply r).pool)
    (hclock : (s.machine.state.apply r).clock = s.machine.clock)
    (h : perform (notify fuel) r.caller r.op s.machine = .ok a m) :
    s.Passes 0 { s with machine := m } := by
  have hstate : m.state = s.machine.state.apply r :=
    perform_ok_of_silent (by rw [hcontinues.handler]; exact hs.silent) h
  have hpool : m.pool = (s.machine.state.apply r).pool := congrArg State.pool hstate
  have hclock' : m.clock = s.machine.clock := (congrArg State.clock hstate).trans hclock
  exact ⟨hpool ▸ hcontinues, congrArg Instant.nanos hclock'⟩

theorem passes_of_reportSuccess (hs : s.InService) {fuel : Nat} {id : ServerId} {m : Machine Endpoint}
    (h : Run.reportSuccess (notify fuel) id s.machine = .ok () m) :
    s.Passes 0 { s with machine := m } :=
  passes_of_perform hs fuel (r := { caller := {}, op := .reportSuccess (.server id) })
    (.report (Pool.report_reportSuccess id _) fun hp => hp.reportSuccess id) rfl
    (by simp [perform, Caller.resolve, h]; rfl)

theorem passes_of_reportFailure (hs : s.InService) {fuel : Nat} {id : ServerId}
    {error : Option String} {m : Machine Endpoint}
    (h : Run.reportFailure (notify fuel) id error s.machine = .ok () m) :
    s.Passes 0 { s with machine := m } :=
  passes_of_perform hs fuel (r := { caller := {}, op := .reportFailure (.server id) error })
    (.report (Pool.report_reportFailure hs.sound.healthy _ id) fun hp => hp.reportFailure _ id) rfl
    (by simp [perform, Caller.resolve, h]; rfl)

/-- One more request has reached a server, and the picks are these now. -/
structure Serves (picks : List (String × Nat)) (t t' : Tally) : Prop where
  succeeded : t'.succeeded + t'.failed = t.succeeded + t.failed + 1
  unavailable : t'.unavailable = t.unavailable
  dropped : t'.dropped = t.dropped
  picks : t'.picks = picks

/-- The outcome of a request is counted and reported. -/
theorem outcome_ok {id : ServerId} {error : Option String} {fails : Bool} (hs : s.InService)
    (h : (if fails = true then do
        record fun t => { t with failed := t.failed + 1 }
        onPool (Run.reportFailure (notify eventDepth) id error)
      else do
        record fun t => { t with succeeded := t.succeeded + 1 }
        onPool (Run.reportSuccess (notify eventDepth) id) : Sim γ Unit) s = .ok () s') :
    s.Passes 0 s' ∧ Serves s.tally.picks s.tally s'.tally := by
  cases fails with
  | true =>
      rw [if_pos rfl, bind_eq_ok_iff] at h
      obtain ⟨_, s₁, hfailed, hreport⟩ := h
      obtain rfl := record_ok hfailed
      obtain ⟨m, hm, rfl⟩ := onPool_ok hreport
      obtain ⟨hpool, hclock⟩ := passes_of_reportFailure hs hm
      exact ⟨⟨hpool, hclock⟩, ⟨rfl, rfl, rfl, rfl⟩⟩
  | false =>
      rw [if_neg (by simp), bind_eq_ok_iff] at h
      obtain ⟨_, s₁, hsucceeded, hreport⟩ := h
      obtain rfl := record_ok hsucceeded
      obtain ⟨m, hm, rfl⟩ := onPool_ok hreport
      obtain ⟨hpool, hclock⟩ := passes_of_reportSuccess hs hm
      exact ⟨⟨hpool, hclock⟩, ⟨Nat.add_right_comm _ _ _, rfl, rfl, rfl⟩⟩

/-- A request that reached a server. -/
theorem finish_ok {server : Server Endpoint} (hs : s.InService)
    (h : finish rng params server s = .ok () s') :
    s.Passes 0 s' ∧ Serves (addPick server.data.name 1 s.tally.picks) s.tally s'.tally := by
  simp only [finish, bind_eq_ok_iff] at h
  obtain ⟨_, s₁, hpick, hrest⟩ := h
  obtain rfl := record_ok hpick
  -- Whether it fails is settled by its name or by chance, and then it is reported.
  split at hrest
  · rw [bind_eq_ok_iff] at hrest
    obtain ⟨fails, s₂, hbroken, houtcome⟩ := hrest
    cases hbroken
    obtain ⟨⟨hpool, hclock⟩, ⟨hsucceeded, hunavailable, hdropped, hpicks⟩⟩ :=
      outcome_ok (by exact ⟨hs.sound, hs.silent⟩) houtcome
    exact ⟨⟨hpool, hclock⟩, ⟨hsucceeded, hunavailable, hdropped, hpicks⟩⟩
  · rw [bind_eq_ok_iff] at hrest
    obtain ⟨fails, s₂, hdraw, houtcome⟩ := hrest
    obtain ⟨_, rfl⟩ := draw_ok hdraw
    obtain ⟨⟨hpool, hclock⟩, ⟨hsucceeded, hunavailable, hdropped, hpicks⟩⟩ :=
      outcome_ok (by exact ⟨hs.sound, hs.silent⟩) houtcome
    exact ⟨⟨hpool, hclock⟩, ⟨hsucceeded, hunavailable, hdropped, hpicks⟩⟩

/-- Time goes by, and nothing else happens. -/
theorem advance_ok {span : Duration} (h : onPool (Run.advance span) s = .ok () s') :
    s.Passes span.nanos s' ∧ s'.tally = s.tally := by
  obtain ⟨m, hm, rfl⟩ := onPool_ok h
  obtain ⟨hpool, hclock⟩ := Run.advance_ok hm
  have hcontinues : s.machine.pool.Continues m.pool := by
    rw [hpool]
    exact .refl _
  exact ⟨⟨hcontinues, hclock⟩, rfl⟩

/-- A wait is as long as chance and the attempt make it. -/
theorem wait_ok {attempt : Nat} (h : wait rng retry attempt s = .ok () s') :
    ∃ delay, (∃ g, (retry.delay rng attempt g).1 = some delay) ∧ s.Passes delay.nanos s' ∧
      s'.tally = s.tally := by
  simp only [wait, bind_eq_ok_iff] at h
  obtain ⟨d, s₁, hdraw, hadvance⟩ := h
  obtain ⟨hd, rfl⟩ := draw_ok hdraw
  cases d with
  | none => cases hadvance
  | some delay =>
      obtain ⟨⟨hpool, hclock⟩, htally⟩ := advance_ok hadvance
      exact ⟨delay, ⟨s.random, hd.symm⟩, ⟨hpool, hclock⟩, htally⟩

/-- An attempt reaches a server that the pool holds, or goes on without one. -/
theorem tryOnce_ok {otherwise : PoolError → Sim γ Unit} (hs : s.InService)
    (h : tryOnce rng params otherwise s = .ok () s') :
    (∃ server ∈ s.machine.pool.servers, s.Passes 0 s' ∧
        Serves (addPick server.data.name 1 s.tally.picks) s.tally s'.tally) ∨
      (¬ s.machine.pool.Reliable ∧ ∃ e s₁, s.Passes 0 s₁ ∧
        s₁.tally = { s.tally with unavailable := s.tally.unavailable + 1 } ∧
        otherwise e s₁ = .ok () s') := by
  simp only [tryOnce, bind_eq_ok_iff] at h
  obtain ⟨a, s₁, hnext, hrest⟩ := h
  obtain ⟨m, hm, rfl⟩ := onPool_ok hnext
  obtain ⟨ha, hstate⟩ := Run.next_ok hm
  have hpool : m.pool = (s.machine.pool.next s.machine.clock).2 := congrArg State.pool hstate
  have hclock : m.clock = s.machine.clock := congrArg State.clock hstate
  have hpasses : s.Passes 0 { s with machine := m } :=
    ⟨hpool ▸ .next s.machine.clock s.machine.pool, congrArg Instant.nanos hclock⟩
  cases hc : (s.machine.pool.next s.machine.clock).1 with
  | some c =>
      rw [ha, hc] at hrest
      obtain ⟨hpasses', hserves⟩ := finish_ok (hpasses.inService hs) hrest
      exact .inl ⟨c.pick.server, hs.sound.mem_servers_of_next hc, hpasses.trans hpasses', hserves⟩
  | none =>
      rw [ha, hc] at hrest
      simp only [Run.served, bind_eq_ok_iff] at hrest
      obtain ⟨_, s₁, hcount, hotherwise⟩ := hrest
      obtain rfl := record_ok hcount
      refine .inr ⟨fun hreliable => hs.sound.next_ne_none hreliable _ hc, _, _, ?_, ?_, hotherwise⟩
      · exact ⟨hpasses.pool, hpasses.clock⟩
      · rfl

/-- The delays were drawn before retries number `first` and up, `count` of them at most. -/
def Drawn (rng : RandomSource γ) (retry : RetryConfig) (first count : Nat) (delays : List Duration) :
    Prop :=
  ∀ d ∈ delays, ∃ attempt g, first ≤ attempt ∧ attempt < first + count ∧
    (retry.delay rng attempt g).1 = some d

def total (delays : List Duration) : Nat := (delays.map Duration.nanos).sum

/-- The names of the servers that the pool holds. -/
def names (s : Simulation γ) : List String := s.machine.pool.servers.map fun server => server.data.name

theorem mem_names {name : String} :
    name ∈ s.names ↔ ∃ options, (name, options) ∈ s.machine.pool.labels := by
  simp only [names, Pool.labels, List.mem_map, Prod.mk.injEq]
  constructor
  · rintro ⟨server, hserver, hname⟩
    exact ⟨server.options, server, hserver, hname, rfl⟩
  · rintro ⟨_, server, hserver, hname, _⟩
    exact ⟨server, hserver, hname⟩

theorem Passes.names {nanos : Nat} (h : s.Passes nanos s') : s'.names = s.names := by
  rw [Simulation.names, h.pool.servers, Simulation.names]

/-- From `s` to `s'` one request has come to its end after the waits `delays`, from attempt number
`attempt` on and with `left` attempts after that. -/
structure Settles (rng : RandomSource γ) (retry : RetryConfig) (attempt left : Nat)
    (delays : List Duration) (s s' : Simulation γ) : Prop where
  drawn : Drawn rng retry attempt left delays
  passes : s.Passes (total delays) s'
  ends : s.tally.Ends s.names left delays.length s'.tally
  reliable : s.machine.pool.Reliable → delays = [] ∧ s'.tally.dropped = s.tally.dropped

theorem Settles.of_serves {attempt left : Nat} {server : Server Endpoint}
    (hserver : server ∈ s.machine.pool.servers) (hpasses : s.Passes 0 s')
    (hserves : Serves (addPick server.data.name 1 s.tally.picks) s.tally s'.tally) :
    Settles rng retry attempt left [] s s' where
  drawn := by simp [Drawn]
  passes := hpasses
  ends := .served server.data.name (List.mem_map_of_mem hserver) (Nat.zero_le _) hserves.succeeded
    hserves.unavailable hserves.dropped hserves.picks
  reliable := fun _ => ⟨rfl, hserves.dropped⟩

/-- After an attempt in vain comes a wait, and the rest of the request. -/
theorem Settles.wait {attempt left : Nat} {delays : List Duration} {delay : Duration}
    {s₁ s₂ : Simulation γ} (hvain : ¬ s.machine.pool.Reliable) (hpasses : s.Passes 0 s₁)
    (htally : s₁.tally = { s.tally with unavailable := s.tally.unavailable + 1 })
    (hdrawn : ∃ g, (retry.delay rng attempt g).1 = some delay) (hpasses' : s₁.Passes delay.nanos s₂)
    (htally' : s₂.tally = s₁.tally) (h : Settles rng retry (attempt + 1) left delays s₂ s') :
    Settles rng retry attempt (left + 1) (delay :: delays) s s' where
  drawn := by
    intro d hd
    rcases List.mem_cons.1 hd with rfl | hd
    · obtain ⟨g, hg⟩ := hdrawn
      exact ⟨attempt, g, Nat.le_refl _, by omega, hg⟩
    · obtain ⟨k, g, hfirst, hlast, hg⟩ := h.drawn d hd
      exact ⟨k, g, by omega, by omega, hg⟩
  passes := by
    have hall := (hpasses.trans hpasses').trans h.passes
    simpa [total] using hall
  ends := by
    have hnames : s₂.names = s.names := (hpasses.trans hpasses').names
    have hends := h.ends
    rw [hnames] at hends
    exact hends.wait (htally'.trans htally)
  reliable := fun hreliable => absurd hreliable hvain

/-- A request comes to its end after some waits. -/
theorem request_ok {attempt left : Nat} (hs : s.InService)
    (h : request rng retry params attempt left s = .ok () s') :
    ∃ delays, Settles rng retry attempt left delays s s' := by
  -- With one attempt less to go, a wait makes it one request of its own.
  induction left generalizing attempt s with
  | zero =>
      rcases tryOnce_ok hs h with
        ⟨server, hserver, hpasses, hserves⟩ | ⟨hvain, e, s₁, hpasses, htally, hdrop⟩
      · exact ⟨[], .of_serves hserver hpasses hserves⟩
      · -- It was the last attempt, and no wait follows.
        simp only [bind_eq_ok_iff] at hdrop
        obtain ⟨_, s₂, hlog, hcount⟩ := hdrop
        obtain ⟨m, hm, rfl⟩ := onPool_ok hlog
        cases hm
        obtain rfl := record_ok hcount
        refine ⟨[], by simp [Drawn], ⟨hpasses.pool, hpasses.clock⟩, ?_, fun hr => absurd hr hvain⟩
        exact .dropped rfl (by simp [htally]) (by simp [htally]) (by simp [htally]) (by simp [htally])
  | succ left ih =>
      rcases tryOnce_ok hs h with
        ⟨server, hserver, hpasses, hserves⟩ | ⟨hvain, e, s₁, hpasses, htally, hretry⟩
      · exact ⟨[], .of_serves hserver hpasses hserves⟩
      · simp only [bind_eq_ok_iff] at hretry
        obtain ⟨_, s₂, hwait, hrest⟩ := hretry
        obtain ⟨delay, hdrawn, hpasses', htally'⟩ := wait_ok hwait
        obtain ⟨delays, hsettles⟩ := ih ((hpasses.trans hpasses').inService hs) hrest
        exact ⟨delay :: delays, .wait hvain hpasses htally hdrawn hpasses' htally' hsettles⟩

/-- All requests, with a tick after each: what they keep and how long they take. -/
theorem run_ok {n : Nat} (hs : s.InService) (h : run rng retry params n s = .ok () s') :
    ∃ delays, Drawn rng retry 1 (retry.maxAttempts.toNat - 1) delays ∧
      s.Passes (n * params.tick.nanos + total delays) s' ∧
      (∀ done waits, s.tally.Balanced s.names (retry.maxAttempts.toNat - 1) done waits →
        s'.tally.Balanced s.names (retry.maxAttempts.toNat - 1) (done + n) (waits + delays.length)) ∧
      (s.machine.pool.Reliable → delays = [] ∧ s'.tally.dropped = s.tally.dropped) := by
  induction n generalizing s with
  | zero =>
      cases h
      exact ⟨[], by simp [Drawn], by simpa [total] using Passes.refl _, fun _ _ hb => hb,
        fun _ => ⟨rfl, rfl⟩⟩
  | succ n ih =>
      simp only [run, bind_eq_ok_iff] at h
      obtain ⟨_, s₁, hrequest, _, s₂, htick, hrest⟩ := h
      obtain ⟨delays, hsettles⟩ := request_ok hs hrequest
      obtain ⟨hpasses, htally⟩ := advance_ok htick
      have hpasses' := hsettles.passes.trans hpasses
      obtain ⟨delays', hdrawn', hrun, hbalanced, hreliable⟩ := ih (hpasses'.inService hs) hrest
      refine ⟨delays ++ delays', ?_, ?_, ?_, ?_⟩
      · exact List.forall_mem_append.2 ⟨hsettles.drawn, hdrawn'⟩
      · have hall := hpasses'.trans hrun
        have htime : total delays + params.tick.nanos + (n * params.tick.nanos + total delays') =
            (n + 1) * params.tick.nanos + total (delays ++ delays') := by
          simp only [total, List.map_append, List.sum_append, Nat.succ_mul]
          omega
        rw [← htime]
        exact hall
      · -- The books are kept under the names of the first state, which no request changes.
        intro done waits hb
        have hb' := hb.step hsettles.ends
        rw [← htally, ← hpasses'.names] at hb'
        have hb'' := hbalanced _ _ hb'
        rw [hpasses'.names] at hb''
        rw [List.length_append, Nat.add_comm n 1, ← Nat.add_assoc, ← Nat.add_assoc]
        exact hb''
      · intro hr
        obtain ⟨hnone, hdropped⟩ := hsettles.reliable hr
        obtain ⟨hnone', hdropped'⟩ := hreliable (hpasses'.pool.reliable hr)
        rw [hnone, hnone', hdropped', htally, hdropped]
        exact ⟨rfl, rfl⟩

/-- Building the pool and installing the handler come before the requests. -/
theorem simulateWith_ok {urls : UrlParser} {config : PoolConfig} {start : Instant} {g : γ}
    (h : simulateWith rng urls config params { machine := { clock := start }, random := g } =
      .ok (.ok ()) s') :
    ∃ s : Simulation γ, s.InService ∧ s.machine.clock = start ∧
      (∀ label, label ∈ s.machine.pool.labels ↔ ∃ c ∈ config.servers, (c.name, c.options) = label) ∧
      s.tally = { picks := noPicks (config.servers.map (·.name)) } ∧
      run rng config.retry params params.requests s = .ok () s' := by
  simp only [simulateWith, bind_eq_ok_iff] at h
  obtain ⟨a, s₁, hbuild, hrest⟩ := h
  obtain ⟨m, hm, rfl⟩ := onPool_ok hbuild
  cases a with
  | error e => cases hrest
  | ok _ =>
      obtain ⟨hclock, hsound, hlabels⟩ := build_ok hm Pool.Sound.empty
      simp only [bind_eq_ok_iff] at hrest
      obtain ⟨_, s₂, hinstall, _, s₃, hpicks, _, s₄, hrun, hdone⟩ := hrest
      obtain ⟨m', hm', rfl⟩ := onPool_ok hinstall
      cases hm'
      obtain rfl := record_ok hpicks
      cases hdone
      refine ⟨_, ⟨hsound.handler _, ?_⟩, hclock, fun label => ?_, rfl, hrun⟩
      · intro handler hhandler
        cases hhandler
        rfl
      · exact (hlabels label).trans (by simp [Pool.labels, Pool.servers, Pool.slots])

end Simulation

/-- Whatever chance decides: if a simulation comes to its report, each request succeeded, failed or was
given up; picks are counted under the configured names, one for each request that reached a server;
there is one attempt in vain for each wait and for each request given up; and the clock has moved by
the ticks and the waits alone. With a server whose failures do not count, no attempt is in vain. -/
theorem simulation_accounts (rng : RandomSource γ) (urls : UrlParser) (config : PoolConfig)
    (params : SimulationParams) (start : Instant) (g : γ) {s : Simulation γ}
    (h : simulateWith rng urls config params { machine := { clock := start }, random := g } =
      .ok (.ok ()) s) :
    let attempts := max 1 config.retry.maxAttempts.toNat
    let report := s.report start params
    let t := report.tally
    t.succeeded + t.failed + t.dropped = params.requests ∧
    ((t.picks.map (·.2)).sum = t.succeeded + t.failed ∧ (t.picks.map (·.1)).Pairwise (· < ·) ∧
      ∀ name, name ∈ t.picks.map (·.1) ↔ ∃ c ∈ config.servers, c.name = name) ∧
    (t.dropped * attempts ≤ t.unavailable ∧
      t.unavailable ≤ t.dropped * attempts + (params.requests - t.dropped) * (attempts - 1)) ∧
    (∃ delays : List Duration, t.unavailable = t.dropped + delays.length ∧
      (∀ d ∈ delays, ∃ attempt g', 1 ≤ attempt ∧ attempt < attempts ∧
        (config.retry.delay rng attempt g').1 = some d) ∧
      s.machine.clock.nanos =
        start.nanos + (params.requests * params.tick.nanos + (delays.map (·.nanos)).sum) ∧
      report.elapsedMs = UInt64.ofNat
        ((params.requests * params.tick.nanos + (delays.map (·.nanos)).sum) / 1000000)) ∧
    ((∃ c ∈ config.servers, c.backup = true ∨ c.maxFails = 0) →
      t.unavailable = 0 ∧ t.dropped = 0 ∧
        s.machine.clock.nanos = start.nanos + params.requests * params.tick.nanos) := by
  intro attempts report t
  obtain ⟨s₀, hservice, hclock, hlabels, htally, hrun⟩ := Simulation.simulateWith_ok h
  obtain ⟨delays, hdrawn, hpasses, hbalanced, hreliable⟩ := Simulation.run_ok hservice hrun
  have hnames (name : String) : name ∈ s₀.names ↔ ∃ c ∈ config.servers, c.name = name := by
    simp only [Simulation.mem_names, hlabels, Prod.mk.injEq]
    exact ⟨fun ⟨_, c, hc, hname, _⟩ => ⟨c, hc, hname⟩, fun ⟨c, hc, hname⟩ => ⟨_, c, hc, hname, rfl⟩⟩
  have hstart : s₀.tally.Balanced s₀.names (config.retry.maxAttempts.toNat - 1) 0 0 := by
    rw [htally]
    exact .start (fun name => by simp [hnames]) _
  have hb := hbalanced 0 0 hstart
  rw [Nat.zero_add, Nat.zero_add] at hb
  -- The first attempt is made in any case, and the others come after waits.
  have hattempts : attempts = config.retry.maxAttempts.toNat - 1 + 1 := by omega
  have hmoved : s.machine.clock.nanos =
      start.nanos + (params.requests * params.tick.nanos + (delays.map (·.nanos)).sum) := by
    rw [hpasses.clock, hclock]
    rfl
  refine ⟨hb.requests, ⟨hb.picked, hb.inOrder, fun name => (hb.names name).trans (hnames name)⟩, ?_,
    ⟨delays, hb.unavailable, fun d hd => ?_, hmoved, ?_⟩, ?_⟩
  · rw [hattempts]
    exact hb.bounds
  · obtain ⟨attempt, g', hfirst, hlast, hdrawn⟩ := hdrawn d hd
    exact ⟨attempt, g', hfirst, by omega, hdrawn⟩
  · have hmillis : s.machine.clock.millisSince start =
        (params.requests * params.tick.nanos + (delays.map (·.nanos)).sum) / 1000000 := by
      rw [Instant.millisSince, hmoved, Nat.add_sub_cancel_left]
    exact congrArg UInt64.ofNat hmillis
  · rintro ⟨c, hc, hfree⟩
    have hlabel : (c.name, c.options) ∈ s₀.machine.pool.labels := (hlabels _).2 ⟨c, hc, rfl⟩
    obtain ⟨hnone, hdropped⟩ := hreliable (Pool.reliable_of_label hlabel hfree)
    have hunavailable := hb.unavailable
    rw [htally] at hdropped
    rw [hdropped, hnone] at hunavailable
    refine ⟨hunavailable, hdropped, ?_⟩
    rw [hmoved, hnone]
    rfl

/-- A server that fails each request, with or without a spare one. -/
def brokenPool (spare : Bool) : PoolConfig where
  servers := { name := "a", address := "http://10.0.0.1" } ::
    if spare then [{ name := "b", address := "http://10.0.0.2", backup := true }] else []
  retry := { maxAttempts := 2 }

/-- Draws that take turns. -/
def turns : RandomSource Nat where
  below n g := (g % n, g + 1)
  happens _ g := (g % 2 = 1, g + 1)

/-- The figures of a simulation that comes to its report. -/
def figures? : EStateM.Result Halt (Simulation γ) (Except ConfigError Unit) → Option Tally
  | .ok (.ok ()) s => some s.tally
  | _ => none

theorem exists_of_figures? {result : EStateM.Result Halt (Simulation γ) (Except ConfigError Unit)}
    {t : Tally} (h : figures? result = some t) : ∃ s, result = .ok (.ok ()) s ∧ s.tally = t := by
  unfold figures? at h
  split at h
  · cases h
    exact ⟨_, rfl, rfl⟩
  · cases h

theorem simulation_accounts_broken :
    let params : SimulationParams := { requests := 3, broken := ["a"] }
    let result := fun spare => simulateWith turns .ascii (brokenPool spare) params
      { machine := { clock := ⟨0⟩ }, random := 0 }
    (∃ s, result false = .ok (.ok ()) s ∧
      s.tally = { failed := 1, unavailable := 4, dropped := 2, picks := [("a", 1)] } ∧
      s.tally.unavailable ≤ s.tally.dropped * 2 + (3 - s.tally.dropped) * 1 ∧
      ∃ delays : List Duration, s.tally.unavailable = s.tally.dropped + delays.length) ∧
    ∃ s, result true = .ok (.ok ()) s ∧ s.tally.unavailable = 0 ∧
      s.machine.clock.nanos = 0 + 3 * params.tick.nanos := by
  intro params result
  constructor
  · have hfigures : figures? (result false) =
        some { failed := 1, unavailable := 4, dropped := 2, picks := [("a", 1)] } := by decide +kernel
    obtain ⟨s, hs, htally⟩ := exists_of_figures? hfigures
    obtain ⟨_, _, hbounds, ⟨delays, hwaits, _⟩, _⟩ :=
      simulation_accounts turns .ascii (brokenPool false) params ⟨0⟩ 0 hs
    exact ⟨s, hs, htally, hbounds.2, delays, hwaits⟩
  · have hfigures : figures? (result true) =
        some { succeeded := 1, failed := 2, picks := [("a", 1), ("b", 2)] } := by decide +kernel
    obtain ⟨s, hs, _⟩ := exists_of_figures? hfigures
    have hspare : ∃ c ∈ (brokenPool true).servers, c.backup = true ∨ c.maxFails = 0 := by decide
    obtain ⟨hunavailable, _, hmoved⟩ :=
      (simulation_accounts turns .ascii (brokenPool true) params ⟨0⟩ 0 hs).2.2.2.2 hspare
    exact ⟨s, hs, hunavailable, hmoved⟩

end TieredPool
