import Mathlib.Data.List.Pairwise
import TieredPool.Proofs.Windows

/-!
# Detection — how many failures in a row cannot go unnoticed

A window is measured from the failure that opened it. Failures that come close together may still fall
into two windows, and those that joined the first one, opened long before, are forgotten with it.

* `Burst` — failures with no success among them, from first to last at most one timeout apart.
* `filled_windows_of_close` — enough of them fill a window, whatever has been counted before.
* `straddle` — one less, spread over two windows so that neither fills.
* `burst_detected` — the number of failures that always takes a server down, and that no smaller does.
-/

namespace TieredPool

open Occurrence

instance : Std.Refl (α := Instant) (· ≤ ·) := ⟨fun t => Nat.le_refl t.nanos⟩

/-- Failures in a row, and perhaps probes: the clock is not turned back from one to the next, and the last
is at most `span` after the first. -/
structure Burst (span : Duration) (block : List Occurrence) : Prop where
  failing : .success ∉ block
  ordered : (failures block).Pairwise (· ≤ ·)
  close : ∀ h : failures block ≠ [],
    ((failures block).getLast h).nanos ≤ ((failures block).head h).nanos + span.nanos

theorem Occurrence.sinceSuccess_append {block : List Occurrence} (hblock : .success ∉ block)
    (history : List Occurrence) :
    sinceSuccess (history ++ block) = sinceSuccess history ++ block := by
  have hfailing : ∀ o ∈ block.reverse, decide (o ≠ .success) = true := by
    intro o ho
    simp only [decide_eq_true_eq]
    rintro rfl
    exact hblock (List.mem_reverse.1 ho)
  unfold sinceSuccess
  rw [List.reverse_append, List.takeWhile_append_of_pos hfailing, List.reverse_append,
    List.reverse_reverse]

namespace Policy

variable {p : Policy} {w : Window} {fs : List Instant}

/-! ## Deadlines -/

theorem deadline_of_isSome {now : Instant} (h : (now.add? p.failTimeout).isSome = true) :
    (p.deadline now).nanos = now.nanos + p.failTimeout.nanos := by
  obtain ⟨t, ht⟩ := Option.isSome_iff_exists.1 h
  simp only [deadline, ht]
  exact Instant.nanos_of_add? ht

theorem le_deadline (p : Policy) (now : Instant) : now ≤ p.deadline now := by
  rw [Instant.le_iff]
  cases htimeout : now.add? p.failTimeout with
  | some t =>
      have := Instant.nanos_of_add? htimeout
      simp only [deadline, htimeout]
      omega
  | none =>
      simp only [deadline, htimeout]
      cases hfar : now.add? farFuture with
      | some t =>
          have := Instant.nanos_of_add? hfar
          simp only [Option.getD_some]
          omega
      | none => exact Nat.le_refl _

/-- No failure of a burst would come too late for a window that another one before it had opened. -/
theorem pairwise_of_burst {block : List Occurrence} (hburst : Burst p.failTimeout block)
    (hreach : ∀ t ∈ failures block, (t.add? p.failTimeout).isSome = true) :
    (failures block).Pairwise fun s t => t ≤ p.deadline s := by
  refine hburst.ordered.imp_of_mem ?_
  intro s t hs ht _
  have hfirst := Instant.le_iff.1 (hburst.ordered.rel_head hs)
  have hlast := Instant.le_iff.1 (hburst.ordered.rel_getLast ht)
  have hclose := hburst.close (List.ne_nil_of_mem hs)
  rw [Instant.le_iff, deadline_of_isSome (hreach s hs)]
  omega

/-! ## Enough failures -/

theorem Filled.append_left {ws : List Window} (h : p.Filled ws) (earlier : List Window) :
    p.Filled (earlier ++ ws) := by
  obtain ⟨w, hw, hfull⟩ := h
  exact ⟨w, List.mem_append_right earlier hw, hfull⟩

/-- Failures that all come in time for a window fill it. -/
theorem filled_split_of_joins (hw : w.size ≤ p.maxFails) (hjoins : ∀ t ∈ fs, t ≤ p.deadline w.opened)
    (henough : p.maxFails ≤ w.size + fs.length) : p.Filled (p.split w fs) := by
  induction fs generalizing w with
  | nil => exact ⟨w, List.mem_cons_self, Nat.le_antisymm hw henough⟩
  | cons t rest ih =>
      obtain ⟨ht, hrest⟩ := List.forall_mem_cons.1 hjoins
      by_cases hfull : w.size = p.maxFails
      case pos =>
        rw [split_of_full hfull]
        exact ⟨w, List.mem_cons_self, hfull⟩
      case neg =>
        simp only [split, hfull, ht, if_true, if_false]
        refine ih (w := w.join t) ?_ hrest ?_
        · rw [Window.size_join]
          omega
        · rw [Window.size_join]
          simp only [List.length_cons] at henough
          omega

/-- Failures that could all share a window fill some window, though an old one may take in the first
of them. It takes in fewer than the threshold, and the next window takes in the others. -/
theorem filled_split_of_close (hw : w.size ≤ p.maxFails)
    (hclose : fs.Pairwise fun s t => t ≤ p.deadline s)
    (henough : 2 * p.maxFails ≤ w.size + fs.length + 1) : p.Filled (p.split w fs) := by
  induction fs generalizing w with
  | nil =>
      have hpos := w.size_pos
      simp only [List.length_nil] at henough
      exact ⟨w, List.mem_cons_self, by omega⟩
  | cons t rest ih =>
      obtain ⟨ht, hrest⟩ := List.pairwise_cons.1 hclose
      simp only [List.length_cons] at henough
      by_cases hfull : w.size = p.maxFails
      case pos =>
        rw [split_of_full hfull]
        exact ⟨w, List.mem_cons_self, hfull⟩
      by_cases hjoins : t ≤ p.deadline w.opened
      case pos =>
        simp only [split, hfull, hjoins, if_true, if_false]
        refine ih (w := w.join t) ?_ hrest ?_
        · rw [Window.size_join]
          omega
        · rw [Window.size_join]
          omega
      case neg =>
        simp only [split, hfull, hjoins, if_false]
        have hpos := w.size_pos
        refine Filled.append_left (filled_split_of_joins ?_ ht ?_) [w]
        · rw [Window.size_new]
          omega
        · rw [Window.size_new]
          omega

theorem filled_windows_of_close (hm : 0 < p.maxFails) (before : List Instant)
    (hclose : fs.Pairwise fun s t => t ≤ p.deadline s)
    (henough : max 1 (2 * p.maxFails - 2) ≤ fs.length) : p.Filled (p.windows (before ++ fs)) := by
  by_cases hbefore : before = []
  case pos =>
    subst hbefore
    cases fs with
    | nil => simp at henough
    | cons t rest =>
        simp only [List.length_cons] at henough
        refine filled_split_of_joins (w := { opened := t }) hm (List.pairwise_cons.1 hclose).1 ?_
        rw [Window.size_new]
        omega
  case neg =>
    obtain ⟨earlier, last, _, _, hlast, hlater⟩ := windows_spec hm hbefore
    have hpos := last.size_pos
    rw [hlater]
    exact Filled.append_left (filled_split_of_close hlast hclose (by omega)) earlier

/-! ## One failure less -/

/-- A window takes in what comes in time while it has room. -/
theorem split_append_of_joins (hjoins : ∀ t ∈ fs, t ≤ p.deadline w.opened)
    (hroom : w.size + fs.length ≤ p.maxFails) (later : List Instant) :
    p.split w (fs ++ later) = p.split { w with joined := w.joined ++ fs } later := by
  induction fs generalizing w with
  | nil => simp
  | cons t rest ih =>
      obtain ⟨ht, hrest⟩ := List.forall_mem_cons.1 hjoins
      simp only [List.length_cons] at hroom
      have hopen : w.size ≠ p.maxFails := by omega
      simp only [List.cons_append, split, hopen, ht, if_true, if_false]
      rw [ih (w := w.join t) hrest (by rw [Window.size_join]; omega)]
      simp [Window.join]

end Policy

/-- All but the last place of a window that expires at `expiry` and of one that opens right after it,
with the failure that opened the first left out. -/
def straddle (threshold : Nat) (expiry : Instant) : List Instant :=
  List.replicate (threshold - 2) expiry ++ List.replicate (threshold - 1) ⟨expiry.nanos + 1⟩

theorem length_straddle {threshold : Nat} (h : 2 ≤ threshold) (expiry : Instant) :
    (straddle threshold expiry).length = 2 * threshold - 3 := by
  simp only [straddle, List.length_append, List.length_replicate]
  omega

theorem nanos_of_mem_straddle {threshold : Nat} {expiry t : Instant} (h : t ∈ straddle threshold expiry) :
    expiry.nanos ≤ t.nanos ∧ t.nanos ≤ expiry.nanos + 1 := by
  rcases List.mem_append.1 h with h | h
  · rw [List.eq_of_mem_replicate h]
    exact ⟨Nat.le_refl _, Nat.le_succ _⟩
  · rw [List.eq_of_mem_replicate h]
    exact ⟨Nat.le_succ _, Nat.le_refl _⟩

namespace Policy

variable {p : Policy}

theorem not_filled_straddle (hm : 2 ≤ p.maxFails) (opened : Instant) :
    ¬ p.Filled (p.windows (opened :: straddle p.maxFails (p.deadline opened))) := by
  obtain ⟨k, hk⟩ := Nat.exists_eq_add_of_le' hm
  set expiry := p.deadline opened with hexpiry
  let next : Instant := ⟨expiry.nanos + 1⟩
  let first : Window := { opened, joined := List.replicate k expiry }
  let second : Window := { opened := next, joined := List.replicate k next }
  have hsize : ∀ w ∈ [first, second], w.size < p.maxFails := by
    simp [first, second, Window.size, hk]
  have hlate : ¬ next ≤ p.deadline opened := by
    rw [Instant.le_iff]
    exact Nat.not_succ_le_self _
  have hopen : first.size ≠ p.maxFails := Nat.ne_of_lt (hsize first List.mem_cons_self)
  have hfirst : p.windows (opened :: straddle p.maxFails expiry) =
      p.split first (next :: List.replicate k next) := by
    have hstraddle : straddle p.maxFails expiry =
        List.replicate k expiry ++ next :: List.replicate k next := by
      simp [straddle, hk, next, List.replicate_succ]
    rw [hstraddle]
    refine split_append_of_joins (w := { opened }) ?_ ?_ _
    · intro t ht
      rw [List.eq_of_mem_replicate ht]
      exact Nat.le_refl _
    · simp [hk]
      omega
  have hsecond : p.split { opened := next } (List.replicate k next) = [second] := by
    have hjoins : ∀ t ∈ List.replicate k next, t ≤ p.deadline next := by
      intro t ht
      rw [List.eq_of_mem_replicate ht]
      exact p.le_deadline next
    have hall := split_append_of_joins (w := { opened := next }) hjoins (by simp [hk]; omega) []
    rwa [List.append_nil] at hall
  have hwindows : p.windows (opened :: straddle p.maxFails expiry) = [first, second] := by
    rw [hfirst, split, if_neg hopen, if_neg hlate, hsecond]
  rw [hwindows]
  exact not_filled hsize

/-- A window that expires early enough for the clock to show what comes after it. -/
theorem exists_opened (p : Policy) : ∃ opened : Instant, opened.nanos < Instant.limit ∧
    (p.deadline opened).nanos + 1 < Instant.limit ∧
    (2 * p.failTimeout.nanos + 1 < Instant.limit → (p.deadline opened).nanos = p.failTimeout.nanos) := by
  have hfar : farFuture.nanos + 2 < Instant.limit := by decide
  -- The window opens when the clock starts, unless it would then expire with the clock.
  by_cases hends : p.failTimeout.nanos + 1 = Instant.limit
  case pos =>
    have htimeout : ¬ 1 + p.failTimeout.nanos < Instant.limit := by omega
    have hdeadline : 1 + farFuture.nanos < Instant.limit := by omega
    refine ⟨⟨1⟩, by decide, ?_, fun htwice => by omega⟩
    simp only [deadline, Instant.add?, htimeout, hdeadline, if_true, if_false, Option.getD_some]
    omega
  case neg =>
    refine ⟨⟨0⟩, by decide, ?_⟩
    by_cases htimeout : p.failTimeout.nanos < Instant.limit
    case pos =>
      simp only [deadline, Instant.add?, Nat.zero_add, htimeout, if_true]
      exact ⟨by omega, fun _ => trivial⟩
    case neg =>
      have hdeadline : farFuture.nanos < Instant.limit := by omega
      simp only [deadline, Instant.add?, Nat.zero_add, htimeout, hdeadline, if_true, if_false,
        Option.getD_some]
      exact ⟨by omega, fun htwice => by omega⟩

end Policy

theorem Occurrence.failures_map_failure (fs : List Instant) : failures (fs.map .failure) = fs := by
  induction fs with
  | nil => rfl
  | cons t rest ih => simpa [failures, failure?] using ih

theorem burst_straddle {span : Duration} (hspan : 1 ≤ span.nanos) (threshold : Nat) (expiry : Instant) :
    Burst span ((straddle threshold expiry).map .failure) where
  failing := by simp
  ordered := by
    rw [failures_map_failure]
    refine List.pairwise_append.2 ⟨List.pairwise_replicate_of_refl, List.pairwise_replicate_of_refl, ?_⟩
    intro s hs t ht
    rw [List.eq_of_mem_replicate hs, List.eq_of_mem_replicate ht, Instant.le_iff]
    exact Nat.le_succ _
  close := by
    rw [failures_map_failure]
    intro hne
    have hfirst := nanos_of_mem_straddle (List.head_mem hne)
    have hlast := nanos_of_mem_straddle (List.getLast_mem hne)
    omega

/-! ## The number of failures it takes -/

/-- Whatever has happened to a server before, twice its threshold less two failures take it down if they
are in a row and all within one timeout; a single one does if the threshold is one. One failure less may
leave it up, and from a threshold of three on that is still no fewer than the threshold. -/
theorem burst_detected :
    (∀ (p : Policy) (history block : List Occurrence), 0 < p.maxFails → Burst p.failTimeout block →
        (∀ t ∈ failures block, (t.add? p.failTimeout).isSome = true) →
        max 1 (2 * p.maxFails - 2) ≤ (failures block).length →
        (Health.after p (history ++ block)).isDown = true) ∧
      ∀ p : Policy, 2 ≤ p.maxFails → 1 ≤ p.failTimeout.nanos →
        ∃ history block : List Occurrence, Burst p.failTimeout block ∧
          (∀ t ∈ failures (history ++ block), t.nanos < Instant.limit) ∧
          (2 * p.failTimeout.nanos + 1 < Instant.limit →
            ∀ t ∈ failures block, (t.add? p.failTimeout).isSome = true) ∧
          (failures block).length = 2 * p.maxFails - 3 ∧
          (3 ≤ p.maxFails → p.maxFails ≤ (failures block).length) ∧
          (Health.after p (history ++ block)).isDown = false := by
  constructor
  · intro p history block hm hburst hreach henough
    rw [Policy.isDown_after_iff hm, sinceSuccess_append hburst.failing, failures_append]
    exact Policy.filled_windows_of_close hm _ (Policy.pairwise_of_burst hburst hreach) henough
  · intro p hm htimeout
    obtain ⟨opened, hopened, hexpiry, htwice⟩ := p.exists_opened
    let fs := straddle p.maxFails (p.deadline opened)
    have hlength : fs.length = 2 * p.maxFails - 3 := length_straddle hm _
    have hlatest : ∀ t ∈ fs, t.nanos ≤ (p.deadline opened).nanos + 1 :=
      fun t ht => (nanos_of_mem_straddle ht).2
    refine ⟨[.failure opened], fs.map .failure, burst_straddle htimeout _ _, ?shown, ?reach, ?length,
      ?many, ?up⟩
    case shown =>
      rw [failures_append, failures_map_failure]
      intro t ht
      rcases List.mem_cons.1 ht with rfl | ht
      · exact hopened
      · exact Nat.lt_of_le_of_lt (hlatest t ht) hexpiry
    case reach =>
      intro hfits t ht
      rw [failures_map_failure] at ht
      have := hlatest t ht
      have := htwice hfits
      have hsum : t.nanos + p.failTimeout.nanos < Instant.limit := by omega
      simp [Instant.add?, hsum]
    case length => rw [failures_map_failure, hlength]
    case many =>
      intro hthree
      rw [failures_map_failure, hlength]
      omega
    case up =>
      have hall : sinceSuccess ([.failure opened] ++ fs.map .failure) =
          [.failure opened] ++ fs.map .failure := sinceSuccess_append (by simp) [.failure opened]
      rw [← Bool.not_eq_true, Policy.isDown_after_iff (by omega), hall, failures_append,
        failures_map_failure]
      exact Policy.not_filled_straddle hm opened

/-- With a threshold of three, four failures between 100 and 150 ns take a server down whose window
expires at 100 ns. Three would not have. -/
theorem burst_detected_of_three :
    let p : Policy := { maxFails := 3, failTimeout := ⟨100, by decide⟩ }
    let history : List Occurrence := [.failure ⟨0⟩]
    let block : List Occurrence := [.failure ⟨100⟩, .failure ⟨101⟩, .probe ⟨101⟩, .failure ⟨101⟩,
      .failure ⟨150⟩]
    0 < p.maxFails ∧ Burst p.failTimeout block ∧
      (∀ t ∈ failures block, (t.add? p.failTimeout).isSome = true) ∧
      max 1 (2 * p.maxFails - 2) ≤ (failures block).length ∧
      (Health.after p (history ++ block)).isDown = true ∧
      2 ≤ p.maxFails ∧ 1 ≤ p.failTimeout.nanos ∧
      ∃ history block : List Occurrence, Burst p.failTimeout block ∧
        (failures block).length = 3 ∧ (Health.after p (history ++ block)).isDown = false := by
  intro p history block
  have hburst : Burst p.failTimeout block := ⟨by decide, by decide, by decide⟩
  have hreach : ∀ t ∈ failures block, (t.add? p.failTimeout).isSome = true := by decide
  have henough : max 1 (2 * p.maxFails - 2) ≤ (failures block).length := by decide
  have hdetected := burst_detected.1 p history block (by decide) hburst hreach henough
  obtain ⟨history', block', hburst', _, _, hlength, _, hup⟩ :=
    burst_detected.2 p (by decide) (by decide)
  exact ⟨by decide, hburst, hreach, henough, hdetected, by decide, by decide,
    history', block', hburst', hlength, hup⟩

end TieredPool
