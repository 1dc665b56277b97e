import Mathlib.Data.List.Induction
import TieredPool.Proofs.Health

/-!
# Windows — the failures of a server, window by window

A counter and one timer stand for everything that has happened to a server since its last success. Here
the failures themselves are kept, and split greedily: a failure opens a window, the ones that follow join
it up to its deadline, and the first one after that opens the next. A window that has collected the
threshold is the last.

* `Occurrence`, `Health.after` — what happens to a server, and its health after a history.
* `Window`, `Policy.windows` — failures in windows; the split knows neither counter nor timer.
* `Policy.rearmed` — the instant from which the time of a server that is down was last measured.
* `Policy.Reads` — the health that windows and probes call for; `reads_after` — the one there is.
* `health_follows_windows` — counter, timer and transitions after any history.
-/

namespace TieredPool

/-! ## Histories -/

/-- What happens to the health of a server: an outcome, or a pick. -/
inductive Occurrence where
  | success
  | failure (now : Instant)
  | probe (now : Instant)
  deriving DecidableEq, Repr

namespace Occurrence

def failure? : Occurrence → Option Instant
  | .failure now => some now
  | _ => none

def probe? : Occurrence → Option Instant
  | .probe now => some now
  | _ => none

/-- The instants of the failures, in the order in which they were recorded. -/
def failures (history : List Occurrence) : List Instant := history.filterMap failure?

def probes (history : List Occurrence) : List Instant := history.filterMap probe?

/-- What has happened since the last success. -/
def sinceSuccess (history : List Occurrence) : List Occurrence :=
  (history.reverse.takeWhile (· ≠ .success)).reverse

theorem failures_append (history later : List Occurrence) :
    failures (history ++ later) = failures history ++ failures later :=
  List.filterMap_append

theorem probes_append (history later : List Occurrence) :
    probes (history ++ later) = probes history ++ probes later :=
  List.filterMap_append

theorem sinceSuccess_concat (history : List Occurrence) (o : Occurrence) :
    sinceSuccess (history ++ [o]) = if o = .success then [] else sinceSuccess history ++ [o] := by
  by_cases ho : o = .success <;> simp [sinceSuccess, ho]

end Occurrence

open Occurrence

namespace Health

def observe (p : Policy) (h : Health) : Occurrence → Health
  | .success => (h.recordSuccess p).1
  | .failure now => (h.recordFailure p now).1
  | .probe now => h.beginProbe p now

def observeAll (p : Policy) (h : Health) (history : List Occurrence) : Health :=
  history.foldl (observe p) h

/-- The health of a server that was new before the history. -/
def after (p : Policy) (history : List Occurrence) : Health := observeAll p {} history

theorem observeAll_append (p : Policy) (h : Health) (history later : List Occurrence) :
    h.observeAll p (history ++ later) = (h.observeAll p history).observeAll p later :=
  List.foldl_append

theorem after_append (p : Policy) (history later : List Occurrence) :
    after p (history ++ later) = (after p history).observeAll p later :=
  observeAll_append p {} history later

theorem sound_after (p : Policy) (history : List Occurrence) : (after p history).Sound p := by
  induction history using List.reverseRecOn with
  | nil => exact sound_new p
  | append_singleton history o ih =>
      rw [after_append]
      cases o with
      | success => exact ih.recordSuccess
      | failure now => exact ih.recordFailure now
      | probe now => exact ih.beginProbe now

variable {p : Policy}

/-- The first failure of all opens a window, which is full at once if it takes no more than that. -/
theorem recordFailure_new (hm : 0 < p.maxFails) (now : Instant) :
    (({} : Health).recordFailure p now).1 =
      if p.maxFails = 1 then
        { failCounter := p.maxFails, timer := .recoveryDeadline (p.deadline now) }
      else { failCounter := 1, timer := .windowExpiry (p.deadline now) } := by
  have hzero : p.maxFails ≠ 0 := Nat.ne_of_gt hm
  by_cases hone : p.maxFails = 1
  · simp [recordFailure, countFailure, Policy.tracking, isDown, hone]
  · simp [recordFailure, countFailure, Policy.tracking, isDown, hm, hzero, hone, Ne.symm hone]

/-- A failure joins the window that is open and perhaps fills it, or comes too late and opens another. -/
theorem recordFailure_open {count : Nat} (hpos : 0 < count) (hroom : count < p.maxFails)
    (expiry now : Instant) :
    (({ failCounter := count, timer := .windowExpiry expiry } : Health).recordFailure p now).1 =
      if expiry < now then { failCounter := 1, timer := .windowExpiry (p.deadline now) }
      else if count + 1 = p.maxFails then
        { failCounter := p.maxFails, timer := .recoveryDeadline (p.deadline now) }
      else { failCounter := count + 1, timer := .windowExpiry expiry } := by
  obtain ⟨n, rfl⟩ := Nat.exists_eq_succ_of_ne_zero (Nat.ne_of_gt hpos)
  have htracking : p.tracking = true := by
    simp [Policy.tracking]
    omega
  by_cases hlate : expiry < now
  case pos =>
    have hone : 1 ≠ p.maxFails := by omega
    simp [recordFailure, countFailure, isDown, htracking, hlate, hone, Nat.not_le.2 hroom]
  case neg =>
    by_cases hfull : n + 2 = p.maxFails
    · simp [recordFailure, countFailure, isDown, htracking, hlate, hfull, Nat.not_le.2 hroom]
    · simp [recordFailure, countFailure, isDown, htracking, hlate, hfull, Nat.not_le.2 hroom]

/-- A probe of a server that has been down since `armed`. -/
theorem beginProbe_armed (count : Nat) (armed now : Instant) :
    ({ failCounter := count, timer := .recoveryDeadline (p.deadline armed) } : Health).beginProbe p now =
      { failCounter := count,
        timer := .recoveryDeadline (p.deadline (if p.deadline armed ≤ now then now else armed)) } := by
  by_cases hcome : p.deadline armed ≤ now <;> simp [beginProbe, hcome]

theorem recordFailure_of_down {h : Health} (hdown : h.isDown = true) (now : Instant) :
    h.recordFailure p now = (h, .none) := by
  simp [recordFailure, hdown]

theorem Sound.recordFailure_ne_up {h : Health} (hs : h.Sound p) (now : Instant) :
    (h.recordFailure p now).2 ≠ .up := by
  rcases recordFailure_cases hs now with ⟨_, heq⟩ | ⟨_, _, _, heq⟩ | ⟨_, _, heq⟩ <;> simp [heq]

/-- A failure reports exactly that the server went down with it. -/
theorem Sound.recordFailure_down_iff {h : Health} (hs : h.Sound p) (now : Instant) :
    (h.recordFailure p now).2 = .down ↔
      h.isDown = false ∧ (h.recordFailure p now).1.isDown = true := by
  rcases recordFailure_cases hs now with ⟨_, heq⟩ | ⟨_, hup, _, heq⟩ | ⟨_, hup, heq⟩
  · cases hd : h.isDown <;> simp [heq, hd]
  · obtain ⟨expiry, htimer, _⟩ := countFailure_window hs hup now
    simp [heq, isDown, htimer]
  · have hdown : ({ failCounter := p.maxFails,
                    timer := .recoveryDeadline (p.deadline now) } : Health).isDown = true := rfl
    simp [heq, hup, hdown]

end Health

/-! ## Windows -/

/-- Failures that count together: the one that opened the window, and those that joined it. -/
structure Window where
  opened : Instant
  joined : List Instant := []
  deriving DecidableEq, Repr

namespace Window

def size (w : Window) : Nat := w.joined.length + 1

def join (w : Window) (now : Instant) : Window := { w with joined := w.joined ++ [now] }

/-- The failure that was the last to count. -/
def latest (w : Window) : Instant := w.joined.getLastD w.opened

@[simp] theorem size_new (now : Instant) : ({ opened := now } : Window).size = 1 := rfl

@[simp] theorem latest_new (now : Instant) : ({ opened := now } : Window).latest = now := rfl

@[simp] theorem size_join (w : Window) (now : Instant) : (w.join now).size = w.size + 1 := by
  simp [size, join]

@[simp] theorem latest_join (w : Window) (now : Instant) : (w.join now).latest = now := by
  simp [latest, join]

theorem size_pos (w : Window) : 0 < w.size := Nat.succ_pos _

end Window

namespace Policy

/-- Failures that follow those of the window `w`. None is taken in once a window is full. -/
def split (p : Policy) (w : Window) : List Instant → List Window
  | [] => [w]
  | now :: rest =>
      if w.size = p.maxFails then [w]
      else if now ≤ p.deadline w.opened then p.split (w.join now) rest
      else w :: p.split { opened := now } rest

/-- Failures in windows, in order. -/
def windows (p : Policy) : List Instant → List Window
  | [] => []
  | now :: rest => p.split { opened := now } rest

/-- Some window has collected the threshold. -/
def Filled (p : Policy) (ws : List Window) : Prop := ∃ w ∈ ws, w.size = p.maxFails

/-- The instant from which the time of a server that is down is measured: that of its loss, at `lost`,
or of the latest of the probes that took effect. A probe does if the deadline set before it has come. -/
def rearmed (p : Policy) (lost : Instant) (probes : List Instant) : Instant :=
  probes.foldl (fun armed now => if p.deadline armed ≤ now then now else armed) lost

variable {p : Policy} {w : Window} {ws earlier : List Window}

theorem rearmed_concat (lost : Instant) (probes : List Instant) (now : Instant) :
    p.rearmed lost (probes ++ [now]) =
      if p.deadline (p.rearmed lost probes) ≤ now then now else p.rearmed lost probes :=
  List.foldl_append

/-- A window that is full takes no more. -/
theorem split_of_full (hfull : w.size = p.maxFails) (fs : List Instant) : p.split w fs = [w] := by
  cases fs with
  | nil => rfl
  | cons t rest => simp [split, hfull]

/-- The windows that have been left were not full, and none holds more than the threshold. What follows
is a matter of the last window alone. -/
theorem split_spec (hw : w.size ≤ p.maxFails) (fs : List Instant) :
    ∃ earlier last, p.split w fs = earlier ++ [last] ∧ (∀ v ∈ earlier, v.size < p.maxFails) ∧
      last.size ≤ p.maxFails ∧ ∀ later, p.split w (fs ++ later) = earlier ++ p.split last later := by
  induction fs generalizing w with
  | nil => exact ⟨[], w, rfl, by simp, hw, fun _ => rfl⟩
  | cons t rest ih =>
      by_cases hfull : w.size = p.maxFails
      case pos =>
        refine ⟨[], w, split_of_full hfull _, by simp, hw, fun later => ?_⟩
        rw [split_of_full hfull, split_of_full hfull, List.nil_append]
      have hroom : w.size < p.maxFails := by omega
      by_cases hjoins : t ≤ p.deadline w.opened
      case pos =>
        obtain ⟨earlier, last, hsplit, hearlier, hlast, hlater⟩ := ih (w := w.join t)
          (by simpa using Nat.succ_le_of_lt hroom)
        refine ⟨earlier, last, by simp [split, hfull, hjoins, hsplit], hearlier, hlast, fun later => ?_⟩
        simp [split, hfull, hjoins, hlater]
      case neg =>
        have hnew : ({ opened := t } : Window).size ≤ p.maxFails := by
          have := w.size_pos
          rw [Window.size_new]
          omega
        obtain ⟨earlier, last, hsplit, hearlier, hlast, hlater⟩ := ih hnew
        refine ⟨w :: earlier, last, by simp [split, hfull, hjoins, hsplit], ?_, hlast, fun later => ?_⟩
        · exact List.forall_mem_cons.2 ⟨hroom, hearlier⟩
        · simp [split, hfull, hjoins, hlater]

theorem windows_spec (hm : 0 < p.maxFails) {fs : List Instant} (hfs : fs ≠ []) :
    ∃ earlier last, p.windows fs = earlier ++ [last] ∧ (∀ v ∈ earlier, v.size < p.maxFails) ∧
      last.size ≤ p.maxFails ∧ ∀ later, p.windows (fs ++ later) = earlier ++ p.split last later := by
  cases fs with
  | nil => exact absurd rfl hfs
  | cons t rest =>
      have hnew : ({ opened := t } : Window).size ≤ p.maxFails := Nat.succ_le_of_lt hm
      exact split_spec hnew rest

theorem not_filled (hrooms : ∀ w ∈ ws, w.size < p.maxFails) : ¬ p.Filled ws := by
  rintro ⟨w, hw, hfull⟩
  exact Nat.ne_of_lt (hrooms w hw) hfull

theorem filled_concat (earlier : List Window) (hfull : w.size = p.maxFails) :
    p.Filled (earlier ++ [w]) :=
  ⟨w, List.mem_append_right earlier List.mem_cons_self, hfull⟩

/-- Failures after some window has filled are ignored. -/
theorem windows_append_of_filled (hm : 0 < p.maxFails) {fs : List Instant} (h : p.Filled (p.windows fs))
    (later : List Instant) : p.windows (fs ++ later) = p.windows fs := by
  have hne : fs ≠ [] := by
    rintro rfl
    simp [windows, Filled] at h
  obtain ⟨earlier, last, hwindows, hearlier, _, hlater⟩ := windows_spec hm hne
  obtain ⟨w, hw, hfull⟩ := h
  -- Only the last window can be the one that is full.
  rw [hwindows] at hw
  rcases List.mem_append.1 hw with hw | hw
  · exact absurd hfull (Nat.ne_of_lt (hearlier w hw))
  · obtain rfl := List.mem_singleton.1 hw
    rw [hlater, hwindows, split_of_full hfull]

/-! ## The health that windows call for -/

/-- The health of a server, told from what has happened since its last success: nothing has been
counted; a window is open; or the failure at `now` has filled one and taken the server down, and probes
may have followed. -/
inductive Reads (p : Policy) : List Occurrence → Health → Prop
  | clear {since : List Occurrence} (none : failures since = []) : p.Reads since {}
  | counting {since : List Occurrence} (earlier : List Window) (last : Window)
      (windows : p.windows (failures since) = earlier ++ [last])
      (rooms : ∀ w ∈ earlier ++ [last], w.size < p.maxFails) :
      p.Reads since { failCounter := last.size, timer := .windowExpiry (p.deadline last.opened) }
  | lost {before later : List Occurrence} {now : Instant} {earlier : List Window} {last : Window}
      (unfilled : ∀ w ∈ p.windows (failures before), w.size < p.maxFails)
      (windows : p.windows (failures before ++ [now]) = earlier ++ [last])
      (full : last.size = p.maxFails) (latest : last.latest = now) :
      p.Reads (before ++ .failure now :: later)
        { failCounter := p.maxFails,
          timer := .recoveryDeadline (p.deadline (p.rearmed now (probes later))) }

variable {since : List Occurrence} {h : Health}

/-- A failure that finds no window open opens one. -/
theorem Reads.failure_clear (hm : 0 < p.maxFails) (hnone : failures since = []) (now : Instant) :
    p.Reads (since ++ [.failure now]) (({} : Health).recordFailure p now).1 := by
  have hwindows : p.windows (failures since ++ [now]) = [] ++ [{ opened := now }] := by
    simp [hnone, windows, split]
  rw [Health.recordFailure_new hm]
  split
  case isTrue hone =>
    refine .lost ?_ hwindows (by simp [hone]) rfl
    simp [hnone, windows]
  case isFalse hmany =>
    refine .counting [] { opened := now } ?_ ?_
    · rw [failures_append]
      exact hwindows
    · simp
      omega

/-- A failure that finds a window open joins it, or opens the next. -/
theorem Reads.failure_counting (hm : 0 < p.maxFails) {last : Window}
    (hwindows : p.windows (failures since) = earlier ++ [last])
    (hrooms : ∀ w ∈ earlier ++ [last], w.size < p.maxFails) (now : Instant) :
    p.Reads (since ++ [.failure now])
      (({ failCounter := last.size, timer := .windowExpiry (p.deadline last.opened) } :
        Health).recordFailure p now).1 := by
  have hne : failures since ≠ [] := by
    intro hnil
    simp [hnil, windows] at hwindows
  obtain ⟨earlier', last', hwindows', _, _, hlater⟩ := windows_spec hm hne
  obtain ⟨rfl, hlast⟩ := List.append_inj' (hwindows.symm.trans hwindows') rfl
  obtain rfl := List.singleton_inj.1 hlast
  obtain ⟨hrooms', hroom⟩ := List.forall_mem_append.1 hrooms
  have hroom : last.size < p.maxFails := hroom last List.mem_cons_self
  have hfailures : failures (since ++ [.failure now]) = failures since ++ [now] := failures_append _ _
  have hopen : last.size ≠ p.maxFails := Nat.ne_of_lt hroom
  rw [Health.recordFailure_open last.size_pos hroom]
  split
  case isTrue hlate =>
    have hlate' : ¬ now ≤ p.deadline last.opened := Nat.not_le.2 hlate
    refine .counting (earlier ++ [last]) { opened := now } ?_ ?_
    · rw [hfailures, hlater]
      simp [split, hopen, hlate']
    · refine List.forall_mem_append.2 ⟨hrooms, ?_⟩
      have := last.size_pos
      simp
      omega
  case isFalse hjoins =>
    have hjoins' : now ≤ p.deadline last.opened := Nat.not_lt.1 hjoins
    have hjoined : p.windows (failures since ++ [now]) = earlier ++ [last.join now] := by
      rw [hlater]
      simp [split, hopen, hjoins']
    split
    case isTrue hfull =>
      refine .lost ?_ hjoined (by simpa using hfull) (by simp)
      rw [hwindows]
      exact hrooms
    case isFalse hmore =>
      have hsize : (last.join now).size = last.size + 1 := last.size_join now
      rw [← hsize]
      refine .counting earlier (last.join now) (hfailures ▸ hjoined) ?_
      refine List.forall_mem_append.2 ⟨hrooms', ?_⟩
      simp
      omega

theorem Reads.failure (hm : 0 < p.maxFails) (hreads : p.Reads since h) (now : Instant) :
    p.Reads (since ++ [.failure now]) (h.recordFailure p now).1 := by
  cases hreads with
  | clear hnone => exact .failure_clear hm hnone now
  | counting earlier last hwindows hrooms => exact .failure_counting hm hwindows hrooms now
  | lost hunfilled hwindows hfull hlatest =>
      rw [Health.recordFailure_of_down rfl, List.append_assoc, List.cons_append]
      have hprobes (later : List Occurrence) : probes (later ++ [.failure now]) = probes later := by
        rw [probes_append]
        exact List.append_nil _
      rw [← hprobes]
      exact .lost hunfilled hwindows hfull hlatest

/-- A probe is one of a server that is down. It takes effect if the deadline has come. -/
theorem Reads.probe (hreads : p.Reads since h) (now : Instant) :
    p.Reads (since ++ [.probe now]) (h.beginProbe p now) := by
  have hfailures : failures (since ++ [.probe now]) = failures since := by
    rw [failures_append]
    exact List.append_nil _
  cases hreads with
  | clear hnone => exact .clear (hfailures.trans hnone)
  | counting earlier last hwindows hrooms => exact .counting earlier last (hfailures ▸ hwindows) hrooms
  | @lost before later lost earlier last hunfilled hwindows hfull hlatest =>
      rw [Health.beginProbe_armed, ← rearmed_concat, List.append_assoc, List.cons_append]
      have hprobes : probes later ++ [now] = probes (later ++ [.probe now]) :=
        (probes_append later [.probe now]).symm
      rw [hprobes]
      exact .lost hunfilled hwindows hfull hlatest

/-- A success forgets everything. -/
theorem Reads.success (hm : 0 < p.maxFails) (h : Health) : p.Reads [] (h.recordSuccess p).1 := by
  have htracking : p.tracking = true := by simpa [tracking] using hm
  have hnew : (h.recordSuccess p).1 = {} := by simp [Health.recordSuccess, htracking]
  rw [hnew]
  exact .clear rfl

/-- A server has the health that the windows and probes since its last success call for. -/
theorem reads_after (hm : 0 < p.maxFails) (history : List Occurrence) :
    p.Reads (sinceSuccess history) (Health.after p history) := by
  induction history using List.reverseRecOn with
  | nil => exact .clear rfl
  | append_singleton history o ih =>
      rw [sinceSuccess_concat, Health.after_append]
      cases o with
      | success => exact .success hm _
      | failure now => exact ih.failure hm now
      | probe now => exact ih.probe now

/-! ## What the windows say -/

/-- A server that went down keeps the windows that it had then. -/
theorem windows_of_lost (hm : 0 < p.maxFails) {before : List Occurrence} (later : List Occurrence)
    {now : Instant} (hwindows : p.windows (failures before ++ [now]) = earlier ++ [w]) (hfull : w.size = p.maxFails) :
    p.windows (failures (before ++ .failure now :: later)) = earlier ++ [w] := by
  have hsplit : failures (before ++ .failure now :: later) =
      failures before ++ [now] ++ failures later := by
    rw [failures_append, List.append_assoc]
    rfl
  have hfilled : p.Filled (p.windows (failures before ++ [now])) := by
    rw [hwindows]
    exact filled_concat earlier hfull
  rw [hsplit, windows_append_of_filled hm hfilled, hwindows]

theorem Reads.isDown_iff (hm : 0 < p.maxFails) (hreads : p.Reads since h) :
    h.isDown = true ↔ p.Filled (p.windows (failures since)) := by
  cases hreads with
  | clear hnone => simp [hnone, windows, Filled]
  | counting earlier last hwindows hrooms =>
      rw [hwindows]
      exact iff_of_false Bool.false_ne_true (not_filled hrooms)
  | lost hunfilled hwindows hfull hlatest =>
      rw [windows_of_lost hm _ hwindows hfull]
      exact iff_of_true rfl (filled_concat _ hfull)

theorem isDown_after_iff (hm : 0 < p.maxFails) (history : List Occurrence) :
    (Health.after p history).isDown = true ↔
      p.Filled (p.windows (failures (sinceSuccess history))) :=
  (reads_after hm history).isDown_iff hm

theorem Reads.eq_new (hm : 0 < p.maxFails) (hreads : p.Reads since h)
    (hnil : p.windows (failures since) = []) : h = {} := by
  cases hreads with
  | clear => rfl
  | counting earlier last hwindows hrooms => simp [hwindows] at hnil
  | lost hunfilled hwindows hfull hlatest => simp [windows_of_lost hm _ hwindows hfull] at hnil

theorem Reads.eq_counting (hreads : p.Reads since h)
    (hw : (p.windows (failures since)).getLast? = some w) (hup : h.isDown = false) :
    h = { failCounter := w.size, timer := .windowExpiry (p.deadline w.opened) } := by
  cases hreads with
  | clear hnone => simp [hnone, windows] at hw
  | counting earlier last hwindows hrooms =>
      obtain rfl : _ = w := by simpa [hwindows] using hw
      rfl
  | lost => cases hup

theorem Reads.eq_lost (hm : 0 < p.maxFails) (hreads : p.Reads since h)
    (hw : (p.windows (failures since)).getLast? = some w) (hdown : h.isDown = true) :
    w.size = p.maxFails ∧ ∃ before later, since = before ++ .failure w.latest :: later ∧
      ¬ p.Filled (p.windows (failures before)) ∧
      p.windows (failures before ++ [w.latest]) = p.windows (failures since) ∧
      h = { failCounter := p.maxFails,
            timer := .recoveryDeadline (p.deadline (p.rearmed w.latest (probes later))) } := by
  cases hreads with
  | clear => cases hdown
  | counting => cases hdown
  | @lost before later now earlier last hunfilled hwindows hfull hlatest =>
      have hkept := windows_of_lost hm later hwindows hfull
      obtain rfl : last = w := by simpa [hkept] using hw
      obtain rfl := hlatest
      exact ⟨hfull, before, later, rfl, not_filled hunfilled, hwindows.trans hkept.symm, rfl⟩

end Policy

/-- The health of a server is told by its failures since the last success, split into windows. It is
down if some window has filled; counter and timer are those of the last window, and of the last probe
that took effect once the server is down. The failure that fills a window is the one that reports it. -/
theorem health_follows_windows (p : Policy) (hm : 0 < p.maxFails) (history : List Occurrence) :
    let h := Health.after p history
    let since := sinceSuccess history
    let ws := p.windows (failures since)
    (h.isDown = true ↔ p.Filled ws) ∧
      (ws = [] → h.failCounter = 0 ∧ h.timer = .idle) ∧
      (∀ w, ws.getLast? = some w → h.isDown = false →
        h.failCounter = w.size ∧ h.timer = .windowExpiry (p.deadline w.opened)) ∧
      (∀ w, ws.getLast? = some w → h.isDown = true →
        h.failCounter = w.size ∧ w.size = p.maxFails ∧
          ∃ before later, since = before ++ .failure w.latest :: later ∧
            ¬ p.Filled (p.windows (failures before)) ∧
            p.windows (failures before ++ [w.latest]) = ws ∧
            h.timer = .recoveryDeadline (p.deadline (p.rearmed w.latest (probes later)))) ∧
      (∀ now, (h.recordFailure p now).2 ≠ .up ∧
        ((h.recordFailure p now).2 = .down ↔
          ¬ p.Filled ws ∧ p.Filled (p.windows (failures since ++ [now])))) ∧
      (h.recordSuccess p).2 ≠ .down ∧ ((h.recordSuccess p).2 = .up ↔ p.Filled ws) := by
  intro h since ws
  have hreads : p.Reads since h := Policy.reads_after hm history
  have hsound : h.Sound p := Health.sound_after p history
  refine ⟨hreads.isDown_iff hm, ?none, ?counting, ?lost, ?failure, ?success⟩
  case none =>
    intro hnil
    rw [hreads.eq_new hm hnil]
    exact ⟨rfl, rfl⟩
  case counting =>
    intro w hw hup
    have heq := hreads.eq_counting hw hup
    exact ⟨congrArg Health.failCounter heq, congrArg Health.timer heq⟩
  case lost =>
    intro w hw hdown
    obtain ⟨hfull, before, later, hsince, hbefore, hwindows, heq⟩ := hreads.eq_lost hm hw hdown
    have hcounter : h.failCounter = w.size := (congrArg Health.failCounter heq).trans hfull.symm
    exact ⟨hcounter, hfull, before, later, hsince, hbefore, hwindows, congrArg Health.timer heq⟩
  case failure =>
    intro now
    have hthen := (hreads.failure hm now).isDown_iff hm
    rw [failures_append] at hthen
    rw [hsound.recordFailure_down_iff now, ← Bool.not_eq_true, hreads.isDown_iff hm, hthen]
    exact ⟨hsound.recordFailure_ne_up now, Iff.rfl⟩
  case success =>
    have htracking : p.tracking = true := by simpa [Policy.tracking] using hm
    rw [← hreads.isDown_iff hm]
    cases hd : h.isDown <;> simp [Health.recordSuccess, htracking, hd]

/-- The failure at 101 ns comes too late for the window of the first one; the one after it joins,
although the clock has been turned back, and takes the server down. Of two probes the second takes effect. -/
theorem health_follows_windows_of_two :
    let p : Policy := { maxFails := 2, failTimeout := ⟨100, by decide⟩ }
    let history : List Occurrence :=
      [.failure ⟨7⟩, .success, .failure ⟨0⟩, .failure ⟨101⟩, .failure ⟨50⟩, .probe ⟨149⟩, .probe ⟨150⟩,
        .failure ⟨160⟩]
    let h := Health.after p history
    0 < p.maxFails ∧
      p.windows (failures (sinceSuccess history)) = [{ opened := ⟨0⟩ }, ⟨⟨101⟩, [⟨50⟩]⟩] ∧
      (h.isDown = true ↔ p.Filled [{ opened := ⟨0⟩ }, ⟨⟨101⟩, [⟨50⟩]⟩]) ∧
      h.failCounter = 2 ∧ h.timer = .recoveryDeadline ⟨250⟩ := by
  intro p history h
  have hwindows : p.windows (failures (sinceSuccess history)) =
      [{ opened := ⟨0⟩ }, ⟨⟨101⟩, [⟨50⟩]⟩] := by decide
  have hdown : h.isDown = true := by decide
  obtain ⟨hiff, _, _, hlost, _⟩ := health_follows_windows p (by decide) history
  rw [hwindows] at hiff hlost
  obtain ⟨hcounter, _⟩ := hlost _ rfl hdown
  exact ⟨by decide, hwindows, hiff, hcounter, by decide⟩

end TieredPool
