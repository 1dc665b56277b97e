import Mathlib.Algebra.Order.Group.Nat
import TieredPool.Backoff
import TieredPool.Proofs.Integers
import TieredPool.Url.Parse

/-!
# Delays — how long a retry waits

A delay doubles with each attempt up to a limit, and some jitter comes on top. The doubling stops at the
largest number there is, which cannot be seen, as the limit is never above it. The sum with the jitter does
not stop there; it fails instead.

* `exactDelay`, `cappedDelay_eq` — the delay before jitter, in numbers without bound.
* `RandomSource.Bounded`, `RandomSource.recording` — sources that keep to their bounds; the bounds of the
  numbers that are drawn.
* `retryDelay_eq` — a delay by its sum, which fits or does not.
* `delay_unbounded` — a delay under a limit of 63 bits.
* `RetryConfig.NeverFails`, `delay_total` — which settings always give a delay.
-/

namespace TieredPool

variable {γ : Type}

/-! ## Before jitter -/

/-- The delay before retry number `attempt`, before jitter and in numbers without bound. -/
def exactDelay (attempt base cap : ℕ) : ℕ := min (base * 2 ^ (attempt - 1)) cap

theorem exactDelay_le (attempt base cap : ℕ) : exactDelay attempt base cap ≤ cap := Nat.min_le_right _ _

theorem exactDelay_mono {attempt attempt' base base' cap cap' : ℕ} (hattempt : attempt ≤ attempt')
    (hbase : base ≤ base') (hcap : cap ≤ cap') :
    exactDelay attempt base cap ≤ exactDelay attempt' base' cap' := by
  have hpow : 2 ^ (attempt - 1) ≤ 2 ^ (attempt' - 1) :=
    Nat.pow_le_pow_right Nat.two_pos (Nat.sub_le_sub_right hattempt 1)
  exact min_le_min (Nat.mul_le_mul hbase hpow) hcap

theorem exactDelay_base_zero (attempt cap : ℕ) : exactDelay attempt 0 cap = 0 := by
  rw [exactDelay, Nat.zero_mul, Nat.zero_min]

/-- After 64 doublings every limit has been reached, if there is anything to double. -/
theorem exactDelay_late {attempt base cap : ℕ} (hbase : 0 < base) (hcap : cap ≤ maxMillis)
    (hlate : 64 ≤ attempt - 1) : exactDelay attempt base cap = cap := by
  have hdoubled : cap ≤ base * 2 ^ (attempt - 1) :=
    calc cap ≤ maxMillis := hcap
      _ ≤ 2 ^ 64 := by decide
      _ ≤ 2 ^ (attempt - 1) := Nat.pow_le_pow_right Nat.two_pos hlate
      _ ≤ base * 2 ^ (attempt - 1) := Nat.le_mul_of_pos_left _ hbase
  exact min_eq_right hdoubled

theorem toNat_le_maxMillis (n : UInt64) : n.toNat ≤ maxMillis := Nat.le_pred_of_lt n.toNat_lt

theorem doublings_of_lt {k : ℕ} (hk : k < 64) : doublings k = 2 ^ k := by
  rw [doublings, if_pos hk, Nat.one_shiftLeft]

/-- Stopping at the largest number, once or twice on the way, comes to the same as not stopping. -/
theorem cappedDelay_eq (attempt : ℕ) (base cap : UInt64) :
    cappedDelay attempt base cap = exactDelay attempt base.toNat cap.toNat := by
  have hcap := toNat_le_maxMillis cap
  rw [cappedDelay, min_assoc, min_eq_right hcap]
  -- The power stops from 64 doublings on, when the limit has been passed, unless there is nothing to double.
  by_cases hk : attempt - 1 < 64
  · rw [doublings_of_lt hk, exactDelay]
  · rcases Nat.eq_zero_or_pos base.toNat with hzero | hpos
    · rw [hzero, Nat.zero_mul, Nat.zero_min, exactDelay_base_zero]
    · have hstopped : cap.toNat ≤ base.toNat * maxMillis :=
        Nat.le_trans hcap (Nat.le_mul_of_pos_left _ hpos)
      rw [doublings, if_neg hk, min_eq_right hstopped,
        exactDelay_late hpos hcap (Nat.le_of_not_lt hk)]

/-! ## Jitter -/

namespace RandomSource

/-- Numbers that are drawn stay below their bound. -/
def Bounded (rng : RandomSource γ) : Prop := ∀ n g, 0 < n → (rng.below n g).1 < n

/-- The same source, with the bounds of all numbers that have been drawn from it. -/
def recording (rng : RandomSource γ) : RandomSource (γ × List ℕ) where
  below n s := ((rng.below n s.1).1, ((rng.below n s.1).2, s.2 ++ [n]))
  happens p s := ((rng.happens p s.1).1, ((rng.happens p s.1).2, s.2))

/-- The source of the greatest numbers that can be drawn. -/
def greatest : RandomSource Unit where
  below n g := (n - 1, g)
  happens _ g := (true, g)

theorem bounded_greatest : greatest.Bounded := fun _ _ hn => Nat.sub_lt hn Nat.one_pos

/-- The seeded source keeps to its bounds: a number drawn is the high half of a product with the bound. -/
theorem bounded_cipherStream : CipherStream.source.Bounded := by
  have hfrom (n zone fuel : ℕ) (hn : 0 < n) (g : CipherStream) :
      (CipherStream.belowFrom n zone fuel g).1 < n := by
    induction fuel generalizing g with
    | zero => exact hn
    | succ fuel ih =>
        rw [CipherStream.belowFrom]
        dsimp only
        split
        · exact Nat.div_lt_of_lt_mul (Nat.mul_lt_mul_of_pos_right g.next.1.toNat_lt hn)
        · exact ih _
  exact fun n g hn => hfrom n _ _ hn g

/-- The jitter on a delay of `c` milliseconds. None is drawn for less than ten. -/
def jitter (rng : RandomSource γ) (c : ℕ) (g : γ) : ℕ × γ :=
  if 10 ≤ c then rng.below (c / 10) g else (0, g)

theorem jitter_lt {rng : RandomSource γ} (hrng : rng.Bounded) {c : ℕ} (hc : 10 ≤ c) (g : γ) :
    (rng.jitter c g).1 < c / 10 := by
  rw [jitter, if_pos hc]
  exact hrng _ g (Nat.div_pos hc (by decide))

theorem jitter_of_lt (rng : RandomSource γ) {c : ℕ} (hc : c < 10) (g : γ) : rng.jitter c g = (0, g) :=
  if_neg (Nat.not_le.2 hc)

/-- At most a tenth comes on top, and less than that from ten milliseconds on. -/
theorem add_jitter_le {rng : RandomSource γ} (hrng : rng.Bounded) (c : ℕ) (g : γ) :
    c + (rng.jitter c g).1 ≤ c + (c / 10 - 1) := by
  by_cases hc : 10 ≤ c
  · have := jitter_lt hrng hc g
    omega
  · rw [jitter_of_lt rng (Nat.not_le.1 hc)]
    omega

theorem jitter_recording (rng : RandomSource γ) (c : ℕ) (g : γ) (drawn : List ℕ) :
    rng.recording.jitter c (g, drawn) =
      ((rng.jitter c g).1, ((rng.jitter c g).2, drawn ++ if 10 ≤ c then [c / 10] else [])) := by
  unfold jitter
  split
  · rfl
  · rw [List.append_nil]

end RandomSource

/-! ## The delay -/

theorem nanos_ofMillis {n : ℕ} (hn : n ≤ maxMillis) :
    (Duration.ofMillis (UInt64.ofNat n)).nanos = n * 1000000 := by
  have hlt : n < UInt64.size := by
    unfold maxMillis UInt64.size at *
    omega
  exact congrArg (· * 1000000) (UInt64.toNat_ofNat_of_lt' hlt)

/-- A delay and its jitter are added up, if the sum is not too large. -/
theorem retryDelay_eq (rng : RandomSource γ) {attempt : ℕ} (hattempt : 0 < attempt)
    (base cap : UInt64) (g : γ) :
    retryDelay rng attempt base cap g =
      let c := exactDelay attempt base.toNat cap.toNat
      let jitter := rng.jitter c g
      (if c + jitter.1 ≤ maxMillis then some (.ofMillis (UInt64.ofNat (c + jitter.1))) else none,
        jitter.2) := by
  have hdraws (c : ℕ) : (if 0 < c / 10 then rng.below (c / 10) g else (0, g)) = rng.jitter c g := by
    unfold RandomSource.jitter
    exact if_congr (Nat.div_pos_iff.trans ⟨And.right, fun hc => ⟨by decide, hc⟩⟩) rfl rfl
  simp only [retryDelay, Nat.ne_of_gt hattempt, if_false, cappedDelay_eq, hdraws]
  split <;> rfl

/-- Where the sum is not too large, there is a delay, of so many milliseconds. -/
theorem exists_retryDelay (rng : RandomSource γ) {attempt : ℕ} (hattempt : 0 < attempt)
    {base cap : UInt64} {c : ℕ} (hc : c = exactDelay attempt base.toNat cap.toNat) {g : γ}
    (hfits : c + (rng.jitter c g).1 ≤ maxMillis) :
    ∃ d, retryDelay rng attempt base cap g = (some d, (rng.jitter c g).2) ∧
      d.nanos = (c + (rng.jitter c g).1) * 1000000 := by
  subst hc
  refine ⟨_, ?_, nanos_ofMillis hfits⟩
  rw [retryDelay_eq rng hattempt]
  simp only [if_pos hfits]

theorem retryDelay_zero (rng : RandomSource γ) (base cap : UInt64) (g : γ) :
    retryDelay rng 0 base cap g = (some .zero, g) := rfl

/-- A delay is at most the limit and the most that is drawn on top of it. -/
theorem retryDelay_le {rng : RandomSource γ} (hrng : rng.Bounded) {attempt : ℕ} {base cap : UInt64}
    {g : γ} {d : Duration} (h : (retryDelay rng attempt base cap g).1 = some d) :
    d.nanos ≤ (cap.toNat + (cap.toNat / 10 - 1)) * 1000000 := by
  rcases Nat.eq_zero_or_pos attempt with rfl | hattempt
  · cases h
    exact Nat.zero_le _
  · rw [retryDelay_eq rng hattempt] at h
    generalize hc : exactDelay attempt base.toNat cap.toNat = c at h
    have hle : c ≤ cap.toNat := hc ▸ exactDelay_le _ _ _
    have hsum : c + (rng.jitter c g).1 ≤ c + (c / 10 - 1) := RandomSource.add_jitter_le hrng c g
    dsimp only at h
    split at h
    case isTrue hfits =>
      cases h
      rw [nanos_ofMillis hfits]
      omega
    case isFalse => cases h

/-- Numbers that are recorded on the way change nothing. -/
theorem retryDelay_recording (rng : RandomSource γ) (attempt : ℕ) (base cap : UInt64) (g : γ) :
    let c := exactDelay attempt base.toNat cap.toNat
    retryDelay rng.recording attempt base cap (g, []) =
      ((retryDelay rng attempt base cap g).1, (retryDelay rng attempt base cap g).2,
        if 0 < attempt ∧ 10 ≤ c then [c / 10] else []) := by
  intro c
  rcases Nat.eq_zero_or_pos attempt with rfl | hattempt
  · rfl
  · rw [retryDelay_eq rng hattempt, retryDelay_eq rng.recording hattempt]
    simp only [RandomSource.jitter_recording, hattempt, true_and, List.nil_append]
    rfl

/-- What a delay is under a limit of 63 bits, in numbers without bound. There is none before the first
attempt. Otherwise `c` milliseconds are what the delay has doubled to, up to the limit, and no step of the
computation that stops at the largest number shows in them. They grow with the attempt, the base and the
limit. From ten milliseconds on one number is drawn below a tenth of them and added, and no number else;
the sum fits in 64 bits and is less than a tenth above the limit. No configuration that is read from a text
has a greater limit than this, whatever reads it, if integers of a text are signed and of 64 bits. -/
theorem delay_unbounded (rng : RandomSource γ) (hrng : rng.Bounded) (attempt : ℕ) (base cap : UInt64)
    (hcap : cap.toNat ≤ 2 ^ 63 - 1) (g : γ) :
    let c := exactDelay attempt base.toNat cap.toNat
    let result := retryDelay rng attempt base cap g
    cappedDelay attempt base cap = c ∧
    (attempt = 0 → result = (some .zero, g)) ∧
    (0 < attempt → ∃ j d, result.1 = some d ∧ d.nanos = (c + j) * 1000000 ∧
      (c < 10 → j = 0 ∧ result.2 = g) ∧
      (10 ≤ c → j < c / 10 ∧ rng.below (c / 10) g = (j, result.2))) ∧
    retryDelay rng.recording attempt base cap (g, []) =
      (result.1, result.2, if 0 < attempt ∧ 10 ≤ c then [c / 10] else []) ∧
    (∀ attempt' base' cap', attempt ≤ attempt' → base.toNat ≤ base' → cap.toNat ≤ cap' →
      c ≤ exactDelay attempt' base' cap') ∧
    (10 ≤ cap.toNat → ∀ d, result.1 = some d →
      d.nanos < (cap.toNat + cap.toNat / 10) * 1000000) ∧
    ∀ (toml : DocumentReader) (urls : UrlParser), toml.Narrow →
      ∀ text config, PoolConfig.parse toml urls text = .ok config →
        config.retry.maxDelayMs.toNat ≤ 2 ^ 63 - 1 := by
  intro c result
  have hle : c ≤ cap.toNat := exactDelay_le _ _ _
  have hsum : c + (rng.jitter c g).1 ≤ c + (c / 10 - 1) := RandomSource.add_jitter_le hrng c g
  have hfits : c + (rng.jitter c g).1 ≤ maxMillis := by
    unfold maxMillis UInt64.size
    omega
  refine ⟨cappedDelay_eq attempt base cap, ?_, fun hattempt => ?_,
    retryDelay_recording rng attempt base cap g,
    fun _ _ _ hattempt hbase hcap => exactDelay_mono hattempt hbase hcap, fun hten d hd => ?_,
    fun _ _ htoml _ _ => PoolConfig.maxDelayMs_le_of_parse htoml⟩
  · rintro rfl
    exact retryDelay_zero rng base cap g
  · obtain ⟨d, hresult, hnanos⟩ := exists_retryDelay rng hattempt (c := c) rfl hfits
    have hrest : result.2 = (rng.jitter c g).2 := congrArg Prod.snd hresult
    refine ⟨(rng.jitter c g).1, d, congrArg Prod.fst hresult, hnanos, fun hc => ?_, fun hc => ?_⟩
    · rw [hrest, RandomSource.jitter_of_lt rng hc]
      exact ⟨rfl, rfl⟩
    · refine ⟨RandomSource.jitter_lt hrng hc g, ?_⟩
      rw [hrest, RandomSource.jitter, if_pos hc]
  · have hmost := retryDelay_le hrng hd
    omega

/-- The third delay from a tenth of a second on is of 400 milliseconds and up to 39 more. -/
theorem delay_unbounded_third :
    RandomSource.Bounded CipherStream.source ∧ (2000 : UInt64).toNat ≤ 2 ^ 63 - 1 ∧
    ∃ j d, (retryDelay CipherStream.source 3 100 2000 (.ofSeed 42)).1 = some d ∧
      d.nanos = (400 + j) * 1000000 ∧ j < 40 := by
  have hrng := RandomSource.bounded_cipherStream
  have hcap : (2000 : UInt64).toNat ≤ 2 ^ 63 - 1 := by decide
  obtain ⟨_, _, hdelay, _⟩ := delay_unbounded CipherStream.source hrng 3 100 2000 hcap (.ofSeed 42)
  obtain ⟨j, d, hd, hnanos, _, hj⟩ := hdelay (by decide)
  exact ⟨hrng, hcap, j, d, hd, hnanos, (hj (by decide)).1⟩

/-! ## Settings that always give a delay -/

/-- Whatever is drawn, there is a delay before every attempt. -/
def RetryConfig.NeverFails (c : RetryConfig) : Prop :=
  ∀ (γ : Type) (rng : RandomSource γ), rng.Bounded →
    ∀ (attempt : UInt32) (g : γ), ∃ d, (c.delay rng attempt.toNat g).1 = some d

theorem RetryConfig.delay_eq_none_iff (c : RetryConfig) (rng : RandomSource γ) (attempt : ℕ) (g : γ) :
    (c.delay rng attempt g).1 = none ↔
      0 < attempt ∧ maxMillis < exactDelay attempt c.baseDelayMs.toNat c.maxDelayMs.toNat +
        (rng.jitter (exactDelay attempt c.baseDelayMs.toNat c.maxDelayMs.toNat) g).1 := by
  rcases Nat.eq_zero_or_pos attempt with rfl | hattempt
  · rw [RetryConfig.delay, retryDelay_zero]
    exact iff_of_false (fun h => nomatch h) fun h => Nat.lt_irrefl 0 h.1
  · rw [RetryConfig.delay, retryDelay_eq rng hattempt, and_iff_right hattempt, ← Nat.not_le]
    dsimp only
    split
    case isTrue h => exact iff_of_false (fun h => nomatch h) (not_not_intro h)
    case isFalse h => exact iff_of_true rfl h

theorem RetryConfig.neverFails_iff (c : RetryConfig) :
    c.NeverFails ↔
      c.baseDelayMs = 0 ∨ c.maxDelayMs.toNat + c.maxDelayMs.toNat / 10 ≤ UInt64.size := by
  have hlimit := toNat_le_maxMillis c.maxDelayMs
  constructor
  case mp =>
    intro hnever
    by_contra hlarge
    rw [not_or] at hlarge
    obtain ⟨hbase, hover⟩ := hlarge
    have hpos : 0 < c.baseDelayMs.toNat := by
      rw [Nat.pos_iff_ne_zero]
      exact fun hzero => hbase (UInt64.toNat_inj.1 hzero)
    have hten : 10 ≤ c.maxDelayMs.toNat := by
      unfold UInt64.size at hover
      omega
    -- The limit has been reached at the 65th attempt, and the greatest number drawn exceeds it too far.
    have hlate : exactDelay 65 c.baseDelayMs.toNat c.maxDelayMs.toNat = c.maxDelayMs.toNat :=
      exactDelay_late hpos hlimit (Nat.le_refl 64)
    have hjitter : RandomSource.greatest.jitter c.maxDelayMs.toNat () =
        (c.maxDelayMs.toNat / 10 - 1, ()) := if_pos hten
    have hnone : (c.delay .greatest 65 ()).1 = none := by
      rw [c.delay_eq_none_iff, hlate, hjitter]
      unfold maxMillis
      omega
    obtain ⟨d, hd⟩ := hnever Unit .greatest RandomSource.bounded_greatest 65 ()
    exact nomatch hnone.symm.trans hd
  case mpr =>
    intro h γ rng hrng attempt g
    rw [← Option.ne_none_iff_exists']
    intro hnone
    obtain ⟨_, hover⟩ := (c.delay_eq_none_iff rng attempt.toNat g).1 hnone
    generalize he : exactDelay attempt.toNat c.baseDelayMs.toNat c.maxDelayMs.toNat = e at hover
    have hsum : e + (rng.jitter e g).1 ≤ e + (e / 10 - 1) := RandomSource.add_jitter_le hrng e g
    rcases h with hbase | hfits
    · have hzero : e = 0 := by rw [← he, hbase]; exact exactDelay_base_zero _ _
      unfold maxMillis UInt64.size at hover
      omega
    · have hle : e ≤ c.maxDelayMs.toNat := he ▸ exactDelay_le _ _ _
      unfold maxMillis UInt64.size at *
      omega

/-- When there is no delay. It is missing exactly where the sum with the jitter, which is the last step,
does not fit in 64 bits; the jitter has been drawn by then. Settings never lead to that, whatever is drawn
before whichever attempt, exactly if the base is zero or a tenth on top of the limit fits. Settings that are
read from a text whose integers are signed and of 64 bits have a limit that small; others may pass validation
with a greater one. -/
theorem delay_total (config : PoolConfig) :
    (∀ (γ : Type) (rng : RandomSource γ) (attempt : ℕ) (g : γ),
      let c := exactDelay attempt config.retry.baseDelayMs.toNat config.retry.maxDelayMs.toNat
      (config.retry.delay rng attempt g).1 = none ↔
        0 < attempt ∧ maxMillis < c + (rng.jitter c g).1) ∧
    (config.retry.NeverFails ↔ config.retry.baseDelayMs = 0 ∨
      config.retry.maxDelayMs.toNat + config.retry.maxDelayMs.toNat / 10 ≤ UInt64.size) ∧
    ∀ (toml : DocumentReader) (urls : UrlParser), toml.Narrow →
      ∀ text, PoolConfig.parse toml urls text = .ok config → config.retry.NeverFails := by
  have hiff := config.retry.neverFails_iff
  refine ⟨fun γ rng attempt g => ?_, hiff, fun toml urls htoml text htext => hiff.2 (.inr ?_)⟩
  · exact config.retry.delay_eq_none_iff rng attempt g
  · have hlimit := PoolConfig.maxDelayMs_le_of_parse htoml htext
    unfold UInt64.size
    omega

/-- A file of one server, whose delays may become as long as a file can say. -/
def patientText : String :=
  "[[servers]]\nname = \"a\"\naddress = \"http://10.0.0.1\"\n" ++
    "[retry]\nbase_delay_ms = 1\nmax_delay_ms = 9223372036854775807\n"

def patient : PoolConfig where
  servers := [{ name := "a", address := "http://10.0.0.1" }]
  retry := { baseDelayMs := 1, maxDelayMs := 9223372036854775807 }

theorem delay_total_patient :
    Toml.reader.Narrow ∧ PoolConfig.parse Toml.reader .ascii patientText = .ok patient ∧
      patient.retry.NeverFails := by
  have hparse : PoolConfig.parse Toml.reader .ascii patientText = .ok patient := by decide +kernel
  exact ⟨Toml.narrow_reader, hparse,
    (delay_total patient).2.2 Toml.reader .ascii Toml.narrow_reader patientText hparse⟩

/-- One server, with delays as long as a record can say. -/
def endless : PoolConfig where
  servers := [{ name := "a", address := "http://10.0.0.1" }]
  retry := { baseDelayMs := 18446744073709551615, maxDelayMs := 18446744073709551615 }

/-- The settings pass validation, and there is no delay before the first retry: a number has been drawn, and
it is more than what is left below the largest number. -/
theorem delay_missing_endless :
    endless.validate .ascii = .ok endless ∧ ¬ endless.retry.NeverFails ∧
    (endless.retry.delay CipherStream.source 1 (.ofSeed 42)).1 = none := by
  have hmissing : (endless.retry.delay CipherStream.source 1 (.ofSeed 42)).1 = none := by
    decide +kernel
  refine ⟨by decide +kernel, fun hnever => ?_, hmissing⟩
  obtain ⟨d, hd⟩ := hnever _ _ RandomSource.bounded_cipherStream 1 (.ofSeed 42)
  exact nomatch hmissing.symm.trans hd

end TieredPool
