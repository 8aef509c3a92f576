/-
Eggtunnel/Backoff.lean

How long the supervisor waits between two attempts.

An attempt that ended with `Retry` is followed by one `backoff`: a sleep of the
current delay plus a random jitter, after which the delay doubles, up to
`reconnect_max`.  The Session loop resets the delay when it becomes ready.  The
machine of this module runs `Drive` and adds what `backoff` owns: the delay, the
counter of reconnects, and where `drive` stands with its sleep.

The random source is a parameter of each sleep: four draws at most, any of which
may fail.  `Duration` arithmetic is that of the source: an addition that
overflows panics, which is a step that is not enabled, and a multiplication
saturates.
-/
import Eggtunnel.Drive

namespace Eggtunnel

/-! ### Durations -/

/-- `Duration::MAX`: the seconds are a `u64`. -/
def durationMax : Duration := secs (2 ^ 64) - 1

/-- `Duration + Duration`, which panics on overflow. -/
def Duration.checkedAdd (a b : Duration) : Option Duration :=
  if a + b ≤ durationMax then some (a + b) else none

/-- `Duration::saturating_mul`. -/
def Duration.saturatingMul (a : Duration) (n : Nat) : Duration := min (a * n) durationMax

theorem Duration.checkedAdd_of_le {a b : Duration} (h : a + b ≤ durationMax) :
    a.checkedAdd b = some (a + b) := if_pos h

theorem Duration.saturatingMul_of_le {a : Duration} {n : Nat} (h : a * n ≤ durationMax) :
    a.saturatingMul n = a * n := min_eq_left h

/-! ### Jitter -/

/-- The loop of `random_jitter_ms` over the draws that are left. -/
def drawJitter (max range zone : Nat) : List (Option UInt64) → Nat
  | [] => max
  | none :: _ => max
  | some value :: draws =>
      if value.toNat < zone then value.toNat % range else drawJitter max range zone draws

/-- `random_jitter_ms`; `random i` is what the `i`-th draw gives, if it does not
fail. -/
def randomJitterMs (delay : Duration) (random : Nat → Option UInt64) : Nat :=
  let max := min (delay / millis 1 / 4) 7500
  if max = 0 then 0
  else
    let range := max + 1
    let zone := (2 ^ 64 - 1) - (2 ^ 64 - 1) % range
    drawJitter max range zone ((List.range 4).map random)

theorem drawJitter_le (max zone : Nat) (draws : List (Option UInt64)) :
    drawJitter max (max + 1) zone draws ≤ max := by
  induction draws with
  | nil => exact le_rfl
  | cons draw draws ih =>
      cases draw with
      | none => exact le_rfl
      | some value =>
          unfold drawJitter
          split_ifs
          · exact Nat.lt_succ_iff.mp (Nat.mod_lt _ (Nat.succ_pos max))
          · exact ih

/-- **The jitter is at most a quarter of the delay**, and at most 7.5 s. -/
theorem randomJitterMs_le (delay : Duration) (random : Nat → Option UInt64) :
    randomJitterMs delay random ≤ min (delay / millis 1 / 4) 7500 := by
  unfold randomJitterMs
  dsimp only
  split_ifs
  · exact Nat.zero_le _
  · exact drawJitter_le _ _ _

theorem millis_randomJitterMs_le (delay : Duration) (random : Nat → Option UInt64) :
    4 * millis (randomJitterMs delay random) ≤ delay := by
  have hjitter := (randomJitterMs_le delay random).trans (min_le_left _ _)
  have hquarter : 4 * (delay / millis 1 / 4) ≤ delay / millis 1 := Nat.mul_div_le _ _
  have hwhole : delay / millis 1 * 1000000 ≤ delay := Nat.div_mul_le_self _ _
  calc 4 * millis (randomJitterMs delay random)
      = 4 * randomJitterMs delay random * 1000000 := (Nat.mul_assoc _ _ _).symm
    _ ≤ 4 * (delay / millis 1 / 4) * 1000000 :=
        Nat.mul_le_mul_right _ (Nat.mul_le_mul_left _ hjitter)
    _ ≤ delay / millis 1 * 1000000 := Nat.mul_le_mul_right _ hquarter
    _ ≤ delay := hwhole

/-! ### One sleep -/

/-- How long `backoff` sleeps. -/
def backoffSleep (reconnectMax delay : Duration) (random : Nat → Option UInt64) :
    Option Duration :=
  (delay.checkedAdd (millis (randomJitterMs delay random))).map (min · reconnectMax)

/-- The delay after a sleep. -/
def doubledDelay (reconnectMax delay : Duration) : Duration :=
  min (delay.saturatingMul 2) reconnectMax

/-- The policy of reconnecting, once it is validated. -/
structure TimeoutPolicy.Reconnects (p : TimeoutPolicy) : Prop where
  ordered : p.reconnectInitial ≤ p.reconnectMax
  day : p.reconnectMax ≤ secs 86400

theorem TimeoutPolicy.reconnects_of_validate {p : TimeoutPolicy} (h : p.validate = .ok ()) :
    p.Reconnects := by
  unfold validate at h
  split_ifs at h with hbad
  simp only [Bool.or_eq_true, not_or, List.any_eq_true, decide_eq_true_eq, Nat.not_lt] at hbad
  obtain ⟨⟨hvalues, hordered⟩, -⟩ := hbad
  refine ⟨hordered, Nat.not_lt.mp fun hlong => hvalues ⟨p.reconnectMax, by simp, ?_⟩⟩
  exact .inr hlong

/-- Twice a day is far from the largest `Duration`. -/
theorem double_le_durationMax {a b : Nat} (ha : a ≤ secs 86400) (hb : b ≤ secs 86400) :
    a + b ≤ durationMax :=
  (Nat.add_le_add ha hb).trans (by decide)

/-- A quarter more at most, below the maximum. -/
theorem sleep_bounds {delay jitter top : Nat} (hjitter : 4 * jitter ≤ delay) (htop : delay ≤ top) :
    delay ≤ min (delay + jitter) top ∧
      min (delay + jitter) top ≤ min (delay * 5 / 4) top := by
  omega

/-- **A sleep fits**: it does not overflow, and lasts between the delay and a
quarter more, but never longer than the maximum. -/
theorem backoffSleep_eq_some {p : TimeoutPolicy} (hp : p.Reconnects) {delay : Duration}
    (hdelay : delay ≤ p.reconnectMax) (random : Nat → Option UInt64) :
    ∃ wait, backoffSleep p.reconnectMax delay random = some wait ∧ delay ≤ wait ∧
      wait ≤ min (delay * 5 / 4) p.reconnectMax := by
  have hjitter := millis_randomJitterMs_le delay random
  have hday := hdelay.trans hp.day
  have hless : millis (randomJitterMs delay random) ≤ delay :=
    (Nat.le_mul_of_pos_left _ (by decide)).trans hjitter
  refine ⟨_, ?_, sleep_bounds hjitter hdelay⟩
  rw [backoffSleep, Duration.checkedAdd_of_le (double_le_durationMax hday (hless.trans hday))]
  rfl

theorem min_double {a k top : Nat} :
    min (min (a * 2 ^ k) top * 2) top = min (a * 2 ^ (k + 1)) top := by
  rw [Nat.pow_succ, ← Nat.mul_assoc]
  generalize a * 2 ^ k = x
  omega

/-- Doubling does not saturate. -/
theorem doubledDelay_eq {p : TimeoutPolicy} (hp : p.Reconnects) {delay : Duration} {k : Nat}
    (h : delay = min (p.reconnectInitial * 2 ^ k) p.reconnectMax) :
    doubledDelay p.reconnectMax delay
      = min (p.reconnectInitial * 2 ^ (k + 1)) p.reconnectMax := by
  have hdelay : delay ≤ secs 86400 := (h ▸ min_le_right _ _ : delay ≤ p.reconnectMax).trans hp.day
  have hfits : delay * 2 ≤ durationMax := by
    rw [Nat.mul_two]
    exact double_le_durationMax hdelay hdelay
  rw [doubledDelay, Duration.saturatingMul_of_le hfits, h]
  exact min_double

/-! ### The machine -/

/-- Where `drive` stands with its sleep. -/
inductive Pace
  /-- an attempt is under way -/
  | attempting
  /-- the attempt has ended, and `backoff` is next -/
  | ended
  | sleeping (wait : Duration)
  deriving DecidableEq

/-- A run of `drive` with its delays.  `sleeps` counts the sleeps that were
completed and `recent` those since the last Session that became ready; neither
is ever read. -/
structure Paced where
  drive : Drive
  reconnectDelay : Duration
  reconnects : Nat
  pace : Pace
  sleeps : Nat
  recent : Nat

/-- What can happen to a supervisor with its delays. -/
inductive PacedEvent
  | drive (e : DriveEvent)
  /-- `backoff` draws its jitter and goes to sleep -/
  | sleep (random : Nat → Option UInt64)
  /-- the sleep is over -/
  | woken
  /-- `backoff` finds the client cancelled, before the sleep or in it -/
  | interrupted

/-- A result of an attempt. -/
def DriveEvent.endsAttempt : DriveEvent → Bool
  | .attemptFailed _ => true
  | .sessionOver => true
  | _ => false

/-- What may happen while `drive` sleeps. -/
def DriveEvent.isCallerGone : DriveEvent → Bool
  | .callerGone _ => true
  | _ => false

namespace Paced

/-- Before the first attempt. -/
def init (c : DriveConfig) : Paced where
  drive := .init c
  reconnectDelay := c.policy.timeouts.reconnectInitial
  reconnects := 0
  pace := .attempting
  sleeps := 0
  recent := 0

/-- The timeouts of its policy. -/
def timeouts (s : Paced) : TimeoutPolicy := s.drive.policy.timeouts

/-- A step of the rest of `drive`; a Session that becomes ready resets the
delay. -/
def advance (s : Paced) (pace : Pace) (d : Drive) : Paced :=
  if d.phase? = some .ready ∧ s.drive.phase? ≠ some .ready then
    { s with drive := d, pace, reconnectDelay := s.timeouts.reconnectInitial, recent := 0 }
  else { s with drive := d, pace }

/-- One move of the supervisor, asleep or not. -/
def step (s : Paced) : PacedEvent → Option Paced
  | .drive e =>
      if s.pace = .attempting ∨ e.isCallerGone then
        (s.drive.step e).map (s.advance (if e.endsAttempt then .ended else s.pace))
      else none
  | .sleep random =>
      match s.pace, s.drive.stage with
      | .ended, .apart _ _ _ =>
          (backoffSleep s.timeouts.reconnectMax s.reconnectDelay random).map fun wait =>
            { s with pace := .sleeping wait }
      | _, _ => none
  | .woken =>
      match s.pace with
      | .sleeping _ => some { s with
          reconnects := fetchAdd s.reconnects 1
          reconnectDelay := doubledDelay s.timeouts.reconnectMax s.reconnectDelay
          pace := .attempting
          sleeps := s.sleeps + 1
          recent := s.recent + 1 }
      | _ => none
  | .interrupted =>
      if s.pace = .attempting then none
      else (s.drive.step .stop).map fun d => { s with drive := d, pace := .attempting }

variable {s t : Paced}

/-! ### The delay over runs -/

/-- What holds between the steps of a run. -/
structure Steady (p : TimeoutPolicy) (s : Paced) : Prop where
  policy : s.timeouts = p
  delay : s.reconnectDelay = min (p.reconnectInitial * 2 ^ s.recent) p.reconnectMax
  counted : s.reconnects = s.sleeps % 2 ^ 64
  sleeping : ∀ wait, s.pace = .sleeping wait → s.reconnectDelay ≤ wait ∧
    wait ≤ min (s.reconnectDelay * 5 / 4) p.reconnectMax

variable {p : TimeoutPolicy}

/-- The loop goes on, with the delay as it is or as it was at first. -/
theorem Steady.advance (hs : Steady p s) (hp : p.Reconnects) {pace : Pace} {d : Drive}
    (hpolicy : d.policy = s.drive.policy)
    (hpace : ∀ wait, pace = .sleeping wait → s.pace = .sleeping wait ∧ d.phase? = none) :
    Steady p (s.advance pace d) := by
  have htimeouts : d.policy.timeouts = p := by
    rw [hpolicy]
    exact hs.policy
  unfold Paced.advance
  split_ifs with hready
  · refine ⟨htimeouts, ?_, hs.counted, fun wait hwait => ?_⟩
    · rw [hs.policy]
      show p.reconnectInitial = min (p.reconnectInitial * 2 ^ 0) p.reconnectMax
      rw [Nat.pow_zero, Nat.mul_one]
      exact (min_eq_left hp.ordered).symm
    · rw [(hpace wait hwait).2] at hready
      cases hready.1
  · exact ⟨htimeouts, hs.delay, hs.counted, fun wait hwait => hs.sleeping wait (hpace wait hwait).1⟩

/-- A step of `drive` during a sleep starts no Session. -/
theorem phase_of_callerGone {d d' : Drive} {e : DriveEvent} (hgone : e.isCallerGone = true)
    (h : d.step e = some d') : d'.phase? = none := by
  cases Drive.moves_of_step h with
  | gone => rfl
  | _ => cases hgone

/-- **A step keeps the delay on its course.** -/
theorem Steady.step (hs : Steady p s) (hp : p.Reconnects) {e : PacedEvent}
    (h : s.step e = some t) : Steady p t := by
  have hdelay : s.reconnectDelay ≤ p.reconnectMax := hs.delay ▸ min_le_right _ _
  cases e with
  | drive e =>
      simp only [Paced.step, Option.ite_none_right_eq_some] at h
      obtain ⟨hmay, h⟩ := h
      obtain ⟨d, hd, rfl⟩ := Option.map_eq_some_iff.mp h
      refine hs.advance hp (Drive.policy_of_step hd) fun wait hwait => ?_
      split_ifs at hwait
      rcases hmay with hattempting | hgone
      · rw [hattempting] at hwait
        cases hwait
      · exact ⟨hwait, phase_of_callerGone hgone hd⟩
  | sleep random =>
      simp only [Paced.step] at h
      split at h
      · obtain ⟨wait, hwait, rfl⟩ := Option.map_eq_some_iff.mp h
        rw [hs.policy] at hwait
        obtain ⟨wait', hwait', hbounds⟩ := backoffSleep_eq_some hp hdelay random
        cases hwait.symm.trans hwait'
        refine ⟨hs.policy, hs.delay, hs.counted, fun w hw => ?_⟩
        cases hw
        exact hbounds
      · cases h
  | woken =>
      simp only [Paced.step] at h
      split at h
      · cases h
        refine ⟨hs.policy, ?_, ?_, fun _ hw => by cases hw⟩
        · show doubledDelay s.timeouts.reconnectMax _ = _
          rw [hs.policy]
          exact doubledDelay_eq hp hs.delay
        · show fetchAdd s.reconnects 1 = (s.sleeps + 1) % usizeValues
          rw [hs.counted]
          exact fetchAdd_mod s.sleeps 1
      · cases h
  | interrupted =>
      simp only [Paced.step] at h
      split_ifs at h
      obtain ⟨d, hd, rfl⟩ := Option.map_eq_some_iff.mp h
      refine ⟨?_, hs.delay, hs.counted, fun _ hw => by cases hw⟩
      show d.policy.timeouts = p
      rw [Drive.policy_of_step hd]
      exact hs.policy

theorem steady_init (c : DriveConfig) (hp : c.policy.timeouts.Reconnects) :
    Steady c.policy.timeouts (init c) where
  policy := rfl
  delay := by
    show c.policy.timeouts.reconnectInitial = min (_ * 2 ^ 0) _
    rw [Nat.pow_zero, Nat.mul_one]
    exact (min_eq_left hp.ordered).symm
  counted := rfl
  sleeping _ hw := by cases hw

/-- The first delay is the smallest. -/
theorem initial_le_min {a k top : Nat} (h : a ≤ top) : a ≤ min (a * 2 ^ k) top :=
  le_min (Nat.le_mul_of_pos_right a (Nat.two_pow_pos k)) h

/-- **The backoff over whole runs.**  For every validated policy, every sequence
of attempts and every behaviour of the random source, the delay is the initial
one doubled with every sleep completed since the last Session that became ready,
up to the maximum; a sleep lasts that long and at most a quarter longer, never
longer than the maximum, and its arithmetic does not overflow; the `u64` counter
of reconnects counts the sleeps that were completed, and an interrupted one
changes neither the counter nor the delay. -/
theorem backoff_bounds (c : DriveConfig) (hvalid : c.policy.timeouts.validate = .ok ())
    (es : List PacedEvent) (hrun : exec step (init c) es = some s) :
    c.policy.timeouts.reconnectInitial ≤ s.reconnectDelay ∧
      s.reconnectDelay ≤ c.policy.timeouts.reconnectMax ∧
      s.reconnectDelay = min (c.policy.timeouts.reconnectInitial * 2 ^ s.recent)
        c.policy.timeouts.reconnectMax ∧
      (∀ wait, s.pace = .sleeping wait → s.reconnectDelay ≤ wait ∧
        wait ≤ min (s.reconnectDelay * 5 / 4) c.policy.timeouts.reconnectMax) ∧
      (∀ services counters closed, s.pace = .ended →
        s.drive.stage = .apart services counters closed →
          ∀ random, ∃ wait, s.step (.sleep random) = some { s with pace := .sleeping wait }) ∧
      s.reconnects = s.sleeps % 2 ^ 64 ∧ (s.sleeps < 2 ^ 64 → s.reconnects = s.sleeps) ∧
      ∀ t, s.step .interrupted = some t → t.reconnects = s.reconnects ∧
        t.reconnectDelay = s.reconnectDelay ∧ t.sleeps = s.sleeps ∧ t.recent = s.recent := by
  have hp := TimeoutPolicy.reconnects_of_validate hvalid
  have hs : Steady c.policy.timeouts s :=
    exec_inv_of_step (fun _ _ _ hi h => hi.step hp h) (steady_init c hp) hrun
  have hdelay : s.reconnectDelay ≤ c.policy.timeouts.reconnectMax := hs.delay ▸ min_le_right _ _
  refine ⟨hs.delay ▸ initial_le_min hp.ordered, hdelay, hs.delay, hs.sleeping, ?_, hs.counted,
    fun hfew => hs.counted.trans (Nat.mod_eq_of_lt hfew), fun t h => ?_⟩
  · intro services counters closed hpace hstage random
    obtain ⟨wait, hwait, -⟩ := backoffSleep_eq_some hp hdelay random
    refine ⟨wait, ?_⟩
    simp only [step, hpace, hstage, hs.policy, hwait, Option.map_some]
  · simp only [step] at h
    split_ifs at h
    obtain ⟨d, -, rfl⟩ := Option.map_eq_some_iff.mp h
    exact ⟨rfl, rfl, rfl, rfl⟩

/-- Two attempts that fail and one that leads to a Session, which is lost; a
sleep follows each, the last of which is interrupted.  The first draw of the
second sleep fails. -/
def threeAttempts : List PacedEvent :=
  [.drive (.attemptFailed .io), .sleep fun _ => some 1000, .woken,
    .drive (.attemptFailed .timeout), .sleep fun _ => none, .woken,
    .drive (.authenticated ⟨Vector.replicate 16 7⟩ false),
    .drive (.client (.readFailed (.io .unexpectedEof))), .drive .sessionOver,
    .sleep fun _ => some 1001, .interrupted]

/-- The supervisor after that run. -/
def afterThreeAttempts : Paced :=
  (exec step (init ⟨.default, []⟩) threeAttempts).get (by decide +kernel)

theorem backoff_bounds_three_attempts :
    RuntimePolicy.default.timeouts.validate = .ok () ∧
      exec step (init ⟨.default, []⟩) threeAttempts = some afterThreeAttempts ∧
      afterThreeAttempts.sleeps = 2 ∧ afterThreeAttempts.recent = 0 ∧
      afterThreeAttempts.reconnects = 2 ∧
      afterThreeAttempts.reconnectDelay = min (millis 500 * 2 ^ 0) (secs 30) :=
  have hvalid : RuntimePolicy.default.timeouts.validate = .ok () := by decide
  have hrun : exec step (init ⟨.default, []⟩) threeAttempts = some afterThreeAttempts :=
    Option.eq_some_of_isSome _
  have hbounds := backoff_bounds ⟨.default, []⟩ hvalid threeAttempts hrun
  ⟨hvalid, hrun, by decide +kernel, by decide +kernel, hbounds.2.2.2.2.2.2.1 (by decide +kernel),
    hbounds.2.2.1⟩

end Paced

end Eggtunnel
