/-
Eggtunnel/Limiter.lean

What the limiter of failed attempts is for: a source is blocked while
`threshold` of its failures lie in the window.

The limiter prunes lazily and cuts each history, so it is compared with the log
of all `record_failure` calls (`Follows`).  Calls come in the order of their
times.  A failure is marked in the log when the full table left it untracked;
all others count.
-/
import Eggtunnel.Run
import Eggtunnel.Authentication
import Eggtunnel.Window

namespace Eggtunnel

namespace AuthFailureLimiter

/-- The failures on record for a source. -/
def times (l : AuthFailureLimiter) (source : IpAddr) : List Instant :=
  (l.failures.lookup source).getD []

/-- A new source finds the table full. -/
def saturated (l : AuthFailureLimiter) (source : IpAddr) (now : Instant) : Bool :=
  ((l.prune now).failures.lookup source).isNone &&
    decide (l.maxSources ≤ (l.prune now).failures.size)

/-- The failure lies strictly less than the window before `now`. -/
def inWindow (window : Duration) (now time : Instant) : Bool := decide (now - time < window)

variable {l : AuthFailureLimiter} {source : IpAddr} {now : Instant}

/-! ### The functions, by what they leave on record -/

theorem times_prune (l : AuthFailureLimiter) (now : Instant) (source : IpAddr) :
    (l.prune now).times source = expire l.window now (l.times source) := by
  unfold times prune
  rw [Table.lookup_retain, Table.lookup_mapValues]
  rcases l.failures.lookup source with - | failures
  · rfl
  · show (Option.filter _ (some (expire l.window now failures))).getD []
      = expire l.window now failures
    rcases expire l.window now failures with - | ⟨first, rest⟩
    · rfl
    · rfl

theorem mem_prune {failures : List Instant}
    (h : (l.prune now).failures.lookup source = some failures) :
    failures ≠ [] ∧ ∃ before, l.failures.lookup source = some before ∧
      failures = expire l.window now before := by
  unfold prune at h
  rw [Table.lookup_retain, Table.lookup_mapValues] at h
  obtain ⟨hmap, hkept⟩ := Option.filter_eq_some_iff.mp h
  obtain ⟨before, hbefore, rfl⟩ := Option.map_eq_some_iff.mp hmap
  refine ⟨?_, before, hbefore, rfl⟩
  rintro hnil
  rw [hnil] at hkept
  cases hkept

theorem size_prune_le (l : AuthFailureLimiter) (now : Instant) :
    (l.prune now).failures.size ≤ l.failures.size := by
  refine (Table.size_retain_le _ _).trans (le_of_eq ?_)
  unfold Table.size Table.mapValues
  exact List.length_map _

theorem recordFailureAt_saturated (h : l.saturated source now = true) :
    l.recordFailureAt source now = l.prune now := by
  unfold recordFailureAt
  exact if_pos h

theorem recordFailureAt_tracked (h : l.saturated source now = false) :
    l.recordFailureAt source now = { l.prune now with
      failures := (l.prune now).failures.insert source
        ((((l.prune now).times source) ++ [now]).rtake l.threshold) } := by
  unfold recordFailureAt
  exact if_neg (Bool.eq_false_iff.mp h)

/-! ### The log -/

/-- One `record_failure`, and whether the table was too full to track it. -/
structure Failure where
  source : IpAddr
  time : Instant
  dropped : Bool

/-- The failures that count against a source. -/
def counted (log : List Failure) (source : IpAddr) : List Instant :=
  (log.filter fun f => f.source = source && !f.dropped).map (·.time)

/-- All failures of a source. -/
def recorded (log : List Failure) (source : IpAddr) : List Instant :=
  (log.filter fun f => f.source = source).map (·.time)

theorem counted_append_dropped (log : List Failure) (a source : IpAddr) (now : Instant) :
    counted (log ++ [⟨a, now, true⟩]) source = counted log source := by
  simp [counted]

theorem counted_append (log : List Failure) (a source : IpAddr) (now : Instant) :
    counted (log ++ [⟨a, now, false⟩]) source
      = if source = a then counted log source ++ [now] else counted log source := by
  unfold counted
  rw [List.filter_append]
  split_ifs with h
  · simp [h]
  · simp [Ne.symm h]

theorem counted_sublist (log : List Failure) (source : IpAddr) :
    List.Sublist (counted log source) (recorded log source) := by
  refine List.Sublist.map _ ?_
  have hfilter : (log.filter fun f => f.source = source && !f.dropped)
      = (log.filter fun f => f.source = source).filter fun f => !f.dropped := by
    rw [List.filter_filter]
    exact List.filter_congr fun f _ => Bool.and_comm _ _
  rw [hfilter]
  exact List.filter_sublist

/-! ### The limiter follows the log -/

/-- After the calls in `log`, the last of them at `last`. -/
structure Follows (l : AuthFailureLimiter) (log : List Failure) (last : Instant) : Prop where
  sorted : ∀ source, (l.times source).Pairwise (· ≤ ·)
  past : ∀ source, ∀ time ∈ l.times source, time ≤ last
  window : ∀ source now, last ≤ now → expire l.window now (l.times source)
    = ((counted log source).filter (inWindow l.window now)).rtake l.threshold
  bounds : ∀ source failures, l.failures.lookup source = some failures →
    failures ≠ [] ∧ failures.length ≤ l.threshold
  size : l.failures.size ≤ l.maxSources

theorem expire_eq_filter {failures : List Instant} (h : failures.Pairwise (· ≤ ·))
    (window : Duration) (now : Instant) :
    expire window now failures = failures.filter (inWindow window now) := by
  unfold expire
  rw [dropWhile_eq_filter h]
  · refine List.filter_congr fun time _ => ?_
    show (!decide (window ≤ now - time)) = decide (now - time < window)
    rw [← decide_not]
    exact decide_eq_decide.mpr Nat.not_le
  · intro a b hab hb
    rw [decide_eq_true_eq] at hb ⊢
    exact hb.trans (Nat.sub_le_sub_left hab now)

/-- A later sweep takes out what an earlier one has taken out. -/
theorem expire_expire {now later : Instant} (h : now ≤ later) (window : Duration)
    (failures : List Instant) :
    expire window later (expire window now failures) = expire window later failures := by
  refine dropWhile_dropWhile (fun time htime => ?_) failures
  rw [decide_eq_true_eq] at htime ⊢
  exact htime.trans (Nat.sub_le_sub_right h time)

variable {log : List Failure} {last : Instant}

theorem Follows.prune (hs : Follows l log last) (h : last ≤ now) : Follows (l.prune now) log now := by
  have hsub (source : IpAddr) : ((l.prune now).times source).Sublist (l.times source) := by
    rw [times_prune]
    exact List.dropWhile_sublist _
  refine ⟨fun a => (hs.sorted a).sublist (hsub a),
    fun a time htime => (hs.past a time ((hsub a).subset htime)).trans h, fun a later hlater => ?_,
    fun a failures ha => ?_, (size_prune_le l now).trans hs.size⟩
  · rw [times_prune]
    exact (expire_expire hlater l.window _).trans (hs.window a later (h.trans hlater))
  · obtain ⟨hne, before, hbefore, rfl⟩ := mem_prune ha
    exact ⟨hne, (List.dropWhile_sublist _).length_le.trans (hs.bounds a before hbefore).2⟩

/-- A tracked failure joins the cut history as it joins the whole one. -/
theorem Follows.track (hs : Follows l log last) (hthreshold : 1 ≤ l.threshold)
    (h : last ≤ now) (htracked : l.saturated source now = false) :
    Follows (l.recordFailureAt source now) (log ++ [⟨source, now, false⟩]) now := by
  have hpruned := hs.prune h
  rw [recordFailureAt_tracked htracked]
  -- what is on record for each source
  have htimes (a : IpAddr) : times { l.prune now with
      failures := (l.prune now).failures.insert source
        ((((l.prune now).times source) ++ [now]).rtake l.threshold) } a
      = if a = source then ((l.prune now).times a ++ [now]).rtake l.threshold
        else (l.prune now).times a := by
    unfold times
    dsimp only
    rw [Table.lookup_insert_eq]
    split_ifs with ha
    · rw [ha]
      rfl
    · rfl
  have hsorted : ((l.prune now).times source ++ [now]).Pairwise (· ≤ ·) := by
    refine List.pairwise_append.mpr ⟨hpruned.sorted source, List.pairwise_singleton _ _, ?_⟩
    intro time htime b hb
    rw [List.mem_singleton.mp hb]
    exact hpruned.past source time htime
  refine ⟨fun a => ?_, fun a => ?_, fun a later hlater => ?_, fun a failures ha => ?_, ?_⟩
  · rw [htimes]
    split_ifs with ha
    · subst ha
      exact hsorted.sublist (List.drop_sublist _ _)
    · exact hpruned.sorted a
  · intro time htime
    rw [htimes] at htime
    split_ifs at htime with ha
    · rcases List.mem_append.mp (List.mem_of_mem_drop htime) with hold | hnew
      · exact hpruned.past a time hold
      · exact (List.mem_singleton.mp hnew).le
    · exact hpruned.past a time htime
  · rw [htimes, counted_append]
    have hwindow : expire l.window later ((l.prune now).times a)
        = ((counted log a).filter (inWindow l.window later)).rtake l.threshold :=
      hpruned.window a later hlater
    split_ifs with ha
    · subst ha
      calc expire l.window later (((l.prune now).times a ++ [now]).rtake l.threshold)
          = (((l.prune now).times a ++ [now]).rtake l.threshold).filter
              (inWindow l.window later) :=
            expire_eq_filter (hsorted.sublist (List.drop_sublist _ _)) _ _
        _ = ((((l.prune now).times a).filter (inWindow l.window later))
              ++ [now].filter (inWindow l.window later)).rtake l.threshold := by
            rw [filter_rtake hsorted, List.filter_append]
            intro b c hbc hb
            unfold inWindow at hb ⊢
            rw [decide_eq_true_eq] at hb ⊢
            exact (Nat.sub_le_sub_left hbc later).trans_lt hb
        _ = ((((counted log a).filter (inWindow l.window later)).rtake l.threshold)
              ++ [now].filter (inWindow l.window later)).rtake l.threshold := by
            rw [← expire_eq_filter (hpruned.sorted a), hwindow]
        _ = ((counted log a ++ [now]).filter (inWindow l.window later)).rtake l.threshold := by
            rw [rtake_append_rtake, List.filter_append]
    · exact hwindow
  · dsimp only at ha
    rw [Table.lookup_insert_eq] at ha
    split_ifs at ha with heq
    · obtain rfl := Option.some.inj ha
      have hlength := length_rtake ((l.prune now).times source ++ [now]) l.threshold
      rw [List.length_append, List.length_singleton] at hlength
      refine ⟨fun hnil => ?_, hlength.le.trans (min_le_left _ _)⟩
      rw [hnil, List.length_nil] at hlength
      omega
    · exact hpruned.bounds a failures ha
  · -- a new source has found room
    show Table.size (AList.insert source _ (l.prune now).failures) ≤ l.maxSources
    rw [Table.size_insert]
    rcases hpresent : (l.prune now).failures.lookup source with - | failures
    · have hroom : ¬ l.maxSources ≤ (l.prune now).failures.size := by
        simpa [saturated, hpresent] using htracked
      rw [Table.erase_eq_self hpresent]
      omega
    · rw [Table.size_erase hpresent]
      exact hpruned.size

/-! ### Runs -/

/-- The limiter with the log of its calls; `last` is the time of the last one. -/
structure Logged where
  limiter : AuthFailureLimiter
  last : Instant
  log : List Failure

/-- A call of the limiter. -/
inductive Call
  | recordFailure (source : IpAddr) (now : Instant)
  | isBlocked (source : IpAddr) (now : Instant)

namespace Logged

/-- Nothing is recorded. -/
def init (threshold : Nat) (window : Duration) (maxSources : Nat) : Logged where
  limiter := .new threshold window maxSources
  last := 0
  log := []

/-- Calls come in the order of their times. -/
def step (s : Logged) : Call → Option Logged
  | .recordFailure source now =>
      if s.last ≤ now then
        some {
          limiter := s.limiter.recordFailureAt source now
          last := now
          log := s.log ++ [⟨source, now, s.limiter.saturated source now⟩] }
      else none
  | .isBlocked source now =>
      if s.last ≤ now then
        some { s with limiter := (s.limiter.isBlockedAt source now).1, last := now }
      else none

/-- What no call changes, and what every call keeps. -/
structure Kept (threshold : Nat) (window : Duration) (maxSources : Nat) (s : Logged) : Prop where
  threshold : s.limiter.threshold = threshold
  window : s.limiter.window = window
  maxSources : s.limiter.maxSources = maxSources
  follows : s.limiter.Follows s.log s.last

variable {threshold : Nat} {window : Duration} {maxSources : Nat} {s t : Logged}

theorem Kept.step (hthreshold : 1 ≤ threshold) (hs : Kept threshold window maxSources s)
    {call : Call} (h : s.step call = some t) : Kept threshold window maxSources t := by
  cases call with
  | recordFailure source now =>
      simp only [Logged.step] at h
      split_ifs at h with hnow
      obtain rfl := Option.some.inj h
      cases hfull : s.limiter.saturated source now with
      | true =>
          rw [recordFailureAt_saturated hfull]
          refine ⟨hs.threshold, hs.window, hs.maxSources, ?_⟩
          have hpruned := hs.follows.prune hnow
          -- the failure is logged as one that does not count
          refine ⟨hpruned.sorted, hpruned.past, fun a later hlater => ?_, hpruned.bounds,
            hpruned.size⟩
          rw [counted_append_dropped]
          exact hpruned.window a later hlater
      | false =>
          have hfollows := hs.follows.track (hs.threshold ▸ hthreshold) hnow hfull
          rw [recordFailureAt_tracked hfull] at hfollows ⊢
          exact ⟨hs.threshold, hs.window, hs.maxSources, hfollows⟩
  | isBlocked source now =>
      simp only [Logged.step] at h
      split_ifs at h with hnow
      obtain rfl := Option.some.inj h
      exact ⟨hs.threshold, hs.window, hs.maxSources, hs.follows.prune hnow⟩

theorem Kept.init (threshold : Nat) (window : Duration) (maxSources : Nat) :
    Kept threshold window maxSources (init threshold window maxSources) := by
  refine ⟨rfl, rfl, rfl, fun source => List.Pairwise.nil, fun source time htime => ?_,
    fun source now _ => ?_, fun source failures h => ?_, Nat.zero_le _⟩
  · cases htime
  · show [] = List.rtake (List.filter _ []) threshold
    simp
  · cases h

/-- `is_blocked` counts what is on record. -/
theorem isBlockedAt_iff {l : AuthFailureLimiter} (hthreshold : 1 ≤ l.threshold) (source : IpAddr)
    (now : Instant) :
    (l.isBlockedAt source now).2 = true ↔
      l.threshold ≤ (expire l.window now (l.times source)).length := by
  rw [← times_prune]
  show Option.any _ ((l.prune now).failures.lookup source) = true ↔ _
  unfold times
  rcases (l.prune now).failures.lookup source with - | failures
  · show false = true ↔ l.threshold ≤ 0
    simp only [Bool.false_eq_true, false_iff]
    omega
  · exact decide_eq_true_iff

/-- **The limiter is a sliding window** over the failures it did not have to
drop.  After any calls, whoever asks later is answered by the log, and the
table stays within its bounds. -/
theorem limiter_sliding_window (threshold : Nat) (window : Duration) (maxSources : Nat)
    (hthreshold : 1 ≤ threshold) (calls : List Call) (s : Logged)
    (hrun : exec step (init threshold window maxSources) calls = some s) :
    (∀ source now, s.last ≤ now →
      ((s.limiter.isBlockedAt source now).2 = true ↔
        threshold ≤ (counted s.log source).countP (inWindow window now))) ∧
    (∀ source now, s.last ≤ now →
      (recorded s.log source).countP (inWindow window now) < threshold →
      (s.limiter.isBlockedAt source now).2 = false) ∧
    s.limiter.failures.size ≤ maxSources ∧
    ∀ source failures, s.limiter.failures.lookup source = some failures →
      1 ≤ failures.length ∧ failures.length ≤ threshold := by
  have hs : Kept threshold window maxSources s :=
    exec_inv_of_step (fun _ _ _ hs h => hs.step hthreshold h) (Kept.init _ _ _) hrun
  have hblocked (source : IpAddr) (now : Instant) (hnow : s.last ≤ now) :
      (s.limiter.isBlockedAt source now).2 = true ↔
        threshold ≤ (counted s.log source).countP (inWindow window now) := by
    rw [isBlockedAt_iff (hs.threshold ▸ hthreshold), hs.follows.window source now hnow,
      length_rtake, hs.threshold, hs.window, List.countP_eq_length_filter]
    omega
  refine ⟨hblocked, fun source now hnow hfew => ?_, hs.maxSources ▸ hs.follows.size,
    fun source failures h => ?_⟩
  · rw [Bool.eq_false_iff, ne_eq, hblocked source now hnow]
    have hle := (counted_sublist s.log source).countP_le (p := inWindow window now)
    omega
  · obtain ⟨hne, hlength⟩ := hs.follows.bounds source failures h
    exact ⟨List.length_pos_iff.mpr hne, hs.threshold ▸ hlength⟩

/-- Three failures of one source, a table of one, and a second source. -/
def threeFailures : List Call :=
  [.recordFailure oneSource 0, .recordFailure anotherSource 1, .recordFailure oneSource 5,
    .isBlocked oneSource 9, .recordFailure oneSource 12]

/-- The limiter after that run. -/
def afterThree : Logged := (exec step (init 2 10 1) threeFailures).get (by decide +kernel)

/-- At the very edge of the window the second of them no longer counts. -/
theorem limiter_sliding_window_edge :
    (afterThree.limiter.isBlockedAt (.v4 #v[127, 0, 0, 1]) 14).2 = true ∧
    ¬ (afterThree.limiter.isBlockedAt (.v4 #v[127, 0, 0, 1]) 15).2 = true := by
  have hrun : exec step (init 2 10 1) threeFailures = some afterThree :=
    Option.eq_some_of_isSome _
  have hwindow := (limiter_sliding_window 2 10 1 (by decide) threeFailures afterThree hrun).1
  constructor
  · exact (hwindow _ 14 (by decide +kernel)).mpr (by decide +kernel)
  · exact fun h => absurd ((hwindow _ 15 (by decide +kernel)).mp h) (by decide +kernel)

end Logged

end AuthFailureLimiter

end Eggtunnel
