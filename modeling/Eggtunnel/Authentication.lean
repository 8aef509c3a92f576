/-
Eggtunnel/Authentication.lean

The bearer token and the limiter of failed attempts.

`verify_token` compares fixed-width images of the two byte strings; an image
holds the length besides the padded bytes, so that it determines the string
(`tokenImage_injective`), and it is what the two buffers of the source are filled
with (`tokenBuffer_eq_tokenImage`).  The limiter keeps, per source, the times of the
failures that are still in its window.
-/
import Eggtunnel.Frame
import Eggtunnel.Common
import Eggtunnel.Table

namespace Eggtunnel

/-! ### The token -/

/-- `MAX_AUTH_TOKEN_BYTES`. -/
def maxAuthTokenBytes : Nat := 4096

/-- `SecretToken`, with what its constructor checks. -/
structure SecretToken where
  bytes : Bytes
  valid : bytes ≠ [] ∧ bytes.length ≤ maxAuthTokenBytes

/-- `SecretToken::new`. -/
def SecretToken.new (bytes : Bytes) : Except TunnelError SecretToken :=
  if h : bytes ≠ [] ∧ bytes.length ≤ maxAuthTokenBytes then .ok ⟨bytes, h⟩
  else .error (.configuration "token must contain 1..=4096 bytes")

/-- The bytes, padded to the fixed width, and their number. -/
def tokenImage (bytes : Bytes) : Bytes :=
  bytes ++ List.replicate (maxAuthTokenBytes - bytes.length) 0 ++ be16 (UInt16.ofNat bytes.length)

/-- `verify_token`. -/
def verifyToken (expected : SecretToken) (received : Bytes) : Bool :=
  if maxAuthTokenBytes < expected.bytes.length ∨ maxAuthTokenBytes < received.length then false
  else tokenImage expected.bytes == tokenImage received

theorem be16_injective {m n : UInt16} (h : be16 m = be16 n) : m = n := by
  have hbytes := List.cons.inj h
  rw [← fromBe16_be16 m, ← fromBe16_be16 n, hbytes.1, (List.cons.inj hbytes.2).1]

/-- The image determines the bytes. -/
theorem tokenImage_injective {a b : Bytes} (ha : a.length ≤ maxAuthTokenBytes)
    (hb : b.length ≤ maxAuthTokenBytes) (h : tokenImage a = tokenImage b) : a = b := by
  have hpadded (c : Bytes) (hc : c.length ≤ maxAuthTokenBytes) :
      (c ++ List.replicate (maxAuthTokenBytes - c.length) (0 : UInt8)).length
        = maxAuthTokenBytes := by
    rw [List.length_append, List.length_replicate]
    omega
  obtain ⟨hbody, hlen⟩ := List.append_inj h ((hpadded a ha).trans (hpadded b hb).symm)
  have hsize : a.length = b.length := by
    have hnat := congrArg UInt16.toNat (be16_injective hlen)
    unfold maxAuthTokenBytes at ha hb
    rw [UInt16.toNat_ofNat', UInt16.toNat_ofNat'] at hnat
    omega
  exact (List.append_inj hbody hsize).1

theorem verifyToken_iff (expected : SecretToken) (received : Bytes) :
    verifyToken expected received = true ↔ received = expected.bytes := by
  unfold verifyToken
  constructor
  · intro h
    split_ifs at h with hlong
    rw [not_or] at hlong
    exact (tokenImage_injective expected.valid.2 (Nat.not_lt.mp hlong.2) (eq_of_beq h)).symm
  · rintro rfl
    have hshort := Nat.not_lt.mpr expected.valid.2
    rw [if_neg (not_or.mpr ⟨hshort, hshort⟩)]
    exact beq_self_eq_true _

/-! ### The two buffers -/

/-- `buffer[start..start + src.len()].copy_from_slice(src)`. -/
def copyFromSlice (buffer : Bytes) (start : Nat) (src : Bytes) : Bytes :=
  buffer.take start ++ src ++ buffer.drop (start + src.length)

/-- One of the two buffers of `verify_token`: zeroed, then the bytes are copied to
its front and their number to its last two places. -/
def tokenBuffer (bytes : Bytes) : Bytes :=
  let buffer := List.replicate (maxAuthTokenBytes + 2) 0
  let buffer := copyFromSlice buffer 0 bytes
  copyFromSlice buffer maxAuthTokenBytes (be16 (UInt16.ofNat bytes.length))

/-- `ct_eq` of two slices: every pair of bytes is looked at. -/
def ctEq (a b : Bytes) : Bool :=
  a.length == b.length && (a.zip b).foldl (fun equal pair => equal && pair.1 == pair.2) true

/-- `verify_token` with its buffers. -/
def verifyTokenFixedWidth (expected : SecretToken) (received : Bytes) : Bool :=
  if maxAuthTokenBytes < expected.bytes.length ∨ maxAuthTokenBytes < received.length then false
  else ctEq (tokenBuffer expected.bytes) (tokenBuffer received)

theorem foldl_ctEq (equal : Bool) (pairs : List (UInt8 × UInt8)) :
    pairs.foldl (fun equal pair => equal && pair.1 == pair.2) equal
      = (equal && pairs.all fun pair => pair.1 == pair.2) := by
  induction pairs generalizing equal with
  | nil => exact (Bool.and_true equal).symm
  | cons pair pairs ih => rw [List.foldl_cons, ih, List.all_cons, Bool.and_assoc]

theorem ctEq_iff {a b : Bytes} : ctEq a b = true ↔ a = b := by
  rw [ctEq, foldl_ctEq, Bool.true_and, Bool.and_eq_true, beq_iff_eq]
  induction a generalizing b with
  | nil => cases b <;> simp
  | cons x a ih =>
      cases b with
      | nil => simp
      | cons y b =>
          rw [List.length_cons, List.length_cons, Nat.add_right_cancel_iff, List.zip_cons_cons,
            List.all_cons, Bool.and_eq_true, beq_iff_eq, and_left_comm, ih, List.cons.injEq]

/-- A buffer holds the image of its bytes, and nothing of the zeroes is left where
the bytes or their number stand. -/
theorem tokenBuffer_eq_tokenImage {bytes : Bytes} (h : bytes.length ≤ maxAuthTokenBytes) :
    tokenBuffer bytes = tokenImage bytes := by
  have hfront : copyFromSlice (List.replicate (maxAuthTokenBytes + 2) 0) 0 bytes
      = (bytes ++ List.replicate (maxAuthTokenBytes - bytes.length) 0) ++ [0, 0] := by
    rw [copyFromSlice, List.take_zero, List.nil_append, Nat.zero_add, List.drop_replicate,
      List.append_assoc, Nat.sub_add_comm h, ← List.replicate_append_replicate]
    rfl
  have hsize : (bytes ++ List.replicate (maxAuthTokenBytes - bytes.length) (0 : UInt8)).length
      = maxAuthTokenBytes := by
    rw [List.length_append, List.length_replicate]
    omega
  unfold tokenBuffer tokenImage
  dsimp only
  rw [hfront, copyFromSlice, List.take_left' hsize, List.drop_eq_nil_of_le, List.append_nil]
  rw [List.length_append, hsize]
  rfl

theorem verifyTokenFixedWidth_eq (expected : SecretToken) (received : Bytes) :
    verifyTokenFixedWidth expected received = verifyToken expected received := by
  unfold verifyTokenFixedWidth verifyToken
  split_ifs with hlong
  · rfl
  · rw [not_or] at hlong
    rw [tokenBuffer_eq_tokenImage (Nat.not_lt.mp hlong.1),
      tokenBuffer_eq_tokenImage (Nat.not_lt.mp hlong.2), Bool.eq_iff_iff, ctEq_iff, beq_iff_eq]

/-- **Fixed-width token comparison is exact.**  It says yes exactly to the expected
bytes; and two byte strings of at most the width that differ, in whatever way,
already fill their buffers differently. -/
theorem token_comparison_exact (expected : SecretToken) (received : Bytes) :
    (verifyTokenFixedWidth expected received = true ↔ received = expected.bytes) ∧
      (received ≠ expected.bytes → received.length ≤ maxAuthTokenBytes →
        tokenBuffer received ≠ tokenBuffer expected.bytes) := by
  refine ⟨?_, fun hne hlen heq => hne ?_⟩
  · rw [verifyTokenFixedWidth_eq]
    exact verifyToken_iff expected received
  · rw [tokenBuffer_eq_tokenImage hlen, tokenBuffer_eq_tokenImage expected.valid.2] at heq
    exact tokenImage_injective hlen expected.valid.2 heq

/-- A token and the same token with a zero byte behind it. -/
theorem token_comparison_exact_padded :
    verifyTokenFixedWidth ⟨[7], by decide⟩ [7, 0] = false ∧
      tokenBuffer [7, 0] ≠ tokenBuffer [7] := by
  obtain ⟨hiff, hbuffers⟩ := token_comparison_exact ⟨[7], by decide⟩ [7, 0]
  exact ⟨Bool.eq_false_iff.mpr (mt hiff.mp (by decide)), hbuffers (by decide) (by decide)⟩

/-! ### The limiter -/

/-- `IpAddr`. -/
inductive IpAddr
  | v4 (octets : Vector UInt8 4)
  | v6 (octets : Vector UInt8 16)
  deriving DecidableEq

/-- An address. -/
def oneSource : IpAddr := .v4 #v[127, 0, 0, 1]
/-- Another one. -/
def anotherSource : IpAddr := .v4 #v[127, 0, 0, 2]

/-- `AuthFailureLimiter`: the failures of each source, oldest first. -/
structure AuthFailureLimiter where
  failures : Table IpAddr (List Instant)
  threshold : Nat
  window : Duration
  maxSources : Nat

/-- `AUTH_FAILURES_PER_SOURCE`. -/
def authFailuresPerSource : Nat := 10

/-- `AUTH_FAILURE_WINDOW`. -/
def authFailureWindow : Duration := secs 60

/-- `MAX_AUTH_SOURCES`. -/
def maxAuthSources : Nat := 1024

namespace AuthFailureLimiter

/-- `AuthFailureLimiter::new`. -/
def new (threshold : Nat) (window : Duration) (maxSources : Nat) : AuthFailureLimiter where
  failures := ∅
  threshold := threshold
  window := window
  maxSources := maxSources

/-- Failures leave from the front once the window is over. -/
def expire (window : Duration) (now : Instant) (failures : List Instant) : List Instant :=
  failures.dropWhile fun time => window ≤ now - time

/-- A source without failures is forgotten. -/
def prune (l : AuthFailureLimiter) (now : Instant) : AuthFailureLimiter :=
  { l with failures :=
      (l.failures.mapValues (expire l.window now)).retain fun _ failures => !failures.isEmpty }

/-- `is_blocked_at`, with the table it leaves behind. -/
def isBlockedAt (l : AuthFailureLimiter) (source : IpAddr) (now : Instant) :
    AuthFailureLimiter × Bool :=
  let l := l.prune now
  (l, (l.failures.lookup source).any fun failures => l.threshold ≤ failures.length)

/-- `record_failure_at`.  A full table leaves a new source untracked, and a
source keeps no more than what blocks it. -/
def recordFailureAt (l : AuthFailureLimiter) (source : IpAddr) (now : Instant) :
    AuthFailureLimiter :=
  let l := l.prune now
  if (l.failures.lookup source).isNone && decide (l.maxSources ≤ l.failures.size) then l
  else
    let failures := (l.failures.lookup source).getD [] ++ [now]
    { l with failures := l.failures.insert source (failures.drop (failures.length - l.threshold)) }

end AuthFailureLimiter

/-- `AUTH_FAILURE_CODE`. -/
def authFailureCode : UInt16 := 4

/-- The frame of `reject_authentication`. -/
def authFailure : Message := .error ⟨authFailureCode, ⟨"authentication failed", by decide⟩⟩

end Eggtunnel
