/-
Eggtunnel/ServiceState.lean

The client's Session-local state for dynamic Service registration.

Two wire modes share it.  In the serial mode a refusal is a generic `Error`
without a `ServiceId`, and the one outstanding registration sits in the
`pending` slot; in the correlated mode a refusal names its `ServiceId`, and
the transactions sit in `inFlight` under their ids.  A transaction that is
given up may leave a tombstone in `abandoned`, which turns its late answer
into cleanup.

A caller waits on a oneshot channel.  The sender is modelled by the caller's
number, and an operation that answers callers returns the answers it gave.
-/
import Eggtunnel.Common
import Eggtunnel.Table

namespace Eggtunnel

/-! ### Callers -/

/-- The caller of `register_service` or `unregister_service`, which holds the
receiving end of the reply channel. -/
abbrev CallerId := Nat

/-- One `reply.send(..)` to a registering caller. -/
abbrev Answer := CallerId × Except TunnelError EffectiveBind

/-- Answer the caller, if the reply has not been taken yet. -/
def answer (result : Except TunnelError EffectiveBind) : Option CallerId → List Answer
  | some caller => [(caller, result)]
  | none => []

/-! ### The state -/

/-- `PendingRegistration`: the reply is taken when the caller is answered, the
deadline set when the request is written. -/
structure PendingRegistration where
  service : ClientService
  generation : Nat
  reply : Option CallerId
  deadline : Option Instant
  deriving DecidableEq

/-- The transaction's deadline is at or before `now`. -/
def PendingRegistration.overdue (txn : PendingRegistration) (now : Instant) : Bool :=
  txn.deadline.any (· ≤ now)

/-- What to do with an acknowledgement. -/
inductive AckDisposition
  | commit (service : ClientService) (reply : Option CallerId)
  | abandoned
  | stale (reply : Option CallerId)
  | unexpected
  deriving DecidableEq

/-- What to do with a refusal. -/
inductive RejectDisposition
  | reject (reply : Option CallerId)
  | stale (reply : Option CallerId)
  | unknown
  deriving DecidableEq

/-- What an acknowledgement-timeout sweep removed. -/
inductive Expiry
  | none
  | legacy
  | correlated (count : Nat)
  deriving DecidableEq, Repr

/-- How refusals are told apart. -/
inductive RegistrationMode
  | legacySerial
  | correlatedBounded (maxInFlight : Nat)
  deriving DecidableEq, Repr

/-- `ServiceState`. -/
structure ServiceState where
  desired : List ClientService
  active : Table ServiceId ClientService
  pending : Option PendingRegistration
  inFlight : Table ServiceId PendingRegistration
  abandoned : Table ServiceId Nat
  mode : RegistrationMode

/-- Which of the two places a transaction was in. -/
inductive TransactionHome
  | legacy | correlated
  deriving DecidableEq, Repr

/-- What `take_transaction` found. -/
inductive TransactionTake
  | found (txn : PendingRegistration) (home : TransactionHome)
  | mismatched
  | missing
  deriving DecidableEq

/-- `duplicate_error`: reproduce a Session-end error for one reply. -/
def duplicateError : TunnelError → TunnelError
  | .io => .disconnected
  | .protocol _ => .disconnected
  | e => e

namespace ServiceState

/-- Nothing is active and nothing outstanding. -/
def new (desired : List ClientService) : ServiceState where
  desired := desired
  active := ∅
  pending := none
  inFlight := ∅
  abandoned := ∅
  mode := .legacySerial

/-- The transactions of both modes. -/
def transactions (s : ServiceState) : List PendingRegistration :=
  s.pending.toList ++ s.inFlight.values

/-! ### Session start and end -/

/-- `finish_pending`: every waiting caller is answered, and the tables are emptied. -/
def finishPending (s : ServiceState) (error : TunnelError) : ServiceState × List Answer :=
  ({ s with pending := none, inFlight := ∅, abandoned := ∅ },
    s.transactions.flatMap fun txn => answer (.error (duplicateError error)) txn.reply)

/-- `set_mode`, for the Session that begins. -/
def setMode (s : ServiceState) (mode : RegistrationMode) : ServiceState × List Answer :=
  let (s, answers) := s.finishPending .disconnected
  ({ s with abandoned := ∅, mode := mode }, answers)

/-- `activate_initial`: all desired Services have been acknowledged. -/
def activateInitial (s : ServiceState) : ServiceState :=
  { s with active := Table.ofList (s.desired.map fun service => ⟨service.id, service⟩) }

/-- `clear_active`. -/
def clearActive (s : ServiceState) : ServiceState := { s with active := ∅ }

/-- Transactions without an acknowledgement, across both modes. -/
def unacknowledged (s : ServiceState) : Nat :=
  s.pending.toList.length + s.inFlight.size

/-! ### Deadlines -/

/-- Earliest acknowledgement deadline across both modes. -/
def nextDeadline (s : ServiceState) : Option Instant :=
  (s.transactions.filterMap (·.deadline)).min?

/-- Arm the acknowledgement deadline of the transaction just written. -/
def armDeadline (s : ServiceState) (id : ServiceId) (deadline : Instant) : ServiceState :=
  match s.mode with
  | .legacySerial =>
      { s with pending := s.pending.map fun txn => { txn with deadline := some deadline } }
  | .correlatedBounded _ =>
      match s.inFlight.lookup id with
      | some txn =>
          { s with inFlight := s.inFlight.insert id { txn with deadline := some deadline } }
      | none => s

/-- Fail every transaction whose deadline has passed.  Neither kind of
transaction leaves a tombstone here. -/
def expireOverdue (s : ServiceState) (now : Instant) : ServiceState × List Answer × Expiry :=
  let removed := s.inFlight.values.filter (·.overdue now)
  let answers := removed.flatMap fun txn => answer (.error .timeout) txn.reply
  let s := { s with inFlight := s.inFlight.retain fun _ txn => !txn.overdue now }
  match s.pending with
  | some txn =>
      if txn.overdue now then
        ({ s with pending := none }, answers ++ answer (.error .timeout) txn.reply, .legacy)
      else (s, answers, if removed.length > 0 then .correlated removed.length else .none)
  | none => (s, answers, if removed.length > 0 then .correlated removed.length else .none)

/-! ### Transactions -/

/-- The id or the name of `service` is taken by a desired Service or by an
outstanding transaction. -/
def duplicate (s : ServiceState) (service : ClientService) : Bool :=
  (s.desired ++ s.transactions.map (·.service)).any fun other =>
    other.id == service.id || other.name == service.name

/-- `begin`: a transaction for a Service that is neither desired nor
outstanding, if there is room for it. -/
def begin (s : ServiceState) (service : ClientService) (generation : Nat) (reply : CallerId) :
    ServiceState × Except TunnelError Unit :=
  if s.duplicate service then (s, .error .serviceAlreadyExists)
  else
    -- the tombstone goes before the capacity check, and stays gone when that fails
    let s := { s with abandoned := s.abandoned.erase service.id }
    let txn : PendingRegistration := ⟨service, generation, some reply, none⟩
    match s.mode with
    | .legacySerial =>
        if s.pending.isSome then (s, .error .resourceExhausted)
        else ({ s with pending := some txn }, .ok ())
    | .correlatedBounded maxInFlight =>
        if max maxInFlight 1 ≤ s.inFlight.size then (s, .error .resourceExhausted)
        else ({ s with inFlight := s.inFlight.insert service.id txn }, .ok ())

/-- **What a refused `begin` does**: nothing for a duplicate; for lack of room
the tombstone of the id is dropped. -/
theorem begin_eq_error {s t : ServiceState} {service : ClientService} {generation : Nat}
    {reply : CallerId} {e : TunnelError} (h : s.begin service generation reply = (t, .error e)) :
    (s.duplicate service = true ∧ e = .serviceAlreadyExists ∧ t = s) ∨
      (s.duplicate service = false ∧ e = .resourceExhausted ∧
        t = { s with abandoned := s.abandoned.erase service.id }) := by
  unfold begin at h
  split_ifs at h with hdup
  · cases h
    exact .inl ⟨hdup, rfl, rfl⟩
  · refine .inr ⟨by simpa using hdup, ?_⟩
    dsimp only at h
    split at h <;> split_ifs at h <;> cases h <;> exact ⟨rfl, rfl⟩

/-- `take_transaction`.  A slot that holds another id hides the table. -/
def takeTransaction (s : ServiceState) (id : ServiceId) : ServiceState × TransactionTake :=
  match s.pending with
  | some txn =>
      if txn.service.id = id then ({ s with pending := none }, .found txn .legacy)
      else (s, .mismatched)
  | none =>
      match s.inFlight.lookup id with
      | some txn => ({ s with inFlight := s.inFlight.erase id }, .found txn .correlated)
      | none => (s, .missing)

/-- A response without a transaction: cleanup if the id is tombstoned. -/
def takeTombstone (s : ServiceState) (id : ServiceId) : ServiceState × Option Nat :=
  ({ s with abandoned := s.abandoned.erase id }, s.abandoned.lookup id)

/-- `take_ack`.  An acknowledgement that nobody waits for any more is cleaned up. -/
def takeAck (s : ServiceState) (id : ServiceId) (generation : Nat) (closed : CallerId → Bool) :
    ServiceState × AckDisposition :=
  match s.takeTransaction id with
  | (s, .found txn _) =>
      if txn.generation ≠ generation then (s, .stale txn.reply)
      else if txn.reply.all closed then (s, .abandoned)
      else (s, .commit txn.service txn.reply)
  | (s, _) =>
      match s.takeTombstone id with
      | (s, some abandonedGeneration) =>
          (s, if abandonedGeneration = generation then .abandoned else .stale none)
      | (s, none) => (s, .unexpected)

/-- `take_reject`. -/
def takeReject (s : ServiceState) (id : ServiceId) (generation : Nat) :
    ServiceState × RejectDisposition :=
  match s.takeTransaction id with
  | (s, .found txn _) =>
      if txn.generation ≠ generation then (s, .stale txn.reply) else (s, .reject txn.reply)
  | (s, _) =>
      match s.takeTombstone id with
      | (s, some _) => (s, .stale none)
      | (s, none) => (s, .unknown)

/-- A generic `Error` answers whatever the slot holds. -/
def reject (s : ServiceState) : ServiceState × Option (Option CallerId) :=
  ({ s with pending := none }, s.pending.map (·.reply))

/-- Record that a transaction was given up; the table is emptied when full. -/
def tombstone (s : ServiceState) (id : ServiceId) (generation : Nat) : ServiceState :=
  { s with abandoned :=
      (if 256 ≤ s.abandoned.size then ∅ else s.abandoned).insert id generation }

/-- Give up one correlated transaction after a write timeout. -/
def abandon (s : ServiceState) (id : ServiceId) : ServiceState × List Answer :=
  match s.inFlight.lookup id with
  | some txn =>
      (({ s with inFlight := s.inFlight.erase id }).tombstone id txn.generation,
        answer (.error .timeout) txn.reply)
  | none => (s, [])

/-- Release the slot if it holds `id`, leaving a tombstone. -/
def cancelPending (s : ServiceState) (id : ServiceId) : ServiceState × List Answer :=
  match s.pending with
  | some txn =>
      if txn.service.id = id then
        (({ s with pending := none }).tombstone id txn.generation,
          answer (.error .cancelled) txn.reply)
      else (s, [])
  | none => (s, [])

/-- Drop the correlated transaction of `id`; no tombstone is left. -/
def cancelInFlight (s : ServiceState) (id : ServiceId) : ServiceState × List Answer :=
  match s.inFlight.lookup id with
  | some txn =>
      ({ s with inFlight := s.inFlight.erase id }, answer (.error .cancelled) txn.reply)
  | none => (s, [])

/-- `unregister`, with what it cancels; the flag says whether the Service was active. -/
def unregister (s : ServiceState) (id : ServiceId) : ServiceState × List Answer × Bool :=
  let (s, slotAnswers) := s.cancelPending id
  let (s, tableAnswers) := s.cancelInFlight id
  ({ s with desired := s.desired.filter (·.id ≠ id), active := s.active.erase id },
    slotAnswers ++ tableAnswers, (s.active.lookup id).isSome)

/-- `commit`: the Service is active, and will be asked for again. -/
def commit (s : ServiceState) (service : ClientService) : ServiceState :=
  { s with active := s.active.insert service.id service, desired := s.desired ++ [service] }

end ServiceState

end Eggtunnel
