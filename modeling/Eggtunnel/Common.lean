/-
Eggtunnel/Common.lean

What client and server share: the error type with its termination
categories, the runtime policy, the bind table and the counters.
-/
import Eggtunnel.Message
import Eggtunnel.Atomic

namespace Eggtunnel

/-! ### Errors -/

/-- `TunnelError`.  The payload of `Io` is dropped: no modelled function
reads it. -/
inductive TunnelError
  | configuration (text : String)
  | io
  | tls
  | protocol (e : ProtocolError)
  | authentication
  | authorization
  | disconnected
  | cancelled
  | timeout
  | target
  | resourceExhausted
  | serviceAlreadyExists
  | peerClosed
  deriving DecidableEq, Repr

/-- `TerminationCategory`. -/
inductive TerminationCategory
  | clean | cancelled | timeout | authentication | authorization | protocol | transport
  | target | resourceExhausted | peerClosed | internal
  deriving DecidableEq, Repr

/-- `TunnelError::termination_category`. -/
def TunnelError.terminationCategory : TunnelError → TerminationCategory
  | .cancelled => .cancelled
  | .timeout => .timeout
  | .target => .target
  | .resourceExhausted => .resourceExhausted
  | .peerClosed => .peerClosed
  | .authentication => .authentication
  | .authorization => .authorization
  | .serviceAlreadyExists => .authorization
  | .protocol _ => .protocol
  | .io => .transport
  | .tls => .transport
  | .disconnected => .transport
  | .configuration _ => .internal

/-! ### Time and policy -/

/-- A monotonic instant or a duration, in nanoseconds. -/
abbrev Instant := Nat
/-- In nanoseconds. -/
abbrev Duration := Nat

/-- `ResourceLimits`. -/
structure ResourceLimits where
  sessions : Nat
  servicesPerSession : Nat
  pendingPerSession : Nat
  activeConnectionsPerSession : Nat
  acceptedHandshakes : Nat
  clientOpenTasks : Nat
  controlQueue : Nat
  clientCommandQueue : Nat
  deriving DecidableEq, Repr

/-- `ResourceLimits::default`. -/
def ResourceLimits.default : ResourceLimits where
  sessions := 128
  servicesPerSession := 64
  pendingPerSession := 128
  activeConnectionsPerSession := 128
  acceptedHandshakes := 64
  clientOpenTasks := 128
  controlQueue := 128
  clientCommandQueue := 32

/-- `ResourceLimits::validate`. -/
def ResourceLimits.validate (l : ResourceLimits) : Except TunnelError Unit :=
  if [l.sessions, l.servicesPerSession, l.pendingPerSession, l.activeConnectionsPerSession,
      l.acceptedHandshakes, l.clientOpenTasks, l.controlQueue, l.clientCommandQueue].any
      fun value => value == 0 || decide (65536 < value) then
    .error (.configuration "resource limits must be in 1..=65536")
  else .ok ()

/-- A validated limit is in `1..=65536`. -/
theorem ResourceLimits.range_of_validate {l : ResourceLimits} (h : l.validate = .ok ()) :
    ∀ value ∈ [l.sessions, l.servicesPerSession, l.pendingPerSession,
      l.activeConnectionsPerSession, l.acceptedHandshakes, l.clientOpenTasks, l.controlQueue,
      l.clientCommandQueue], 0 < value ∧ value ≤ 65536 := by
  unfold validate at h
  split_ifs at h with hany
  intro value hmem
  have hgood := mt (List.any_eq_true.mpr ⟨value, hmem, ·⟩) hany
  simp only [Bool.or_eq_true, beq_iff_eq, decide_eq_true_eq, not_or] at hgood
  omega

/-- `TimeoutPolicy`. -/
structure TimeoutPolicy where
  connect : Duration
  handshake : Duration
  controlIdle : Duration
  pendingConnection : Duration
  relayDrain : Duration
  shutdownGrace : Duration
  reconnectInitial : Duration
  reconnectMax : Duration
  heartbeatInterval : Duration
  deriving DecidableEq, Repr

/-- `Duration::from_secs`. -/
def secs (n : Nat) : Duration := n * 1000000000
/-- `Duration::from_millis`. -/
def millis (n : Nat) : Duration := n * 1000000

/-- `TimeoutPolicy::default`. -/
def TimeoutPolicy.default : TimeoutPolicy where
  connect := secs 10
  handshake := secs 10
  controlIdle := secs 90
  pendingConnection := secs 30
  relayDrain := secs 15
  shutdownGrace := secs 1
  reconnectInitial := millis 500
  reconnectMax := secs 30
  heartbeatInterval := secs 20

/-- `TimeoutPolicy::validate`. -/
def TimeoutPolicy.validate (p : TimeoutPolicy) : Except TunnelError Unit :=
  if ([p.connect, p.handshake, p.controlIdle, p.pendingConnection, p.relayDrain, p.shutdownGrace,
      p.reconnectInitial, p.reconnectMax, p.heartbeatInterval].any
        fun value => value == 0 || decide (secs 86400 < value))
      || decide (p.reconnectMax < p.reconnectInitial)
      || decide (p.controlIdle ≤ p.heartbeatInterval) then
    .error (.configuration "timeout policy is invalid")
  else .ok ()

/-- `RuntimePolicy`. -/
structure RuntimePolicy where
  limits : ResourceLimits
  timeouts : TimeoutPolicy
  deriving DecidableEq, Repr

/-- `RuntimePolicy::default`. -/
def RuntimePolicy.default : RuntimePolicy := ⟨.default, .default⟩

/-- `RuntimePolicy::validate`. -/
def RuntimePolicy.validate (p : RuntimePolicy) : Except TunnelError Unit := do
  p.limits.validate
  p.timeouts.validate

theorem RuntimePolicy.limits_of_validate {p : RuntimePolicy} (h : p.validate = .ok ()) :
    p.limits.validate = .ok () := by
  unfold validate at h
  rcases hl : p.limits.validate with e | -
  · rw [hl] at h
    cases h
  · rfl

/-! ### Services and the bind table -/

/-- `ClientService`: what is registered, and where to dial. -/
structure ClientService where
  id : ServiceId
  name : ServiceName
  requestedBind : RequestedBind
  target : TcpTarget
  deriving DecidableEq

/-- The `RegisterService` frame a client sends for a service. -/
def ClientService.registration (s : ClientService) : RegisterService where
  serviceId := s.id
  name := s.name
  requestedBind := s.requestedBind
  target := s.target

/-- `BindEntry`: one effective bind of a live `(Session, Service)`. -/
structure BindEntry where
  session : SessionId
  service : ServiceId
  bind : EffectiveBind
  deriving DecidableEq

/-- The table behind the copy-on-write reference. -/
abbrev BindTable := List BindEntry

/-! ### Counters -/

/-- `Counters`: the gauges, high-water marks and tables the modelled functions
read or write. -/
structure Counters where
  connected : Nat
  sessions : Nat
  services : Nat
  openTasks : Nat
  highWaterServices : Nat
  highWaterOpenTasks : Nat
  binds : BindTable
  sessionGeneration : Nat
  lastTermination : Option TerminationCategory
  deriving DecidableEq

/-- `Counters::default`. -/
def Counters.new : Counters := ⟨0, 0, 0, 0, 0, 0, [], 0, none⟩

/-- `Counters::record_termination`. -/
def Counters.recordTermination (c : Counters) (category : TerminationCategory) : Counters :=
  { c with lastTermination := some category }

/-- `Counters::begin_session`: the next Session generation, until the `u64`
is spent. -/
def Counters.beginSession (c : Counters) : Except TunnelError (Nat × Counters) :=
  if c.sessionGeneration + 1 < 2 ^ 64 then
    .ok (c.sessionGeneration + 1, { c with sessionGeneration := c.sessionGeneration + 1 })
  else .error .resourceExhausted

end Eggtunnel
