/-
Eggtunnel/Link.lean

One client Session and its server Session, joined by the two directions of the
control stream.

Both directions are reliable FIFO channels of whole frames.  A write that the
transport accepts joins its channel, one of which no byte was accepted leaves
no trace, and one that was cut inside a frame is outside this model: it is the
subject of the outbound framing.

A frame also carries what no reader sees: a `RegisterService` its caller, and
an answer the request it answers.  `requested`, `verdicts` and `answers` record
which caller asked for what, what the server decided, and what callers were
told.
-/
import Eggtunnel.Run
import Eggtunnel.Server
import Eggtunnel.ClientSteps
import Eggtunnel.Agree

namespace Eggtunnel

/-! ### Frames and events -/

/-- A frame on its way; `about` is the request it makes or answers. -/
structure Packet where
  msg : Message
  about : Option Request
  deriving DecidableEq

/-- Where an answer to a caller came from. -/
inductive Source
  | response | loop
  deriving DecidableEq, Repr

/-- One Session seen from both ends, with the frames between them. -/
structure Link where
  client : Client
  server : Server
  up : List Packet
  down : List Packet
  nextCaller : CallerId
  requested : List (CallerId × ClientService)
  verdicts : List (Request × Message)
  answers : List (Source × Answer)

/-- What can happen on the link. -/
inductive LinkEvent
  /-- a caller's `register_service` reaches the client loop -/
  | register (service : ClientService) (o : WriteOutcome) (now : Instant)
  | unregister (id : ServiceId) (o : WriteOutcome) (now : Instant)
  /-- the client reads the next frame -/
  | deliver (o : WriteOutcome)
  /-- the server reads the next frame -/
  | serve (os : BindOutcome) (o : WriteOutcome)
  /-- any other event of the client -/
  | client (e : ClientEvent)
  /-- any other event of the server -/
  | server (e : ServerEvent)

/-- What the client and the server of one Session agree on when the server has
written `AuthOk`: the `SessionId`, which is fresh, and the negotiated
capabilities. -/
structure LinkConfig where
  sessionId : SessionId
  negotiated : Capabilities
  clientPolicy : RuntimePolicy
  desired : List ClientService
  clientCounters : Counters
  clientBinds : clientCounters.binds = []
  serverPolicy : RuntimePolicy
  bindPolicy : BindPolicy
  serverCounters : Counters
  fresh : ∀ b ∈ serverCounters.binds, b.session ≠ sessionId

namespace Link

/-- Both ends after `AuthOk`. -/
def init (c : LinkConfig) : Link where
  client := (Client.start c.clientPolicy c.sessionId (c.negotiated.has capabilityRegisterReject)
    (.new c.desired) c.clientCounters []).1
  server :=
    { sessionId := c.sessionId
      policy := c.serverPolicy
      bindPolicy := c.bindPolicy
      negotiated := c.negotiated
      services := ∅
      names := []
      children := []
      queue := []
      counters := c.serverCounters
      phase := .running }
  up := []
  down := []
  nextCaller := 0
  requested := []
  verdicts := []
  answers := []

/-! ### Steps -/

/-- What a write adds to its channel, if it leaves whole frames behind. -/
def carry (about : Message → Option Request) : List Write → Option (List Packet)
  | [] => some []
  | (m, o) :: writes =>
      match o with
      | .done => (carry about writes).map (⟨m, about m⟩ :: ·)
      | .cut 0 => carry about writes
      | .failed 0 _ => carry about writes
      | _ => none

/-- A `RegisterService` makes a request for `caller`. -/
def asking (caller : Option CallerId) : Message → Option Request
  | .registerService register => some ⟨register, caller⟩
  | _ => none

/-- One client event: its writes go up, its answers are recorded. -/
def clientStep (s : Link) (e : ClientEvent) (caller : Option CallerId) (source : Source) :
    Option Link :=
  (s.client.step e).bind fun r =>
    (carry (asking caller) r.2.writes).map fun packets =>
      { s with
        client := r.1
        up := s.up ++ packets
        answers := s.answers ++ r.2.answers.map (source, ·) }

/-- One server event: its writes go down. -/
def serverStep (s : Link) (e : ServerEvent) : Option Link :=
  (s.server.step e).bind fun r =>
    (carry (fun _ => none) r.2).map fun packets =>
      { s with server := r.1, down := s.down ++ packets }

/-- The server reads a frame.  A request whose answer never left, because its
write failed and ended the Session, stays unanswered. -/
def serveStep (s : Link) (packet : Packet) (up : List Packet) (os : BindOutcome)
    (o : WriteOutcome) : Option Link :=
  (s.server.step (.incoming packet.msg os o)).bind fun r =>
    (carry (fun _ => packet.about) r.2).map fun packets =>
      { s with
        server := r.1
        up := if packet.about.isSome && packets.isEmpty then s.up else up
        down := s.down ++ packets
        verdicts := s.verdicts ++ packets.filterMap fun p => p.about.map (·, p.msg) }

/-- One move of one end. -/
def step (s : Link) : LinkEvent → Option Link
  | .register service o now =>
      ({ s with
        nextCaller := s.nextCaller + 1
        requested := s.requested ++ [(s.nextCaller, service)] }).clientStep
          (.command (.register service s.nextCaller) o now) (some s.nextCaller) .loop
  | .unregister id o now =>
      ({ s with nextCaller := s.nextCaller + 1 }).clientStep
        (.command (.unregister id s.nextCaller) o now) none .loop
  | .deliver o =>
      match s.down with
      | packet :: down =>
          ({ s with down }).clientStep (.incoming packet.msg o) none .response
      | [] => none
  | .serve os o =>
      match s.up with
      | packet :: up => s.serveStep packet up os o
      | [] => none
  | .client e => if e.isOwn then s.clientStep e none .loop else none
  | .server e => if e.isOwn then s.serverStep e else none

end Link

/-! ### A small link

The default policies, for runs that can be evaluated. -/

/-- A link with the default policies. -/
def smallLink (negotiated : Capabilities) (desired : List ClientService) : LinkConfig where
  sessionId := ⟨Vector.replicate 16 7⟩
  negotiated := negotiated
  clientPolicy := .default
  desired := desired
  clientCounters := .new
  clientBinds := rfl
  serverPolicy := .default
  bindPolicy := .default
  serverCounters := .new
  fresh := by simp [Counters.new]

/-- The listener is bound to the loopback address and the given port. -/
def boundAt (port : UInt16) : BindOutcome := .bound (.v6 localhostOctets port)

end Eggtunnel
