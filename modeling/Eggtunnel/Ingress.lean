/-
Eggtunnel/Ingress.lean

The handshake: `handle_connection` from the first frame on, and `serve_control`
up to the Session it registers.

A connection reads at most two frames here.  Between the recorded failure and
the refusal it sleeps, so a refusal takes two steps; any other move ends with
the write or the return behind the frame.  What the Sessions do once they are
registered, and what data connections do, are the steps of the `Hub`, and only
the handshake may add a Session to it.

`received`, `sent`, `failures` and `blocked` record what a connection has read
and written, its `record_failure` calls, and what `is_blocked` has answered.
-/
import Eggtunnel.Accounting
import Eggtunnel.Authentication
import Eggtunnel.Negotiation

namespace Eggtunnel

/-- A connection of the accept loop. -/
abbrev IngressId := Nat

/-- Where the handler of an ingress connection is. -/
inductive IngressPhase
  /-- waiting for the first frame -/
  | fresh
  /-- `ServerHello` is written; waiting for `Auth` -/
  | greeted (negotiated : Capabilities)
  /-- in the delay of `reject_authentication` -/
  | refusing (error : TunnelError)
  /-- `reject_authentication` is through -/
  | refused (error : TunnelError)
  /-- in the Session of this context -/
  | established (k : ContextId)
  /-- in `accept_data_hello` -/
  | data
  /-- returned for any other reason -/
  | returned (error : TunnelError)
  deriving DecidableEq

/-- One connection, with what it has read, sent and recorded. -/
structure Ingress where
  source : IpAddr
  principal : Principal
  phase : IngressPhase
  received : List Message
  sent : List Write
  failures : List IpAddr
  blocked : Option Bool

/-- A frame is read. -/
def Ingress.read (conn : Ingress) (m : Message) : Ingress :=
  { conn with received := conn.received ++ [m] }

/-- The server with its ingress connections. -/
structure Gate where
  token : SecretToken
  hub : Hub
  limiter : AuthFailureLimiter
  connections : Table IngressId Ingress
  next : IngressId

/-- What can happen at the gate. -/
inductive GateEvent
  /-- the transport of a new connection is established -/
  | accepted (source : IpAddr) (principal : Principal)
  /-- a frame is read.  `checked` and `recorded` are the times of the limiter's
  calls, `id` is the generated `SessionId`, `o` ends the write -/
  | frame (x : IngressId) (m : Message) (checked recorded : Instant) (id : Option SessionId)
      (cancelled : Bool) (o : WriteOutcome)
  | readFailed (x : IngressId) (e : ReadError)
  /-- the delay of `reject_authentication` is over -/
  | refuse (x : IngressId) (o : WriteOutcome)
  /-- anything behind the handshakes -/
  | hub (e : HubEvent)

/-- What `handle_connection` is called with. -/
structure GateConfig where
  hub : HubConfig
  token : SecretToken
  limiter : AuthFailureLimiter

namespace Gate

/-- No connection yet. -/
def init (c : GateConfig) : Gate where
  token := c.token
  hub := .init c.hub
  limiter := c.limiter
  connections := ∅
  next := 0

/-- A connection moves on. -/
def put (s : Gate) (x : IngressId) (conn : Ingress) (phase : IngressPhase) : Gate :=
  { s with connections := s.connections.insert x { conn with phase } }

/-- `reject_authentication` up to its delay. -/
def reject (s : Gate) (x : IngressId) (conn : Ingress) (now : Instant) (error : TunnelError) :
    Gate :=
  ({ s with limiter := s.limiter.recordFailureAt conn.source now }).put x
    { conn with failures := conn.failures ++ [conn.source] } (.refusing error)

/-- `serve_control` up to the read of `Auth`. -/
def onClientHello (s : Gate) (x : IngressId) (conn : Ingress) (hello : ClientHello)
    (recorded : Instant) (o : WriteOutcome) : Gate :=
  if hello.version.major ≠ ProtocolVersion.current.major then
    s.reject x conn recorded
      (.protocol (.unsupportedVersion hello.version.major hello.version.minor))
  else
    let m := Message.serverHello (serverHello hello)
    let conn := { conn with sent := conn.sent ++ [(m, o)] }
    match writeBounded m o with
    | .ok () => s.put x conn (.greeted (serverHello hello).capabilities)
    | .error e => s.put x conn (.returned e)

/-- The first frame decides what the connection is. -/
def onFirst (s : Gate) (x : IngressId) (conn : Ingress) (m : Message) (recorded : Instant)
    (o : WriteOutcome) : Gate :=
  match m with
  | .dataHello hello => ({ s with hub := s.hub.dataHello hello conn.principal }).put x conn .data
  | .clientHello hello => s.onClientHello x conn hello recorded o
  | _ =>
      ({ s with hub := s.hub.reject }).put x conn (.returned (.protocol .unexpectedMessage))

/-- A verified client: `SessionId::generate`, and `SessionContext::register`. -/
def establish (s : Gate) (x : IngressId) (conn : Ingress) (negotiated : Capabilities)
    (id : Option SessionId) (cancelled : Bool) : Gate :=
  match id with
  | none =>
      s.put x conn (.returned (.configuration "operating system randomness unavailable"))
  | some id =>
      if cancelled then s.put x conn (.returned .cancelled)
      else
        let hub := s.hub.connect id conn.principal negotiated
        let phase := if s.hub.next < hub.next then .established s.hub.next
          else .returned .resourceExhausted
        ({ s with hub }).put x conn phase

/-- The frame where `Auth` is expected.  The token is verified and the source
looked up before either decides. -/
def onAuth (s : Gate) (x : IngressId) (conn : Ingress) (negotiated : Capabilities) (m : Message)
    (checked recorded : Instant) (id : Option SessionId) (cancelled : Bool) : Gate :=
  match m with
  | .auth auth =>
      let tokenVerified := verifyToken s.token auth.token
      let (limiter, blocked) := s.limiter.isBlockedAt conn.source checked
      let s := { s with limiter }
      let conn := { conn with blocked := some blocked }
      if !tokenVerified || blocked then s.reject x conn recorded .authentication
      else s.establish x conn negotiated id cancelled
  | _ => s.reject x conn recorded .authentication

/-- `reject_authentication` behind its delay; how the write ends is ignored. -/
def onDelayed (s : Gate) (x : IngressId) (conn : Ingress) (error : TunnelError)
    (o : WriteOutcome) : Gate :=
  ({ s with hub := s.hub.reject }).put x { conn with sent := conn.sent ++ [(authFailure, o)] }
    (.refused error)

/-- One move of one connection, or of the server behind the gate. -/
def step (s : Gate) : GateEvent → Option Gate
  | .accepted source principal =>
      some { s with
        connections := s.connections.insert s.next ⟨source, principal, .fresh, [], [], [], none⟩
        next := s.next + 1 }
  | .frame x m checked recorded id cancelled o =>
      (s.connections.lookup x).bind fun conn =>
        match conn.phase with
        | .fresh => some (s.onFirst x (conn.read m) m recorded o)
        | .greeted negotiated =>
            some (s.onAuth x (conn.read m) negotiated m checked recorded id cancelled)
        | _ => none
  | .readFailed x e =>
      (s.connections.lookup x).bind fun conn =>
        match conn.phase with
        | .fresh | .greeted _ => some (s.put x conn (.returned e.toTunnelError))
        | _ => none
  | .refuse x o =>
      (s.connections.lookup x).bind fun conn =>
        match conn.phase with
        | .refusing error => some (s.onDelayed x conn error o)
        | _ => none
  | .hub e =>
      match e with
      | .connect _ _ _ => none
      | e => (s.hub.step e).map fun hub => { s with hub }

/-! ### One step -/

/-- The steps of the gate, with what they found. -/
inductive Move (s : Gate) : GateEvent → Gate → Prop
  | accepted {source principal} :
      Move s (.accepted source principal) { s with
        connections := s.connections.insert s.next ⟨source, principal, .fresh, [], [], [], none⟩
        next := s.next + 1 }
  | wrongMajor {x conn hello checked recorded id cancelled o}
      (hconn : s.connections.lookup x = some conn) (hphase : conn.phase = .fresh)
      (hmajor : hello.version.major ≠ 1) :
      Move s (.frame x (.clientHello hello) checked recorded id cancelled o)
        (s.reject x (conn.read (.clientHello hello)) recorded
          (.protocol (.unsupportedVersion hello.version.major hello.version.minor)))
  | greeted {x conn hello checked recorded id cancelled o phase}
      (hconn : s.connections.lookup x = some conn) (hphase : conn.phase = .fresh)
      (hmajor : hello.version.major = 1)
      (hnext : phase = .greeted (serverHello hello).capabilities ∨ ∃ e, phase = .returned e) :
      Move s (.frame x (.clientHello hello) checked recorded id cancelled o)
        (s.put x { conn.read (.clientHello hello) with
          sent := conn.sent ++ [(.serverHello (serverHello hello), o)] } phase)
  | data {x conn hello checked recorded id cancelled o}
      (hconn : s.connections.lookup x = some conn) (hphase : conn.phase = .fresh) :
      Move s (.frame x (.dataHello hello) checked recorded id cancelled o)
        (({ s with hub := s.hub.dataHello hello conn.principal }).put x
          (conn.read (.dataHello hello)) .data)
  | unexpected {x conn m checked recorded id cancelled o error}
      (hconn : s.connections.lookup x = some conn) (hphase : conn.phase = .fresh)
      (hm : ∀ hello, m ≠ .clientHello hello) :
      Move s (.frame x m checked recorded id cancelled o)
        (({ s with hub := s.hub.reject }).put x (conn.read m) (.returned error))
  | notAuth {x conn negotiated m checked recorded id cancelled o}
      (hconn : s.connections.lookup x = some conn) (hphase : conn.phase = .greeted negotiated)
      (hm : ∀ auth, m ≠ .auth auth) :
      Move s (.frame x m checked recorded id cancelled o)
        (s.reject x (conn.read m) recorded .authentication)
  | denied {x conn negotiated auth checked recorded id cancelled o}
      (hconn : s.connections.lookup x = some conn) (hphase : conn.phase = .greeted negotiated)
      (hno : auth.token ≠ s.token.bytes ∨ (s.limiter.isBlockedAt conn.source checked).2 = true) :
      Move s (.frame x (.auth auth) checked recorded id cancelled o)
        (({ s with limiter := (s.limiter.isBlockedAt conn.source checked).1 }).reject x
          { conn.read (.auth auth) with
            blocked := some (s.limiter.isBlockedAt conn.source checked).2 }
          recorded .authentication)
  | verified {x conn negotiated auth checked recorded id cancelled o hub phase}
      (hconn : s.connections.lookup x = some conn) (hphase : conn.phase = .greeted negotiated)
      (htoken : auth.token = s.token.bytes)
      (hfree : (s.limiter.isBlockedAt conn.source checked).2 = false)
      (hnext : (∃ id', hub = s.hub.connect id' conn.principal negotiated ∧ s.hub.next < hub.next ∧
          phase = .established s.hub.next) ∨
        (∃ id' e, hub = s.hub.connect id' conn.principal negotiated ∧ ¬ s.hub.next < hub.next ∧
          phase = .returned e) ∨
        ∃ e, hub = s.hub ∧ phase = .returned e) :
      Move s (.frame x (.auth auth) checked recorded id cancelled o)
        (({ s with limiter := (s.limiter.isBlockedAt conn.source checked).1, hub }).put x
          { conn.read (.auth auth) with blocked := some false } phase)
  | readFailed {x conn e error} (hconn : s.connections.lookup x = some conn)
      (hphase : conn.phase = .fresh ∨ ∃ negotiated, conn.phase = .greeted negotiated) :
      Move s (.readFailed x e) (s.put x conn (.returned error))
  | delayed {x conn error o} (hconn : s.connections.lookup x = some conn)
      (hphase : conn.phase = .refusing error) :
      Move s (.refuse x o) (s.onDelayed x conn error o)
  | behind {e hub} (he : ∀ id principal negotiated, e ≠ .connect id principal negotiated)
      (hstep : s.hub.step e = some hub) : Move s (.hub e) { s with hub }

variable {s t : Gate} {e : GateEvent}

theorem move_onFirst {x : IngressId} {conn : Ingress} {m : Message} {checked recorded : Instant}
    {id : Option SessionId} {cancelled : Bool} {o : WriteOutcome}
    (hconn : s.connections.lookup x = some conn) (hphase : conn.phase = .fresh) :
    Move s (.frame x m checked recorded id cancelled o)
      (s.onFirst x (conn.read m) m recorded o) := by
  cases m with
  | clientHello hello =>
      unfold onFirst onClientHello
      dsimp only
      split_ifs with hmajor
      · exact .wrongMajor hconn hphase hmajor
      · have hone : hello.version.major = 1 := not_not.mp hmajor
        split
        · exact .greeted hconn hphase hone (.inl rfl)
        · exact .greeted hconn hphase hone (.inr ⟨_, rfl⟩)
  | dataHello hello => exact .data hconn hphase
  | _ => exact .unexpected hconn hphase (by simp)

theorem move_onAuth {x : IngressId} {conn : Ingress} {negotiated : Capabilities} {m : Message}
    {checked recorded : Instant} {id : Option SessionId} {cancelled : Bool} {o : WriteOutcome}
    (hconn : s.connections.lookup x = some conn) (hphase : conn.phase = .greeted negotiated) :
    Move s (.frame x m checked recorded id cancelled o)
      (s.onAuth x (conn.read m) negotiated m checked recorded id cancelled) := by
  cases m with
  | auth auth =>
      unfold onAuth
      dsimp only
      split_ifs with hno
      · refine .denied hconn hphase ?_
        rw [Bool.or_eq_true, Bool.not_eq_true', Bool.eq_false_iff, ne_eq, verifyToken_iff] at hno
        exact hno
      · rw [Bool.or_eq_true, not_or, Bool.not_eq_true', Bool.not_eq_false, verifyToken_iff,
          Bool.not_eq_true] at hno
        obtain ⟨htoken, hfree⟩ := hno
        rw [hfree]
        unfold establish
        cases id with
        | none => exact .verified hconn hphase htoken hfree (.inr (.inr ⟨_, rfl, rfl⟩))
        | some id =>
            dsimp only
            split_ifs with hcancelled hroom
            · exact .verified hconn hphase htoken hfree (.inr (.inr ⟨_, rfl, rfl⟩))
            · exact .verified hconn hphase htoken hfree (.inl ⟨id, rfl, hroom, rfl⟩)
            · exact .verified hconn hphase htoken hfree (.inr (.inl ⟨id, _, rfl, hroom, rfl⟩))
  | _ => exact .notAuth hconn hphase (by simp)

theorem move_of_step (h : s.step e = some t) : Move s e t := by
  cases e with
  | accepted source principal =>
      cases h
      exact .accepted
  | frame x m checked recorded id cancelled o =>
      obtain ⟨conn, hconn, h⟩ := Option.bind_eq_some_iff.mp h
      split at h
      · rename_i hphase
        cases h
        exact move_onFirst hconn hphase
      · rename_i negotiated hphase
        cases h
        exact move_onAuth hconn hphase
      · cases h
  | readFailed x err =>
      obtain ⟨conn, hconn, h⟩ := Option.bind_eq_some_iff.mp h
      split at h
      · rename_i hphase
        cases h
        exact .readFailed hconn (.inl hphase)
      · rename_i negotiated hphase
        cases h
        exact .readFailed hconn (.inr ⟨negotiated, hphase⟩)
      · cases h
  | refuse x o =>
      obtain ⟨conn, hconn, h⟩ := Option.bind_eq_some_iff.mp h
      split at h
      · rename_i error hphase
        cases h
        exact .delayed hconn hphase
      · cases h
  | hub e =>
      simp only [step] at h
      split at h
      · cases h
      · rename_i he
        obtain ⟨hub, hstep, rfl⟩ := Option.map_eq_some_iff.mp h
        exact .behind he hstep

end Gate

/-! ### The course of a handshake -/

namespace Ingress

/-- Why a frame behind `ServerHello` is refused. -/
def Objection (token : SecretToken) (blocked : Option Bool) : Message → Prop
  | .auth auth => ∃ b, blocked = some b ∧ (auth.token ≠ token.bytes ∨ b = true)
  | _ => blocked = none

/-- A refused connection that has written `frames` since. -/
structure Refused (token : SecretToken) (conn : Ingress) (frames : List Message) : Prop where
  failures : conn.failures = [conn.source]
  course :
    (∃ hello, conn.received = [.clientHello hello] ∧ hello.version.major ≠ 1 ∧
      conn.sent.map Prod.fst = frames) ∨
    ∃ hello m, conn.received = [.clientHello hello, m] ∧ hello.version.major = 1 ∧
      Objection token conn.blocked m ∧
      conn.sent.map Prod.fst = .serverHello (serverHello hello) :: frames

/-- A connection whose `ServerHello` is written, behind the given frames. -/
structure Greeted (conn : Ingress) (hello : ClientHello) (frames : List Message) : Prop where
  received : conn.received = .clientHello hello :: frames
  major : hello.version.major = 1
  sent : conn.sent.map Prod.fst = [.serverHello (serverHello hello)]
  failures : conn.failures = []

/-- What a connection has read and written when it is where it is. -/
def Proper (token : SecretToken) (conn : Ingress) : Prop :=
  match conn.phase with
  | .fresh => conn.received = [] ∧ conn.sent = [] ∧ conn.failures = [] ∧ conn.blocked = none
  | .greeted negotiated => ∃ hello, conn.Greeted hello [] ∧
      negotiated = (serverHello hello).capabilities ∧ conn.blocked = none
  | .refusing _ => conn.Refused token []
  | .refused _ => conn.Refused token [authFailure]
  | .established _ => ∃ hello auth, conn.Greeted hello [.auth auth] ∧
      auth.token = token.bytes ∧ conn.blocked = some false
  | .data | .returned _ => conn.failures = [] ∧ authFailure ∉ conn.sent.map Prod.fst

theorem proper_fresh {token : SecretToken} {conn : Ingress} (h : conn.Proper token)
    (hphase : conn.phase = .fresh) :
    conn.received = [] ∧ conn.sent = [] ∧ conn.failures = [] ∧ conn.blocked = none := by
  unfold Proper at h
  rwa [hphase] at h

theorem proper_greeted {token : SecretToken} {conn : Ingress} (h : conn.Proper token)
    {negotiated : Capabilities} (hphase : conn.phase = .greeted negotiated) :
    ∃ hello, conn.Greeted hello [] ∧ negotiated = (serverHello hello).capabilities ∧
      conn.blocked = none := by
  unfold Proper at h
  rwa [hphase] at h

/-- The refusal is no `ServerHello`. -/
theorem Greeted.unrefused {conn : Ingress} {hello : ClientHello} {frames : List Message}
    (h : conn.Greeted hello frames) : authFailure ∉ conn.sent.map Prod.fst := by
  rw [h.sent]
  simp [authFailure]

/-- `reject_authentication` records the failure of a connection without any. -/
theorem Refused.recorded {token : SecretToken} (conn : Ingress) (hfailures : conn.failures = [])
    (hcourse : (∃ hello, conn.received = [.clientHello hello] ∧ hello.version.major ≠ 1 ∧
        conn.sent.map Prod.fst = []) ∨
      ∃ hello m, conn.received = [.clientHello hello, m] ∧ hello.version.major = 1 ∧
        Objection token conn.blocked m ∧
        conn.sent.map Prod.fst = [.serverHello (serverHello hello)]) {phase : IngressPhase} :
    Refused token { conn with failures := conn.failures ++ [conn.source], phase } [] := by
  refine ⟨?_, hcourse⟩
  show conn.failures ++ [conn.source] = [conn.source]
  rw [hfailures]
  rfl

/-- Behind its delay it writes the refusal. -/
theorem Refused.written {token : SecretToken} {conn : Ingress} (h : conn.Refused token [])
    (o : WriteOutcome) {phase : IngressPhase} :
    Refused token { conn with sent := conn.sent ++ [(authFailure, o)], phase } [authFailure] := by
  refine ⟨h.failures, ?_⟩
  show (∃ hello, conn.received = _ ∧ _ ∧ (conn.sent ++ _).map Prod.fst = _) ∨
    ∃ hello m, conn.received = _ ∧ _ ∧ Objection token conn.blocked m ∧
      (conn.sent ++ _).map Prod.fst = _
  rw [List.map_append]
  rcases h.course with ⟨hello, hreceived, hmajor, hsent⟩ | ⟨hello, m, hreceived, hmajor, hno, hsent⟩
  · exact .inl ⟨hello, hreceived, hmajor, by rw [hsent]; rfl⟩
  · exact .inr ⟨hello, m, hreceived, hmajor, hno, by rw [hsent]; rfl⟩

end Ingress

namespace Gate

open Ingress

variable {s t : Gate} {e : GateEvent}

theorem forall_put {P : Ingress → Prop} (hs : ∀ x conn, s.connections.lookup x = some conn → P conn)
    {x : IngressId} {conn : Ingress} {phase : IngressPhase} (hnew : P { conn with phase }) :
    ∀ y c, (s.put x conn phase).connections.lookup y = some c → P c := by
  intro y c hc
  unfold put at hc
  rw [Table.lookup_insert_eq] at hc
  split_ifs at hc with hy
  · cases hc
    exact hnew
  · exact hs y c hc

/-- **A step keeps every connection proper.** -/
theorem proper_step (hs : ∀ x conn, s.connections.lookup x = some conn → conn.Proper s.token)
    (h : s.step e = some t) :
    t.token = s.token ∧ ∀ x conn, t.connections.lookup x = some conn → conn.Proper s.token := by
  cases move_of_step h with
  | accepted =>
      refine ⟨rfl, fun x conn hx => ?_⟩
      rw [Table.lookup_insert_eq] at hx
      split_ifs at hx
      · cases hx
        exact ⟨rfl, rfl, rfl, rfl⟩
      · exact hs x conn hx
  | @wrongMajor x conn hello _ _ _ _ _ hconn hphase hmajor =>
      obtain ⟨hreceived, hsent, hfailures, -⟩ := proper_fresh (hs x conn hconn) hphase
      refine ⟨rfl, forall_put hs (Refused.recorded (conn.read (.clientHello hello)) hfailures
        (.inl ⟨hello, ?_, hmajor, ?_⟩))⟩
      · show conn.received ++ _ = _
        rw [hreceived]
        rfl
      · show conn.sent.map _ = _
        rw [hsent]
        rfl
  | @greeted x conn hello _ _ _ _ o phase hconn hphase hmajor hnext =>
      obtain ⟨hreceived, hsent, hfailures, hblocked⟩ := proper_fresh (hs x conn hconn) hphase
      refine ⟨rfl, forall_put hs ?_⟩
      have hgreeted : Greeted { conn.read (.clientHello hello) with
          sent := conn.sent ++ [(.serverHello (serverHello hello), o)]
          phase := phase } hello [] := by
        refine ⟨?_, hmajor, ?_, hfailures⟩
        · show conn.received ++ _ = _
          rw [hreceived]
          rfl
        · show (conn.sent ++ _).map _ = _
          rw [hsent]
          rfl
      rcases hnext with rfl | ⟨err, rfl⟩
      · exact ⟨hello, hgreeted, rfl, hblocked⟩
      · exact ⟨hfailures, hgreeted.unrefused⟩
  | @data x conn hello _ _ _ _ _ hconn hphase =>
      obtain ⟨-, hsent, hfailures, -⟩ := proper_fresh (hs x conn hconn) hphase
      refine ⟨rfl, forall_put hs ⟨hfailures, ?_⟩⟩
      show _ ∉ conn.sent.map _
      rw [hsent]
      exact List.not_mem_nil
  | @unexpected x conn m _ _ _ _ _ error hconn hphase _ =>
      obtain ⟨-, hsent, hfailures, -⟩ := proper_fresh (hs x conn hconn) hphase
      refine ⟨rfl, forall_put hs ⟨hfailures, ?_⟩⟩
      show _ ∉ conn.sent.map _
      rw [hsent]
      exact List.not_mem_nil
  | @notAuth x conn negotiated m _ _ _ _ _ hconn hphase hm =>
      obtain ⟨hello, hgreeted, -, hblocked⟩ := proper_greeted (hs x conn hconn) hphase
      refine ⟨rfl, forall_put hs (Refused.recorded (conn.read m) hgreeted.failures
        (.inr ⟨hello, m, ?_, hgreeted.major, ?_, hgreeted.sent⟩))⟩
      · show conn.received ++ _ = _
        rw [hgreeted.received]
        rfl
      · cases m with
        | auth auth => exact absurd rfl (hm auth)
        | _ => exact hblocked
  | @denied x conn negotiated auth checked _ _ _ _ hconn hphase hno =>
      obtain ⟨hello, hgreeted, -, -⟩ := proper_greeted (hs x conn hconn) hphase
      refine ⟨rfl, forall_put hs (Refused.recorded { conn.read (.auth auth) with
          blocked := some (s.limiter.isBlockedAt conn.source checked).2 } hgreeted.failures
        (.inr ⟨hello, .auth auth, ?_, hgreeted.major, ⟨_, rfl, hno⟩, hgreeted.sent⟩))⟩
      show conn.received ++ _ = _
      rw [hgreeted.received]
      rfl
  | @verified x conn negotiated auth _ _ _ _ _ hub phase hconn hphase htoken _ hnext =>
      obtain ⟨hello, hgreeted, -, -⟩ := proper_greeted (hs x conn hconn) hphase
      have hafter : Greeted { conn.read (.auth auth) with blocked := some false, phase := phase }
          hello [.auth auth] := by
        refine ⟨?_, hgreeted.major, hgreeted.sent, hgreeted.failures⟩
        show conn.received ++ _ = _
        rw [hgreeted.received]
        rfl
      refine ⟨rfl, forall_put hs ?_⟩
      rcases hnext with ⟨_, -, -, rfl⟩ | ⟨_, err, -, -, rfl⟩ | ⟨err, -, rfl⟩
      · exact ⟨hello, auth, hafter, htoken, rfl⟩
      · exact ⟨hgreeted.failures, hafter.unrefused⟩
      · exact ⟨hgreeted.failures, hafter.unrefused⟩
  | @readFailed x conn _ error hconn hphase =>
      refine ⟨rfl, forall_put hs ?_⟩
      rcases hphase with hfresh | ⟨negotiated, hgreet⟩
      · obtain ⟨-, hsent, hfailures, -⟩ := proper_fresh (hs x conn hconn) hfresh
        refine ⟨hfailures, ?_⟩
        show _ ∉ conn.sent.map _
        rw [hsent]
        exact List.not_mem_nil
      · obtain ⟨hello, hgreeted, -, -⟩ := proper_greeted (hs x conn hconn) hgreet
        exact ⟨hgreeted.failures, hgreeted.unrefused⟩
  | @delayed x conn error o hconn hphase =>
      have hproper := hs x conn hconn
      unfold Proper at hproper
      rw [hphase] at hproper
      exact ⟨rfl, forall_put hs (hproper.written o)⟩
  | behind he hstep => exact ⟨rfl, hs⟩

/-! ### Who gets in -/

/-- The handler still waits for a frame or for the end of its delay. -/
def waits : IngressPhase → Bool
  | .fresh | .greeted _ | .refusing _ => true
  | _ => false

@[simp] theorem lookup_put (s : Gate) (x : IngressId) (conn : Ingress) (phase : IngressPhase) :
    (s.put x conn phase).connections.lookup x = some { conn with phase } :=
  AList.lookup_insert _

/-- A handler moves when it reads a frame, or at the end of its delay. -/
theorem lookup_of_step (hnumbered : ∀ x conn, s.connections.lookup x = some conn → x < s.next)
    (h : s.step e = some t) {x : IngressId} {conn : Ingress}
    (hx : s.connections.lookup x = some conn) :
    t.connections.lookup x = some conn ∨ conn.phase = .fresh ∨
      (∃ negotiated, conn.phase = .greeted negotiated) ∨
      ∃ error o, conn.phase = .refusing error ∧ e = .refuse x o := by
  have hput {u : Gate} {y : IngressId} {old new : Ingress} {phase : IngressPhase}
      (hu : u.connections = s.connections) (hy : s.connections.lookup y = some old) :
      (u.put y new phase).connections.lookup x = some conn ∨ x = y ∧ conn = old := by
    unfold put
    rw [Table.lookup_insert_eq, hu]
    split_ifs with hxy
    · subst hxy
      exact .inr ⟨rfl, Option.some.inj (hx.symm.trans hy)⟩
    · exact .inl hx
  -- a frame moves the connection that reads it, and no other
  cases move_of_step h with
  | accepted =>
      rw [Table.lookup_insert_eq, if_neg (hnumbered x conn hx).ne]
      exact .inl hx
  | wrongMajor hconn hphase | greeted hconn hphase | data hconn hphase
  | unexpected hconn hphase =>
      exact (hput rfl hconn).imp_right fun ⟨_, heq⟩ => .inl (heq ▸ hphase)
  | notAuth hconn hphase | denied hconn hphase | verified hconn hphase =>
      exact (hput rfl hconn).imp_right fun heq => .inr (.inl ⟨_, heq.2 ▸ hphase⟩)
  | readFailed hconn hphase =>
      refine (hput rfl hconn).imp_right fun heq => ?_
      rw [heq.2]
      exact hphase.imp_right .inl
  | delayed hconn hphase =>
      exact (hput rfl hconn).imp_right fun heq =>
        .inr (.inr ⟨_, _, heq.2 ▸ hphase, by rw [heq.1]⟩)
  | behind he hstep => exact .inl hx

/-- A handler behind its handshake stays there. -/
theorem settled_step (hnumbered : ∀ x conn, s.connections.lookup x = some conn → x < s.next)
    (h : s.step e = some t) {x : IngressId} {conn : Ingress}
    (hx : s.connections.lookup x = some conn) (hsettled : waits conn.phase = false) :
    t.connections.lookup x = some conn := by
  rcases lookup_of_step hnumbered h hx with hsame | hphase | ⟨_, hphase⟩ | ⟨_, _, hphase, -⟩
  · exact hsame
  all_goals
    rw [hphase] at hsettled
    cases hsettled

theorem numbered_step (hs : ∀ x conn, s.connections.lookup x = some conn → x < s.next)
    (h : s.step e = some t) : ∀ x conn, t.connections.lookup x = some conn → x < t.next := by
  have hput {u : Gate} {y : IngressId} {old new : Ingress} {phase : IngressPhase}
      (hu : u.connections = s.connections) (hnext : u.next = s.next)
      (hy : s.connections.lookup y = some old) :
      ∀ x conn, (u.put y new phase).connections.lookup x = some conn → x < u.next := by
    intro x conn hx
    unfold put at hx
    rw [Table.lookup_insert_eq, hu] at hx
    rw [hnext]
    split_ifs at hx with hxy
    · rw [hxy]
      exact hs y old hy
    · exact hs x conn hx
  cases move_of_step h with
  | accepted =>
      intro x conn hx
      rw [Table.lookup_insert_eq] at hx
      split_ifs at hx with hnew
      · rw [hnew]
        exact Nat.lt_succ_self _
      · exact (hs x conn hx).trans (Nat.lt_succ_self _)
  | wrongMajor hconn | greeted hconn | data hconn | unexpected hconn | notAuth hconn
  | denied hconn | verified hconn | readFailed hconn | delayed hconn => exact hput rfl rfl hconn
  | behind he hstep => exact hs

/-- A Session of the server is from before the step, or its handshake has just
been completed. -/
theorem admitted_of_step (h : s.step e = some t) {k : ContextId} (ht : t.hub.Present k) :
    s.hub.Present k ∨
      ∃ x conn, t.connections.lookup x = some conn ∧ conn.phase = .established k := by
  cases move_of_step h with
  | accepted | wrongMajor | greeted | notAuth | denied | readFailed => exact .inl ht
  | unexpected | delayed => exact .inl ht
  | @data x conn hello =>
      have hstep : s.hub.step (.dataHello hello conn.principal)
          = some (s.hub.dataHello hello conn.principal) := rfl
      rcases Hub.present_of_step hstep ht with hbefore | ⟨_, _, _, hconnect, -⟩
      · exact .inl hbefore
      · cases hconnect
  | @verified x conn negotiated auth checked recorded id cancelled o hub phase hconn hphase htoken
      hfree hnext =>
      have hbegun {id' : SessionId} (hhub : hub = s.hub.connect id' conn.principal negotiated) :
          s.hub.Present k ∨ k = s.hub.next ∧ s.hub.next < hub.next := by
        have hstep : s.hub.step (.connect id' conn.principal negotiated) = some hub := by
          rw [hhub]
          rfl
        rcases Hub.present_of_step hstep ht with hbefore | ⟨_, _, _, -, hnew⟩
        · exact .inl hbefore
        · exact .inr hnew
      rcases hnext with ⟨id', hhub, -, rfl⟩ | ⟨id', err, hhub, hfull, -⟩ | ⟨err, rfl, -⟩
      · rcases hbegun hhub with hbefore | ⟨rfl, -⟩
        · exact .inl hbefore
        · exact .inr ⟨x, _, lookup_put _ x _ _, rfl⟩
      · rcases hbegun hhub with hbefore | ⟨-, hlt⟩
        · exact .inl hbefore
        · exact absurd hlt hfull
      · exact .inl ht
  | behind he hstep =>
      rcases Hub.present_of_step hstep ht with hbefore | ⟨_, _, _, hconnect, -⟩
      · exact .inl hbefore
      · exact absurd hconnect (he _ _ _)

/-- What holds of a gate at any time. -/
structure Sound (c : GateConfig) (s : Gate) : Prop where
  token : s.token = c.token
  numbered : ∀ x conn, s.connections.lookup x = some conn → x < s.next
  proper : ∀ x conn, s.connections.lookup x = some conn → conn.Proper c.token
  admitted : ∀ k, s.hub.Present k →
    ∃ x conn, s.connections.lookup x = some conn ∧ conn.phase = .established k

theorem Sound.step {c : GateConfig} (hs : Sound c s) (h : s.step e = some t) : Sound c t := by
  obtain ⟨htoken, hproper⟩ := proper_step (hs.token ▸ hs.proper) h
  refine ⟨htoken.trans hs.token, numbered_step hs.numbered h, hs.token ▸ hproper, fun k hk => ?_⟩
  rcases admitted_of_step h hk with hbefore | hnew
  · obtain ⟨x, conn, hx, hphase⟩ := hs.admitted k hbefore
    exact ⟨x, conn, settled_step hs.numbered h hx (by rw [hphase]; rfl), hphase⟩
  · exact hnew

theorem Sound.init (c : GateConfig) : Sound c (init c) := by
  refine ⟨rfl, fun x conn hx => ?_, fun x conn hx => ?_, fun k hk => ?_⟩
  · cases hx
  · cases hx
  · rcases hk with ⟨session, hk⟩ | ⟨id, hid⟩
    · cases hk
    · cases hid

/-! ### Refusals -/

/-- What `serve_control` refuses. -/
def Refuses (s : Gate) (conn : Ingress) (m : Message) (checked : Instant) : Prop :=
  match conn.phase, m with
  | .fresh, .clientHello hello => hello.version.major ≠ 1
  | .greeted _, .auth auth =>
      auth.token ≠ s.token.bytes ∨ (s.limiter.isBlockedAt conn.source checked).2 = true
  | .greeted _, _ => True
  | _, _ => False

/-- The limiter that `record_failure` finds: only an `Auth` is looked up. -/
def lookedUp (s : Gate) (conn : Ingress) (m : Message) (checked : Instant) : AuthFailureLimiter :=
  match m with
  | .auth _ => (s.limiter.isBlockedAt conn.source checked).1
  | _ => s.limiter

/-- The answer of `is_blocked` that a connection knows behind the frame. -/
def verdict (s : Gate) (conn : Ingress) (m : Message) (checked : Instant) : Option Bool :=
  match conn.phase, m with
  | .greeted _, .auth _ => some (s.limiter.isBlockedAt conn.source checked).2
  | _, _ => conn.blocked

/-- What reading a frame does to the gate. -/
structure FrameRead (s t : Gate) (x : IngressId) (conn : Ingress) (m : Message)
    (checked recorded : Instant) : Prop where
  refusing : (∃ conn' error, t.connections.lookup x = some conn' ∧ conn'.phase = .refusing error) ↔
    s.Refuses conn m checked
  hub : s.Refuses conn m checked → t.hub = s.hub
  limiter : s.Refuses conn m checked →
    t.limiter = (s.lookedUp conn m checked).recordFailureAt conn.source recorded
  blocked : ∀ conn', t.connections.lookup x = some conn' → conn'.blocked = s.verdict conn m checked

theorem FrameRead.of_refused {x : IngressId} {conn conn' : Ingress} {m : Message}
    {checked recorded : Instant} {error : TunnelError}
    (hx : t.connections.lookup x = some conn') (hphase : conn'.phase = .refusing error)
    (hrefuses : s.Refuses conn m checked) (hhub : t.hub = s.hub)
    (hlimiter : t.limiter = (s.lookedUp conn m checked).recordFailureAt conn.source recorded)
    (hblocked : conn'.blocked = s.verdict conn m checked) :
    FrameRead s t x conn m checked recorded := by
  refine ⟨iff_of_true ⟨conn', error, hx, hphase⟩ hrefuses, fun _ => hhub, fun _ => hlimiter, ?_⟩
  intro other hother
  obtain rfl := Option.some.inj (hx.symm.trans hother)
  exact hblocked

theorem FrameRead.of_passed {x : IngressId} {conn conn' : Ingress} {m : Message}
    {checked recorded : Instant} (hx : t.connections.lookup x = some conn')
    (hphase : ∀ error, conn'.phase ≠ .refusing error) (hpasses : ¬ s.Refuses conn m checked)
    (hblocked : conn'.blocked = s.verdict conn m checked) :
    FrameRead s t x conn m checked recorded := by
  refine ⟨iff_of_false ?_ hpasses, fun h => absurd h hpasses, fun h => absurd h hpasses, ?_⟩
  · rintro ⟨other, error, hother, hrefusing⟩
    obtain rfl := Option.some.inj (hx.symm.trans hother)
    exact hphase error hrefusing
  · intro other hother
    obtain rfl := Option.some.inj (hx.symm.trans hother)
    exact hblocked

/-- **A frame is refused for the reasons there are, and for no other.** -/
theorem frameRead_of_step {x : IngressId} {conn : Ingress} {m : Message}
    {checked recorded : Instant} {id : Option SessionId} {cancelled : Bool} {o : WriteOutcome}
    (h : s.step (.frame x m checked recorded id cancelled o) = some t)
    (hx : s.connections.lookup x = some conn) : FrameRead s t x conn m checked recorded := by
  have hthis {other : Ingress} (hother : s.connections.lookup x = some other) : other = conn :=
    Option.some.inj (hother.symm.trans hx)
  cases move_of_step h with
  | wrongMajor hconn hphase hmajor =>
      obtain rfl := hthis hconn
      refine .of_refused (lookup_put _ x _ _) rfl ?_ rfl rfl ?_
      · unfold Refuses
        rw [hphase]
        exact hmajor
      · unfold verdict
        rw [hphase]
        rfl
  | greeted hconn hphase hmajor hnext =>
      obtain rfl := hthis hconn
      refine .of_passed (lookup_put _ x _ _) ?_ ?_ ?_
      · rintro error (heq : _ = IngressPhase.refusing error)
        rcases hnext with rfl | ⟨e, rfl⟩
        · cases heq
        · cases heq
      · unfold Refuses
        rw [hphase]
        exact fun hne => hne hmajor
      · unfold verdict
        rw [hphase]
        rfl
  | data hconn hphase =>
      obtain rfl := hthis hconn
      refine .of_passed (lookup_put _ x _ _) (fun _ heq => by cases heq) ?_ ?_
      · unfold Refuses
        rw [hphase]
        exact not_false
      · unfold verdict
        rw [hphase]
        rfl
  | unexpected hconn hphase hm =>
      obtain rfl := hthis hconn
      refine .of_passed (lookup_put _ x _ _) (fun _ heq => by cases heq) ?_ ?_
      · unfold Refuses
        rw [hphase]
        cases m with
        | clientHello hello => exact absurd rfl (hm hello)
        | _ => exact not_false
      · unfold verdict
        rw [hphase]
        rfl
  | notAuth hconn hphase hm =>
      obtain rfl := hthis hconn
      refine .of_refused (lookup_put _ x _ _) rfl ?_ rfl ?_ ?_
      · unfold Refuses
        rw [hphase]
        cases m with
        | auth auth => exact absurd rfl (hm auth)
        | _ => trivial
      · unfold lookedUp
        cases m with
        | auth auth => exact absurd rfl (hm auth)
        | _ => rfl
      · unfold verdict
        rw [hphase]
        cases m with
        | auth auth => exact absurd rfl (hm auth)
        | _ => rfl
  | denied hconn hphase hno =>
      obtain rfl := hthis hconn
      refine .of_refused (lookup_put _ x _ _) rfl ?_ rfl rfl ?_
      · unfold Refuses
        rw [hphase]
        exact hno
      · unfold verdict
        rw [hphase]
  | verified hconn hphase htoken hfree hnext =>
      obtain rfl := hthis hconn
      refine .of_passed (lookup_put _ x _ _) ?_ ?_ ?_
      · rintro error (heq : _ = IngressPhase.refusing error)
        rcases hnext with ⟨_, -, -, rfl⟩ | ⟨_, _, -, -, rfl⟩ | ⟨_, -, rfl⟩
        · cases heq
        · cases heq
        · cases heq
      · unfold Refuses
        rw [hphase]
        rintro (hne | hblocked)
        · exact hne htoken
        · rw [hfree] at hblocked
          cases hblocked
      · unfold verdict
        rw [hphase, hfree]

/-- The end of a refusal touches one counter of the server. -/
theorem refuse_of_step {x : IngressId} {o : WriteOutcome} (h : s.step (.refuse x o) = some t) :
    t.limiter = s.limiter ∧ t.hub.registry = s.hub.registry ∧ t.hub.sessions = s.hub.sessions ∧
      t.hub.counters = s.hub.counters := by
  cases move_of_step h with
  | delayed => exact ⟨rfl, rfl, rfl, rfl⟩

/-- A connection in the delay of a refusal leaves it with the frame, and not before. -/
structure Refusing (s : Gate) (x : IngressId) (conn : Ingress) (error : TunnelError) : Prop where
  answered : ∀ o, ∃ t, s.step (.refuse x o) = some t ∧ t.connections.lookup x = some
    { conn with phase := .refused error, sent := conn.sent ++ [(authFailure, o)] }
  held : ∀ e t, s.step e = some t → (∃ o, e = .refuse x o) ∨ t.connections.lookup x = some conn

/-- Behind `ServerHello` every refused peer has been sent the same. -/
theorem refused_sent {token : SecretToken} {conn : Ingress} (h : conn.Refused token [authFailure])
    {hello : ClientHello} {m : Message} (hreceived : conn.received = [.clientHello hello, m]) :
    conn.sent.map Prod.fst = [.serverHello (serverHello hello), authFailure] := by
  rcases h.course with ⟨hello', hone, -⟩ | ⟨hello', m', htwo, -, -, hsent⟩
  · rw [hreceived] at hone
    simp at hone
  · rw [hreceived] at htwo
    obtain ⟨rfl, -⟩ : hello = hello' ∧ m = m' := by simpa using htwo
    exact hsent

end Gate

/-- The client of this connection has shown the token, and was let in. -/
structure Ingress.Verified (token : SecretToken) (conn : Ingress) : Prop where
  shown : ∃ hello auth, conn.received = [.clientHello hello, .auth auth] ∧
    hello.version.major = 1 ∧ auth.token = token.bytes
  unblocked : conn.blocked = some false
  failures : conn.failures = []

namespace Gate

variable {s t : Gate} {e : GateEvent}

theorem Sound.verified {c : GateConfig} (hs : Sound c s) {k : ContextId} (hk : s.hub.Present k) :
    ∃ x conn, s.connections.lookup x = some conn ∧ conn.phase = .established k ∧
      conn.Verified c.token := by
  obtain ⟨x, conn, hx, hphase⟩ := hs.admitted k hk
  have hproper := hs.proper x conn hx
  unfold Ingress.Proper at hproper
  rw [hphase] at hproper
  obtain ⟨hello, auth, hgreeted, htoken, hfree⟩ := hproper
  exact ⟨x, conn, hx, hphase, ⟨hello, auth, hgreeted.received, hgreeted.major, htoken⟩, hfree,
    hgreeted.failures⟩

theorem Sound.refused {c : GateConfig} (hs : Sound c s) {x : IngressId} {conn : Ingress}
    (hx : s.connections.lookup x = some conn) {error : TunnelError}
    (hphase : conn.phase = .refused error) : conn.Refused c.token [authFailure] := by
  have hproper := hs.proper x conn hx
  unfold Ingress.Proper at hproper
  rwa [hphase] at hproper

theorem Sound.refusing {c : GateConfig} (hs : Sound c s) {x : IngressId} {conn : Ingress}
    (hx : s.connections.lookup x = some conn) {error : TunnelError}
    (hphase : conn.phase = .refusing error) :
    conn.Refused c.token [] ∧ s.Refusing x conn error := by
  have hproper := hs.proper x conn hx
  unfold Ingress.Proper at hproper
  rw [hphase] at hproper
  refine ⟨hproper, fun o => ⟨s.onDelayed x conn error o, ?_, lookup_put _ x _ _⟩, fun e t h => ?_⟩
  · -- however the write of the frame ends
    simp only [Gate.step, hx, Option.bind_some, hphase]
  · rcases lookup_of_step hs.numbered h hx with hsame | hother | ⟨_, hother⟩ | ⟨_, o, -, he⟩
    · exact .inr hsame
    · cases hphase.symm.trans hother
    · cases hphase.symm.trans hother
    · exact .inl ⟨o, he⟩

/-- `AuthOk` is written, and `RegisterService` handled, by a Session. -/
theorem present_of_serving {k : ContextId} {e : HubEvent}
    (he : (∃ o, e = .greet k o) ∨ ∃ e', e = .control k e') (h : s.step (.hub e) = some t) :
    s.hub.Present k := by
  cases move_of_step h with
  | behind hne hstep =>
      rcases he with ⟨o, rfl⟩ | ⟨e', rfl⟩
      · obtain ⟨session, hk, -⟩ := Hub.did_of_step hstep
        exact .inl ⟨session, hk⟩
      · obtain ⟨session, server, writes, hk, -⟩ := Hub.did_of_step hstep
        exact .inl ⟨session, hk⟩

theorem sound_exec {c : GateConfig} {es : List GateEvent} (hrun : exec step (init c) es = some s) :
    Sound c s :=
  exec_inv_of_step (fun _ _ _ hs h => hs.step h) (Sound.init c) hrun

/-- **The authentication gate.**  A context or a registry entry is there only for
a client that has shown the token and was not blocked; a refusal is recorded
once, changes nothing of the Sessions, ends with the one `Error` frame and in no
other way, and looks the same whatever its reason is. -/
theorem authentication_gate (c : GateConfig) (es : List GateEvent) (s : Gate)
    (hrun : exec step (init c) es = some s) :
    (∀ k, s.hub.Present k → ∃ x conn, s.connections.lookup x = some conn ∧
      conn.phase = .established k ∧ conn.Verified c.token) ∧
    (∀ k e t, ((∃ o, e = .greet k o) ∨ ∃ e', e = .control k e') → s.step (.hub e) = some t →
      s.hub.Present k) ∧
    (∀ x conn error, s.connections.lookup x = some conn → conn.phase = .refused error →
      conn.Refused c.token [authFailure]) ∧
    (∀ x conn m checked recorded id cancelled o t,
      s.step (.frame x m checked recorded id cancelled o) = some t →
      s.connections.lookup x = some conn → FrameRead s t x conn m checked recorded) ∧
    (∀ x o t, s.step (.refuse x o) = some t →
      t.limiter = s.limiter ∧ t.hub.registry = s.hub.registry ∧
      t.hub.sessions = s.hub.sessions ∧ t.hub.counters = s.hub.counters) ∧
    (∀ x conn error, s.connections.lookup x = some conn → conn.phase = .refusing error →
      conn.Refused c.token [] ∧ s.Refusing x conn error) ∧
    (∀ x conn error e t, s.connections.lookup x = some conn → conn.phase = .refused error →
      s.step e = some t → t.connections.lookup x = some conn) ∧
    (∀ c' es' s', exec step (init c') es' = some s' →
      ∀ x conn error hello m x' conn' error' hello' m',
        s.connections.lookup x = some conn → conn.phase = .refused error →
        conn.received = [.clientHello hello, m] →
        s'.connections.lookup x' = some conn' → conn'.phase = .refused error' →
        conn'.received = [.clientHello hello', m'] →
        (conn.sent.map Prod.fst).drop 1 = (conn'.sent.map Prod.fst).drop 1 ∧
        (hello.capabilities = hello'.capabilities →
          conn.sent.map Prod.fst = conn'.sent.map Prod.fst)) := by
  have hs := sound_exec hrun
  refine ⟨fun k hk => hs.verified hk, fun k e t he h => present_of_serving he h,
    fun x conn error hx hphase => hs.refused hx hphase,
    fun x conn m checked recorded id cancelled o t h hx => frameRead_of_step h hx,
    fun x o t h => refuse_of_step h, fun x conn error hx hphase => hs.refusing hx hphase,
    fun x conn error e t hx hphase h => settled_step hs.numbered h hx (by rw [hphase]; rfl), ?_⟩
  intro c' es' s' hrun' x conn error hello m x' conn' error' hello' m' hx hphase hreceived hx' hphase'
    hreceived'
  have hsent := refused_sent (hs.refused hx hphase) hreceived
  have hsent' := refused_sent ((sound_exec hrun').refused hx' hphase') hreceived'
  rw [hsent, hsent']
  refine ⟨rfl, fun hcapabilities => ?_⟩
  -- `ServerHello` depends on the offered capabilities alone
  unfold serverHello
  rw [hcapabilities]

/-- A server with a token of one byte. -/
def smallGate : GateConfig :=
  ⟨Hub.smallHub, ⟨[1], by decide⟩,
    .new authFailuresPerSource authFailureWindow maxAuthSources⟩

/-- A `ClientHello`. -/
def sampleHello : ClientHello := ⟨.current, legacyPeer⟩

/-- One client with the token and one without it. -/
def twoClients : List GateEvent :=
  [.accepted oneSource none, .accepted anotherSource none,
    .frame 0 (.clientHello sampleHello) 0 0 none false .done,
    .frame 1 (.clientHello sampleHello) 0 0 none false .done,
    .frame 0 (.auth ⟨[1], by decide⟩) 1 1 (some Hub.sampleId) false .done,
    .frame 1 (.auth ⟨[2], by decide⟩) 1 1 none false .done,
    .refuse 1 .done, .hub (.greet 0 .done)]

/-- The gate after that run. -/
def afterTwoClients : Gate := (exec step (init smallGate) twoClients).get (by decide +kernel)

theorem authentication_gate_two_clients :
    (afterTwoClients.hub.Present 0 ∧
      ∃ x conn, afterTwoClients.connections.lookup x = some conn ∧
        conn.phase = .established 0 ∧ conn.Verified smallGate.token) ∧
    ∃ conn, afterTwoClients.connections.lookup 1 = some conn ∧
      conn.phase = .refused .authentication ∧ conn.Refused smallGate.token [authFailure] := by
  have hrun : exec step (init smallGate) twoClients = some afterTwoClients :=
    Option.eq_some_of_isSome _
  obtain ⟨hadmits, -, hrefuses, -⟩ := authentication_gate smallGate twoClients afterTwoClients hrun
  have hpresent : afterTwoClients.hub.Present 0 :=
    .inl (Option.isSome_iff_exists.mp (by decide +kernel))
  obtain ⟨conn, hconn, hphase⟩ : ∃ conn, afterTwoClients.connections.lookup 1 = some conn ∧
      conn.phase = .refused .authentication := by decide +kernel
  exact ⟨⟨hpresent, hadmits 0 hpresent⟩, conn, hconn, hphase, hrefuses 1 conn _ hconn hphase⟩

end Gate

end Eggtunnel
