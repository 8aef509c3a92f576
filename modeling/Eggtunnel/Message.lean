/-
Eggtunnel/Message.lean

The fifteen messages of the protocol and their postcard payloads.

`Message.payload` and `decodePayload` follow `encode_payload` and the `dec!`
arms of `decode_frame`.  `decodePayload_payload` is the payload round trip:
the validity fields of the wire types are what makes every length fit.
-/
import Eggtunnel.Wire

namespace Eggtunnel

/-! ### Messages -/

/-- The client's first frame: its version and capabilities. -/
structure ClientHello where
  version : ProtocolVersion
  capabilities : Capabilities
  deriving DecidableEq

/-- The server's answer, with its own. -/
structure ServerHello where
  version : ProtocolVersion
  capabilities : Capabilities
  deriving DecidableEq

/-- The token was right, and the Session has this id. -/
structure AuthOk where
  sessionId : SessionId
  deriving DecidableEq

/-- A Service the client asks to be bound, and where it will dial. -/
structure RegisterService where
  serviceId : ServiceId
  name : ServiceName
  requestedBind : RequestedBind
  target : TcpTarget
  deriving DecidableEq

/-- The Service is bound. -/
structure RegisterAck where
  serviceId : ServiceId
  effectiveBind : EffectiveBind
  deriving DecidableEq

/-- The client takes a Service back; there is no answer. -/
structure UnregisterService where
  serviceId : ServiceId
  deriving DecidableEq

/-- An external connection waits for a data stream. -/
structure Open where
  serviceId : ServiceId
  connectionId : ConnectionId
  deriving DecidableEq

/-- The client will not serve that connection. -/
structure OpenReject where
  connectionId : ConnectionId
  code : UInt16
  deriving DecidableEq

/-- A keepalive probe. -/
structure Ping where
  nonce : UInt64
  deriving DecidableEq

/-- Its echo. -/
structure Pong where
  nonce : UInt64
  deriving DecidableEq

/-- The sender is about to leave. -/
structure Drain where
  deadlineMs : UInt32
  deriving DecidableEq

/-- A generic refusal; it names no Service. -/
structure ErrorMessage where
  code : UInt16
  diagnostic : BoundedDiagnostic
  deriving DecidableEq

/-- A refusal that names its Service. -/
structure RegisterReject where
  serviceId : ServiceId
  code : UInt16
  diagnostic : BoundedDiagnostic
  deriving DecidableEq

/-- The first frame of a data stream: whose it is. -/
structure DataHello where
  sessionId : SessionId
  serviceId : ServiceId
  connectionId : ConnectionId
  deriving DecidableEq

/-- One frame's content. -/
inductive Message
  | clientHello (v : ClientHello)
  | serverHello (v : ServerHello)
  | auth (v : Auth)
  | authOk (v : AuthOk)
  | registerService (v : RegisterService)
  | registerAck (v : RegisterAck)
  | unregisterService (v : UnregisterService)
  | «open» (v : Open)
  | openReject (v : OpenReject)
  | ping (v : Ping)
  | pong (v : Pong)
  | drain (v : Drain)
  | error (v : ErrorMessage)
  | dataHello (v : DataHello)
  | registerReject (v : RegisterReject)
  deriving DecidableEq

/-- `MessageType`, in the order of its wire ids. -/
inductive MessageType
  | clientHello | serverHello | auth | authOk | registerService | registerAck
  | unregisterService | «open» | openReject | ping | pong | drain | error
  | dataHello | registerReject
  deriving DecidableEq, Repr

/-- `kind as u16`. -/
def MessageType.id : MessageType → UInt16
  | .clientHello => 1
  | .serverHello => 2
  | .auth => 3
  | .authOk => 4
  | .registerService => 5
  | .registerAck => 6
  | .unregisterService => 7
  | .open => 8
  | .openReject => 9
  | .ping => 10
  | .pong => 11
  | .drain => 12
  | .error => 13
  | .dataHello => 14
  | .registerReject => 15

/-- `MessageType::try_from`. -/
def MessageType.ofId (id : UInt16) : Except ProtocolError MessageType :=
  match id.toNat with
  | 1 => .ok .clientHello
  | 2 => .ok .serverHello
  | 3 => .ok .auth
  | 4 => .ok .authOk
  | 5 => .ok .registerService
  | 6 => .ok .registerAck
  | 7 => .ok .unregisterService
  | 8 => .ok .open
  | 9 => .ok .openReject
  | 10 => .ok .ping
  | 11 => .ok .pong
  | 12 => .ok .drain
  | 13 => .ok .error
  | 14 => .ok .dataHello
  | 15 => .ok .registerReject
  | _ => .error (.unknownMessage id)

theorem MessageType.ofId_id (k : MessageType) : MessageType.ofId k.id = .ok k := by
  cases k <;> rfl

/-- `Message::kind`. -/
def Message.kind : Message → MessageType
  | .clientHello _ => .clientHello
  | .serverHello _ => .serverHello
  | .auth _ => .auth
  | .authOk _ => .authOk
  | .registerService _ => .registerService
  | .registerAck _ => .registerAck
  | .unregisterService _ => .unregisterService
  | .open _ => .open
  | .openReject _ => .openReject
  | .ping _ => .ping
  | .pong _ => .pong
  | .drain _ => .drain
  | .error _ => .error
  | .dataHello _ => .dataHello
  | .registerReject _ => .registerReject

/-! ### Field codecs -/

namespace Codec

/-- `ProtocolVersion`, two `u16`. -/
def version : Codec ProtocolVersion :=
  (u16.pair u16).iso (fun t => ⟨t.1, t.2⟩) (fun v => (v.major, v.minor)) (fun _ => rfl)
    (fun _ => rfl)

/-- `SessionId`: sixteen bytes, without a length. -/
def sessionId : Codec SessionId :=
  (array 16).iso SessionId.mk SessionId.bytes (fun _ => rfl) (fun _ => rfl)

/-- `ServiceId`, a varint. -/
def serviceId : Codec ServiceId :=
  u64.iso ServiceId.mk ServiceId.val (fun _ => rfl) (fun _ => rfl)

/-- `ConnectionId`: sixteen bytes, without a length. -/
def connectionId : Codec ConnectionId :=
  (array 16).iso ConnectionId.mk ConnectionId.bytes (fun _ => rfl) (fun _ => rfl)

/-- `EffectiveBind`: an address and a port. -/
def effectiveBind : Codec EffectiveBind :=
  ((array 16).pair u16).iso (fun t => ⟨t.1, t.2⟩) (fun b => (b.address, b.port))
    (fun _ => rfl) (fun _ => rfl)

/-- `RequestedBind`: tag 0 is `Loopback`, tag 1 is `Ip`. -/
def requestedBind : Codec RequestedBind :=
  (u16.variants ((array 16).pair u16)).iso
    (Sum.elim RequestedBind.loopback fun t => .ip t.1 t.2)
    (fun b => match b with
      | .loopback port => .inl port
      | .ip address port => .inr (address, port))
    (fun b => by cases b <;> rfl) (fun s => by cases s <;> rfl)

/-- `ServiceName`, checked by `try_from`. -/
def serviceName : Codec ServiceName :=
  string.wrapped ServiceName.new ServiceName.value ServiceName.new_value
    ServiceName.value_of_new

/-- `TcpTarget`, checked by `try_from`. -/
def tcpTarget : Codec TcpTarget :=
  (string.pair u16).wrapped (fun t => TcpTarget.new t.1 t.2) (fun t => (t.host, t.port))
    TcpTarget.new_fields (fun h => Prod.ext (TcpTarget.fields_of_new h).1
      (TcpTarget.fields_of_new h).2)

/-- `BoundedDiagnostic`, checked by `try_from`. -/
def diagnostic : Codec BoundedDiagnostic :=
  string.wrapped BoundedDiagnostic.new BoundedDiagnostic.text BoundedDiagnostic.new_text
    BoundedDiagnostic.text_of_new

/-- `Auth.token` through `bounded_bytes`. -/
def auth : Codec Auth :=
  u8.vec.wrapped Auth.new Auth.token Auth.new_token Auth.token_of_new

/-- Normalising a list never lengthens its encoding. -/
theorem length_vec_u16_sortDedup (ids : List UInt16) :
    (u16.vec.enc (sortDedup ids)).length ≤ (u16.vec.enc ids).length := by
  have hlen : (len (sortDedup ids).length).length ≤ (len ids.length).length :=
    length_varintLoop_mono (length_sortDedup_le ids)
  have hbody : ((sortDedup ids).flatMap u16.enc).length ≤ (ids.flatMap u16.enc).length := by
    rw [List.length_flatMap, List.length_flatMap]
    have hsub : (sortDedup ids).Sublist (ids.insertionSort (· ≤ ·)) := List.dedup_sublist _
    have hperm := (List.perm_insertionSort (· ≤ ·) ids).map fun a => (u16.enc a).length
    rw [← hperm.sum_eq]
    exact (hsub.map _).sum_le_sum (by simp)
  simpa [vec] using Nat.add_le_add hlen hbody

/-- `Capabilities`, which `try_from` sorts: several encodings have one value. -/
def capabilities : Codec Capabilities :=
  u16.vec.validated Capabilities.new Capabilities.ids Capabilities.new_ids (by
    intro a c hfit h
    rw [Capabilities.ids_of_new h]
    refine ⟨⟨?_, fun _ _ => trivial⟩, length_vec_u16_sortDedup a⟩
    exact (length_sortDedup_le a).trans_lt hfit.1)

/-! ### Payload codecs -/

/-- The fields of `ClientHello`, in their order. -/
def clientHello : Codec ClientHello :=
  (version.pair capabilities).iso (fun t => ⟨t.1, t.2⟩) (fun v => (v.version, v.capabilities))
    (fun _ => rfl) (fun _ => rfl)

/-- Those of `ServerHello`. -/
def serverHello : Codec ServerHello :=
  (version.pair capabilities).iso (fun t => ⟨t.1, t.2⟩) (fun v => (v.version, v.capabilities))
    (fun _ => rfl) (fun _ => rfl)

/-- Those of `AuthOk`. -/
def authOk : Codec AuthOk :=
  sessionId.iso AuthOk.mk AuthOk.sessionId (fun _ => rfl) (fun _ => rfl)

/-- Those of `RegisterService`. -/
def registerService : Codec RegisterService :=
  (serviceId.pair (serviceName.pair (requestedBind.pair tcpTarget))).iso
    (fun t => ⟨t.1, t.2.1, t.2.2.1, t.2.2.2⟩)
    (fun v => (v.serviceId, v.name, v.requestedBind, v.target)) (fun _ => rfl) (fun _ => rfl)

/-- Those of `RegisterAck`. -/
def registerAck : Codec RegisterAck :=
  (serviceId.pair effectiveBind).iso (fun t => ⟨t.1, t.2⟩)
    (fun v => (v.serviceId, v.effectiveBind)) (fun _ => rfl) (fun _ => rfl)

/-- Those of `UnregisterService`. -/
def unregisterService : Codec UnregisterService :=
  serviceId.iso UnregisterService.mk UnregisterService.serviceId (fun _ => rfl) (fun _ => rfl)

/-- Those of `Open`. -/
def «open» : Codec Open :=
  (serviceId.pair connectionId).iso (fun t => ⟨t.1, t.2⟩)
    (fun v => (v.serviceId, v.connectionId)) (fun _ => rfl) (fun _ => rfl)

/-- Those of `OpenReject`. -/
def openReject : Codec OpenReject :=
  (connectionId.pair u16).iso (fun t => ⟨t.1, t.2⟩) (fun v => (v.connectionId, v.code))
    (fun _ => rfl) (fun _ => rfl)

/-- The nonce of a `Ping`. -/
def ping : Codec Ping := u64.iso Ping.mk Ping.nonce (fun _ => rfl) (fun _ => rfl)

/-- The nonce of a `Pong`. -/
def pong : Codec Pong := u64.iso Pong.mk Pong.nonce (fun _ => rfl) (fun _ => rfl)

/-- The deadline of a `Drain`. -/
def drain : Codec Drain := u32.iso Drain.mk Drain.deadlineMs (fun _ => rfl) (fun _ => rfl)

/-- The fields of an `Error`. -/
def errorMessage : Codec ErrorMessage :=
  (u16.pair diagnostic).iso (fun t => ⟨t.1, t.2⟩) (fun v => (v.code, v.diagnostic))
    (fun _ => rfl) (fun _ => rfl)

/-- Those of `DataHello`. -/
def dataHello : Codec DataHello :=
  (sessionId.pair (serviceId.pair connectionId)).iso (fun t => ⟨t.1, t.2.1, t.2.2⟩)
    (fun v => (v.sessionId, v.serviceId, v.connectionId)) (fun _ => rfl) (fun _ => rfl)

/-- Those of `RegisterReject`. -/
def registerReject : Codec RegisterReject :=
  (serviceId.pair (u16.pair diagnostic)).iso (fun t => ⟨t.1, t.2.1, t.2.2⟩)
    (fun v => (v.serviceId, v.code, v.diagnostic)) (fun _ => rfl) (fun _ => rfl)

/-! ### Every validated value fits -/

theorem fits_serviceName (n : ServiceName) : serviceName.fits n := by
  have h := n.valid
  simp only [validName, Bool.and_eq_true, decide_eq_true_eq] at h
  show n.value.utf8ByteSize < 2 ^ 64
  omega

theorem fits_tcpTarget (t : TcpTarget) : tcpTarget.fits t := by
  have h := t.valid.1
  simp only [validateTargetHost, Bool.and_eq_true, decide_eq_true_eq] at h
  refine ⟨?_, trivial⟩
  show t.host.utf8ByteSize < 2 ^ 64
  omega

theorem fits_diagnostic (d : BoundedDiagnostic) : diagnostic.fits d := by
  have h := d.valid
  simp only [validDiagnostic, Bool.and_eq_true, decide_eq_true_eq] at h
  show d.text.utf8ByteSize < 2 ^ 64
  omega

theorem fits_auth (a : Auth) : auth.fits a := by
  have h := a.valid
  refine ⟨?_, fun _ _ => trivial⟩
  show a.token.length < 2 ^ 64
  omega

theorem fits_capabilities (c : Capabilities) : capabilities.fits c := by
  have h := c.bounded
  refine ⟨?_, fun _ _ => trivial⟩
  show c.ids.length < 2 ^ 64
  omega

theorem fits_requestedBind (b : RequestedBind) : requestedBind.fits b := by
  cases b with
  | loopback port => trivial
  | ip address port => exact ⟨trivial, trivial⟩

/-! ### How long a field gets -/

theorem length_version (v : ProtocolVersion) : (version.enc v).length ≤ 6 := by
  have hmajor := length_u16 v.major
  have hminor := length_u16 v.minor
  show (u16.enc v.major ++ u16.enc v.minor).length ≤ 6
  rw [List.length_append]
  omega

theorem length_sessionId (id : SessionId) : (sessionId.enc id).length = 16 :=
  id.bytes.length_toList

theorem length_connectionId (id : ConnectionId) : (connectionId.enc id).length = 16 :=
  id.bytes.length_toList

theorem length_serviceId (id : ServiceId) : (serviceId.enc id).length ≤ 10 := length_u64 id.val

theorem length_effectiveBind (b : EffectiveBind) : (effectiveBind.enc b).length ≤ 19 := by
  have hport := length_u16 b.port
  show (b.address.toList ++ u16.enc b.port).length ≤ 19
  rw [List.length_append, Vector.length_toList]
  omega

theorem length_requestedBind (b : RequestedBind) : (requestedBind.enc b).length ≤ 24 := by
  cases b with
  | loopback port =>
      have htag := length_u32 0
      have hport := length_u16 port
      show (u32.enc 0 ++ u16.enc port).length ≤ 24
      rw [List.length_append]
      omega
  | ip address port =>
      have htag := length_u32 1
      have hport := length_u16 port
      show (u32.enc 1 ++ (address.toList ++ u16.enc port)).length ≤ 24
      rw [List.length_append, List.length_append, Vector.length_toList]
      omega

theorem length_serviceName (n : ServiceName) : (serviceName.enc n).length ≤ 138 := by
  have h := n.valid
  simp only [validName, Bool.and_eq_true, decide_eq_true_eq] at h
  have hlen : (serviceName.enc n).length ≤ _ := length_string n.value
  omega

theorem length_tcpTarget (t : TcpTarget) : (tcpTarget.enc t).length ≤ 266 := by
  have h := t.valid.1
  simp only [validateTargetHost, Bool.and_eq_true, decide_eq_true_eq] at h
  have hhost := length_string t.host
  have hport := length_u16 t.port
  show (string.enc t.host ++ u16.enc t.port).length ≤ 266
  rw [List.length_append]
  omega

theorem length_diagnostic (d : BoundedDiagnostic) : (diagnostic.enc d).length ≤ 266 := by
  have h := d.valid
  simp only [validDiagnostic, Bool.and_eq_true, decide_eq_true_eq] at h
  have hlen : (diagnostic.enc d).length ≤ _ := length_string d.text
  omega

theorem length_auth (a : Auth) : (auth.enc a).length ≤ 4106 := by
  have h := a.valid
  have hlen : (auth.enc a).length ≤ 10 + 1 * a.token.length :=
    length_vec (A := u8) (fun _ => le_rfl) a.token
  omega

theorem length_capabilities (c : Capabilities) : (capabilities.enc c).length ≤ 106 := by
  have h := c.bounded
  have hlen : (capabilities.enc c).length ≤ _ := length_vec length_u16 c.ids
  omega

end Codec

/-! ### Payloads -/

/-- `Message::encode_payload`. -/
def Message.payload : Message → Bytes
  | .clientHello v => Codec.clientHello.enc v
  | .serverHello v => Codec.serverHello.enc v
  | .auth v => Codec.auth.enc v
  | .authOk v => Codec.authOk.enc v
  | .registerService v => Codec.registerService.enc v
  | .registerAck v => Codec.registerAck.enc v
  | .unregisterService v => Codec.unregisterService.enc v
  | .open v => Codec.open.enc v
  | .openReject v => Codec.openReject.enc v
  | .ping v => Codec.ping.enc v
  | .pong v => Codec.pong.enc v
  | .drain v => Codec.drain.enc v
  | .error v => Codec.errorMessage.enc v
  | .dataHello v => Codec.dataHello.enc v
  | .registerReject v => Codec.registerReject.enc v

/-- The `dec!` arms of `decode_frame`. -/
def decodePayload (kind : MessageType) (b : Bytes) : Option Message :=
  match kind with
  | .clientHello => (Codec.clientHello.whole b).map .clientHello
  | .serverHello => (Codec.serverHello.whole b).map .serverHello
  | .auth => (Codec.auth.whole b).map .auth
  | .authOk => (Codec.authOk.whole b).map .authOk
  | .registerService => (Codec.registerService.whole b).map .registerService
  | .registerAck => (Codec.registerAck.whole b).map .registerAck
  | .unregisterService => (Codec.unregisterService.whole b).map .unregisterService
  | .open => (Codec.open.whole b).map .open
  | .openReject => (Codec.openReject.whole b).map .openReject
  | .ping => (Codec.ping.whole b).map .ping
  | .pong => (Codec.pong.whole b).map .pong
  | .drain => (Codec.drain.whole b).map .drain
  | .error => (Codec.errorMessage.whole b).map .error
  | .dataHello => (Codec.dataHello.whole b).map .dataHello
  | .registerReject => (Codec.registerReject.whole b).map .registerReject

/-- **The payload round trip.** -/
theorem decodePayload_payload (m : Message) : decodePayload m.kind m.payload = some m := by
  cases m with
  | clientHello v =>
      have h : Codec.clientHello.fits v := ⟨⟨trivial, trivial⟩, Codec.fits_capabilities _⟩
      simp [decodePayload, Message.kind, Message.payload, Codec.whole_enc _ h]
  | serverHello v =>
      have h : Codec.serverHello.fits v := ⟨⟨trivial, trivial⟩, Codec.fits_capabilities _⟩
      simp [decodePayload, Message.kind, Message.payload, Codec.whole_enc _ h]
  | auth v =>
      simp [decodePayload, Message.kind, Message.payload, Codec.whole_enc _ (Codec.fits_auth v)]
  | authOk v =>
      have h : Codec.authOk.fits v := trivial
      simp [decodePayload, Message.kind, Message.payload, Codec.whole_enc _ h]
  | registerService v =>
      have h : Codec.registerService.fits v :=
        ⟨trivial, Codec.fits_serviceName _, Codec.fits_requestedBind _, Codec.fits_tcpTarget _⟩
      simp [decodePayload, Message.kind, Message.payload, Codec.whole_enc _ h]
  | registerAck v =>
      have h : Codec.registerAck.fits v := ⟨trivial, trivial, trivial⟩
      simp [decodePayload, Message.kind, Message.payload, Codec.whole_enc _ h]
  | unregisterService v =>
      have h : Codec.unregisterService.fits v := trivial
      simp [decodePayload, Message.kind, Message.payload, Codec.whole_enc _ h]
  | «open» v =>
      have h : Codec.open.fits v := ⟨trivial, trivial⟩
      simp [decodePayload, Message.kind, Message.payload, Codec.whole_enc _ h]
  | openReject v =>
      have h : Codec.openReject.fits v := ⟨trivial, trivial⟩
      simp [decodePayload, Message.kind, Message.payload, Codec.whole_enc _ h]
  | ping v =>
      have h : Codec.ping.fits v := trivial
      simp [decodePayload, Message.kind, Message.payload, Codec.whole_enc _ h]
  | pong v =>
      have h : Codec.pong.fits v := trivial
      simp [decodePayload, Message.kind, Message.payload, Codec.whole_enc _ h]
  | drain v =>
      have h : Codec.drain.fits v := trivial
      simp [decodePayload, Message.kind, Message.payload, Codec.whole_enc _ h]
  | error v =>
      have h : Codec.errorMessage.fits v := ⟨trivial, Codec.fits_diagnostic _⟩
      simp [decodePayload, Message.kind, Message.payload, Codec.whole_enc _ h]
  | dataHello v =>
      have h : Codec.dataHello.fits v := ⟨trivial, trivial, trivial⟩
      simp [decodePayload, Message.kind, Message.payload, Codec.whole_enc _ h]
  | registerReject v =>
      have h : Codec.registerReject.fits v := ⟨trivial, trivial, Codec.fits_diagnostic _⟩
      simp [decodePayload, Message.kind, Message.payload, Codec.whole_enc _ h]

/-- An accepted payload is one of a message of its type, which re-encodes in no
more bytes. -/
theorem decodePayload_eq_some {kind : MessageType} {b : Bytes} {m : Message}
    (h : decodePayload kind b = some m) : m.kind = kind ∧ m.payload.length ≤ b.length := by
  unfold decodePayload at h
  cases kind <;>
  · obtain ⟨v, hwhole, rfl⟩ := Option.map_eq_some_iff.mp h
    exact ⟨rfl, Codec.length_enc_of_whole _ hwhole⟩

/-- **Every payload is far below the frame limit.** -/
theorem length_payload_le (m : Message) : m.payload.length ≤ 4106 := by
  cases m with
  | clientHello v | serverHello v =>
      have h1 := Codec.length_version v.version
      have h2 := Codec.length_capabilities v.capabilities
      show (Codec.version.enc v.version ++ Codec.capabilities.enc v.capabilities).length ≤ _
      rw [List.length_append]
      omega
  | auth v => exact Codec.length_auth v
  | authOk v => exact (Codec.length_sessionId v.sessionId).trans_le (by decide)
  | registerService v =>
      have h1 := Codec.length_serviceId v.serviceId
      have h2 := Codec.length_serviceName v.name
      have h3 := Codec.length_requestedBind v.requestedBind
      have h4 := Codec.length_tcpTarget v.target
      show (Codec.serviceId.enc v.serviceId ++ (Codec.serviceName.enc v.name ++
        (Codec.requestedBind.enc v.requestedBind ++ Codec.tcpTarget.enc v.target))).length ≤ _
      simp only [List.length_append]
      omega
  | registerAck v =>
      have h1 := Codec.length_serviceId v.serviceId
      have h2 := Codec.length_effectiveBind v.effectiveBind
      show (Codec.serviceId.enc v.serviceId ++ Codec.effectiveBind.enc v.effectiveBind).length ≤ _
      rw [List.length_append]
      omega
  | unregisterService v => exact (Codec.length_serviceId v.serviceId).trans (by decide)
  | «open» v =>
      have h1 := Codec.length_serviceId v.serviceId
      have h2 := Codec.length_connectionId v.connectionId
      show (Codec.serviceId.enc v.serviceId ++ Codec.connectionId.enc v.connectionId).length ≤ _
      rw [List.length_append]
      omega
  | openReject v =>
      have h1 := Codec.length_connectionId v.connectionId
      have h2 := Codec.length_u16 v.code
      show (Codec.connectionId.enc v.connectionId ++ Codec.u16.enc v.code).length ≤ _
      rw [List.length_append]
      omega
  | ping v | pong v => exact (Codec.length_u64 v.nonce).trans (by decide)
  | drain v => exact (Codec.length_u32 v.deadlineMs).trans (by decide)
  | error v =>
      have h1 := Codec.length_u16 v.code
      have h2 := Codec.length_diagnostic v.diagnostic
      show (Codec.u16.enc v.code ++ Codec.diagnostic.enc v.diagnostic).length ≤ _
      rw [List.length_append]
      omega
  | dataHello v =>
      have h1 := Codec.length_sessionId v.sessionId
      have h2 := Codec.length_serviceId v.serviceId
      have h3 := Codec.length_connectionId v.connectionId
      show (Codec.sessionId.enc v.sessionId ++
        (Codec.serviceId.enc v.serviceId ++ Codec.connectionId.enc v.connectionId)).length ≤ _
      simp only [List.length_append]
      omega
  | registerReject v =>
      have h1 := Codec.length_serviceId v.serviceId
      have h2 := Codec.length_u16 v.code
      have h3 := Codec.length_diagnostic v.diagnostic
      show (Codec.serviceId.enc v.serviceId ++
        (Codec.u16.enc v.code ++ Codec.diagnostic.enc v.diagnostic)).length ≤ _
      simp only [List.length_append]
      omega

end Eggtunnel
