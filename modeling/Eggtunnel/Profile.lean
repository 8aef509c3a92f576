/-
Eggtunnel/Profile.lean

The builders: which combinations of transport, identity, proxy and policy are
accepted, and what is then started.

`validate` of a builder is what the operator's `check` runs; `start` and `bind`
validate once more and then branch on the profile.  The branches repeat some of
the checks and drop some of the options on the way: with a client identity the
transport is plain TLS without a proxy, QUIC has neither a custom CA nor an
identity.  The main results say that neither matters: after `validate` no check
fails, and no option is dropped that was set (`starts_as_validated`,
`binds_as_validated`).

What other crates answer is a record of functions, and the results hold for all
of them.
-/
import Eggtunnel.Authentication
import Eggtunnel.Drive
import Eggtunnel.Endpoint
import Eggtunnel.Fallible
import Eggtunnel.Server

namespace Eggtunnel

open Fallible

/-! ### Other crates -/

/-- A certificate of the client and its key. -/
structure ClientIdentity where
  certificatePem : Bytes
  privateKeyPem : Bytes
  deriving DecidableEq

/-- What the runtime, the TLS and QUIC libraries and the operating system answer. -/
structure Platform where
  /-- `Handle::try_current` -/
  runtime : Bool
  /-- `OutboundConnector::from_pproxy_uri` -/
  proxyChain : String → Bool
  /-- `TlsClientConfigBuilder`, with a custom CA or the system roots -/
  clientTls : Option Bytes → Bool
  /-- the part of `build_mtls_tls_config` that parses and checks PEM -/
  clientMtls : Option Bytes → ClientIdentity → Bool
  /-- `TlsServerConfigBuilder` on a certificate and a key -/
  serverTls : Bytes → Bytes → Bool
  /-- the same with the CA of the clients -/
  serverMtls : Bytes → Bytes → Bytes → Bool
  /-- `TcpListener::bind` -/
  listen : SocketAddr → Option SocketAddr
  /-- `QuicListener::bind` on a certificate and a key, with a limit on streams -/
  quicListen : SocketAddr → Bytes → Bytes → Nat → Option SocketAddr

namespace Platform

variable (p : Platform)

/-- `require_caller_runtime`, also where it is written out. -/
def requireCallerRuntime (text : String) : Except TunnelError Unit :=
  require p.runtime (.configuration text)

/-- `parse_outbound_proxy`. -/
def parseOutboundProxy (chain : String) : Except TunnelError Unit :=
  require (p.proxyChain chain) (.configuration "invalid outbound proxy chain")

/-- `build_tls_config`. -/
def buildTlsConfig (caPem : Option Bytes) : Except TunnelError Unit :=
  require (p.clientTls caPem) .tls

/-- `build_mtls_tls_config`. -/
def buildMtlsTlsConfig (caPem : Option Bytes) (identity : ClientIdentity) :
    Except TunnelError Unit :=
  require (p.clientMtls caPem identity) .tls

/-- `build_server_tls`. -/
def buildServerTls (certificatePem privateKeyPem : Bytes) : Except TunnelError Unit :=
  require (p.serverTls certificatePem privateKeyPem) .tls

/-- `build_mtls_server_config`. -/
def buildMtlsServerConfig (certificatePem privateKeyPem clientCa : Bytes) :
    Except TunnelError Unit :=
  require (p.serverMtls certificatePem privateKeyPem clientCa) .tls

end Platform

/-- A platform on which everything is granted, a token and an address. -/
def grantingPlatform : Platform where
  runtime := true
  proxyChain _ := true
  clientTls _ := true
  clientMtls _ _ := true
  serverTls _ _ := true
  serverMtls _ _ _ := true
  listen addr := some addr
  quicListen addr _ _ _ := some addr

/-- A token of one byte. -/
def letterToken : SecretToken := ⟨[116], by decide⟩

/-- An address to listen on. -/
def ingressAddr : SocketAddr := .v6 localhostOctets 443

/-! ### The client -/

/-- `ClientTransportProfile`. -/
inductive ClientTransportProfile
  | tcpTls | quic | webSocket
  deriving DecidableEq, Repr

/-- `ClientConfig`. -/
structure ClientConfig where
  serverAddr : String
  tlsServerName : String
  caPem : Option Bytes
  token : SecretToken
  services : List ClientService

/-- `ClientBuilder`; the connector is called by `handle_open` only. -/
structure ClientBuilder where
  config : ClientConfig
  profile : ClientTransportProfile
  policy : RuntimePolicy
  identity : Option ClientIdentity
  outboundProxy : Option String

/-- What `drive` is called with. -/
inductive ClientTransport
  | stream (endpoint : Endpoint) (serverName : String) (caPem : Option Bytes)
      (identity : Option ClientIdentity) (websocket : Bool) (outbound : Option String)
  | quic (endpoint : Endpoint) (serverName : String) (insecure : Bool)

/-- The endpoint in `server_addr`, with the error the callers make of a bad one. -/
def parseServerAddr (text : String) : Except TunnelError Endpoint :=
  (Endpoint.parse text).mapError fun _ => .configuration "server_addr must be a host:port endpoint"

namespace ClientConfig

/-- `validate_config` of the client. -/
def validate (config : ClientConfig) (policy : RuntimePolicy) : Except TunnelError Unit := do
  let _ ← parseServerAddr config.serverAddr
  require (config.tlsServerName.utf8ByteSize ≠ 0 && config.tlsServerName.utf8ByteSize ≤ 253)
    (.configuration "TLS server name is invalid")
  validateServices policy config.services
  require (config.caPem.all (·.length ≤ maxFrameBytes))
    (.configuration "custom CA bundle exceeds configured size limit")

end ClientConfig

namespace ClientBuilder

variable (p : Platform) (b : ClientBuilder)

/-- `ClientBuilder::new`. -/
def new (config : ClientConfig) : ClientBuilder := ⟨config, .tcpTls, .default, none, none⟩

/-- `validate_client_profile`. -/
def validate : Except TunnelError Unit := do
  b.policy.validate
  b.config.validate b.policy
  require (!(b.profile = .quic && (b.config.caPem.isSome || b.identity.isSome
      || b.outboundProxy.isSome)))
    (.configuration "Eggress QUIC currently supports platform roots and bearer auth only")
  require (!(b.profile = .webSocket && b.identity.isSome))
    (.configuration "WebSocket transport currently does not support mTLS")
  require (!(b.identity.isSome && b.outboundProxy.isSome))
    (.configuration "outbound proxy mode currently does not support mTLS")
  match b.outboundProxy with
  | some chain => p.parseOutboundProxy chain
  | none => .ok ()

/-- `start_with_tls_config`, up to the spawn of `drive`. -/
def startWithTlsConfig (identity : Option ClientIdentity) (websocket : Bool)
    (outbound : Option String) : Except TunnelError ClientTransport := do
  p.requireCallerRuntime "Client::start requires a caller-owned Tokio runtime"
  b.config.validate b.policy
  let endpoint ← parseServerAddr b.config.serverAddr
  .ok (.stream endpoint b.config.tlsServerName b.config.caPem identity websocket outbound)

/-- `start_quic_profile`, up to the spawn of `drive`. -/
def startQuicProfile (insecure : Bool) : Except TunnelError ClientTransport := do
  p.requireCallerRuntime "Client::start_quic requires a caller-owned Tokio runtime"
  b.config.validate b.policy
  require (!b.config.caPem.isSome) (.configuration
    "Eggress QUIC currently uses platform roots; custom CA bundles are unsupported")
  let endpoint ← parseServerAddr b.config.serverAddr
  .ok (.quic endpoint b.config.tlsServerName insecure)

/-- The outbound connector of `start_profile`. -/
def outbound : Except TunnelError (Option String) :=
  match b.outboundProxy with
  | some chain => (p.parseOutboundProxy chain).map fun _ => some chain
  | none => .ok none

/-- `Client::start_profile`. -/
def start : Except TunnelError ClientTransport := do
  b.validate p
  match b.identity with
  | some identity =>
      p.buildMtlsTlsConfig b.config.caPem identity
      b.startWithTlsConfig p (some identity) false none
  | none =>
      match b.profile with
      | .tcpTls =>
          p.buildTlsConfig b.config.caPem
          let outbound ← b.outbound p
          b.startWithTlsConfig p none false outbound
      | .quic => b.startQuicProfile p false
      | .webSocket =>
          p.buildTlsConfig b.config.caPem
          let outbound ← b.outbound p
          b.startWithTlsConfig p none true outbound

/-! What is started -/

variable {p b}

/-- What the checks leave of the combinations. -/
structure Accepted (p : Platform) (b : ClientBuilder) : Prop where
  config : b.config.validate b.policy = .ok ()
  quic : b.profile = .quic →
    b.config.caPem = none ∧ b.identity = none ∧ b.outboundProxy = none
  webSocket : b.profile = .webSocket → b.identity = none
  mtls : b.identity ≠ none → b.outboundProxy = none
  proxy : ∀ chain, b.outboundProxy = some chain → p.proxyChain chain = true

theorem accepted_of_validate (h : b.validate p = .ok ()) : Accepted p b := by
  obtain ⟨⟨⟩, -, h⟩ := bind_eq_ok.mp h
  obtain ⟨⟨⟩, hconfig, h⟩ := bind_eq_ok.mp h
  obtain ⟨⟨⟩, hquic, h⟩ := bind_eq_ok.mp h
  obtain ⟨⟨⟩, hsocket, h⟩ := bind_eq_ok.mp h
  obtain ⟨⟨⟩, hmtls, hproxy⟩ := bind_eq_ok.mp h
  rw [require_eq_ok] at hquic hsocket hmtls
  refine ⟨hconfig, fun hprofile => ?_, fun hprofile => ?_, fun hidentity => ?_,
    fun chain hchain => ?_⟩
  · simpa [hprofile, and_assoc] using hquic
  · simpa [hprofile] using hsocket
  · simpa [Option.isSome_iff_ne_none, hidentity] using hmtls
  · rw [hchain] at hproxy
    exact require_eq_ok.mp hproxy

/-- The TLS library takes the material of the profile. -/
def tlsBuilds (p : Platform) (b : ClientBuilder) : Bool :=
  match b.identity with
  | some identity => p.clientMtls b.config.caPem identity
  | none => b.profile = .quic || p.clientTls b.config.caPem

/-- The transport that has been asked for. -/
def asked (b : ClientBuilder) (endpoint : Endpoint) : ClientTransport :=
  match b.profile with
  | .quic => .quic endpoint b.config.tlsServerName false
  | profile => .stream endpoint b.config.tlsServerName b.config.caPem b.identity
      (profile = .webSocket) b.outboundProxy

theorem endpoint_of_validate {config : ClientConfig} {policy : RuntimePolicy}
    (h : config.validate policy = .ok ()) :
    ∃ endpoint, parseServerAddr config.serverAddr = .ok endpoint := by
  obtain ⟨endpoint, hendpoint, -⟩ := bind_eq_ok.mp h
  exact ⟨endpoint, hendpoint⟩

/-- The checks of the stream branch have all been made. -/
theorem startWithTlsConfig_eq (h : Accepted p b) (hruntime : p.runtime = true) {endpoint : Endpoint}
    (hendpoint : parseServerAddr b.config.serverAddr = .ok endpoint)
    (identity : Option ClientIdentity) (websocket : Bool) (outbound : Option String) :
    b.startWithTlsConfig p identity websocket outbound =
      .ok (.stream endpoint b.config.tlsServerName b.config.caPem identity websocket outbound) := by
  unfold startWithTlsConfig Platform.requireCallerRuntime
  rw [hruntime, h.config, hendpoint]
  rfl

theorem outbound_eq (h : Accepted p b) : b.outbound p = .ok b.outboundProxy := by
  unfold outbound Platform.parseOutboundProxy
  split
  · rename_i chain hchain
    rw [h.proxy chain hchain, hchain]
    rfl
  · rename_i hnone
    rw [hnone]

theorem start_eq_error {e : TunnelError} (h : b.validate p = .error e) : b.start p = .error e := by
  rw [start, h]
  rfl

/-- Whatever the branch, what is started is what was asked for. -/
theorem start_eq (hvalid : b.validate p = .ok ()) (hruntime : p.runtime = true)
    {endpoint : Endpoint} (hendpoint : parseServerAddr b.config.serverAddr = .ok endpoint) :
    b.start p = if b.tlsBuilds p then .ok (b.asked endpoint) else .error .tls := by
  have h := accepted_of_validate hvalid
  rw [start, hvalid, ok_bind]
  unfold tlsBuilds asked
  cases hidentity : b.identity with
  | some identity =>
      -- plain TLS, and there is no proxy to forget
      have hproxy := h.mtls (by rw [hidentity]; exact Option.some_ne_none _)
      have hprofile : b.profile = .tcpTls := by
        cases hprofile : b.profile with
        | tcpTls => rfl
        | quic => cases hidentity.symm.trans (h.quic hprofile).2.1
        | webSocket => cases hidentity.symm.trans (h.webSocket hprofile)
      simp only [hprofile, hproxy, startWithTlsConfig_eq h hruntime hendpoint]
      exact require_bind ..
  | none =>
      cases hprofile : b.profile with
      | quic =>
          obtain ⟨hca, -, -⟩ := h.quic hprofile
          simp only [startQuicProfile, Platform.requireCallerRuntime, hruntime, h.config, hca,
            hendpoint]
          rfl
      | tcpTls | webSocket =>
          simp only [outbound_eq h, ok_bind, startWithTlsConfig_eq h hruntime hendpoint]
          exact require_bind ..

/-- **A client starts as it was validated**, within a runtime.  What `validate`
refuses, `start` refuses alike.  What it accepts is started as asked, whatever the
branch, unless the TLS library does not take the material; QUIC, which has no use for
a custom CA, an identity or a proxy, is not asked for with one. -/
theorem starts_as_validated (p : Platform) (b : ClientBuilder) (hruntime : p.runtime = true) :
    match b.validate p with
    | .error e => b.start p = .error e
    | .ok () =>
        (b.profile = .quic →
          b.config.caPem = none ∧ b.identity = none ∧ b.outboundProxy = none) ∧
        ∃ endpoint, parseServerAddr b.config.serverAddr = .ok endpoint ∧
          b.start p = if b.tlsBuilds p then .ok (b.asked endpoint) else .error .tls := by
  rcases hvalid : b.validate p with e | ⟨⟩
  · exact start_eq_error hvalid
  · have h := accepted_of_validate hvalid
    obtain ⟨endpoint, hendpoint⟩ := endpoint_of_validate h.config
    exact ⟨h.quic, endpoint, hendpoint, start_eq hvalid hruntime hendpoint⟩

/-- A client with an identity. -/
def mtlsClient : ClientBuilder :=
  { ClientBuilder.new ⟨"[::1]:443", "h", some [1], letterToken, [webService]⟩ with
    identity := some ⟨[2], [3]⟩ }

theorem starts_as_validated_mtls :
    mtlsClient.validate grantingPlatform = .ok () ∧
      ∃ endpoint, mtlsClient.start grantingPlatform
        = .ok (.stream endpoint "h" (some [1]) (some ⟨[2], [3]⟩) false none) := by
  have hvalid : mtlsClient.validate grantingPlatform = .ok () := by decide +kernel
  have hstart := starts_as_validated grantingPlatform mtlsClient rfl
  rw [hvalid] at hstart
  obtain ⟨-, endpoint, -, hstart⟩ := hstart
  exact ⟨hvalid, endpoint, hstart⟩

end ClientBuilder

/-! ### The server -/

/-- `ServerTransportProfile`. -/
inductive ServerTransportProfile
  | tcpTls | quic | webSocket
  deriving DecidableEq, Repr

/-- `ServerConfig`. -/
structure ServerConfig where
  listenAddr : SocketAddr
  certificatePem : Bytes
  privateKeyPem : Bytes
  token : SecretToken
  allowPublicServiceBinds : Bool

/-- `ServerBuilder`. -/
structure ServerBuilder where
  config : ServerConfig
  bindPolicy : BindPolicy
  profile : ServerTransportProfile
  runtimePolicy : RuntimePolicy
  trustedClientCa : Option Bytes

/-- What the accept loop is called with. -/
inductive ServerIngress
  | stream (localAddr : SocketAddr) (clientCa : Option Bytes) (websocket : Bool)
  | quic (localAddr : SocketAddr) (streams : Nat)

/-- `validate_config` of the server. -/
def ServerConfig.validate (config : ServerConfig) : Except TunnelError Unit := do
  require (!(config.certificatePem.isEmpty || config.privateKeyPem.isEmpty))
    (.configuration "server certificate and key are required")
  require (config.certificatePem.length ≤ maxFrameBytes
      && config.privateKeyPem.length ≤ maxFrameBytes)
    (.configuration "server TLS material exceeds configured size limit")

namespace ServerBuilder

variable (p : Platform) (b : ServerBuilder)

/-- `ServerBuilder::new`. -/
def new (config : ServerConfig) : ServerBuilder where
  config
  bindPolicy := { BindPolicy.default with allowPublicAddresses := config.allowPublicServiceBinds }
  profile := .tcpTls
  runtimePolicy := .default
  trustedClientCa := none

/-- The setter `bind_policy`, which carries its switch into the configuration. -/
def setBindPolicy (policy : BindPolicy) : ServerBuilder :=
  { b with
    config := { b.config with allowPublicServiceBinds := policy.allowPublicAddresses }
    bindPolicy := policy }

/-- The checks on the CA of the clients. -/
def validateClientCa : Except TunnelError Unit :=
  match b.trustedClientCa with
  | some ca => do
      require (!ca.isEmpty) (.configuration "trusted client CA bundle must not be empty")
      require (b.profile = .tcpTls) (.configuration "mTLS is supported only with TCP/TLS")
  | none => .ok ()

/-- `validate_server_profile`. -/
def validate : Except TunnelError Unit := do
  b.runtimePolicy.validate
  b.bindPolicy.validate
  require (b.bindPolicy.allowPublicAddresses = b.config.allowPublicServiceBinds) (.configuration
    "bind policy public-address setting must match allow_public_service_binds")
  b.config.validate
  b.validateClientCa

/-- `bind_with_tls_profile`, up to the spawn of the accept loop. -/
def bindWithTlsProfile (clientCa : Option Bytes) (websocket : Bool) :
    Except TunnelError ServerIngress := do
  p.requireCallerRuntime "Server::bind requires a caller-owned Tokio runtime"
  b.config.validate
  b.bindPolicy.validate
  match p.listen b.config.listenAddr with
  | some localAddr => .ok (.stream localAddr clientCa websocket)
  | none => .error .io

/-- `usize::saturating_add`. -/
def saturatingAdd (a b : Nat) : Nat := min (a + b) (usizeValues - 1)

/-- `bind_quic_profile`; the limit on streams is a `u32`. -/
def bindQuicProfile : Except TunnelError ServerIngress := do
  let streams := saturatingAdd b.runtimePolicy.limits.activeConnectionsPerSession 1
  require (streams < 2 ^ 32)
    (.configuration "connection ceiling exceeds the QUIC stream limit")
  match p.quicListen b.config.listenAddr b.config.certificatePem b.config.privateKeyPem streams with
  | some localAddr => .ok (.quic localAddr streams)
  | none => .error .tls

/-- `ServerBuilder::bind` and `Server::bind_profile`. -/
def bind : Except TunnelError ServerIngress := do
  b.validate
  match b.profile with
  | .tcpTls =>
      match b.trustedClientCa with
      | some clientCa =>
          p.buildMtlsServerConfig b.config.certificatePem b.config.privateKeyPem clientCa
      | none => p.buildServerTls b.config.certificatePem b.config.privateKeyPem
      b.bindWithTlsProfile p b.trustedClientCa false
  | .webSocket =>
      p.buildServerTls b.config.certificatePem b.config.privateKeyPem
      b.bindWithTlsProfile p none true
  | .quic => b.bindQuicProfile p

/-! What is bound -/

variable {p b}

/-- What the checks leave of the combinations. -/
structure Accepted (b : ServerBuilder) : Prop where
  limits : b.runtimePolicy.limits.validate = .ok ()
  policy : b.bindPolicy.validate = .ok ()
  switch : b.bindPolicy.allowPublicAddresses = b.config.allowPublicServiceBinds
  config : b.config.validate = .ok ()
  mtls : b.trustedClientCa ≠ none → b.profile = .tcpTls

theorem accepted_of_validate (h : b.validate = .ok ()) : Accepted b := by
  obtain ⟨⟨⟩, hruntime, h⟩ := bind_eq_ok.mp h
  obtain ⟨⟨⟩, hpolicy, h⟩ := bind_eq_ok.mp h
  obtain ⟨⟨⟩, hpublic, h⟩ := bind_eq_ok.mp h
  obtain ⟨⟨⟩, hconfig, hca⟩ := bind_eq_ok.mp h
  refine ⟨RuntimePolicy.limits_of_validate hruntime, hpolicy,
    of_decide_eq_true (require_eq_ok.mp hpublic), hconfig, fun hsome => ?_⟩
  obtain ⟨ca, hca'⟩ := Option.ne_none_iff_exists'.mp hsome
  rw [validateClientCa, hca'] at hca
  obtain ⟨⟨⟩, -, hprofile⟩ := bind_eq_ok.mp hca
  exact of_decide_eq_true (require_eq_ok.mp hprofile)

/-- The TLS library takes the material of the profile; that of QUIC is taken when
the listener is bound. -/
def tlsBuilds (p : Platform) (b : ServerBuilder) : Bool :=
  match b.profile, b.trustedClientCa with
  | .quic, _ => true
  | _, some clientCa => p.serverMtls b.config.certificatePem b.config.privateKeyPem clientCa
  | _, none => p.serverTls b.config.certificatePem b.config.privateKeyPem

/-- The ingress that has been asked for, if the system grants the address. -/
def asked (p : Platform) (b : ServerBuilder) : Except TunnelError ServerIngress :=
  match b.profile with
  | .quic =>
      let streams := b.runtimePolicy.limits.activeConnectionsPerSession + 1
      match p.quicListen b.config.listenAddr b.config.certificatePem b.config.privateKeyPem
          streams with
      | some localAddr => .ok (.quic localAddr streams)
      | none => .error .tls
  | profile =>
      match p.listen b.config.listenAddr with
      | some localAddr => .ok (.stream localAddr b.trustedClientCa (profile = .webSocket))
      | none => .error .io

theorem bindWithTlsProfile_eq (h : Accepted b) (hruntime : p.runtime = true)
    (clientCa : Option Bytes) (websocket : Bool) :
    b.bindWithTlsProfile p clientCa websocket =
      match p.listen b.config.listenAddr with
      | some localAddr => .ok (.stream localAddr clientCa websocket)
      | none => .error .io := by
  unfold bindWithTlsProfile Platform.requireCallerRuntime
  rw [hruntime, h.config, h.policy]
  rfl

/-- The limit on connections is far from the limits of the two words. -/
theorem saturatingAdd_eq (h : Accepted b) :
    saturatingAdd b.runtimePolicy.limits.activeConnectionsPerSession 1
      = b.runtimePolicy.limits.activeConnectionsPerSession + 1 ∧
    b.runtimePolicy.limits.activeConnectionsPerSession + 1 < 2 ^ 32 := by
  have hrange := (ResourceLimits.range_of_validate h.limits
    b.runtimePolicy.limits.activeConnectionsPerSession (by simp)).2
  have hword : 65536 + 1 ≤ usizeValues - 1 := by decide
  refine ⟨Nat.min_eq_left ((Nat.add_le_add_right hrange 1).trans hword), ?_⟩
  omega

theorem bind_eq_error {e : TunnelError} (h : b.validate = .error e) : b.bind p = .error e := by
  rw [ServerBuilder.bind, h]
  rfl

/-- Whatever the branch, what is bound is what was asked for. -/
theorem bind_eq (hvalid : b.validate = .ok ()) (hruntime : p.runtime = true) :
    b.bind p = if b.tlsBuilds p then b.asked p else .error .tls := by
  have h := accepted_of_validate hvalid
  rw [ServerBuilder.bind, hvalid, ok_bind]
  unfold tlsBuilds asked
  cases hprofile : b.profile with
  | quic =>
      obtain ⟨hstreams, hword⟩ := saturatingAdd_eq h
      simp only [bindQuicProfile, hstreams, hword, decide_true]
      rfl
  | tcpTls =>
      simp only [bindWithTlsProfile_eq h hruntime]
      cases b.trustedClientCa with
      | some ca => exact require_bind ..
      | none => exact require_bind ..
  | webSocket =>
      -- the CA of the clients is not handed on, and there is none
      have hca : b.trustedClientCa = none := by
        by_contra hsome
        cases hprofile.symm.trans (h.mtls hsome)
      simp only [bindWithTlsProfile_eq h hruntime, hca]
      exact require_bind ..

/-- **A server binds as it was validated**, within a runtime.  What `validate`
refuses, `bind` refuses alike.  What it accepts is bound as asked, unless the TLS library does not take the
material or the system does not grant the address: the CA of the clients, if there is
one, is the one they are checked against, and the limit on QUIC streams is that on
connections, and one for the control stream. -/
theorem binds_as_validated (p : Platform) (b : ServerBuilder) (hruntime : p.runtime = true) :
    match b.validate with
    | .error e => b.bind p = .error e
    | .ok () =>
        b.bindPolicy.allowPublicAddresses = b.config.allowPublicServiceBinds ∧
        (b.trustedClientCa ≠ none → b.profile = .tcpTls) ∧
        b.bind p = if b.tlsBuilds p then b.asked p else .error .tls := by
  rcases hvalid : b.validate with e | ⟨⟩
  · exact bind_eq_error hvalid
  · have h := accepted_of_validate hvalid
    exact ⟨h.switch, h.mtls, bind_eq hvalid hruntime⟩

/-- A server for QUIC. -/
def quicServer : ServerBuilder :=
  { ServerBuilder.new ⟨ingressAddr, [1], [2], letterToken, false⟩ with profile := .quic }

theorem binds_as_validated_quic :
    quicServer.validate = .ok () ∧
      quicServer.bind grantingPlatform = .ok (.quic ingressAddr 129) := by
  have hvalid : quicServer.validate = .ok () := by decide +kernel
  have hbind := binds_as_validated grantingPlatform quicServer rfl
  rw [hvalid] at hbind
  exact ⟨hvalid, hbind.2.2⟩

end ServerBuilder

end Eggtunnel
