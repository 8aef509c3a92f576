/-
Eggtunnel/Secrets.lean

Secrets never appear in JSON, in `Debug` or in diagnostics.

Two worlds are alike when they differ only in the values of the environment
variables and in the contents of the material files, and neither the rules of the
program (a token has a length, a proxy is not blank, a file is not empty and not too
long) nor the libraries tell the values apart.  What counts as the same kind of value
is a parameter: any relation will do that the libraries respect.

The result, `secrets_stay_secret`, is that everything the commands say, errors
included, is the same in both worlds.  The resolution is followed step by step in
two runs (`Fallible.Twin`): they read different secrets, and what they have read
stays related until it is printed.
-/
import Eggtunnel.Cli

namespace Eggtunnel

open Fallible

/-! ### What `Debug` shows -/

/-- What a `Debug` implementation prints of a field. -/
inductive DebugValue
  | text (value : String)
  | option (value : Option String)
  | number (value : Nat)
  | flag (value : Bool)
  | addr (value : SocketAddr)
  deriving DecidableEq

namespace Cli

/-- A field that is only said to be there. -/
def configured {α : Type} (value : Option α) : DebugValue :=
  .option (value.map fun _ => "[configured]")

/-- `Debug` of `ResolvedClient`: the names of the fields and what stands for them. -/
def ResolvedClient.debug (r : ResolvedClient) : List (String × DebugValue) :=
  [("server_addr", .text r.serverAddr.text), ("tls_server_name", .text r.tlsServerName),
    ("ca_pem", configured r.caPem), ("token", .text "[REDACTED]"),
    ("services", .number r.services.length), ("transport", .text (transportNameClient r.transport)),
    ("outbound_proxy", configured r.outboundProxy), ("identity", configured r.identity)]

/-- `Debug` of `ResolvedServer`. -/
def ResolvedServer.debug (r : ResolvedServer) : List (String × DebugValue) :=
  [("listen_addr", .addr r.listenAddr), ("certificate_pem", .text "[configured]"),
    ("private_key_pem", .text "[REDACTED]"), ("token", .text "[REDACTED]"),
    ("transport", .text (transportNameServer r.transport)),
    ("allow_public_service_binds", .flag r.allowPublicServiceBinds),
    ("client_ca", configured r.clientCa)]

end Cli

/-! ### Secrets of the same kind -/

/-- A notion of values of the same kind, for the variables and for the files, as fine as
the rules of the program.  It can be finer, and must be where a library looks closer. -/
structure Kinds where
  value : String → String → Prop
  material : Bytes → Bytes → Prop
  token : ∀ {v v' : String}, value v v' →
    ((SecretToken.new (Codec.utf8 v)).isOk = (SecretToken.new (Codec.utf8 v')).isOk)
  blank : ∀ {v v' : String}, value v v' →
    v.toList.all isWhitespace = v'.toList.all isWhitespace
  empty : ∀ {m m' : Bytes}, material m m' → m.isEmpty = m'.isEmpty
  long : ∀ {m m' : Bytes}, material m m' →
    (Cli.maxMaterialBytes < m.length ↔ Cli.maxMaterialBytes < m'.length)

/-- An identity of the same kind. -/
structure Kinds.Identity (K : Kinds) (i i' : ClientIdentity) : Prop where
  certificate : K.material i.certificatePem i'.certificatePem
  key : K.material i.privateKeyPem i'.privateKeyPem

variable {K : Kinds}

/-- The libraries answer alike on values of the same kind. -/
structure Platform.Alike (K : Kinds) (p p' : Platform) : Prop where
  runtime : p.runtime = p'.runtime
  proxyChain : ∀ {v v' : String}, K.value v v' → p.proxyChain v = p'.proxyChain v'
  clientTls : ∀ {ca ca' : Option Bytes}, Option.Rel K.material ca ca' →
    p.clientTls ca = p'.clientTls ca'
  clientMtls : ∀ {ca ca' : Option Bytes} {i i' : ClientIdentity}, Option.Rel K.material ca ca' →
    K.Identity i i' → p.clientMtls ca i = p'.clientMtls ca' i'
  serverTls : ∀ {c c' k k' : Bytes}, K.material c c' → K.material k k' →
    p.serverTls c k = p'.serverTls c' k'
  serverMtls : ∀ {c c' k k' ca ca' : Bytes}, K.material c c' → K.material k k' →
    K.material ca ca' → p.serverMtls c k ca = p'.serverMtls c' k' ca'
  listen : p.listen = p'.listen
  quicListen : ∀ {c c' k k' : Bytes} (addr : SocketAddr) (streams : Nat), K.material c c' →
    K.material k k' → p.quicListen addr c k streams = p'.quicListen addr c' k' streams

/-! ### The builders do not tell -/

section Builders

variable {p p' : Platform}

theorem isSome_eq_of_rel {α β : Type} {R : α → β → Prop} {x : Option α} {y : Option β}
    (h : Option.Rel R x y) : x.isSome = y.isSome := by
  cases h with
  | some => rfl
  | none => rfl

/-- The limit of the builders is the one that files are read with. -/
theorem Kinds.fits_eq (K : Kinds) {m m' : Bytes} (h : K.material m m') :
    decide (m.length ≤ maxFrameBytes) = decide (m'.length ≤ maxFrameBytes) := by
  have hlong := not_congr (K.long h)
  rw [Nat.not_lt, Nat.not_lt] at hlong
  exact decide_eq_decide.mpr hlong

/-- Builders that differ in secrets of the same kind. -/
structure ClientBuilder.Alike (K : Kinds) (b b' : ClientBuilder) : Prop where
  serverAddr : b.config.serverAddr = b'.config.serverAddr
  tlsServerName : b.config.tlsServerName = b'.config.tlsServerName
  services : b.config.services = b'.config.services
  profile : b.profile = b'.profile
  policy : b.policy = b'.policy
  caPem : Option.Rel K.material b.config.caPem b'.config.caPem
  identity : Option.Rel K.Identity b.identity b'.identity
  outboundProxy : Option.Rel K.value b.outboundProxy b'.outboundProxy

namespace ClientBuilder

variable {b b' : ClientBuilder}

theorem Alike.caFits (h : Alike K b b') :
    b.config.caPem.all (·.length ≤ maxFrameBytes)
      = b'.config.caPem.all (·.length ≤ maxFrameBytes) := by
  have hca := h.caPem
  generalize b.config.caPem = ca, b'.config.caPem = ca' at hca
  cases hca with
  | none => rfl
  | some hm => exact K.fits_eq hm

theorem Alike.validateConfig (h : Alike K b b') :
    b.config.validate b.policy = b'.config.validate b'.policy := by
  unfold ClientConfig.validate
  rw [h.serverAddr, h.tlsServerName, h.services, h.policy, h.caFits]

theorem Alike.validate (hp : p.Alike K p') (h : Alike K b b') :
    b.validate p = b'.validate p' := by
  unfold ClientBuilder.validate
  rw [h.validateConfig, h.policy, h.profile, isSome_eq_of_rel h.caPem,
    isSome_eq_of_rel h.identity, isSome_eq_of_rel h.outboundProxy]
  have hproxy := h.outboundProxy
  generalize b.outboundProxy = proxy, b'.outboundProxy = proxy' at hproxy
  cases hproxy with
  | none => rfl
  | some hv => simp only [Platform.parseOutboundProxy, hp.proxyChain hv]

/-- What a client is started with is not printed. -/
theorem Alike.start (hp : p.Alike K p') (h : Alike K b b') :
    Twin (fun _ _ => True) (b.start p) (b'.start p') := by
  have hstream : ∀ identity identity' websocket outbound outbound',
      Twin (fun _ _ => True) (b.startWithTlsConfig p identity websocket outbound)
        (b'.startWithTlsConfig p' identity' websocket outbound') := by
    intro identity identity' websocket outbound outbound'
    unfold startWithTlsConfig Platform.requireCallerRuntime
    rw [hp.runtime, h.validateConfig, h.serverAddr]
    exact .bind_same fun _ => .bind_same fun _ => .bind_same fun _ => .ok trivial
  have houtbound : Twin (fun _ _ => True) (b.outbound p) (b'.outbound p') := by
    unfold outbound Platform.parseOutboundProxy
    have hproxy := h.outboundProxy
    generalize b.outboundProxy = proxy, b'.outboundProxy = proxy' at hproxy
    cases hproxy with
    | none => exact .ok trivial
    | some hv =>
        simp only [hp.proxyChain hv]
        exact (Twin.refl _).map fun _ _ _ => trivial
  unfold ClientBuilder.start
  rw [h.validate hp, ← h.profile]
  refine .bind_same fun _ => ?_
  have hidentity := h.identity
  generalize b.identity = identity, b'.identity = identity' at hidentity
  cases hidentity with
  | some hi =>
      simp only [Platform.buildMtlsTlsConfig, hp.clientMtls h.caPem hi]
      exact .bind_same fun _ => hstream ..
  | none =>
      cases b.profile with
      | tcpTls | webSocket =>
          simp only [Platform.buildTlsConfig, hp.clientTls h.caPem]
          exact .bind_same fun _ => houtbound.bind fun _ _ _ => hstream ..
      | quic =>
          simp only [startQuicProfile, Platform.requireCallerRuntime, hp.runtime,
            h.validateConfig, h.serverAddr, isSome_eq_of_rel h.caPem]
          exact .bind_same fun _ => .bind_same fun _ => .bind_same fun _ => .bind_same fun _ =>
            .ok trivial

end ClientBuilder

/-- The same of two server builders. -/
structure ServerBuilder.Alike (K : Kinds) (b b' : ServerBuilder) : Prop where
  listenAddr : b.config.listenAddr = b'.config.listenAddr
  switch : b.config.allowPublicServiceBinds = b'.config.allowPublicServiceBinds
  bindPolicy : b.bindPolicy = b'.bindPolicy
  profile : b.profile = b'.profile
  runtimePolicy : b.runtimePolicy = b'.runtimePolicy
  certificate : K.material b.config.certificatePem b'.config.certificatePem
  key : K.material b.config.privateKeyPem b'.config.privateKeyPem
  clientCa : Option.Rel K.material b.trustedClientCa b'.trustedClientCa

namespace ServerBuilder

variable {b b' : ServerBuilder}

theorem Alike.validateConfig (h : Alike K b b') : b.config.validate = b'.config.validate := by
  unfold ServerConfig.validate
  rw [K.empty h.certificate, K.empty h.key, K.fits_eq h.certificate, K.fits_eq h.key]

theorem Alike.validate (h : Alike K b b') : b.validate = b'.validate := by
  unfold ServerBuilder.validate validateClientCa
  rw [h.runtimePolicy, h.bindPolicy, h.switch, h.validateConfig, h.profile]
  have hca := h.clientCa
  generalize b.trustedClientCa = ca, b'.trustedClientCa = ca' at hca
  cases hca with
  | none => rfl
  | some hm => simp only [K.empty hm]

/-- The address that is printed is the same. -/
theorem Alike.bind (hp : p.Alike K p') (h : Alike K b b') :
    Twin (fun i i' => Cli.localAddr i = Cli.localAddr i') (b.bind p) (b'.bind p') := by
  have hstream : ∀ clientCa clientCa' websocket,
      Twin (fun i i' => Cli.localAddr i = Cli.localAddr i')
        (b.bindWithTlsProfile p clientCa websocket)
        (b'.bindWithTlsProfile p' clientCa' websocket) := by
    intro clientCa clientCa' websocket
    unfold bindWithTlsProfile Platform.requireCallerRuntime
    rw [hp.runtime, h.validateConfig, h.bindPolicy, hp.listen, h.listenAddr]
    refine .bind_same fun _ => .bind_same fun _ => .bind_same fun _ => ?_
    cases p'.listen b'.config.listenAddr with
    | none => exact .error _
    | some addr => exact .ok rfl
  have htls := hp.serverTls h.certificate h.key
  unfold ServerBuilder.bind
  rw [h.validate, ← h.profile]
  refine .bind_same fun _ => ?_
  cases b.profile with
  | quic =>
      simp only [bindQuicProfile, h.runtimePolicy, h.listenAddr,
        hp.quicListen _ _ h.certificate h.key]
      exact .bind_same fun _ => Twin.refl _ |>.mono fun _ _ he => congrArg _ he
  | webSocket =>
      simp only [Platform.buildServerTls, htls]
      exact .bind_same fun _ => hstream ..
  | tcpTls =>
      have hca := h.clientCa
      generalize b.trustedClientCa = ca, b'.trustedClientCa = ca' at hca
      cases hca with
      | none =>
          simp only [Platform.buildServerTls, htls]
          exact .bind_same fun _ => hstream ..
      | some hm =>
          simp only [Platform.buildMtlsServerConfig, hp.serverMtls h.certificate h.key hm]
          exact .bind_same fun _ => hstream ..

end ServerBuilder

end Builders

/-! ### The resolution does not tell -/

namespace Cli

/-- Worlds that differ only in secrets, and in secrets of the same kind. -/
structure World.Alike (K : Kinds) (w w' : World) : Prop where
  platform : w.platform.Alike K w'.platform
  readToString : w.readToString = w'.readToString
  fromToml : w.fromToml = w'.fromToml
  parseAddr : w.parseAddr = w'.parseAddr
  ioText : w.ioText = w'.ioText
  var : ∀ name, Option.Rel K.value (w.var name) (w'.var name)
  metadata : ∀ path, (w.file path).metadata = (w'.file path).metadata
  contents : ∀ path, Option.Rel K.material (w.file path).contents (w'.file path).contents

variable {w w' : World}

theorem World.Alike.readConfig (h : w.Alike K w') (path : Path) :
    Cli.readConfig w path = Cli.readConfig w' path := by
  unfold Cli.readConfig
  rw [h.readToString, h.fromToml]

/-- The message names the variable. -/
theorem World.Alike.loadToken (h : w.Alike K w') (name : String) :
    Twin (fun _ _ => True) (Cli.loadToken w name) (Cli.loadToken w' name) := by
  unfold Cli.loadToken
  split
  · exact .error _
  · have hvar := h.var name
    generalize w.var name = v, w'.var name = v' at hvar
    cases hvar with
    | none => exact .error _
    | @some v v' hv =>
        have htoken := K.token hv
        show Twin _ ((SecretToken.new (Codec.utf8 v)).mapError _)
          ((SecretToken.new (Codec.utf8 v')).mapError _)
        generalize SecretToken.new (Codec.utf8 v) = x, SecretToken.new (Codec.utf8 v') = y at htoken
        rcases x with e | x <;> rcases y with e' | y
        · exact .error _
        · cases htoken
        · cases htoken
        · exact .ok trivial

/-- The message says what the file is for. -/
theorem World.Alike.readMaterial (h : w.Alike K w') (path : Option Path) (what : String) :
    Twin (Option.Rel K.material) (Cli.readMaterial w path what)
      (Cli.readMaterial w' path what) := by
  unfold Cli.readMaterial
  cases path with
  | none => exact .ok .none
  | some path =>
      simp only [h.metadata path]
      cases (w'.file path).metadata with
      | none => exact .error _
      | some m =>
          obtain ⟨isDir, len⟩ := m
          have hcontents := h.contents path
          generalize (w.file path).contents = c, (w'.file path).contents = c' at hcontents
          dsimp only
          split_ifs
          · exact .error _
          · exact .error _
          · cases hcontents with
            | none => exact .error _
            | some hm =>
                simp only [K.long hm, K.empty hm]
                split_ifs
                · exact .error _
                · exact .error _
                · exact .ok (.some hm)

theorem World.Alike.readRequiredMaterial (h : w.Alike K w') (path : Option Path) (what : String) :
    Twin K.material (Cli.readRequiredMaterial w path what)
      (Cli.readRequiredMaterial w' path what) := by
  unfold Cli.readRequiredMaterial
  refine (h.readMaterial path what).bind fun m m' hm => ?_
  cases hm with
  | none => exact .error _
  | some hm => exact .ok hm

theorem World.Alike.loadProxy (h : w.Alike K w') (name : Option String) :
    Twin (Option.Rel K.value) (Cli.loadProxy w name) (Cli.loadProxy w' name) := by
  unfold Cli.loadProxy
  cases name with
  | none => exact .ok .none
  | some name =>
      have hvar := h.var name
      dsimp only
      generalize w.var name = v, w'.var name = v' at hvar
      cases hvar with
      | none => exact .error _
      | some hv =>
          simp only [K.blank hv]
          split_ifs
          · exact .error _
          · exact .ok (.some hv)

theorem World.Alike.resolveIdentity (h : w.Alike K w') (config : FileConfig) :
    Twin (Option.Rel K.Identity) (Cli.resolveIdentity w config)
      (Cli.resolveIdentity w' config) := by
  unfold Cli.resolveIdentity
  split
  · exact (h.readRequiredMaterial _ _).bind fun c c' hc =>
      (h.readRequiredMaterial _ _).bind fun k k' hk => .ok (.some ⟨hc, hk⟩)
  · exact .ok .none

/-- Snapshots that differ in secrets of the same kind. -/
structure ResolvedClient.Alike (K : Kinds) (r r' : ResolvedClient) : Prop where
  serverAddr : r.serverAddr = r'.serverAddr
  tlsServerName : r.tlsServerName = r'.tlsServerName
  services : r.services = r'.services
  transport : r.transport = r'.transport
  caPem : Option.Rel K.material r.caPem r'.caPem
  outboundProxy : Option.Rel K.value r.outboundProxy r'.outboundProxy
  identity : Option.Rel K.Identity r.identity r'.identity

/-- The same of two resolved servers. -/
structure ResolvedServer.Alike (K : Kinds) (r r' : ResolvedServer) : Prop where
  listenAddr : r.listenAddr = r'.listenAddr
  transport : r.transport = r'.transport
  switch : r.allowPublicServiceBinds = r'.allowPublicServiceBinds
  certificate : K.material r.certificatePem r'.certificatePem
  key : K.material r.privateKeyPem r'.privateKeyPem
  clientCa : Option.Rel K.material r.clientCa r'.clientCa

theorem World.Alike.resolveClient (h : w.Alike K w') (config : FileConfig) :
    Twin (ResolvedClient.Alike K) (Cli.resolveClient w config) (Cli.resolveClient w' config) := by
  unfold Cli.resolveClient
  -- up to the token nothing but the configuration is read
  refine .bind_same fun _ => .bind_same fun _ => .bind_same fun transport =>
    .bind_same fun serverAddr => .bind_same fun tlsServerName => .bind_same fun _ =>
    .bind_same fun _ => ?_
  refine (h.loadToken _).bind fun token token' _ => ?_
  refine (h.readMaterial _ _).bind fun caPem caPem' hca => ?_
  refine (h.loadProxy _).bind fun proxy proxy' hproxy => ?_
  refine (h.resolveIdentity _).bind fun identity identity' hidentity => ?_
  exact .bind_same fun services => .ok ⟨rfl, rfl, rfl, rfl, hca, hproxy, hidentity⟩

theorem World.Alike.resolveServer (h : w.Alike K w') (config : FileConfig) :
    Twin (ResolvedServer.Alike K) (Cli.resolveServer w config) (Cli.resolveServer w' config) := by
  have haddr : resolveListenAddr w config = resolveListenAddr w' config := by
    unfold resolveListenAddr
    rw [h.parseAddr]
  unfold Cli.resolveServer
  rw [haddr]
  refine .bind_same fun _ => .bind_same fun _ => .bind_same fun _ => .bind_same fun transport =>
    .bind_same fun listenAddr => ?_
  refine (h.loadToken _).bind fun token token' _ => ?_
  refine (h.readRequiredMaterial _ _).bind fun certificate certificate' hcertificate => ?_
  refine (h.readRequiredMaterial _ _).bind fun key key' hkey => ?_
  exact (h.readMaterial _ _).bind fun ca ca' hca => .ok ⟨rfl, rfl, rfl, hcertificate, hkey, hca⟩

/-! ### The commands do not tell -/

theorem configured_eq {α : Type} {R : α → α → Prop} {x y : Option α} (h : Option.Rel R x y) :
    configured x = configured y := by
  cases h with
  | some => rfl
  | none => rfl

namespace ResolvedClient.Alike

variable {r r' : ResolvedClient}

theorem builder (h : r.Alike K r') : (clientBuilder r).Alike K (clientBuilder r') :=
  ⟨congrArg Endpoint.text h.serverAddr, h.tlsServerName, h.services, h.transport, rfl, h.caPem,
    h.identity, h.outboundProxy⟩

theorem debug (h : r.Alike K r') : r.debug = r'.debug := by
  unfold ResolvedClient.debug
  rw [h.serverAddr, h.tlsServerName, h.services, h.transport, configured_eq h.caPem,
    configured_eq h.outboundProxy, configured_eq h.identity]

theorem lines (h : r.Alike K r') (json : Bool) : clientLines json r = clientLines json r' := by
  unfold clientLines
  rw [h.services, h.transport]

end ResolvedClient.Alike

namespace ResolvedServer.Alike

variable {r r' : ResolvedServer}

theorem builder (h : r.Alike K r') : (serverBuilder r).Alike K (serverBuilder r') where
  listenAddr := h.listenAddr
  switch := h.switch
  bindPolicy := by
    show ({ BindPolicy.default with allowPublicAddresses := r.allowPublicServiceBinds } : BindPolicy)
      = { BindPolicy.default with allowPublicAddresses := r'.allowPublicServiceBinds }
    rw [h.switch]
  profile := h.transport
  runtimePolicy := rfl
  certificate := h.certificate
  key := h.key
  clientCa := h.clientCa

theorem debug (h : r.Alike K r') : r.debug = r'.debug := by
  unfold ResolvedServer.debug
  rw [h.listenAddr, h.transport, h.switch, configured_eq h.clientCa]

theorem lines (h : r.Alike K r') (json : Bool) {i i' : ServerIngress}
    (hi : localAddr i = localAddr i') : serverLines json r i = serverLines json r' i' := by
  unfold serverLines
  rw [h.transport, hi]

end ResolvedServer.Alike

theorem World.Alike.checkConfig (h : w.Alike K w') (config : FileConfig) :
    Cli.checkConfig w config = Cli.checkConfig w' config := by
  unfold Cli.checkConfig
  rw [h.ioText]
  split_ifs
  · refine ((h.resolveClient config).bind fun r r' hr => ?_).eq
    rw [hr.builder.validate h.platform, hr.transport]
    exact .refl _
  · refine ((h.resolveServer config).bind fun r r' hr => ?_).eq
    rw [hr.builder.validate, hr.transport]
    exact .refl _
  · rfl

theorem World.Alike.runCheck (h : w.Alike K w') (path : Path) (json : Bool) :
    Cli.runCheck w path json = Cli.runCheck w' path json := by
  unfold Cli.runCheck
  simp only [h.readConfig, h.checkConfig]

theorem World.Alike.launchClient (h : w.Alike K w') (path : Path) (o : ClientOverrides)
    (json : Bool) (every : Option Nat) :
    Twin (fun a b => a.1 = b.1) (Cli.launchClient w path o json every)
      (Cli.launchClient w' path o json every) := by
  unfold Cli.launchClient
  rw [h.readConfig, h.ioText]
  refine .bind_same fun _ => .bind_same fun _ => .bind_same fun merged => ?_
  refine (h.resolveClient merged).bind fun r r' hr => ?_
  exact ((hr.builder.start h.platform).mapError _).bind fun _ _ _ => .ok (hr.lines json)

theorem World.Alike.launchServer (h : w.Alike K w') (path : Path) (o : ServerOverrides)
    (json : Bool) (every : Option Nat) :
    Twin (fun a b => a.1 = b.1) (Cli.launchServer w path o json every)
      (Cli.launchServer w' path o json every) := by
  unfold Cli.launchServer
  rw [h.readConfig, h.ioText]
  refine .bind_same fun _ => .bind_same fun config => ?_
  refine (h.resolveServer _).bind fun r r' hr => ?_
  exact ((hr.builder.bind h.platform).mapError _).bind fun i i' hi => .ok (hr.lines json hi)

/-- **Secrets stay secret.**  In worlds that differ only in the values of variables and the
contents of material files, of a kind that the rules and the libraries do not tell apart,
`check` prints the same and ends the same, the launches print the same or fail with the
same error, and `Debug` of the snapshots shows the same. -/
theorem secrets_stay_secret (K : Kinds) (w w' : World) (h : w.Alike K w') (path : Path)
    (json : Bool) (config : FileConfig) (o : ClientOverrides) (o' : ServerOverrides)
    (every : Option Nat) :
    Cli.runCheck w path json = Cli.runCheck w' path json ∧
      (Cli.launchClient w path o json every).map (·.1)
        = (Cli.launchClient w' path o json every).map (·.1) ∧
      (Cli.launchServer w path o' json every).map (·.1)
        = (Cli.launchServer w' path o' json every).map (·.1) ∧
      (Cli.resolveClient w config).map ResolvedClient.debug
        = (Cli.resolveClient w' config).map ResolvedClient.debug ∧
      (Cli.resolveServer w config).map ResolvedServer.debug
        = (Cli.resolveServer w' config).map ResolvedServer.debug :=
  ⟨h.runCheck path json, (h.launchClient path o json every).map_eq fun _ _ he => he,
    (h.launchServer path o' json every).map_eq fun _ _ he => he,
    (h.resolveClient config).map_eq fun _ _ hr => hr.debug,
    (h.resolveServer config).map_eq fun _ _ hr => hr.debug⟩

/-- Two letters, and two files of one byte. -/
def letter (v : String) : Prop := v = "t" ∨ v = "u"

/-- One of two files of one byte. -/
def oneByte (m : Bytes) : Prop := m = [1] ∨ m = [2]

theorem letter_rules {v : String} (h : letter v) :
    (SecretToken.new (Codec.utf8 v)).isOk = true ∧ v.toList.all isWhitespace = false := by
  rcases h with rfl | rfl
  · decide +kernel
  · decide +kernel

theorem oneByte_rules {m : Bytes} (h : oneByte m) :
    m.isEmpty = false ∧ ¬ maxMaterialBytes < m.length := by
  rcases h with rfl | rfl
  · decide
  · decide

/-- The kinds of those values. -/
def smallKinds : Kinds where
  value v v' := letter v ∧ letter v'
  material m m' := oneByte m ∧ oneByte m'
  token h := (letter_rules h.1).1.trans (letter_rules h.2).1.symm
  blank h := (letter_rules h.1).2.trans (letter_rules h.2).2.symm
  empty h := (oneByte_rules h.1).1.trans (oneByte_rules h.2).1.symm
  long h := iff_of_false (oneByte_rules h.1).2 (oneByte_rules h.2).2

/-- The same files, with other secrets. -/
def otherWorld : World :=
  { smallWorld with var := fun _ => some "u", file := fun _ => ⟨some (false, 1), some [2]⟩ }

theorem secrets_stay_secret_once :
    smallWorld.var "TOKEN" ≠ otherWorld.var "TOKEN" ∧
      (launchClient smallWorld "client" .default true none).map (·.1)
        = (launchClient otherWorld "client" .default true none).map (·.1) := by
  refine ⟨by decide, (secrets_stay_secret smallKinds smallWorld otherWorld ?_ "client" true clientFile
    .default .default none).2.1⟩
  exact {
    platform := ⟨rfl, fun _ => rfl, fun _ => rfl, fun _ _ => rfl, fun _ _ => rfl,
      fun _ _ _ => rfl, rfl, fun _ _ _ _ => rfl⟩
    readToString := rfl
    fromToml := rfl
    parseAddr := rfl
    ioText := rfl
    var := fun _ => .some ⟨.inl rfl, .inr rfl⟩
    metadata := fun _ => rfl
    contents := fun _ => .some ⟨.inl rfl, .inr rfl⟩ }

end Cli

end Eggtunnel
