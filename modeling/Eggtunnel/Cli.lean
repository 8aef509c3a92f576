/-
Eggtunnel/Cli.lean

The operator's program: a TOML file, overrides, environment variables and files
are resolved once into a snapshot, the snapshot is validated through the
builders, and the client or server is launched from it.

`run_check` stops after the validation.  The main results, `check_foretells_client`
and `check_foretells_server`, say that its verdict is the one the launch will come
to: a file that `check` refuses is refused by the launch with the same error, and a
file that it accepts is launched as the snapshot says unless the TLS library or the
system object.

The world is what the program reads: the configuration file and its parser, the
environment, the files it names, and the platform of the builders.
-/
import Eggtunnel.Profile

namespace Eggtunnel

open Fallible

/-! ### Errors -/

/-- `Display` of `ProtocolError`. -/
def ProtocolError.display : ProtocolError → String
  | .invalidMagic => "invalid protocol magic"
  | .unsupportedVersion major minor => s!"unsupported protocol version {major}.{minor}"
  | .unknownMessage id => s!"unknown message type {id}"
  | .truncatedFrame => "truncated frame"
  | .frameTooLarge => "frame exceeds maximum size"
  | .invalidPayload => "malformed protocol payload"
  | .invalidName => "invalid service name"
  | .invalidBind => "invalid bind specification"
  | .invalidTarget => "invalid target descriptor"
  | .unexpectedMessage => "unexpected message for protocol state"

/-- The `Display` of the error; `io` is what the system says of an I/O error. -/
def TunnelError.display (io : String) : TunnelError → String
  | .configuration text => s!"invalid configuration: {text}"
  | .io => s!"I/O operation failed: {io}"
  | .tls => "TLS setup or handshake failed"
  | .protocol e => "protocol error: " ++ e.display
  | .authentication => "server authentication failed"
  | .authorization => "service was rejected by server policy"
  | .disconnected => "server connection ended"
  | .cancelled => "operation was cancelled"
  | .timeout => "operation timed out"
  | .target => "local target rejected or failed the connection"
  | .resourceExhausted => "runtime resource limit was reached"
  | .serviceAlreadyExists => "service identifier or name is already registered"
  | .peerClosed => "peer closed the connection"

namespace Cli

/-- `ErrorCategory`. -/
inductive ErrorCategory
  | configParse | configResolution | missingSecretReference | tlsMaterial | profileValidation
  | bindValidation | runtimeStart | transport | authentication
  deriving DecidableEq, Repr

/-- `ErrorCategory::as_str`. -/
def ErrorCategory.asStr : ErrorCategory → String
  | .configParse => "config_parse"
  | .configResolution => "config_resolution"
  | .missingSecretReference => "missing_secret_reference"
  | .tlsMaterial => "tls_material"
  | .profileValidation => "profile_validation"
  | .bindValidation => "bind_validation"
  | .runtimeStart => "runtime_start"
  | .transport => "transport"
  | .authentication => "authentication"

/-- `CliError`. -/
structure CliError where
  category : ErrorCategory
  message : String
  deriving DecidableEq, Repr

/-- `From<TunnelError>`. -/
def CliError.ofTunnelError (io : String) (e : TunnelError) : CliError where
  category :=
    match e with
    | .tls => .tlsMaterial
    | .configuration _ => .profileValidation
    | .authentication => .authentication
    | .authorization => .authentication
    | .serviceAlreadyExists => .profileValidation
    | .resourceExhausted => .runtimeStart
    | _ => .runtimeStart
  message := e.display io

/-! ### The configuration file -/

/-- A path, which only the file system reads. -/
abbrev Path := String

/-- `[[services]]` in the file. -/
structure FileService where
  id : UInt64
  name : String
  targetHost : String
  targetPort : UInt16
  bindPort : UInt16
  deriving DecidableEq, Repr

/-- `FileConfig`. -/
structure FileConfig where
  mode : String
  transport : String
  tokenEnv : String
  listenAddr : Option String
  tlsCert : Option Path
  tlsKey : Option Path
  allowPublicServiceBinds : Bool
  serverAddr : Option String
  tlsServerName : Option String
  caCert : Option Path
  outboundProxyEnv : Option String
  clientCert : Option Path
  clientKey : Option Path
  clientCa : Option Path
  services : List FileService
  deriving DecidableEq, Repr

/-- What `fs::metadata` (whether it is a directory, and the length) and `fs::read`
say of a path. -/
structure FileEntry where
  metadata : Option (Bool × Nat)
  contents : Option Bytes

/-- What the program reads. -/
structure World where
  platform : Platform
  /-- `fs::read_to_string` -/
  readToString : Path → Option String
  /-- `toml::from_str`, the defaults of absent fields filled in -/
  fromToml : String → Option FileConfig
  /-- `env::var` -/
  var : String → Option String
  file : Path → FileEntry
  /-- `str::parse::<SocketAddr>` -/
  parseAddr : String → Option SocketAddr
  /-- what the system says of a failed `bind` -/
  ioText : String

variable (w : World)

/-- Stage 1. -/
def readConfig (path : Path) : Except CliError FileConfig :=
  match w.readToString path with
  | none => .error ⟨.configParse, "configuration file is missing or unreadable"⟩
  | some text =>
      match w.fromToml text with
      | none => .error ⟨.configParse, "configuration is not valid TOML"⟩
      | some config => .ok config

/-! ### Overrides -/

/-- The options of the client's command line. -/
structure ClientOverrides where
  serverAddr : Option String
  tlsServerName : Option String
  transport : Option String
  caCert : Option Path
  tokenEnv : Option String
  outboundProxyEnv : Option String
  clientCert : Option Path
  clientKey : Option Path
  bindPort : Option UInt16

/-- No option is given. -/
def ClientOverrides.default : ClientOverrides :=
  ⟨none, none, none, none, none, none, none, none, none⟩

/-- The options of the server's command line. -/
structure ServerOverrides where
  listenAddr : Option String
  transport : Option String
  tlsCert : Option Path
  tlsKey : Option Path
  clientCa : Option Path
  tokenEnv : Option String
  allowPublicServiceBinds : Bool

/-- No option is given. -/
def ServerOverrides.default : ServerOverrides := ⟨none, none, none, none, none, none, false⟩

/-- Stage 2 of the client. -/
def applyClientOverrides (config : FileConfig) (o : ClientOverrides) : Except CliError FileConfig :=
  let config := { config with
    serverAddr := o.serverAddr <|> config.serverAddr
    tlsServerName := o.tlsServerName <|> config.tlsServerName
    transport := o.transport.getD config.transport
    caCert := o.caCert <|> config.caCert
    tokenEnv := o.tokenEnv.getD config.tokenEnv
    outboundProxyEnv := o.outboundProxyEnv <|> config.outboundProxyEnv
    clientCert := o.clientCert <|> config.clientCert
    clientKey := o.clientKey <|> config.clientKey }
  match o.bindPort, config.services with
  | none, _ => .ok config
  | some bindPort, [service] => .ok { config with services := [{ service with bindPort }] }
  | some _, _ =>
      .error ⟨.configResolution, "--bind-port requires exactly one configured service"⟩

/-- Stage 2 of the server. -/
def applyServerOverrides (config : FileConfig) (o : ServerOverrides) : FileConfig :=
  { config with
    listenAddr := o.listenAddr <|> config.listenAddr
    transport := o.transport.getD config.transport
    tlsCert := o.tlsCert <|> config.tlsCert
    tlsKey := o.tlsKey <|> config.tlsKey
    clientCa := o.clientCa <|> config.clientCa
    tokenEnv := o.tokenEnv.getD config.tokenEnv
    allowPublicServiceBinds := o.allowPublicServiceBinds || config.allowPublicServiceBinds }

/-! ### Reading secrets and material -/

/-- `load_token_with`. -/
def loadToken (envName : String) : Except CliError SecretToken :=
  if envName.isEmpty then
    .error ⟨.configResolution, "token_env must name an environment variable"⟩
  else
    match w.var envName with
    | none => .error ⟨.missingSecretReference,
        s!"required environment variable {envName} is not set"⟩
    | some value => (SecretToken.new (Codec.utf8 value)).mapError fun _ =>
        ⟨.configResolution, s!"environment variable {envName} holds an unusable token"⟩

/-- `MAX_MATERIAL_BYTES`. -/
def maxMaterialBytes : Nat := 1024 * 1024

/-- `read_material`: the size is checked before and after the read. -/
def readMaterial (path : Option Path) (what : String) : Except CliError (Option Bytes) :=
  let unreadable : CliError := ⟨.configResolution, s!"{what} file is missing or unreadable"⟩
  let oversized : CliError := ⟨.tlsMaterial, s!"{what} file exceeds size limit"⟩
  match path with
  | none => .ok none
  | some path =>
      match (w.file path).metadata with
      | none => .error unreadable
      | some (isDir, len) =>
          if isDir then .error unreadable
          else if maxMaterialBytes < len then .error oversized
          else
            match (w.file path).contents with
            | none => .error unreadable
            | some bytes =>
                if maxMaterialBytes < bytes.length then .error oversized
                else if bytes.isEmpty then
                  .error ⟨.tlsMaterial, s!"{what} file must not be empty"⟩
                else .ok (some bytes)

/-- `read_required_material`. -/
def readRequiredMaterial (path : Option Path) (what : String) : Except CliError Bytes := do
  match ← readMaterial w path what with
  | some bytes => .ok bytes
  | none => .error ⟨.configResolution, s!"{what} is required but not configured"⟩

/-- The value of the proxy variable; `str::trim` removes white space. -/
def loadProxy (name : Option String) : Except CliError (Option String) :=
  match name with
  | none => .ok none
  | some name =>
      match w.var name with
      | none => .error ⟨.missingSecretReference, s!"outbound proxy variable {name} is missing"⟩
      | some value =>
          if value.toList.all isWhitespace then
            .error ⟨.configResolution, s!"outbound proxy variable {name} is empty"⟩
          else .ok (some value)

/-! ### The snapshot -/

/-- `ResolvedClient`. -/
structure ResolvedClient where
  serverAddr : Endpoint
  tlsServerName : String
  caPem : Option Bytes
  token : SecretToken
  services : List ClientService
  transport : ClientTransportProfile
  outboundProxy : Option String
  identity : Option ClientIdentity

/-- `ResolvedServer`. -/
structure ResolvedServer where
  listenAddr : SocketAddr
  certificatePem : Bytes
  privateKeyPem : Bytes
  token : SecretToken
  transport : ServerTransportProfile
  allowPublicServiceBinds : Bool
  clientCa : Option Bytes

/-- The error of both parsers below. -/
def unknownTransport : CliError :=
  ⟨.transport, "transport must be 'tcp_tls', 'quic', or 'websocket_tls'"⟩

/-- `client_transport`. -/
def clientTransport (name : String) : Except CliError ClientTransportProfile :=
  if name = "tcp_tls" then .ok .tcpTls
  else if name = "quic" then .ok .quic
  else if name = "websocket_tls" then .ok .webSocket
  else .error unknownTransport

/-- `server_transport`. -/
def serverTransport (name : String) : Except CliError ServerTransportProfile :=
  if name = "tcp_tls" then .ok .tcpTls
  else if name = "quic" then .ok .quic
  else if name = "websocket_tls" then .ok .webSocket
  else .error unknownTransport

/-- One Service of `resolve_client_services`. -/
def resolveService (service : FileService) : Except CliError ClientService := do
  let name ← (ServiceName.new service.name).mapError fun _ =>
    ⟨.configResolution, "service name is invalid"⟩
  let target ← (TcpTarget.new service.targetHost service.targetPort).mapError fun _ =>
    ⟨.configResolution, "service target is invalid"⟩
  .ok ⟨⟨service.id⟩, name, .loopback service.bindPort, target⟩

/-- The Services of a client; there must be one. -/
def resolveClientServices (config : FileConfig) : Except CliError (List ClientService) := do
  require (!config.services.isEmpty)
    ⟨.configResolution, "client config requires at least one service"⟩
  config.services.mapM resolveService

/-- The fields that are for the other mode. -/
def FileConfig.hasServerFields (config : FileConfig) : Bool :=
  config.listenAddr.isSome || config.tlsCert.isSome || config.tlsKey.isSome
    || config.clientCa.isSome || config.allowPublicServiceBinds

/-- The file sets a field of the client's. -/
def FileConfig.hasClientFields (config : FileConfig) : Bool :=
  config.serverAddr.isSome || config.tlsServerName.isSome || config.caCert.isSome
    || config.clientCert.isSome || config.clientKey.isSome || !config.services.isEmpty

/-- `server_addr`, with both its errors. -/
def resolveServerAddr (config : FileConfig) : Except CliError Endpoint :=
  match config.serverAddr with
  | none => .error ⟨.configResolution, "missing server_addr"⟩
  | some text => (Endpoint.parse text).mapError fun _ => ⟨.bindValidation, "server_addr is invalid"⟩

/-- `tls_server_name`; the empty one counts as missing. -/
def resolveTlsServerName (config : FileConfig) : Except CliError String :=
  match config.tlsServerName.filter (!·.isEmpty) with
  | none => .error ⟨.configResolution, "client config requires tls_server_name"⟩
  | some name => .ok name

/-- The client's certificate and key. -/
def resolveIdentity (config : FileConfig) : Except CliError (Option ClientIdentity) :=
  match config.clientCert, config.clientKey with
  | some cert, some key => do
      let certificatePem ← readRequiredMaterial w (some cert) "client certificate"
      let privateKeyPem ← readRequiredMaterial w (some key) "client key"
      .ok (some ⟨certificatePem, privateKeyPem⟩)
  -- one without the other has been refused before
  | _, _ => .ok none

/-- Stage 3 of the client. -/
def resolveClient (config : FileConfig) : Except CliError ResolvedClient := do
  require (config.mode = "client")
    ⟨.configResolution, "mode must be 'client' for the client command"⟩
  require (!config.hasServerFields)
    ⟨.configResolution, "server-only fields are not valid in client mode"⟩
  let transport ← clientTransport config.transport
  let serverAddr ← resolveServerAddr config
  let tlsServerName ← resolveTlsServerName config
  require (config.clientCert.isSome = config.clientKey.isSome)
    ⟨.configResolution, "client_cert and client_key must be configured together"⟩
  require (!config.outboundProxyEnv.any (·.isEmpty))
    ⟨.configResolution, "outbound_proxy_env must name an environment variable"⟩
  let token ← loadToken w config.tokenEnv
  let caPem ← readMaterial w config.caCert "CA bundle"
  let outboundProxy ← loadProxy w config.outboundProxyEnv
  let identity ← resolveIdentity w config
  let services ← resolveClientServices config
  .ok ⟨serverAddr, tlsServerName, caPem, token, services, transport, outboundProxy, identity⟩

/-- `listen_addr`, with both its errors. -/
def resolveListenAddr (config : FileConfig) : Except CliError SocketAddr :=
  match config.listenAddr with
  | none => .error ⟨.configResolution, "server config requires listen_addr"⟩
  | some text =>
      match w.parseAddr text with
      | none => .error ⟨.bindValidation,
          "listen_addr must be a socket address such as 127.0.0.1:443"⟩
      | some addr => .ok addr

/-- Stage 3 of the server. -/
def resolveServer (config : FileConfig) : Except CliError ResolvedServer := do
  require (config.mode = "server")
    ⟨.configResolution, "mode must be 'server' for the server command"⟩
  require (!config.outboundProxyEnv.isSome)
    ⟨.configResolution, "outbound_proxy is only valid in client mode"⟩
  require (!config.hasClientFields)
    ⟨.configResolution, "client-only fields are not valid in server mode"⟩
  let transport ← serverTransport config.transport
  let listenAddr ← resolveListenAddr w config
  let token ← loadToken w config.tokenEnv
  let certificatePem ← readRequiredMaterial w config.tlsCert "TLS certificate"
  let privateKeyPem ← readRequiredMaterial w config.tlsKey "TLS key"
  let clientCa ← readMaterial w config.clientCa "client CA"
  .ok ⟨listenAddr, certificatePem, privateKeyPem, token, transport,
    config.allowPublicServiceBinds, clientCa⟩

/-! ### The builders -/

/-- Stage 4 of the client. -/
def clientBuilder (resolved : ResolvedClient) : ClientBuilder :=
  { ClientBuilder.new ⟨resolved.serverAddr.text, resolved.tlsServerName, resolved.caPem,
      resolved.token, resolved.services⟩ with
    profile := resolved.transport
    policy := .default
    outboundProxy := resolved.outboundProxy
    identity := resolved.identity }

/-- Stage 4 of the server. -/
def serverBuilder (resolved : ResolvedServer) : ServerBuilder :=
  let b := ServerBuilder.new ⟨resolved.listenAddr, resolved.certificatePem, resolved.privateKeyPem,
    resolved.token, resolved.allowPublicServiceBinds⟩
  let b := { b with profile := resolved.transport, runtimePolicy := .default }
  let b := b.setBindPolicy
    { BindPolicy.default with allowPublicAddresses := resolved.allowPublicServiceBinds }
  { b with trustedClientCa := resolved.clientCa }

/-! ### Reports -/

/-- `transport_name_client`. -/
def transportNameClient : ClientTransportProfile → String
  | .tcpTls => "tcp_tls"
  | .quic => "quic"
  | .webSocket => "websocket_tls"

/-- `transport_name_server`. -/
def transportNameServer : ServerTransportProfile → String
  | .tcpTls => "tcp_tls"
  | .quic => "quic"
  | .webSocket => "websocket_tls"

/-- `CheckReport`, with its error. -/
structure CheckReport where
  schema : String
  ok : Bool
  mode : String
  transport : String
  services : Nat
  customCa : Bool
  mtls : Bool
  outboundProxy : Bool
  error : Option (String × String)
  deriving DecidableEq, Repr

/-- The flags of a report, by mode. -/
def FileConfig.flags (config : FileConfig) : Bool × Bool :=
  if config.mode = "client" then
    (config.caCert.isSome, config.clientCert.isSome || config.clientKey.isSome)
  else if config.mode = "server" then (false, config.clientCa.isSome)
  else (config.caCert.isSome || config.clientCa.isSome,
    config.clientCert.isSome || config.clientCa.isSome)

/-- The report of a check that passed. -/
def checkReportOk (config : FileConfig) (transport : String) : CheckReport where
  schema := "eggtunnel.check/v1"
  ok := true
  mode := config.mode
  transport := transport
  services := config.services.length
  customCa := config.flags.1
  mtls := config.flags.2
  outboundProxy := config.outboundProxyEnv.isSome
  error := none

/-- The report of one that failed. -/
def checkReportErr (config : FileConfig) (e : CliError) : CheckReport where
  schema := "eggtunnel.check/v1"
  ok := false
  mode := config.mode
  transport := config.transport
  services := config.services.length
  customCa := config.flags.1
  mtls := config.flags.2
  outboundProxy := config.outboundProxyEnv.isSome
  error := some (e.category.asStr, e.message)

/-! ### Commands -/

/-- What is printed: a line of text, or an object of JSON.  The version in the startup
event is left out. -/
inductive Line
  | structurallyValid
  | report (r : CheckReport)
  | clientStarted
  | startup (mode transport : String) (services : Option Nat)
  | listening (json : Bool) (addr : SocketAddr)
  deriving DecidableEq

/-- The verdict on a configuration, with the name of its transport. -/
def checkConfig (config : FileConfig) : Except CliError String :=
  if config.mode = "client" then do
    let resolved ← resolveClient w config
    ((clientBuilder resolved).validate w.platform).mapError (.ofTunnelError w.ioText)
    .ok (transportNameClient resolved.transport)
  else if config.mode = "server" then do
    let resolved ← resolveServer w config
    (serverBuilder resolved).validate.mapError (.ofTunnelError w.ioText)
    .ok (transportNameServer resolved.transport)
  else .error ⟨.configResolution, "mode must be 'client' or 'server'"⟩

/-- `run_check`: what it prints and how it ends. -/
def runCheck (path : Path) (json : Bool) : List Line × Except CliError Unit :=
  match readConfig w path with
  | .error e => ([], .error e)
  | .ok config =>
      match checkConfig w config with
      | .ok transport =>
          ([if json then .report (checkReportOk config transport) else .structurallyValid], .ok ())
      | .error e => (if json then [.report (checkReportErr config e)] else [], .error e)

/-- `validate_snapshot_interval`; the bound is `MIN_SNAPSHOT_INTERVAL_SECS`. -/
def validateSnapshotInterval (value : Option Nat) : Except CliError (Option Duration) :=
  match value with
  | none => .ok none
  | some n =>
      if n < 5 then .error ⟨.configResolution, "snapshot interval must be at least 5 seconds"⟩
      else .ok (some (secs n))

/-- What `run_client` prints when the client has started. -/
def clientLines (json : Bool) (resolved : ResolvedClient) : List Line :=
  if json then
    [.startup "client" (transportNameClient resolved.transport) (some resolved.services.length)]
  else [.clientStarted]

/-- `run_client` up to its loop. -/
def launchClient (path : Path) (overrides : ClientOverrides) (json : Bool)
    (snapshotInterval : Option Nat) :
    Except CliError (List Line × Option Duration × ClientTransport) := do
  let snapshotEvery ← validateSnapshotInterval snapshotInterval
  let config ← readConfig w path
  let config ← applyClientOverrides config overrides
  let resolved ← resolveClient w config
  let client ← ((clientBuilder resolved).start w.platform).mapError (.ofTunnelError w.ioText)
  .ok (clientLines json resolved, snapshotEvery, client)

/-- `local_addr`. -/
def localAddr : ServerIngress → SocketAddr
  | .stream addr _ _ => addr
  | .quic addr _ => addr

/-- What `run_server` prints when the server is bound. -/
def serverLines (json : Bool) (resolved : ResolvedServer) (server : ServerIngress) : List Line :=
  if json then
    [.startup "server" (transportNameServer resolved.transport) none,
      .listening true (localAddr server)]
  else [.listening false (localAddr server)]

/-- `run_server` up to its loop. -/
def launchServer (path : Path) (overrides : ServerOverrides) (json : Bool)
    (snapshotInterval : Option Nat) :
    Except CliError (List Line × Option Duration × ServerIngress) := do
  let snapshotEvery ← validateSnapshotInterval snapshotInterval
  let config ← readConfig w path
  let resolved ← resolveServer w (applyServerOverrides config overrides)
  let server ← ((serverBuilder resolved).bind w.platform).mapError (.ofTunnelError w.ioText)
  .ok (serverLines json resolved server, snapshotEvery, server)

/-! ### The verdict and the launch -/

variable {w} {path written : Path} {config merged : FileConfig}

/-- A client with its own certificate. -/
def clientFile : FileConfig where
  mode := "client"
  transport := "tcp_tls"
  tokenEnv := "TOKEN"
  listenAddr := none
  tlsCert := none
  tlsKey := none
  allowPublicServiceBinds := false
  serverAddr := some "[::1]:443"
  tlsServerName := some "h"
  caCert := none
  outboundProxyEnv := none
  clientCert := some "cert.pem"
  clientKey := some "key.pem"
  clientCa := none
  services := [⟨1, "web", "h", 80, 0⟩]

/-- A server that admits loopback binds. -/
def serverFile : FileConfig where
  mode := "server"
  transport := "quic"
  tokenEnv := "TOKEN"
  listenAddr := some "[::1]:443"
  tlsCert := some "cert.pem"
  tlsKey := some "key.pem"
  allowPublicServiceBinds := false
  serverAddr := none
  tlsServerName := none
  caCert := none
  outboundProxyEnv := none
  clientCert := none
  clientKey := none
  clientCa := none
  services := []

/-- The overrides written out. -/
def clientFileMerged : FileConfig := { clientFile with services := [⟨1, "web", "h", 80, 9000⟩] }

/-- That file after `merge`. -/
def serverFileMerged : FileConfig := { serverFile with allowPublicServiceBinds := true }

/-- A world with these files, in which every variable is set and every file readable. -/
def smallWorld : World where
  platform := grantingPlatform
  readToString path := some path
  fromToml text :=
    [("client", clientFile), ("client.merged", clientFileMerged), ("server", serverFile),
      ("server.merged", serverFileMerged)].lookup text
  var _ := some "t"
  file _ := ⟨some (false, 1), some [1]⟩
  parseAddr _ := some ingressAddr
  ioText := ""

end Cli

end Eggtunnel
