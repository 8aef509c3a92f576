/-
Eggtunnel/Negotiation.lean

What the two ends of a Session make of each other's capability lists.

The server intersects what it supports with what the hello offers, and the
client intersects what it offered with what came back.  Both sets are normal
lists, so they are equal once they have the same members
(`Capabilities.eq_of_mem`), and each end then decides by its own set: the
server which frame refuses a registration, the client in which mode it
registers, and either of them whether a drain deadline counts.
-/
import Eggtunnel.Frame
import Eggtunnel.Attribution

namespace Eggtunnel

/-! ### Intersections -/

namespace Capabilities

theorem eq_of_mem {c d : Capabilities} (h : ∀ id, id ∈ c.ids ↔ id ∈ d.ids) : c = d := by
  obtain ⟨ids, hbounded, hsorted⟩ := c
  obtain ⟨ids', hbounded', hsorted'⟩ := d
  obtain rfl : ids = ids' := hsorted.eq_of_mem_iff hsorted' h
  rfl

theorem mem_intersect {c d : Capabilities} {id : UInt16} :
    id ∈ (c.intersect d).ids ↔ id ∈ c.ids ∧ id ∈ d.ids := by
  simp [intersect, mem_sortDedup, List.mem_filter]

/-- What was offered, of what is supported and offered. -/
theorem intersect_intersect (offered d : Capabilities) :
    offered.intersect (d.intersect offered) = d.intersect offered := by
  refine eq_of_mem fun id => ?_
  rw [mem_intersect, mem_intersect]
  exact ⟨fun ⟨_, h⟩ => h, fun h => ⟨h.2, h⟩⟩

theorem has_iff {c : Capabilities} {id : UInt16} : c.has id = true ↔ id ∈ c.ids :=
  List.contains_iff_mem

end Capabilities

/-! ### The two ends -/

/-- The `ServerHello` that answers a `ClientHello`. -/
def serverHello (hello : ClientHello) : ServerHello where
  version := .current
  capabilities := Capabilities.supported.intersect hello.capabilities

/-- `negotiate_capabilities`. -/
def negotiateCapabilities (offered received : Capabilities) : Capabilities :=
  offered.intersect received

/-- What the client takes from the frame behind its `ClientHello`. -/
def Client.negotiate (offered : Capabilities) : Message → Except TunnelError Capabilities
  | .serverHello hello =>
      if hello.version.major = ProtocolVersion.current.major then
        .ok (negotiateCapabilities offered hello.capabilities)
      else .error (.protocol .unexpectedMessage)
  | _ => .error (.protocol .unexpectedMessage)

/-- How long the client waits for its Open tasks behind the loop. -/
def Client.drainWait (timeouts : TimeoutPolicy) (negotiated : Capabilities)
    (peerDeadline : Option UInt32) : Duration :=
  match negotiated.has capabilityDrainDeadline, peerDeadline with
  | true, some ms => min (millis ms.toNat) timeouts.shutdownGrace
  | _, _ => timeouts.shutdownGrace

/-- How long the server lets its tasks run behind the loop. -/
def Server.drainWait (timeouts : TimeoutPolicy) (negotiated : Capabilities)
    (peerDeadline : Option UInt32) : Duration :=
  match negotiated.has capabilityDrainDeadline, peerDeadline with
  | true, some ms => min (millis ms.toNat) timeouts.shutdownGrace
  | _, _ => 0

/-- With one set, both ends count a deadline or neither does. -/
theorem drainWait_agree (set : Capabilities) (client server : TimeoutPolicy) (ms : UInt32) :
    (Client.drainWait client set (some ms) = min (millis ms.toNat) client.shutdownGrace ∧
      Server.drainWait server set (some ms) = min (millis ms.toNat) server.shutdownGrace) ∨
    (Client.drainWait client set (some ms) = Client.drainWait client set none ∧
      Server.drainWait server set (some ms) = Server.drainWait server set none) := by
  unfold Client.drainWait Server.drainWait
  cases set.has capabilityDrainDeadline with
  | true => exact .inl ⟨rfl, rfl⟩
  | false => exact .inr ⟨rfl, rfl⟩

/-- A client enables nothing that it did not offer. -/
theorem offered_of_negotiate {offered set : Capabilities} {m : Message}
    (h : Client.negotiate offered m = .ok set) {id : UInt16} (hid : set.has id = true) :
    offered.has id = true := by
  unfold Client.negotiate at h
  split at h
  · split_ifs at h
    cases h
    rw [Capabilities.has_iff] at hid ⊢
    exact (Capabilities.mem_intersect.mp hid).1
  · cases h

/-! ### Through the wire -/

/-- The payload of a `ClientHello` with the list as it is, in any order and with
duplicates. -/
def helloPayload (version : ProtocolVersion) (ids : List UInt16) : Bytes :=
  Codec.version.enc version ++ Codec.u16.vec.enc ids

/-- The frame with that payload. -/
def rawClientHello (version : ProtocolVersion) (ids : List UInt16) : Bytes :=
  frameHeader .clientHello (helloPayload version ids).length ++ helloPayload version ids

theorem dec_capabilities {ids : List UInt16} (hids : ids.length ≤ 32) {offered : Capabilities}
    (h : Capabilities.new ids = .ok offered) (rest : Bytes) :
    Codec.capabilities.dec (Codec.u16.vec.enc ids ++ rest) = some (offered, rest) := by
  have hfits : Codec.u16.vec.fits ids := ⟨by omega, fun _ _ => trivial⟩
  show (Codec.u16.vec.dec (Codec.u16.vec.enc ids ++ rest)).bind _ = _
  rw [Codec.u16.vec.dec_enc rest hfits]
  simp only [Option.bind_some, h]

theorem decodePayload_hello {version : ProtocolVersion} {ids : List UInt16}
    (hids : ids.length ≤ 32) {offered : Capabilities} (h : Capabilities.new ids = .ok offered) :
    decodePayload .clientHello (helloPayload version ids)
      = some (.clientHello ⟨version, offered⟩) := by
  have hversion := Codec.version.dec_enc (a := version) (Codec.u16.vec.enc ids) ⟨trivial, trivial⟩
  have hlist := dec_capabilities hids h []
  rw [List.append_nil] at hlist
  have hdec : Codec.clientHello.dec (helloPayload version ids)
      = some (⟨version, offered⟩, []) := by
    show ((Codec.version.dec (helloPayload version ids)).bind fun s =>
      (Codec.capabilities.dec s.2).map fun t => ((s.1, t.1), t.2)).bind _ = _
    rw [helloPayload, hversion]
    simp only [Option.bind_some, hlist, Option.map_some]
  simp only [decodePayload, Codec.whole, hdec, Option.map_some]

theorem decodeFrame_rawClientHello {version : ProtocolVersion} {ids : List UInt16}
    (hids : ids.length ≤ 32) {offered : Capabilities} (h : Capabilities.new ids = .ok offered) :
    decodeFrame (rawClientHello version ids)
      = .ok (.clientHello ⟨version, offered⟩, (rawClientHello version ids).length) := by
  have hversion : (Codec.version.enc version).length ≤ 6 := by
    show (Codec.u16.enc version.major ++ Codec.u16.enc version.minor).length ≤ 6
    have hmajor := Codec.length_u16 version.major
    have hminor := Codec.length_u16 version.minor
    rw [List.length_append]
    omega
  have hlist := Codec.length_vec Codec.length_u16 ids
  have hsize : (helloPayload version ids).length ≤ maxFrameBytes := by
    rw [helloPayload, List.length_append]
    unfold maxFrameBytes
    omega
  rw [rawClientHello, decodeFrame_header _ hsize, if_neg (Nat.lt_irrefl _), List.take_length,
    decodePayload_hello hids h, List.length_append, length_frameHeader]

/-- The client takes the server's own set from its hello. -/
theorem negotiate_serverHello (hello : ClientHello) :
    Client.negotiate hello.capabilities (.serverHello (serverHello hello))
      = .ok (serverHello hello).capabilities := by
  show Except.ok (hello.capabilities.intersect
    (Capabilities.supported.intersect hello.capabilities)) = _
  rw [Capabilities.intersect_intersect]
  rfl

/-! ### Over a Session -/

namespace Link

variable {s t : Link}

/-- A link whose ends have negotiated a set each: `mine` the client, `yours` the
server. -/
def opened (c : LinkConfig) (mine yours : Capabilities) : Link :=
  { init c with
    client := (Client.start c.clientPolicy c.sessionId (mine.has capabilityRegisterReject)
      (.new c.desired) c.clientCounters []).1
    server := { (init c).server with negotiated := yours } }

theorem opened_same (c : LinkConfig) (negotiated : Capabilities) :
    opened c negotiated negotiated = init { c with negotiated } := rfl

/-- The frame that refuses a registration is the one that the client's mode
expects. -/
def RefusalMode (s : Link) : Prop :=
  ∀ id code,
    ((∃ reject, Server.response s.server.negotiated id (.refused code) = .registerReject reject) ↔
      ∃ n, s.client.services.mode = .correlatedBounded n) ∧
    ((∃ error, Server.response s.server.negotiated id (.refused code) = .error error) ↔
      s.client.services.mode = .legacySerial)

theorem refusalMode_of_wired (hw : Wired s) (hopen : s.client.phase.isOpen = true) :
    RefusalMode s := by
  have hsound := hw.client hopen
  have hmode := hsound.consistent.modes
  rw [hsound.mode] at hmode
  intro id code
  unfold Server.response
  rcases hmode with ⟨hflag, hserial, -⟩ | ⟨hflag, -, n, hbounded⟩
  · rw [hflag, hserial]
    simp
  · rw [hflag, hbounded]
    simp

end Link

/-- **Negotiation agrees on both ends.**  From any list of at most 32 ids, as it
stands in the hello, the server negotiates the ids that it supports as well, in
order and once each, and the client that offered the list takes the same set
from the frame that comes back.  Hence, in every run of the Session that
follows, a refused registration is answered by the frame that the client's mode
expects, and both ends count a drain deadline or neither does.  Whatever frame
a server sends, the client enables nothing that it did not offer. -/
theorem capabilities_agree (ids : List UInt16) (hids : ids.length ≤ 32)
    (version : ProtocolVersion) :
    ∃ offered yours frame m mine,
      Capabilities.new ids = .ok offered ∧
      decodeFrame (rawClientHello version ids)
        = .ok (.clientHello ⟨version, offered⟩, (rawClientHello version ids).length) ∧
      serverHello ⟨version, offered⟩ = ⟨.current, yours⟩ ∧
      encodeFrame (.serverHello ⟨.current, yours⟩) = .ok frame ∧
      decodeFrame frame = .ok (m, frame.length) ∧
      Client.negotiate offered m = .ok mine ∧
      mine = yours ∧
      yours.ids.Pairwise (· < ·) ∧
      (∀ id, id ∈ yours.ids ↔ id ∈ Capabilities.supported.ids ∧ id ∈ ids) ∧
      (∀ c es s, exec Link.step (Link.opened c mine yours) es = some s →
        (s.client.phase.isOpen = true → s.RefusalMode) ∧
        ∀ v ∈ s.verdicts,
          ∃ d, v.2 = Server.response s.server.negotiated v.1.item.serviceId d) ∧
      (∀ (client server : TimeoutPolicy) (ms : UInt32),
        (Client.drainWait client mine (some ms) = min (millis ms.toNat) client.shutdownGrace ∧
          Server.drainWait server yours (some ms) = min (millis ms.toNat) server.shutdownGrace) ∨
        (Client.drainWait client mine (some ms) = Client.drainWait client mine none ∧
          Server.drainWait server yours (some ms) = Server.drainWait server yours none)) ∧
      ∀ frame m n set, decodeFrame frame = .ok (m, n) → Client.negotiate offered m = .ok set →
        ∀ id, set.has id = true → offered.has id = true ∧ id ∈ ids := by
  obtain ⟨offered, hoffered⟩ : ∃ offered, Capabilities.new ids = .ok offered := by
    rw [Capabilities.new, dif_pos hids]
    exact ⟨_, rfl⟩
  have hmem (id : UInt16) : id ∈ offered.ids ↔ id ∈ ids := by
    rw [Capabilities.ids_of_new hoffered, mem_sortDedup]
  refine ⟨offered, (serverHello ⟨version, offered⟩).capabilities, _, _,
    (serverHello ⟨version, offered⟩).capabilities, hoffered,
    decodeFrame_rawClientHello hids hoffered, rfl, encodeFrame_frame _, ?_,
    negotiate_serverHello ⟨version, offered⟩, rfl, Capabilities.sorted _, fun id => ?_,
    fun c es s hrun => ?_, drainWait_agree _, ?_⟩
  · have hround := decodeFrame_frame (encodeFrame_frame
      (.serverHello (serverHello ⟨version, offered⟩))) []
    rwa [List.append_nil] at hround
  · rw [← hmem]
    exact Capabilities.mem_intersect
  · rw [Link.opened_same] at hrun
    have hlogged := Link.logged_exec hrun
    exact ⟨Link.refusalMode_of_wired hlogged.wired, fun v hv => (hlogged.verdicts v hv).2⟩
  · intro frame m n set _ hset id hid
    have hoffer := offered_of_negotiate hset hid
    exact ⟨hoffer, (hmem id).mp (Capabilities.has_iff.mp hoffer)⟩

/-- An unordered list with a duplicate and an id that nobody supports. -/
theorem capabilities_agree_unordered :
    ([2, 7, 1, 2] : List UInt16).length ≤ 32 ∧
      ∃ offered yours, Capabilities.new [2, 7, 1, 2] = .ok offered ∧
        serverHello ⟨.current, offered⟩ = ⟨.current, yours⟩ ∧ 1 ∈ yours.ids ∧ 7 ∉ yours.ids := by
  have hids : ([2, 7, 1, 2] : List UInt16).length ≤ 32 := by decide
  obtain ⟨offered, yours, _, _, _, hoffered, -, hyours, -, -, -, -, -, hmem, -⟩ :=
    capabilities_agree [2, 7, 1, 2] hids .current
  refine ⟨hids, offered, yours, hoffered, hyours, (hmem 1).mpr (by decide), fun h => ?_⟩
  exact absurd ((hmem 7).mp h).1 (by decide)

end Eggtunnel
