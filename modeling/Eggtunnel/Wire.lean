/-
Eggtunnel/Wire.lean

The validated wire types and the message set of the native protocol.

Every type that the source constructs through a checking `new` carries that
check as a field, so an invalid name, target, capability list, diagnostic or
token cannot be built, and each has a postcard codec that validates again on
the way in (`#[serde(try_from = ..)]`, `bounded_bytes`).
-/
import Eggtunnel.Host
import Mathlib.Data.List.Sort
import Mathlib.Data.List.Dedup

namespace Eggtunnel

/-! ### Identifiers -/

/-- `ProtocolVersion`. -/
structure ProtocolVersion where
  major : UInt16
  minor : UInt16
  deriving DecidableEq, Repr

/-- `ProtocolVersion::CURRENT`. -/
def ProtocolVersion.current : ProtocolVersion := ⟨1, 1⟩

/-- `SessionId`. -/
structure SessionId where
  bytes : Vector UInt8 16
  deriving DecidableEq, Repr

/-- `ServiceId`. -/
structure ServiceId where
  val : UInt64
  deriving DecidableEq, Repr

/-- `ConnectionId`. -/
structure ConnectionId where
  bytes : Vector UInt8 16
  deriving DecidableEq, Repr

/-! ### Errors -/

/-- `ProtocolError`. -/
inductive ProtocolError
  | invalidMagic
  | unsupportedVersion (major minor : UInt16)
  | unknownMessage (id : UInt16)
  | truncatedFrame
  | frameTooLarge
  | invalidPayload
  | invalidName
  | invalidBind
  | invalidTarget
  | unexpectedMessage
  deriving DecidableEq, Repr

/-! ### Validated types -/

/-- `is_ascii_alphanumeric` or one of `-_.`. -/
def isNameByte (b : UInt8) : Bool :=
  (48 ≤ b && b ≤ 57) || (65 ≤ b && b ≤ 90) || (97 ≤ b && b ≤ 122) ||
    b == 45 || b == 95 || b == 46

/-- What `ServiceName::new` accepts; the bound is `MAX_NAME_BYTES`. -/
def validName (s : String) : Bool :=
  s.utf8ByteSize ≠ 0 && s.utf8ByteSize ≤ 128 && (Codec.utf8 s).all isNameByte

/-- `ServiceName`, with what its constructor checks. -/
structure ServiceName where
  value : String
  valid : validName value = true
  deriving DecidableEq

/-- `ServiceName::new`. -/
def ServiceName.new (s : String) : Except ProtocolError ServiceName :=
  if h : validName s = true then .ok ⟨s, h⟩ else .error .invalidName

theorem ServiceName.new_value (n : ServiceName) : ServiceName.new n.value = .ok n := by
  rw [ServiceName.new, dif_pos n.valid]

theorem ServiceName.value_of_new {s : String} {n : ServiceName}
    (h : ServiceName.new s = .ok n) : n.value = s := by
  unfold ServiceName.new at h
  split_ifs at h
  cases h
  rfl

/-- `RequestedBind`. -/
inductive RequestedBind
  | loopback (port : UInt16)
  | ip (address : Vector UInt8 16) (port : UInt16)
  deriving DecidableEq, Repr

/-- `EffectiveBind`. -/
structure EffectiveBind where
  address : Vector UInt8 16
  port : UInt16
  deriving DecidableEq, Repr

/-- `TcpTarget`, with what its constructor checks. -/
structure TcpTarget where
  host : String
  port : UInt16
  valid : validateTargetHost host = true ∧ port ≠ 0
  deriving DecidableEq

/-- `TcpTarget::new`. -/
def TcpTarget.new (host : String) (port : UInt16) : Except ProtocolError TcpTarget :=
  if h : validateTargetHost host = true ∧ port ≠ 0 then .ok ⟨host, port, h⟩
  else .error .invalidTarget

theorem TcpTarget.new_fields (t : TcpTarget) : TcpTarget.new t.host t.port = .ok t := by
  rw [TcpTarget.new, dif_pos t.valid]

theorem TcpTarget.fields_of_new {host : String} {port : UInt16} {t : TcpTarget}
    (h : TcpTarget.new host port = .ok t) : t.host = host ∧ t.port = port := by
  unfold TcpTarget.new at h
  split_ifs at h
  cases h
  exact ⟨rfl, rfl⟩

/-- A capability list: at most `MAX_CAPABILITIES` ids, sorted, no duplicates. -/
structure Capabilities where
  ids : List UInt16
  bounded : ids.length ≤ 32
  sorted : ids.Pairwise (· < ·)
  deriving DecidableEq

/-- `sort_unstable` followed by `dedup`. -/
def sortDedup (ids : List UInt16) : List UInt16 := (ids.insertionSort (· ≤ ·)).dedup

theorem length_sortDedup_le (ids : List UInt16) : (sortDedup ids).length ≤ ids.length := by
  rw [← List.length_insertionSort (· ≤ ·) ids]
  exact (List.dedup_sublist _).length_le

theorem mem_sortDedup {ids : List UInt16} {x : UInt16} : x ∈ sortDedup ids ↔ x ∈ ids := by
  rw [sortDedup, List.mem_dedup, List.mem_insertionSort]

theorem sortDedup_sorted (ids : List UInt16) : (sortDedup ids).Pairwise (· < ·) := by
  have hle : (sortDedup ids).Pairwise (· ≤ ·) :=
    (List.pairwise_insertionSort (· ≤ ·) ids).sublist (List.dedup_sublist _)
  refine (hle.and (List.nodup_dedup _)).imp ?_
  rintro a b ⟨hab, hne⟩
  exact UInt16.lt_of_le_of_ne hab hne

/-- A sorted list without duplicates is already normal. -/
theorem sortDedup_of_sorted {ids : List UInt16} (h : ids.Pairwise (· < ·)) :
    sortDedup ids = ids := by
  have hle : ids.Pairwise (fun a b => a ≤ b) := h.imp UInt16.le_of_lt
  have hnd : ids.Nodup := h.imp UInt16.ne_of_lt
  rw [sortDedup, hle.insertionSort_eq, hnd.dedup]

/-- `Capabilities::new`. -/
def Capabilities.new (ids : List UInt16) : Except ProtocolError Capabilities :=
  if h : ids.length ≤ 32 then
    .ok ⟨sortDedup ids, (length_sortDedup_le ids).trans h, sortDedup_sorted ids⟩
  else .error .invalidPayload

theorem Capabilities.new_ids (c : Capabilities) : Capabilities.new c.ids = .ok c := by
  rw [Capabilities.new, dif_pos c.bounded]
  simp only [sortDedup_of_sorted c.sorted]

theorem Capabilities.ids_of_new {ids : List UInt16} {c : Capabilities}
    (h : Capabilities.new ids = .ok c) : c.ids = sortDedup ids := by
  unfold Capabilities.new at h
  split_ifs at h
  cases h
  rfl

/-- `CAPABILITY_REGISTER_REJECT`. -/
def capabilityRegisterReject : UInt16 := 1

/-- `CAPABILITY_DRAIN_DEADLINE`. -/
def capabilityDrainDeadline : UInt16 := 2

namespace Capabilities

/-- `Capabilities::supported`. -/
def supported : Capabilities :=
  ⟨[capabilityRegisterReject, capabilityDrainDeadline], by decide, by decide⟩

/-- `Capabilities::intersect`: keep what the other list contains, sort, dedup. -/
def intersect (c other : Capabilities) : Capabilities :=
  let ids := c.ids.filter fun id => other.ids.contains id
  ⟨sortDedup ids, (length_sortDedup_le ids).trans
    ((List.length_filter_le _ _).trans c.bounded), sortDedup_sorted ids⟩

/-- `Capabilities::has`. -/
def has (c : Capabilities) (id : UInt16) : Bool := c.ids.contains id

end Capabilities

/-- What `BoundedDiagnostic::new` accepts; the bound is `MAX_DIAGNOSTIC_BYTES`. -/
def validDiagnostic (s : String) : Bool :=
  s.utf8ByteSize ≤ 256 && !s.toList.any fun c => isControl c || isFormatChar c

/-- `BoundedDiagnostic`, with what its constructor checks. -/
structure BoundedDiagnostic where
  text : String
  valid : validDiagnostic text = true
  deriving DecidableEq

/-- `BoundedDiagnostic::new`. -/
def BoundedDiagnostic.new (s : String) : Except ProtocolError BoundedDiagnostic :=
  if h : validDiagnostic s = true then .ok ⟨s, h⟩ else .error .invalidPayload

theorem BoundedDiagnostic.new_text (d : BoundedDiagnostic) :
    BoundedDiagnostic.new d.text = .ok d := by
  rw [BoundedDiagnostic.new, dif_pos d.valid]

theorem BoundedDiagnostic.text_of_new {s : String} {d : BoundedDiagnostic}
    (h : BoundedDiagnostic.new s = .ok d) : d.text = s := by
  unfold BoundedDiagnostic.new at h
  split_ifs at h
  cases h
  rfl

/-- `Auth`: the token is bounded by `MAX_AUTH_TOKEN_BYTES`. -/
structure Auth where
  token : Bytes
  valid : token.length ≤ 4096
  deriving DecidableEq

/-- `Auth::new`. -/
def Auth.new (token : Bytes) : Except ProtocolError Auth :=
  if h : token.length ≤ 4096 then .ok ⟨token, h⟩ else .error .invalidPayload

theorem Auth.new_token (a : Auth) : Auth.new a.token = .ok a := by
  rw [Auth.new, dif_pos a.valid]

theorem Auth.token_of_new {t : Bytes} {a : Auth} (h : Auth.new t = .ok a) : a.token = t := by
  unfold Auth.new at h
  split_ifs at h
  cases h
  rfl

end Eggtunnel
