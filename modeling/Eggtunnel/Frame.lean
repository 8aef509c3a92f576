/-
Eggtunnel/Frame.lean

Frames: `ETUN`, major and minor (u16 BE), message id (u16 BE), payload length
(u32 BE), payload.

`decodeFrame` follows the source's order of checks.  The frame lemmas below
say what it does on a header followed by any body (`decodeFrame_header`), from
which the frame round trip (`decodeFrame_frame`) and the behaviour on a bare
header (`decodeFrame_bare_header`) follow.
-/
import Eggtunnel.Message

namespace Eggtunnel

/-- `MAGIC`. -/
def magic : Bytes := [0x45, 0x54, 0x55, 0x4E]

/-- `HEADER_LEN`. -/
def headerLen : Nat := 14

/-- `MAX_FRAME_BYTES`. -/
def maxFrameBytes : Nat := 1024 * 1024

/-- `PROTOCOL_MAJOR`. -/
def protocolMajor : UInt16 := 1

/-- `PROTOCOL_MINOR`. -/
def protocolMinor : UInt16 := 1

/-! ### Big-endian fields -/

/-- `u16::to_be_bytes`. -/
def be16 (n : UInt16) : Bytes := [UInt8.ofNat (n.toNat / 256), UInt8.ofNat n.toNat]

/-- `u32::to_be_bytes`, of a length below `2^32`. -/
def be32 (n : Nat) : Bytes :=
  [UInt8.ofNat (n / 16777216), UInt8.ofNat (n / 65536), UInt8.ofNat (n / 256), UInt8.ofNat n]

/-- `u16::from_be_bytes`. -/
def fromBe16 (a b : UInt8) : UInt16 := UInt16.ofNat (a.toNat * 256 + b.toNat)

/-- `u32::from_be_bytes(..) as usize`. -/
def fromBe32 (a b c d : UInt8) : Nat :=
  a.toNat * 16777216 + b.toNat * 65536 + c.toNat * 256 + d.toNat

theorem fromBe16_be16 (n : UInt16) :
    fromBe16 (UInt8.ofNat (n.toNat / 256)) (UInt8.ofNat n.toNat) = n := by
  have hn := n.toNat_lt
  apply UInt16.toNat_inj.mp
  rw [fromBe16, UInt8.toNat_ofNat', UInt8.toNat_ofNat', UInt16.toNat_ofNat']
  omega

theorem fromBe32_be32 {n : Nat} (h : n < 2 ^ 32) :
    fromBe32 (UInt8.ofNat (n / 16777216)) (UInt8.ofNat (n / 65536)) (UInt8.ofNat (n / 256))
      (UInt8.ofNat n) = n := by
  simp only [fromBe32, UInt8.toNat_ofNat']
  omega

/-! ### Encoding and decoding -/

/-- The fourteen header bytes `encode_frame` writes. -/
def frameHeader (kind : MessageType) (len : Nat) : Bytes :=
  magic ++ be16 protocolMajor ++ be16 protocolMinor ++ be16 kind.id ++ be32 len

/-- `encode_frame`. -/
def encodeFrame (m : Message) : Except ProtocolError Bytes :=
  if maxFrameBytes < m.payload.length then .error .frameTooLarge
  else .ok (frameHeader m.kind m.payload.length ++ m.payload)

/-- `decode_frame`: the message and the number of bytes it took. -/
def decodeFrame (input : Bytes) : Except ProtocolError (Message × Nat) :=
  if input.length < headerLen then .error .truncatedFrame
  else if input.take 4 ≠ magic then .error .invalidMagic
  else
    let major := fromBe16 (input.getD 4 0) (input.getD 5 0)
    let minor := fromBe16 (input.getD 6 0) (input.getD 7 0)
    if major ≠ protocolMajor then .error (.unsupportedVersion major minor)
    else
      match MessageType.ofId (fromBe16 (input.getD 8 0) (input.getD 9 0)) with
      | .error e => .error e
      | .ok kind =>
          let len := fromBe32 (input.getD 10 0) (input.getD 11 0) (input.getD 12 0)
            (input.getD 13 0)
          if maxFrameBytes < len then .error .frameTooLarge
          else if input.length < headerLen + len then .error .truncatedFrame
          else
            match decodePayload kind ((input.drop headerLen).take len) with
            | some m => .ok (m, headerLen + len)
            | none => .error .invalidPayload

theorem length_frameHeader (kind : MessageType) (len : Nat) :
    (frameHeader kind len).length = headerLen := rfl

/-- What `decode_frame` does behind a well-formed header. -/
theorem decodeFrame_header (kind : MessageType) {len : Nat} (hlen : len ≤ maxFrameBytes)
    (body : Bytes) :
    decodeFrame (frameHeader kind len ++ body) =
      if body.length < len then .error .truncatedFrame
      else match decodePayload kind (body.take len) with
        | some m => .ok (m, headerLen + len)
        | none => .error .invalidPayload := by
  have hn : len < 2 ^ 32 := by
    have : maxFrameBytes < 2 ^ 32 := by decide
    omega
  have hkind := fromBe16_be16 kind.id
  have hmajor := fromBe16_be16 protocolMajor
  have hsize : (frameHeader kind len ++ body).length = headerLen + body.length := by
    rw [List.length_append, length_frameHeader]
  have hdrop : (frameHeader kind len ++ body).drop headerLen = body := rfl
  rw [decodeFrame, if_neg (by rw [hsize]; omega), if_neg (by simp [frameHeader, magic])]
  rw [hsize, hdrop]
  simp only [frameHeader, magic, be16, be32, List.cons_append, List.nil_append,
    List.getD_cons_succ, List.getD_cons_zero, hkind, hmajor, fromBe32_be32 hn,
    MessageType.ofId_id]
  rw [if_neg (by simp), if_neg (by omega)]
  by_cases hb : body.length < len
  · rw [if_pos (by omega), if_pos hb]
  · rw [if_neg (by omega), if_neg hb]

theorem encodeFrame_eq_ok {m : Message} {f : Bytes} (h : encodeFrame m = .ok f) :
    m.payload.length ≤ maxFrameBytes ∧ f = frameHeader m.kind m.payload.length ++ m.payload := by
  unfold encodeFrame at h
  split_ifs at h with hle
  cases h
  exact ⟨by omega, rfl⟩

/-- The frame of a message. -/
def Message.frame (m : Message) : Bytes :=
  frameHeader m.kind m.payload.length ++ m.payload

/-- `encode_frame` never fails: no message reaches the frame limit. -/
theorem encodeFrame_frame (m : Message) : encodeFrame m = .ok m.frame := by
  have h := length_payload_le m
  rw [encodeFrame, if_neg (by unfold maxFrameBytes; omega)]
  rfl

/-- **The frame round trip**: a frame decodes to its message and takes exactly
its own bytes, whatever follows. -/
theorem decodeFrame_frame {m : Message} {f : Bytes} (h : encodeFrame m = .ok f)
    (rest : Bytes) : decodeFrame (f ++ rest) = .ok (m, f.length) := by
  obtain ⟨hle, rfl⟩ := encodeFrame_eq_ok h
  rw [List.append_assoc, decodeFrame_header m.kind hle]
  rw [if_neg (by simp), List.take_left, decodePayload_payload, List.length_append,
    length_frameHeader]

/-- No message type has an empty payload. -/
theorem decodePayload_nil (kind : MessageType) : decodePayload kind [] = none := by
  cases kind <;> rfl

theorem payload_ne_nil (m : Message) : m.payload ≠ [] := by
  intro h
  have hm := decodePayload_payload m
  rw [h, decodePayload_nil] at hm
  cases hm

/-- The header of a frame alone is truncated, so a reader that has only the
header asks for more. -/
theorem decodeFrame_bare_header {m : Message} (hle : m.payload.length ≤ maxFrameBytes) :
    decodeFrame (frameHeader m.kind m.payload.length) = .error .truncatedFrame := by
  have h := decodeFrame_header m.kind hle []
  rw [List.append_nil] at h
  have hpos : ([] : Bytes).length < m.payload.length :=
    List.length_pos_iff.mpr (payload_ne_nil m)
  rw [h, if_pos hpos]

/-- The length field of a header reads back. -/
theorem fromBe32_frameHeader (kind : MessageType) {len : Nat} (hlen : len ≤ maxFrameBytes) :
    fromBe32 ((frameHeader kind len).getD 10 0) ((frameHeader kind len).getD 11 0)
      ((frameHeader kind len).getD 12 0) ((frameHeader kind len).getD 13 0) = len := by
  have : maxFrameBytes < 2 ^ 32 := by decide
  exact fromBe32_be32 (by omega)

end Eggtunnel
