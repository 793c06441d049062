import Miaouchat.Handshake

/-!
# The datagrams of one control TLV

Apart from the messages of the worker, a client sends a Hello, an Ack or a GoAway
at a time, each in a datagram of its own. None of these TLVs has a payload that
`serial_str` would write, so the datagram is the same whatever is on the stack
(`written_control`), and it is decoded as the TLV it was built from
(`dserialMsg_control`).
-/

namespace Miaouchat

open Bytes

/-- A TLV that a client sends alone, with what its constructor is given. -/
inductive Control
  | shortHello (sourceId : UInt64)
  | longHello (sourceId destId : UInt64)
  | ack (senderId : UInt64) (nonce : UInt32)
  | goAway
  deriving DecidableEq, Repr

namespace Control

/-- The TLV, as `send_hello`, `add_new_neighbour`, `send_ack` and `send_go_away`
build it. -/
def tlv : Control → Tlv
  | shortHello sourceId => newTlvHello false sourceId 0
  | longHello sourceId destId => newTlvHello true sourceId destId
  | ack senderId nonce => newTlvAck senderId nonce
  | goAway => newTlvGoAway 2 [] 0

/-- **The datagram**: the header, and the TLV with its integers in network
order. -/
def datagram : Control → List UInt8
  | shortHello sourceId => [93, 2, 0, 10, 2, 8] ++ beBytes 8 sourceId.toNat
  | longHello sourceId destId =>
    [93, 2, 0, 18, 2, 16] ++ beBytes 8 sourceId.toNat ++ beBytes 8 destId.toNat
  | ack senderId nonce =>
    [93, 2, 0, 14, 5, 12] ++ beBytes 8 senderId.toNat ++ beBytes 4 nonce.toNat
  | goAway => [93, 2, 0, 3, 6, 1, 2]

/-- The call of a constructor. -/
def fixedCtor : Control → FixedCtor
  | shortHello sourceId => .hello false sourceId 0
  | longHello sourceId destId => .hello true sourceId destId
  | ack senderId nonce => .ack senderId nonce
  | goAway => .goAway 2 []

theorem build_fixedCtor (c : Control) : c.fixedCtor.build = c.tlv := by
  cases c <;> rfl

end Control

/-- **The bytes of a message of one control TLV**, on any host and with anything
on the stack. -/
theorem written_control (mc : Machine) (fr : ℕ → Frame) (c : Control) :
    (serialMsg mc fr (newMsg [c.tlv]) (newSbuff mc)).written = c.datagram := by
  rw [written_serialMsg, written_newSbuff]
  cases c with
  | shortHello sourceId =>
    simp [newMsg, Control.tlv, newTlvHello, tlvsWire, Tlv.wire, TlvBody.wire, newHelloBody,
      Control.datagram, TlvType.code, beBytes, leBytes]
  | longHello sourceId destId =>
    simp [newMsg, Control.tlv, newTlvHello, tlvsWire, Tlv.wire, TlvBody.wire, newHelloBody,
      Control.datagram, TlvType.code, beBytes, leBytes]
  | ack senderId nonce =>
    simp [newMsg, Control.tlv, newTlvAck, tlvsWire, Tlv.wire, TlvBody.wire, newAckBody,
      Control.datagram, TlvType.code, beBytes, leBytes]
  | goAway => rfl

/-- **It is decoded as it was built.** -/
theorem dserialMsg_control (mc : Machine) (c : Control) :
    ∃ b, dserialMsg mc (newDsbuff c.datagram) = some (newMsg [c.tlv], b) := by
  obtain ⟨b, hb⟩ := dserialMsg_written mc mc (fun _ => ⟨0, fun _ => 0⟩) [c.fixedCtor]
  rw [List.map_singleton, c.build_fixedCtor, written_control] at hb
  exact ⟨b, hb⟩

theorem received_control (mc : Machine) (c : Control) :
    received mc c.datagram = .ok (newMsg [c.tlv]) := by
  obtain ⟨b, hb⟩ := dserialMsg_control mc c
  rw [received, hb]
  rfl

end Miaouchat
