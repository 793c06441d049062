import Miaouchat.Deserialization

/-!
# Declared and actual lengths

The length byte of a TLV is set by its constructor in `types.c`; the bytes
after it are written by `serialization.c`. Nothing makes the two agree, and
for some arguments they do not.

`Ctor` is a call of a constructor with its arguments, and `Built` such a call
with the TLV it returned. `Built.length_eq_iff` finds, for each constructor,
the arguments on which the length byte is the number of bytes written: a
Neighbour declares ten bytes for its eighteen, a GoAway does not count its
message, and a PadN, a Data or a Warning too long for a byte declares its
length modulo 256.

`declaredLengths_iff` is about a whole message. The header adds the declared
sizes up in sixteen bits, so it is right exactly when every TLV is and the sum
fits.
-/

namespace Miaouchat

open Bytes

/-- A NUL-terminated string: the bytes before the NUL. -/
structure CText where
  bytes : List UInt8
  /-- None of them is the NUL. -/
  no_nul : 0 ∉ bytes
  deriving DecidableEq

/-- What a pointer to the string points to. -/
def CText.memory (s : CText) : List UInt8 := s.bytes ++ [0]

@[simp] theorem strlen_memory (s : CText) : strlen s.memory = s.bytes.length := by
  have htake : s.memory.takeWhile (· ≠ 0) = s.bytes := by
    rw [CText.memory, List.takeWhile_append_of_pos]
    · simp
    · intro c hc
      simp only [ne_eq, decide_eq_true_eq]
      rintro rfl
      exact s.no_nul hc
  rw [strlen, htake]

/-- A call of a constructor of TLVs. A message is a NUL-terminated string,
given with its length; `new_tlv_data` also reads the clock. -/
inductive Ctor
  | pad1
  | padn (n : UInt32)
  | hello (isLong : Bool) (sourceId destId : UInt64)
  | neighbour (ip : Ip) (port : UInt16)
  | data (s : ℕ) (senderId : UInt64) (type : UInt8) (data : List UInt8) (dataLen : ℕ)
  | dataB (body : DataBody)
  | ack (senderId : UInt64) (nonce : UInt32)
  | goAway (code : UInt8) (message : CText)
  | warning (message : CText)

/-- The TLV the call returns, if it returns. -/
def Ctor.build : Ctor → Option Tlv
  | .pad1 => some newTlvPad1
  | .padn n => some (newTlvPadn n)
  | .hello isLong sourceId destId => some (newTlvHello isLong sourceId destId)
  | .neighbour ip port => some (newTlvNeighbour ip.toList port)
  | .data s senderId type d dataLen => newTlvData s senderId type d dataLen
  | .dataB body => some (newTlvDataB body)
  | .ack senderId nonce => some (newTlvAck senderId nonce)
  | .goAway code m => some (newTlvGoAway code m.memory m.bytes.length)
  | .warning m => some (newTlvWarning m.memory m.bytes.length)

/-- **A TLV returned by a constructor**, with the call that returned it. -/
structure Built where
  ctor : Ctor
  tlv : Tlv
  /-- The call returned the TLV. -/
  built : ctor.build = some tlv

/-- The arguments on which a constructor declares the length that will be
written. -/
def Ctor.Honest : Ctor → Prop
  | .pad1 => True
  | .padn n => n.toNat ≤ 255
  | .hello _ _ _ => True
  | .neighbour _ _ => False
  | .data _ _ _ _ dataLen => dataLen ≤ 242
  | .dataB body => body.dataLen ≤ 242
  | .ack _ _ => True
  | .goAway _ m => m.bytes = []
  | .warning m => m.bytes.length ≤ 255

/-- A Data is written in thirteen bytes and its data. -/
theorem length_wire_data (e : Endian) (fr : Frame) (b : DataBody) :
    ((TlvBody.data b).wire e fr).length = 13 + b.dataLen := by
  simp only [TlvBody.wire, List.length_append, length_beBytes, List.length_cons,
    List.length_nil, Frame.length_bytes]

/-- The length byte of a Data is right up to 242 bytes of data. -/
theorem length_newTlvDataB_iff (e : Endian) (fr : Frame) (b : DataBody) :
    ((newTlvDataB b).body.wire e fr).length = (newTlvDataB b).length.toNat
      ↔ b.dataLen ≤ 242 := by
  show ((TlvBody.data b).wire e fr).length = (UInt8.ofNat _).toNat ↔ _
  rw [length_wire_data, UInt8.toNat_ofNat']
  omega

/-- **Where the length byte is the number of bytes written**: exactly on the
honest calls. -/
theorem Built.length_eq_iff (e : Endian) (fr : Frame) (t : Built) :
    (t.tlv.body.wire e fr).length = t.tlv.length.toNat ↔ t.ctor.Honest := by
  obtain ⟨c, t, h⟩ := t
  dsimp only
  cases c with
  | pad1 =>
    cases h
    simp [newTlvPad1, TlvBody.wire, Ctor.Honest]
  | padn n =>
    cases h
    have hn := n.toNat_lt
    simp only [newTlvPadn, newPadnBody, TlvBody.wire, Ctor.Honest,
      List.length_replicate, UInt32.toNat_toUInt8]
    omega
  | hello isLong sourceId destId =>
    cases h
    cases isLong <;> simp [newTlvHello, newHelloBody, TlvBody.wire, Ctor.Honest]
  | neighbour ip port =>
    cases h
    simp [newTlvNeighbour, TlvBody.wire, Ctor.Honest]
  | data s senderId type data dataLen =>
    obtain ⟨nonce, rfl⟩ := newTlvData_eq_newTlvDataB h
    exact length_newTlvDataB_iff e fr _
  | dataB body =>
    cases h
    exact length_newTlvDataB_iff e fr body
  | ack senderId nonce =>
    cases h
    simp [newTlvAck, TlvBody.wire, Ctor.Honest]
  | goAway code m =>
    cases h
    by_cases hm : m.bytes = []
    · simp [newTlvGoAway, newGoAwayBody, TlvBody.wire, Ctor.Honest, hm]
    · have hpos : 0 < m.bytes.length := List.length_pos_of_ne_nil hm
      simp [newTlvGoAway, newGoAwayBody, TlvBody.wire, Ctor.Honest, hm, hpos]
  | warning m =>
    cases h
    simp only [newTlvWarning, newWarningBody, TlvBody.wire, Ctor.Honest,
      Frame.length_bytes, strlen_memory, UInt8.toNat_ofNat']
    omega

/-- **The declared lengths of the TLVs `ts` are true on the wire**: each TLV
adds two bytes and its length to the buffer, and the length in the header is
the number of bytes the message has after it. -/
def DeclaredLengthsTrue (mc : Machine) (fr : ℕ → Frame) (ts : List Tlv) : Prop :=
  (∀ t ∈ ts, ∀ (f : Frame) (b : Sbuff),
      (serialTlv mc f t b).written.length = b.written.length + (2 + t.length.toNat))
    ∧ (serialMsg mc fr (newMsg ts) (newSbuff mc)).written.length
      = 4 + (newMsg ts).length.toNat

/-- The size of a sequence of TLVs on the wire, where each declares its own. -/
theorem length_tlvsWire (e : Endian) (fr : ℕ → Frame) (i : ℕ) {ts : List Tlv}
    (h : ∀ t ∈ ts, ∀ f, (t.body.wire e f).length = t.length.toNat) :
    (tlvsWire e fr i ts).length = (ts.map (fun t => 2 + t.length.toNat)).sum := by
  induction ts generalizing i with
  | nil => rfl
  | cons t ts ih =>
    rw [tlvsWire, List.length_append, ih _ (fun u hu => h u (List.mem_cons_of_mem t hu)),
      List.map_cons, List.sum_cons, Tlv.wire, List.length_cons, List.length_cons,
      h t List.mem_cons_self]
    omega

/-- **The declared lengths are true exactly when every constructor was called
on arguments it measures rightly and the sizes add up to less than 2¹⁶.** -/
theorem declaredLengths_iff (mc : Machine) (fr : ℕ → Frame) (bs : List Built) :
    DeclaredLengthsTrue mc fr (bs.map Built.tlv)
      ↔ (∀ b ∈ bs, b.ctor.Honest)
        ∧ (bs.map (fun b => 2 + b.tlv.length.toNat)).sum < 2 ^ 16 := by
  have htlv : ∀ (f : Frame) (t : Tlv) (b : Sbuff),
      (serialTlv mc f t b).written.length
        = b.written.length + (2 + (t.body.wire mc.endian f).length) := by
    intro f t b
    rw [written_serialTlv, List.length_append, Tlv.wire, List.length_cons,
      List.length_cons]
    omega
  have hmsg : ∀ (ts : List Tlv),
      (serialMsg mc fr (newMsg ts) (newSbuff mc)).written.length
        = 4 + (tlvsWire mc.endian fr 0 ts).length := by
    intro ts
    rw [written_serialMsg, written_newSbuff]
    simp only [newMsg, List.nil_append, List.length_append, List.length_cons,
      List.length_nil, length_beBytes]
  have hsum : (bs.map (fun b => 2 + b.tlv.length.toNat)).sum
      = ((bs.map Built.tlv).map (fun t => 2 + t.length.toNat)).sum := by
    rw [List.map_map]
    rfl
  -- every TLV being right is a matter of the calls, and the header of the sum
  have heach : (∀ t ∈ bs.map Built.tlv, ∀ (f : Frame) (b : Sbuff),
      (serialTlv mc f t b).written.length = b.written.length + (2 + t.length.toNat))
      ↔ ∀ b ∈ bs, b.ctor.Honest := by
    rw [List.forall_mem_map]
    refine forall₂_congr (fun t _ => ?_)
    constructor
    · intro h
      have h' := h ⟨0, fun _ => 0⟩ (newSbuff mc)
      rw [htlv] at h'
      exact (t.length_eq_iff mc.endian ⟨0, fun _ => 0⟩).mp (by omega)
    · intro h f b
      rw [htlv, (t.length_eq_iff mc.endian f).mpr h]
  unfold DeclaredLengthsTrue
  rw [heach, hmsg, hsum, toNat_length_newMsg]
  refine and_congr_right (fun hhonest => ?_)
  rw [length_tlvsWire mc.endian fr 0 (fun t ht f => by
    obtain ⟨b, hb, rfl⟩ := List.mem_map.mp ht
    exact (b.length_eq_iff mc.endian f).mpr (hhonest b hb))]
  omega

/-- A Neighbour declares ten bytes and writes eighteen. -/
theorem not_declaredLengths_neighbour :
    ¬ ∀ (mc : Machine) (fr : ℕ → Frame) (bs : List Built),
        DeclaredLengthsTrue mc fr (bs.map Built.tlv) := by
  intro h
  let mc : Machine := ⟨.little, fun _ => 0⟩
  let ip : Ip := Vector.replicate 16 1
  have hlen := (h mc (fun _ => ⟨0, fun _ => 0⟩)
    [⟨.neighbour ip 1212, newTlvNeighbour ip.toList 1212, rfl⟩]).2
  revert hlen
  decide

end Miaouchat
