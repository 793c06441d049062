import Miaouchat.Lengths

/-!
# Encoding and then decoding

What the decoder makes of a TLV the encoder wrote. The types of the protocol
fall in two groups.

The TLVs of fixed layout – Pad1, PadN, Hello, Ack and a GoAway without a
message – are written field by field through the integer functions, and come
back as they were (`dserialMsg_serialMsg`, for a message of any of them).

The ones that carry a payload – the data of a Data, the address of a
Neighbour, the text of a Warning or of a GoAway – are written through
`serial_str`, which copies from the address of its parameter. What comes back
is that memory (`survives_iff_inFrame`). No payload is safe from it but an
empty one, and the text of a GoAway is lost before that: its constructor does
not count it in the length byte, so the decoder stops at the code.
-/

namespace Miaouchat

open Bytes

/-! ## Bytes and fields -/

@[simp] theorem ofNat_ofBE_beBytes_long (l : UInt64) :
    UInt64.ofNat (ofBE (beBytes 8 l.toNat)) = l := by
  rw [ofBE_beBytes l.toNat_lt, UInt64.ofNat_toNat]

@[simp] theorem ofNat_ofBE_beBytes_int (i : UInt32) :
    UInt32.ofNat (ofBE (beBytes 4 i.toNat)) = i := by
  rw [ofBE_beBytes i.toNat_lt, UInt32.ofNat_toNat]

@[simp] theorem ofNat_ofBE_beBytes_short (s : UInt16) :
    UInt16.ofNat (ofBE (beBytes 2 s.toNat)) = s := by
  rw [ofBE_beBytes s.toNat_lt, UInt16.ofNat_toNat]

@[simp] theorem take_beBytes (w n : ℕ) : (beBytes w n).take w = beBytes w n :=
  List.take_of_length_le (length_beBytes w n).le

@[simp] theorem take_beBytes_append (w n : ℕ) (bs : List UInt8) :
    (beBytes w n ++ bs).take w = beBytes w n :=
  List.take_left' (length_beBytes w n)

@[simp] theorem drop_beBytes_append (w n : ℕ) (bs : List UInt8) :
    (beBytes w n ++ bs).drop w = bs :=
  List.drop_left' (length_beBytes w n)

/-- Two TLVs with the same type, length and body are the same. -/
theorem Tlv.eq_of_fields {t u : Tlv} (htype : t.type = u.type)
    (hlength : t.length = u.length) (hbody : t.body = u.body) : t = u := by
  cases t
  cases u
  cases htype
  cases hlength
  cases hbody
  rfl

/-- **Decoding what was just encoded**, where the reader stays inside the
bytes the body left. -/
theorem dserialTlv_serialTlv (mc mc' : Machine) (fr : Frame) (t : Tlv)
    (h : valueLen t.type t.length ≤ (t.body.wire mc.endian fr).length) :
    dserialTlv mc' (newDsbuff (serialTlv mc fr t (newSbuff mc)).written)
      = some (tlvOf t.type t.length
          ((t.body.wire mc.endian fr).take (valueLen t.type t.length)),
        ⟨t.wire mc.endian fr, 2 + valueLen t.type t.length⟩) := by
  rw [written_serialTlv, written_newSbuff, List.nil_append,
    dserialTlv_eq mc' (b := newDsbuff (t.wire mc.endian fr)) rfl, if_pos h]
  refine congrArg (fun n => some (_, (⟨t.wire mc.endian fr, n⟩ : Dsbuff))) ?_
  exact Nat.zero_add _

/-- The cursor of the encoder after one TLV. -/
theorem next_serialTlv (mc : Machine) (fr : Frame) (t : Tlv) :
    (serialTlv mc fr t (newSbuff mc)).next
      = 2 + (t.body.wire mc.endian fr).length := by
  rw [← Sbuff.length_written, written_serialTlv, written_newSbuff, List.nil_append,
    Tlv.wire, List.length_cons, List.length_cons]
  omega

/-! ## Fixed layout -/

/-- A call of a constructor whose TLV has a fixed layout. A GoAway has no
message: `message_len` is zero, and `message` is not looked at. -/
inductive FixedCtor
  | pad1
  | padn (n : UInt32) (small : n.toNat ≤ 255)
  | hello (isLong : Bool) (sourceId destId : UInt64)
  | ack (senderId : UInt64) (nonce : UInt32)
  | goAway (code : UInt8) (message : List UInt8)

/-- The TLV the call returns. -/
def FixedCtor.build : FixedCtor → Tlv
  | .pad1 => newTlvPad1
  | .padn n _ => newTlvPadn n
  | .hello isLong sourceId destId => newTlvHello isLong sourceId destId
  | .ack senderId nonce => newTlvAck senderId nonce
  | .goAway code message => newTlvGoAway code message 0

/-- The reader of a TLV of fixed layout goes over the bytes the writer left. -/
theorem FixedCtor.length_wire (e : Endian) (fr : Frame) (c : FixedCtor) :
    (c.build.body.wire e fr).length = valueLen c.build.type c.build.length := by
  cases c with
  | pad1 => rfl
  | padn n small =>
    have hn := n.toNat_lt
    have hcode : valueLen (newTlvPadn n).type (newTlvPadn n).length
        = n.toUInt8.toNat := rfl
    rw [build, hcode, UInt32.toNat_toUInt8]
    show (List.replicate n.toNat (0 : UInt8)).length = _
    rw [List.length_replicate]
    omega
  | hello isLong sourceId destId =>
    cases isLong
    · show (beBytes 8 sourceId.toNat ++ []).length = 8
      simp
    · show (beBytes 8 sourceId.toNat ++ beBytes 8 destId.toNat).length = 16
      simp
  | ack senderId nonce =>
    show (beBytes 8 senderId.toNat ++ beBytes 4 nonce.toNat).length = 12
    simp
  | goAway code message => rfl

/-- It makes the same TLV of them. -/
theorem FixedCtor.tlvOf_wire (e : Endian) (fr : Frame) (c : FixedCtor) :
    tlvOf c.build.type c.build.length (c.build.body.wire e fr) = c.build := by
  refine Tlv.eq_of_fields rfl rfl ?_
  cases c with
  | pad1 => rfl
  | padn n small =>
    have hn : n.toUInt8.toNat = n.toNat := by
      rw [UInt32.toNat_toUInt8]
      omega
    simp [tlvOf, build, newTlvPadn, bodyOf, hn]
  | hello isLong sourceId destId =>
    cases isLong
    · simp [tlvOf, build, newTlvHello, bodyOf, TlvBody.wire, newHelloBody]
    · simp [tlvOf, build, newTlvHello, bodyOf, TlvBody.wire, newHelloBody]
  | ack senderId nonce =>
    simp [tlvOf, build, newTlvAck, bodyOf, TlvBody.wire, newAckBody]
  | goAway code message => rfl

/-- The wire bytes of such TLVs are framed into them, the first of them of any
index. -/
theorem framing_tlvsWire (e : Endian) (fr : ℕ → Frame) (i : ℕ) (cs : List FixedCtor) :
    Framing (tlvsWire e fr i (cs.map FixedCtor.build)) (cs.map FixedCtor.build) := by
  induction cs generalizing i with
  | nil => exact .nil
  | cons c cs ih =>
    have h : Framing (c.build.wire e (fr i) ++ _) _ :=
      .cons (c.length_wire e (fr i)) (ih (i + 1))
    rw [c.tlvOf_wire e (fr i)] at h
    exact h

/-- The decoder reads such a message to the end of its bytes. -/
theorem dserialMsg_written (mc mc' : Machine) (fr : ℕ → Frame) (cs : List FixedCtor) :
    ∃ b, dserialMsg mc' (newDsbuff
        (serialMsg mc fr (newMsg (cs.map FixedCtor.build)) (newSbuff mc)).written)
      = some (newMsg (cs.map FixedCtor.build), b) := by
  set ts := cs.map FixedCtor.build
  obtain ⟨hi, lo, hhl⟩ := List.length_eq_two.mp (length_beBytes 2 (newMsg ts).length.toNat)
  have hbytes : (serialMsg mc fr (newMsg ts) (newSbuff mc)).written
      = 93 :: 2 :: hi :: lo :: tlvsWire mc.endian fr 0 ts := by
    rw [written_serialMsg, written_newSbuff, hhl]
    rfl
  have hlength : UInt16.ofNat (ofBE [hi, lo]) = (newMsg ts).length := by
    rw [← hhl, ofNat_ofBE_beBytes_short]
  refine ⟨_, (dserialMsg_iff mc' _ _ _).mpr ⟨93, 2, hi, lo, _, ts, hbytes,
    framing_tlvsWire mc.endian fr 0 cs, rfl, ?_⟩⟩
  rw [hlength]
  rfl

/-- **A message of TLVs of fixed layout is decoded as it was built**, whatever
the byte orders of the two hosts. -/
theorem dserialMsg_serialMsg (mc mc' : Machine) (fr : ℕ → Frame) (cs : List FixedCtor)
    (hlen : cs.length ≤ 64) :
    ∃ m b, dserialMsg mc' (newDsbuff
        (serialMsg mc fr (newMsg (cs.map FixedCtor.build)) (newSbuff mc)).written)
          = some (m, b)
      ∧ m.magic = 93 ∧ m.version = 2
      ∧ m.length = (newMsg (cs.map FixedCtor.build)).length
      ∧ m.tlvNb = cs.length ∧ m.InSlots
      ∧ m.body = cs.map FixedCtor.build := by
  have hnb : (cs.map FixedCtor.build).length = cs.length := List.length_map _
  obtain ⟨b, hb⟩ := dserialMsg_written mc mc' fr cs
  refine ⟨_, b, hb, rfl, rfl, rfl, hnb, ?_, rfl⟩
  show (cs.map FixedCtor.build).length ≤ 64
  rwa [hnb]

/-- A message of a PadN, a long Hello and an Ack, between hosts of different
byte orders. -/
theorem dserialMsg_serialMsg_three :
    ∃ m b, dserialMsg ⟨.big, fun _ => 0⟩ (newDsbuff
        (serialMsg ⟨.little, fun _ => 0⟩ (fun _ => ⟨0, fun _ => 0⟩)
          (newMsg ([FixedCtor.padn 3 (by decide), .hello true 7 9, .ack 7 2].map
            FixedCtor.build)) (newSbuff ⟨.little, fun _ => 0⟩)).written) = some (m, b)
      ∧ m.magic = 93 ∧ m.version = 2
      ∧ m.length = (newMsg ([FixedCtor.padn 3 (by decide), .hello true 7 9,
          .ack 7 2].map FixedCtor.build)).length
      ∧ m.tlvNb = [FixedCtor.padn 3 (by decide), .hello true 7 9, .ack 7 2].length
      ∧ m.InSlots
      ∧ m.body = [FixedCtor.padn 3 (by decide), .hello true 7 9, .ack 7 2].map
          FixedCtor.build :=
  dserialMsg_serialMsg ⟨.little, fun _ => 0⟩ ⟨.big, fun _ => 0⟩ _ _ (by decide)

/-! ## Payloads -/

/-- A TLV that carries a payload of a size its length byte has room for. -/
inductive Payload
  | data (senderId : UInt64) (nonce : UInt32) (type : UInt8) (data : List UInt8)
      (small : data.length ≤ 242)
  | neighbour (ip : Ip) (port : UInt16)
  | warning (message : CText) (small : message.bytes.length ≤ 255)
  | goAway (code : UInt8) (message : CText)
      (small : 1 ≤ message.bytes.length ∧ message.bytes.length ≤ 254)

namespace Payload

/-- The TLV its constructor builds. -/
def build : Payload → Tlv
  | .data senderId nonce type d _ =>
    newTlvDataB (newDataBody senderId nonce type d d.length)
  | .neighbour ip port => newTlvNeighbour ip.toList port
  | .warning m _ => newTlvWarning m.memory m.bytes.length
  | .goAway code m _ => newTlvGoAway code m.memory m.bytes.length

/-- The body has the fields of the original, and its payload. -/
def SameFields : Payload → TlvBody → Prop
  | .data senderId nonce type d _, .data b =>
    b.senderId = senderId ∧ b.nonce = nonce ∧ b.type = type ∧ b.data = d
  | .neighbour ip port, .neighbour b => b.ip = ip ∧ b.port = port
  | .warning m _, .warning b => b.message = m.bytes
  | .goAway code m _, .goAway b => b.code = code ∧ b.message = m.bytes
  | _, _ => False

/-- **The payload survives the wire** from a host `mc` to a host `mc'`: the
TLV that is decoded has the type and the fields of the one encoded, and the
two cursors end at the same place. -/
def Survives (mc mc' : Machine) (fr : Frame) (p : Payload) : Prop :=
  ∃ t b, dserialTlv mc' (newDsbuff (serialTlv mc fr p.build (newSbuff mc)).written)
      = some (t, b)
    ∧ t.type = p.build.type ∧ p.SameFields t.body
    ∧ b.next = (serialTlv mc fr p.build (newSbuff mc)).next

/-- **The payload is what `serial_str` finds at the address of its
parameter**; for the text of a GoAway nothing would do. -/
def InFrame (e : Endian) (fr : Frame) : Payload → Prop
  | .data _ _ _ d _ => d = fr.bytes e d.length
  | .neighbour ip _ => ip.toList = fr.bytes e 16
  | .warning m _ => m.bytes = fr.bytes e m.bytes.length
  | .goAway _ _ _ => False

/-- There is no payload to lose. -/
def Empty : Payload → Prop
  | .data _ _ _ d _ => d = []
  | .warning m _ => m.bytes = []
  | _ => False

end Payload

section Survival

variable (mc mc' : Machine) (fr : Frame)

/-- Where the reader stays inside the bytes that were written, a payload
survives exactly when the reader makes its fields of them and goes over all of
them. -/
theorem Payload.survives_iff {p : Payload} {n : ℕ}
    (hn : valueLen p.build.type p.build.length = n)
    (hle : n ≤ (p.build.body.wire mc.endian fr).length) :
    p.Survives mc mc' fr
      ↔ p.SameFields (bodyOf p.build.type p.build.length
          ((p.build.body.wire mc.endian fr).take n))
        ∧ n = (p.build.body.wire mc.endian fr).length := by
  subst hn
  unfold Survives
  rw [dserialTlv_serialTlv mc mc' fr p.build hle, next_serialTlv]
  constructor
  · rintro ⟨t, b, htb, -, hsame, hnext⟩
    obtain ⟨rfl, rfl⟩ := Prod.mk.inj (Option.some.inj htb)
    exact ⟨hsame, Nat.add_left_cancel hnext⟩
  · rintro ⟨hsame, hnext⟩
    exact ⟨_, _, rfl, rfl, hsame, congrArg (2 + ·) hnext⟩

theorem Payload.survives_data (senderId : UInt64) (nonce : UInt32) (type : UInt8)
    (d : List UInt8) (small : d.length ≤ 242) :
    Survives mc mc' fr (.data senderId nonce type d small)
      ↔ d = fr.bytes mc.endian d.length := by
  set p := Payload.data senderId nonce type d small with hp
  set bs := fr.bytes mc.endian d.length with hbs
  have hlength : p.build.length.toNat = 13 + d.length := by
    simp only [hp, build, newTlvDataB, newDataBody, UInt8.toNat_ofNat']
    omega
  have hval : valueLen p.build.type p.build.length = 13 + d.length :=
    (valueLen_data (by omega)).trans hlength
  have hwire : p.build.body.wire mc.endian fr
      = beBytes 8 senderId.toNat ++ (beBytes 4 nonce.toNat ++ type :: bs) := by
    simp [hp, build, newTlvDataB, newDataBody, TlvBody.wire, ← hbs]
  have hlen : (p.build.body.wire mc.endian fr).length = 13 + d.length :=
    length_wire_data mc.endian fr _
  have hbody : bodyOf p.build.type p.build.length (p.build.body.wire mc.endian fr)
      = .data (newDataBody senderId nonce type bs (dataLenOf p.build.length.toNat)) := by
    have htype : p.build.type = TlvType.data.code := rfl
    have hdrop : (p.build.body.wire mc.endian fr).drop 12 = type :: bs := by
      rw [hwire, show 12 = 8 + 4 from rfl, ← List.drop_drop, drop_beBytes_append,
        drop_beBytes_append]
    have hdata : (p.build.body.wire mc.endian fr).drop 13 = bs := by
      rw [show 13 = 12 + 1 from rfl, ← List.drop_drop, hdrop]
      rfl
    rw [htype]
    simp only [bodyOf, TlvType.ofByte_code, hdrop, hdata]
    simp [hwire]
  rw [survives_iff mc mc' fr hval hlen.ge, List.take_of_length_le hlen.le, hbody, hlen]
  simp only [hp, SameFields, newDataBody, true_and, and_true]
  exact eq_comm

theorem Payload.survives_neighbour (ip : Ip) (port : UInt16) :
    Survives mc mc' fr (.neighbour ip port) ↔ ip.toList = fr.bytes mc.endian 16 := by
  set p := Payload.neighbour ip port with hp
  set bs := fr.bytes mc.endian 16 with hbs
  have hbslen : bs.length = 16 := Frame.length_bytes _ _ _
  have hwire : p.build.body.wire mc.endian fr = bs ++ beBytes 2 port.toNat := rfl
  have hlen : (p.build.body.wire mc.endian fr).length = 18 := by
    rw [hwire, List.length_append, hbslen, length_beBytes]
  have hbody : bodyOf p.build.type p.build.length (p.build.body.wire mc.endian fr)
      = .neighbour (newNeighbourBody bs port) := by
    have htype : p.build.type = TlvType.neighbour.code := rfl
    rw [htype, hwire]
    simp [bodyOf, ← hbslen]
  have hip : (newNeighbourBody bs port).ip.toList = bs := by
    refine List.ext_getElem (by simp [newNeighbourBody, hbslen]) (fun i _ hi => ?_)
    simp [newNeighbourBody, List.getD_eq_getElem?_getD, hi]
  rw [survives_iff mc mc' fr (n := 18) rfl hlen.ge, List.take_of_length_le hlen.le, hbody,
    hlen]
  show ((newNeighbourBody bs port).ip = ip ∧ port = port) ∧ _ ↔ _
  rw [and_iff_left rfl, and_iff_left rfl, ← Vector.toList_inj, hip]
  exact eq_comm

theorem Payload.survives_warning (m : CText) (small : m.bytes.length ≤ 255) :
    Survives mc mc' fr (.warning m small)
      ↔ m.bytes = fr.bytes mc.endian m.bytes.length := by
  set p := Payload.warning m small with hp
  set bs := fr.bytes mc.endian m.bytes.length with hbs
  have hwire : p.build.body.wire mc.endian fr = bs := by
    simp [hp, build, newTlvWarning, newWarningBody, TlvBody.wire, hbs]
  have hval : valueLen p.build.type p.build.length = m.bytes.length := by
    show (UInt8.ofNat m.bytes.length).toNat = _
    rw [UInt8.toNat_ofNat']
    omega
  have hlen : (p.build.body.wire mc.endian fr).length = m.bytes.length := by
    rw [hwire, hbs, Frame.length_bytes]
  rw [survives_iff mc mc' fr hval hlen.ge, List.take_of_length_le hlen.le, hlen, hwire]
  show bs = m.bytes ∧ _ ↔ _
  rw [and_iff_left rfl]
  exact eq_comm

/-- The reader of a GoAway stops at the code, where its writer went on. -/
theorem Payload.not_survives_goAway (code : UInt8) (m : CText)
    (small : 1 ≤ m.bytes.length ∧ m.bytes.length ≤ 254) :
    ¬ Survives mc mc' fr (.goAway code m small) := by
  set p := Payload.goAway code m small with hp
  have hlen : (p.build.body.wire mc.endian fr).length = 1 + m.bytes.length := by
    have hpos : 0 < m.bytes.length := small.1
    simp [hp, build, newTlvGoAway, newGoAwayBody, TlvBody.wire, hpos]
    omega
  rw [survives_iff mc mc' fr (n := 1) rfl (by omega), hlen]
  rintro ⟨-, h⟩
  omega

end Survival

/-- The first byte of a frame is the first byte of the pointer. -/
theorem Frame.head?_bytes (e : Endian) (fr : Frame) (n : ℕ) :
    (fr.bytes e (n + 1)).head? = (inMemory e 8 fr.ptr.toNat).head? := by
  rcases hptr : inMemory e 8 fr.ptr.toNat with _ | ⟨b, bs⟩
  · have hlen := length_inMemory e 8 fr.ptr.toNat
    rw [hptr] at hlen
    cases hlen
  · rw [Frame.bytes, hptr]
    rfl

/-- Only the empty string is in every frame: the pointer may be null, or have
all its bits set. -/
theorem forall_eq_bytes_iff (e : Endian) (bs : List UInt8) :
    (∀ fr : Frame, bs = fr.bytes e bs.length) ↔ bs = [] := by
  constructor
  · intro h
    rcases bs with _ | ⟨b, bs⟩
    · rfl
    · have hzero := congrArg List.head? (h ⟨0, fun _ => 0⟩)
      have hones := congrArg List.head? (h ⟨0xFFFFFFFFFFFFFFFF, fun _ => 0⟩)
      rw [List.length_cons, Frame.head?_bytes] at hzero hones
      rw [hzero] at hones
      refine absurd hones ?_
      cases e <;> decide
  · rintro rfl fr
    exact (List.length_eq_zero_iff.mp (Frame.length_bytes e fr 0)).symm

/-- **A payload survives exactly when it is what `serial_str` finds at the
address of its parameter**, so only an empty one survives whatever that
is. -/
theorem survives_iff_inFrame (mc mc' : Machine) (p : Payload) :
    (∀ fr, p.Survives mc mc' fr ↔ p.InFrame mc.endian fr)
      ∧ ((∀ fr, p.Survives mc mc' fr) ↔ p.Empty) := by
  have hframe : ∀ fr, p.Survives mc mc' fr ↔ p.InFrame mc.endian fr := by
    intro fr
    cases p with
    | data senderId nonce type d small =>
      exact Payload.survives_data mc mc' fr senderId nonce type d small
    | neighbour ip port => exact Payload.survives_neighbour mc mc' fr ip port
    | warning m small => exact Payload.survives_warning mc mc' fr m small
    | goAway code m small =>
      exact iff_of_false (Payload.not_survives_goAway mc mc' fr code m small) id
  refine ⟨hframe, (forall_congr' hframe).trans ?_⟩
  cases p with
  | data senderId nonce type d small => exact forall_eq_bytes_iff mc.endian d
  | neighbour ip port =>
    have hlen : ip.toList.length = 16 := Vector.length_toList
    have h := forall_eq_bytes_iff mc.endian ip.toList
    rw [hlen] at h
    refine h.trans ⟨fun hnil => ?_, False.elim⟩
    rw [hnil] at hlen
    cases hlen
  | warning m small => exact forall_eq_bytes_iff mc.endian m.bytes
  | goAway code m small => exact ⟨fun h => h ⟨0, fun _ => 0⟩, False.elim⟩

/-- A Data of five bytes, with the parameter of `serial_str` a pointer into
the heap: the receiver reads the low bytes of the pointer. -/
theorem not_survives_miaou :
    ¬ ∀ (mc mc' : Machine) (fr : Frame) (p : Payload), p.Survives mc mc' fr := by
  intro h
  have hdata := (Payload.survives_data ⟨.little, fun _ => 0⟩ ⟨.little, fun _ => 0⟩
    ⟨0x000055d0c0ffee10, fun _ => 0⟩ 7 1 0 [109, 105, 97, 111, 117] (by decide)).mp
      (h _ _ _ _)
  revert hdata
  decide

end Miaouchat
