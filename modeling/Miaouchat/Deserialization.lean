import Miaouchat.Lib.Cursor
import Miaouchat.Serialization

/-!
# The decoder

`serialization.c` decodes a message by walking a cursor over the datagram.
None of the `dserial_*` functions looks at `real_size` before it reads: only
the loop of `dserial_msg` does, between two TLVs. The model makes a read at
or past `real_size` visible by giving it no value, so a run of the decoder
that returns is one whose every read was in bounds.

How far a TLV's reader goes depends on its type and length byte only
(`valueLen`), and what it returns is a function of the bytes it goes over
(`tlvOf`). `dserialTlv_eq` is that description of `dserial_tlv`, and every
later result about the decoder uses it instead of the readers. `Framing` lifts
it to the loop: the remaining bytes are a sequence of TLVs, each complete for
its own reader.

Where the length byte of a Data is below thirteen, its `data_len` is an
unsigned subtraction that wraps, and the reader wants more bytes than there
can be.
-/

namespace Miaouchat

open Bytes Reader

/-- A buffer being read, `sbuff_t` from `new_dsbuff`: `real_size` is the
length of its data. -/
abbrev Dsbuff : Type := Cursor UInt8

def newDsbuff (data : List UInt8) : Dsbuff := ⟨data, 0⟩

def realSize (b : Dsbuff) : ℕ := b.data.length

@[simp] theorem rest_newDsbuff (d : List UInt8) : (newDsbuff d).rest = d := rfl

/-! ## The functions of the decoder -/

def ntohs (e : Endian) (s : UInt16) : UInt16 :=
  UInt16.ofNat (ofBE (inMemory e 2 s.toNat))

def ntohl (e : Endian) (l : UInt32) : UInt32 :=
  UInt32.ofNat (ofBE (inMemory e 4 l.toNat))

/-- The macro `ntohll`, with its branch for either byte order. -/
def ntohll (e : Endian) (x : UInt64) : UInt64 :=
  if 1 = ntohl e 1 then x
  else ((ntohl e (x &&& 0xFFFFFFFF).toUInt32).toUInt64 <<< 32)
    ||| (ntohl e (x >>> 32).toUInt32).toUInt64

def dserialChar : Reader UInt8 UInt8 := do
  let bs ← take 1
  return bs.headD 0

def dserialShort (mc : Machine) : Reader UInt8 UInt16 := do
  let bs ← take 2
  return ntohs mc.endian (UInt16.ofNat (ofMemory mc.endian bs))

def dserialInt (mc : Machine) : Reader UInt8 UInt32 := do
  let bs ← take 4
  return ntohl mc.endian (UInt32.ofNat (ofMemory mc.endian bs))

def dserialLong (mc : Machine) : Reader UInt8 UInt64 := do
  let bs ← take 8
  return ntohll mc.endian (UInt64.ofNat (ofMemory mc.endian bs))

/-- `dserial_str` reads its characters one by one. -/
def dserialStr : ℕ → Reader UInt8 (List UInt8)
  | 0 => return []
  | n + 1 => do
    let c ← dserialChar
    let s ← dserialStr n
    return c :: s

def dserialPadnBody (tlvLen : ℕ) : Reader UInt8 PadnBody := do
  let _ ← dserialStr tlvLen
  return newPadnBody (UInt32.ofNat tlvLen)

def dserialHelloBody (mc : Machine) (tlvLen : ℕ) : Reader UInt8 HelloBody := do
  let isLong := decide (tlvLen > 8)
  let srcId ← dserialLong mc
  let dstId ← if isLong then dserialLong mc else pure 0
  return newHelloBody isLong srcId dstId

def dserialNeighbourBody (mc : Machine) : Reader UInt8 NeighbourBody := do
  let ip ← dserialStr 16
  let port ← dserialShort mc
  return newNeighbourBody ip port

/-- `tlv_len - sizeof(uint64_t) - sizeof(uint32_t) - sizeof(char)`, a
subtraction of `size_t`. -/
def dataLenOf (tlvLen : ℕ) : ℕ := (tlvLen + (2 ^ 64 - 13)) % 2 ^ 64

def dserialDataBody (mc : Machine) (tlvLen : ℕ) : Reader UInt8 DataBody := do
  let senderId ← dserialLong mc
  let nonce ← dserialInt mc
  let type ← dserialChar
  let data ← dserialStr (dataLenOf tlvLen)
  return newDataBody senderId nonce type data (dataLenOf tlvLen)

def dserialAckBody (mc : Machine) : Reader UInt8 AckBody := do
  let senderId ← dserialLong mc
  let nonce ← dserialInt mc
  return newAckBody senderId nonce

def dserialGoAwayBody (tlvLen : ℕ) : Reader UInt8 GoAwayBody := do
  let code ← dserialChar
  if tlvLen > 1 then
    let msg ← dserialStr (tlvLen - 1)
    return newGoAwayBody code msg (tlvLen - 1)
  else
    return newGoAwayBody code [] 0

def dserialWarningBody (tlvLen : ℕ) : Reader UInt8 WarningBody := do
  let msg ← dserialStr tlvLen
  return newWarningBody msg tlvLen

/-- The `switch` of `dserial_tlv`; the proof that the body fits the type
travels with it. -/
def dserialBody (mc : Machine) (type length : UInt8) :
    Reader UInt8 {b : TlvBody // b.kind = bodyKind type} :=
  match h : TlvType.ofByte type with
  | some .pad1 => return ⟨.empty, by simp [bodyKind, h, TlvBody.kind]⟩
  | some .padn => do
    let b ← dserialPadnBody length.toNat
    return ⟨.padn b, by simp [bodyKind, h, TlvBody.kind]⟩
  | some .hello => do
    let b ← dserialHelloBody mc length.toNat
    return ⟨.hello b, by simp [bodyKind, h, TlvBody.kind]⟩
  | some .neighbour => do
    let b ← dserialNeighbourBody mc
    return ⟨.neighbour b, by simp [bodyKind, h, TlvBody.kind]⟩
  | some .data => do
    let b ← dserialDataBody mc length.toNat
    return ⟨.data b, by simp [bodyKind, h, TlvBody.kind]⟩
  | some .ack => do
    let b ← dserialAckBody mc
    return ⟨.ack b, by simp [bodyKind, h, TlvBody.kind]⟩
  | some .goAway => do
    let b ← dserialGoAwayBody length.toNat
    return ⟨.goAway b, by simp [bodyKind, h, TlvBody.kind]⟩
  | some .warning => do
    let b ← dserialWarningBody length.toNat
    return ⟨.warning b, by simp [bodyKind, h, TlvBody.kind]⟩
  | none => return ⟨.empty, by simp [bodyKind, h, TlvBody.kind]⟩

def dserialTlv (mc : Machine) : Reader UInt8 Tlv := do
  let type ← dserialChar
  let length ← dserialChar
  let body ← dserialBody mc type length
  return ⟨type, length, body.1, body.2⟩

/-- The loop of `dserial_msg`, with a bound on its rounds. -/
def dserialTlvs (mc : Machine) : ℕ → Reader UInt8 (List Tlv)
  | 0 => return []
  | n + 1 => do
    let b ← get
    if b.next < realSize b then
      let t ← dserialTlv mc
      let ts ← dserialTlvs mc n
      return t :: ts
    else
      return []

/-- `dserial_msg`. Every round of its loop reads a type and a length byte, so
`real_size` rounds are more than it takes (`dserialTlvs_iff_framing`). The
array it stores the TLVs in has `msgTlvNbDef` slots; a store past them is kept
in the list like any other, and `Msg.InSlots` says there was none. -/
def dserialMsg (mc : Machine) : Reader UInt8 Msg := do
  let magic ← dserialChar
  let version ← dserialChar
  let length ← dserialShort mc
  let b ← get
  let body ← dserialTlvs mc (realSize b)
  return ⟨magic, version, length, body.length, body⟩

/-- `MSG_TLV_NB_DEF`, the slots `dserial_msg` allocates for the TLVs. -/
def msgTlvNbDef : ℕ := 64

/-- Every TLV of the message went into one of the allocated slots. -/
def Msg.InSlots (m : Msg) : Prop := m.body.length ≤ msgTlvNbDef

/-! ## How far each reader goes, and what it returns -/

/-- The value bytes that the reader of a TLV goes over. -/
def valueLen (type length : UInt8) : ℕ :=
  match TlvType.ofByte type with
  | some .pad1 => 0
  | some .padn => length.toNat
  | some .hello => if length.toNat > 8 then 16 else 8
  | some .neighbour => 18
  | some .data => 13 + dataLenOf length.toNat
  | some .ack => 12
  | some .goAway => if length.toNat > 1 then length.toNat else 1
  | some .warning => length.toNat
  | none => 0

/-- The body a reader makes of the value bytes it goes over. -/
def bodyOf (type length : UInt8) (vs : List UInt8) : TlvBody :=
  match TlvType.ofByte type with
  | some .pad1 => .empty
  | some .padn => .padn (newPadnBody (UInt32.ofNat length.toNat))
  | some .hello =>
    .hello (newHelloBody (decide (length.toNat > 8)) (UInt64.ofNat (ofBE (vs.take 8)))
      (UInt64.ofNat (ofBE (vs.drop 8))))
  | some .neighbour =>
    .neighbour (newNeighbourBody (vs.take 16) (UInt16.ofNat (ofBE (vs.drop 16))))
  | some .data =>
    .data (newDataBody (UInt64.ofNat (ofBE (vs.take 8)))
      (UInt32.ofNat (ofBE ((vs.drop 8).take 4))) ((vs.drop 12).headD 0)
      (vs.drop 13) (dataLenOf length.toNat))
  | some .ack =>
    .ack (newAckBody (UInt64.ofNat (ofBE (vs.take 8)))
      (UInt32.ofNat (ofBE (vs.drop 8))))
  | some .goAway =>
    .goAway (newGoAwayBody (vs.headD 0) (vs.drop 1) (length.toNat - 1))
  | some .warning => .warning (newWarningBody vs length.toNat)
  | none => .empty

theorem kind_bodyOf (type length : UInt8) (vs : List UInt8) :
    (bodyOf type length vs).kind = bodyKind type := by
  unfold bodyOf bodyKind
  cases TlvType.ofByte type with
  | none => rfl
  | some k => cases k <;> rfl

/-- The TLV a reader makes of its type, its length byte and its value. -/
def tlvOf (type length : UInt8) (vs : List UInt8) : Tlv :=
  ⟨type, length, bodyOf type length vs, kind_bodyOf type length vs⟩

theorem takes_dserialChar : Takes dserialChar 1 (fun bs => bs.headD 0) :=
  (takes_take 1).map _

/-- Bytes that are the big-endian bytes of what memory holds denote, read in
network order, the integer. -/
theorem eq_ofBE_of_inMemory_eq (e : Endian) {v : ℕ} {bs : List UInt8}
    (hv : v < 256 ^ bs.length)
    (h : inMemory e bs.length v = beBytes bs.length (ofMemory e bs)) :
    v = ofBE bs := by
  cases e with
  | big =>
    rw [← ofBE_beBytes hv, show beBytes bs.length v = _ from h]
    exact ofBE_beBytes (ofBE_lt bs)
  | little =>
    have hle : leBytes bs.length v = bs.reverse := by
      rw [show leBytes bs.length v = _ from h, beBytes]
      exact congrArg List.reverse (leBytes_ofLE bs)
    rw [ofBE, ← hle, ofLE_leBytes, Nat.mod_eq_of_lt hv]

/-- A long written in network order is the eight bytes it was read from. -/
theorem beBytes_ofBE_long {bs : List UInt8} (h : bs.length = 8) :
    beBytes 8 (UInt64.ofNat (ofBE bs)).toNat = bs := by
  have hlt : ofBE bs < 2 ^ 64 := (ofBE_lt bs).trans_eq (by rw [h]; rfl)
  rw [UInt64.toNat_ofNat', Nat.mod_eq_of_lt hlt]
  exact h ▸ beBytes_ofBE bs

theorem beBytes_ofBE_int {bs : List UInt8} (h : bs.length = 4) :
    beBytes 4 (UInt32.ofNat (ofBE bs)).toNat = bs := by
  have hlt : ofBE bs < 2 ^ 32 := (ofBE_lt bs).trans_eq (by rw [h]; rfl)
  rw [UInt32.toNat_ofNat', Nat.mod_eq_of_lt hlt]
  exact h ▸ beBytes_ofBE bs

theorem beBytes_ofBE_short {bs : List UInt8} (h : bs.length = 2) :
    beBytes 2 (UInt16.ofNat (ofBE bs)).toNat = bs := by
  have hlt : ofBE bs < 2 ^ 16 := (ofBE_lt bs).trans_eq (by rw [h]; rfl)
  rw [UInt16.toNat_ofNat', Nat.mod_eq_of_lt hlt]
  exact h ▸ beBytes_ofBE bs

/-- On either host the network-to-host functions are the host-to-network
ones. -/
theorem ntohs_eq_htons (e : Endian) (s : UInt16) : ntohs e s = htons e s := by
  cases e <;> rfl

theorem ntohl_eq_htonl (e : Endian) (l : UInt32) : ntohl e l = htonl e l := by
  cases e <;> rfl

theorem ntohll_eq_htonll (e : Endian) (x : UInt64) : ntohll e x = htonll e x := by
  simp only [ntohll, htonll, ntohl_eq_htonl]

theorem takes_dserialShort (mc : Machine) :
    Takes (dserialShort mc) 2 (fun bs => UInt16.ofNat (ofBE bs)) := by
  refine ((takes_take 2).map _).congr (fun bs hbs => ?_)
  have hm : ofMemory mc.endian bs < 2 ^ 16 :=
    (ofMemory_lt _ bs).trans_eq (by rw [hbs]; rfl)
  have h := inMemory_htons mc.endian (UInt16.ofNat (ofMemory mc.endian bs))
  rw [UInt16.toNat_ofNat', Nat.mod_eq_of_lt hm, ← hbs] at h
  show ntohs mc.endian (UInt16.ofNat (ofMemory mc.endian bs)) = _
  rw [ntohs_eq_htons, ← eq_ofBE_of_inMemory_eq mc.endian
    ((UInt16.toNat_lt _).trans_eq (by rw [hbs]; rfl)) h, UInt16.ofNat_toNat]

theorem takes_dserialInt (mc : Machine) :
    Takes (dserialInt mc) 4 (fun bs => UInt32.ofNat (ofBE bs)) := by
  refine ((takes_take 4).map _).congr (fun bs hbs => ?_)
  have hm : ofMemory mc.endian bs < 2 ^ 32 :=
    (ofMemory_lt _ bs).trans_eq (by rw [hbs]; rfl)
  have h := inMemory_htonl mc.endian (UInt32.ofNat (ofMemory mc.endian bs))
  rw [UInt32.toNat_ofNat', Nat.mod_eq_of_lt hm, ← hbs] at h
  show ntohl mc.endian (UInt32.ofNat (ofMemory mc.endian bs)) = _
  rw [ntohl_eq_htonl, ← eq_ofBE_of_inMemory_eq mc.endian
    ((UInt32.toNat_lt _).trans_eq (by rw [hbs]; rfl)) h, UInt32.ofNat_toNat]

theorem takes_dserialLong (mc : Machine) :
    Takes (dserialLong mc) 8 (fun bs => UInt64.ofNat (ofBE bs)) := by
  refine ((takes_take 8).map _).congr (fun bs hbs => ?_)
  have hm : ofMemory mc.endian bs < 2 ^ 64 :=
    (ofMemory_lt _ bs).trans_eq (by rw [hbs]; rfl)
  have h := inMemory_htonll mc.endian (UInt64.ofNat (ofMemory mc.endian bs))
  rw [UInt64.toNat_ofNat', Nat.mod_eq_of_lt hm, ← hbs] at h
  show ntohll mc.endian (UInt64.ofNat (ofMemory mc.endian bs)) = _
  rw [ntohll_eq_htonll, ← eq_ofBE_of_inMemory_eq mc.endian
    ((UInt64.toNat_lt _).trans_eq (by rw [hbs]; rfl)) h, UInt64.ofNat_toNat]

theorem takes_dserialStr (n : ℕ) : Takes (dserialStr n) n id := by
  induction n with
  | zero => exact (takes_pure []).congr (fun bs h => (List.length_eq_zero_iff.mp h).symm)
  | succ n ih =>
    have h : Takes (dserialStr (n + 1)) (1 + n)
        (fun bs => (bs.take 1).headD 0 :: bs.drop 1) :=
      takes_dserialChar.bind (fun c => ih.map (c :: ·))
    rw [Nat.add_comm 1 n] at h
    refine h.congr (fun bs hbs => ?_)
    obtain ⟨b, bs, rfl⟩ := List.exists_cons_of_length_eq_add_one hbs
    rfl

theorem takes_dserialPadnBody (n : ℕ) :
    Takes (dserialPadnBody n) n (fun _ => newPadnBody (UInt32.ofNat n)) :=
  (takes_dserialStr n).map _

/-- A Hello is read as a short or a long one by its length byte alone. -/
theorem takes_dserialHelloBody (mc : Machine) (n : ℕ) :
    Takes (dserialHelloBody mc n) (if n > 8 then 16 else 8)
      (fun bs => newHelloBody (decide (n > 8)) (UInt64.ofNat (ofBE (bs.take 8)))
        (UInt64.ofNat (ofBE (bs.drop 8)))) := by
  by_cases hn : n > 8
  · rw [if_pos hn]
    refine (takes_dserialLong mc).bind (m := 8)
      (w := fun src bs => newHelloBody (decide (n > 8)) src (UInt64.ofNat (ofBE bs)))
      (fun src => ?_)
    simp only [hn, decide_true, if_true]
    exact (takes_dserialLong mc).map _
  · rw [if_neg hn]
    have h : Takes (dserialHelloBody mc n) (8 + 0)
        (fun bs => newHelloBody (decide (n > 8)) (UInt64.ofNat (ofBE (bs.take 8))) 0) := by
      refine (takes_dserialLong mc).bind (m := 0)
        (w := fun src _ => newHelloBody (decide (n > 8)) src 0) (fun src => ?_)
      simp only [hn, decide_false, Bool.false_eq_true, if_false]
      exact (takes_pure 0).map (newHelloBody false src)
    refine h.congr (fun bs hbs => ?_)
    rw [List.drop_eq_nil_of_le hbs.le]
    rfl

theorem takes_dserialNeighbourBody (mc : Machine) :
    Takes (dserialNeighbourBody mc) 18
      (fun bs => newNeighbourBody (bs.take 16) (UInt16.ofNat (ofBE (bs.drop 16)))) :=
  (takes_dserialStr 16).bind (m := 2)
    (w := fun ip bs => newNeighbourBody ip (UInt16.ofNat (ofBE bs)))
    (fun _ => (takes_dserialShort mc).map _)

theorem takes_dserialDataBody (mc : Machine) (n : ℕ) :
    Takes (dserialDataBody mc n) (13 + dataLenOf n)
      (fun bs => newDataBody (UInt64.ofNat (ofBE (bs.take 8)))
        (UInt32.ofNat (ofBE ((bs.drop 8).take 4))) ((bs.drop 12).headD 0)
        (bs.drop 13) (dataLenOf n)) := by
  have h : Takes (dserialDataBody mc n) (8 + (4 + (1 + dataLenOf n))) _ :=
    (takes_dserialLong mc).bind
      (w := fun id bs => newDataBody id (UInt32.ofNat (ofBE (bs.take 4)))
        (((bs.drop 4).take 1).headD 0) ((bs.drop 4).drop 1) (dataLenOf n))
      (fun id => (takes_dserialInt mc).bind
        (w := fun nonce bs => newDataBody id nonce ((bs.take 1).headD 0)
          (bs.drop 1) (dataLenOf n))
        (fun nonce => takes_dserialChar.bind
          (w := fun type bs => newDataBody id nonce type bs (dataLenOf n))
          (fun _ => (takes_dserialStr (dataLenOf n)).map _)))
  have hlen : 8 + (4 + (1 + dataLenOf n)) = 13 + dataLenOf n := by omega
  refine (hlen ▸ h).congr (fun bs _ => ?_)
  simp only [List.drop_drop, Nat.reduceAdd]
  cases bs.drop 12 <;> rfl

theorem takes_dserialAckBody (mc : Machine) :
    Takes (dserialAckBody mc) 12
      (fun bs => newAckBody (UInt64.ofNat (ofBE (bs.take 8)))
        (UInt32.ofNat (ofBE (bs.drop 8)))) :=
  (takes_dserialLong mc).bind (m := 4)
    (w := fun id bs => newAckBody id (UInt32.ofNat (ofBE bs)))
    (fun _ => (takes_dserialInt mc).map _)

theorem takes_dserialGoAwayBody (n : ℕ) :
    Takes (dserialGoAwayBody n) (if n > 1 then n else 1)
      (fun bs => newGoAwayBody (bs.headD 0) (bs.drop 1) (n - 1)) := by
  have hhead : ∀ bs : List UInt8, (bs.take 1).headD 0 = bs.headD 0 := by
    intro bs
    cases bs <;> rfl
  by_cases hn : n > 1
  · rw [if_pos hn]
    have h : Takes (dserialGoAwayBody n) (1 + (n - 1)) _ :=
      takes_dserialChar.bind (w := fun code bs => newGoAwayBody code bs (n - 1))
        (fun code => by
          simp only [hn, if_true]
          exact (takes_dserialStr (n - 1)).map _)
    rw [show 1 + (n - 1) = n by omega] at h
    exact h.congr (fun bs _ => by rw [hhead])
  · rw [if_neg hn]
    have h : Takes (dserialGoAwayBody n) (1 + 0) _ :=
      takes_dserialChar.bind (w := fun code _ => newGoAwayBody code [] 0)
        (fun code => by
          simp only [hn, if_false]
          exact takes_pure _)
    refine h.congr (fun bs hbs => ?_)
    rw [hhead, show n - 1 = 0 by omega, List.drop_eq_nil_of_le hbs.le]

theorem takes_dserialWarningBody (n : ℕ) :
    Takes (dserialWarningBody n) n (fun bs => newWarningBody bs n) :=
  (takes_dserialStr n).map _

/-- **The body reader of a TLV** goes over `valueLen` bytes and returns the
body made of them. -/
theorem takes_dserialBody (mc : Machine) (type length : UInt8) :
    Takes (dserialBody mc type length) (valueLen type length)
      (fun vs => ⟨bodyOf type length vs, kind_bodyOf type length vs⟩) := by
  unfold dserialBody
  split <;> rename_i h <;> simp only [valueLen, h]
  · exact (takes_pure _).congr (fun vs _ => Subtype.ext (by simp [bodyOf, h]))
  · exact ((takes_dserialPadnBody _).map _).congr
      (fun vs _ => Subtype.ext (by simp [bodyOf, h]))
  · exact ((takes_dserialHelloBody mc _).map _).congr
      (fun vs _ => Subtype.ext (by simp [bodyOf, h]))
  · exact ((takes_dserialNeighbourBody mc).map _).congr
      (fun vs _ => Subtype.ext (by simp [bodyOf, h]))
  · exact ((takes_dserialDataBody mc _).map _).congr
      (fun vs _ => Subtype.ext (by simp [bodyOf, h]))
  · exact ((takes_dserialAckBody mc).map _).congr
      (fun vs _ => Subtype.ext (by simp [bodyOf, h]))
  · exact ((takes_dserialGoAwayBody _).map _).congr
      (fun vs _ => Subtype.ext (by simp [bodyOf, h]))
  · exact ((takes_dserialWarningBody _).map _).congr
      (fun vs _ => Subtype.ext (by simp [bodyOf, h]))
  · exact (takes_pure _).congr (fun vs _ => Subtype.ext (by simp [bodyOf, h]))

theorem valueLen_data {length : UInt8} (h : 13 ≤ length.toNat) :
    valueLen TlvType.data.code length = length.toNat := by
  have hlt := length.toNat_lt
  show 13 + dataLenOf length.toNat = _
  unfold dataLenOf
  omega

/-- **`dserial_tlv`**: two bytes for the type and the length, then the value
its reader goes over. -/
theorem dserialTlv_eq (mc : Machine) {b : Dsbuff} {type length : UInt8}
    {rest : List UInt8} (hb : b.rest = type :: length :: rest) :
    dserialTlv mc b
      = if valueLen type length ≤ rest.length then
          some (tlvOf type length (rest.take (valueLen type length)),
            b.skip (2 + valueLen type length))
        else none := by
  have htype : dserialChar b = some (type, b.skip 1) :=
    takes_dserialChar.eq_some [type] hb rfl
  have hlength : dserialChar (b.skip 1) = some (length, b.skip 2) :=
    takes_dserialChar.eq_some [length] (c := b.skip 1)
      (by rw [Cursor.rest_skip, hb]; rfl) rfl
  have hrest : (b.skip 2).rest = rest := by
    rw [Cursor.rest_skip, hb]
    rfl
  have hbody := takes_dserialBody mc type length (b.skip 2)
  rw [hrest] at hbody
  simp only [dserialTlv, bind, StateT.bind, htype, hlength, hbody, Option.bind_some]
  split
  · rw [Cursor.skip_skip]
    rfl
  · rfl

/-- With less than two bytes left there is no TLV. -/
theorem dserialTlv_short (mc : Machine) {b : Dsbuff} (h : b.rest.length < 2) :
    dserialTlv mc b = none := by
  simp only [dserialTlv, bind, StateT.bind, takes_dserialChar b]
  split
  · simp only [Option.bind_some, takes_dserialChar (b.skip 1), Cursor.rest_skip,
      List.length_drop]
    rw [if_neg (by omega), Option.bind_none]
  · rfl

/-! ## The loop -/

/-- **The bytes are a sequence of TLVs, each complete for its own reader**,
and `ts` are the TLVs. -/
inductive Framing : List UInt8 → List Tlv → Prop
  | nil : Framing [] []
  | cons {type length : UInt8} {vs rest : List UInt8} {ts : List Tlv}
      (hvs : vs.length = valueLen type length) (hrest : Framing rest ts) :
      Framing (type :: length :: (vs ++ rest)) (tlvOf type length vs :: ts)

/-- One round of the loop, where there is something left to read. -/
theorem dserialTlvs_succ (mc : Machine) (n : ℕ) {b : Dsbuff}
    (hb : b.next < realSize b) :
    dserialTlvs mc (n + 1) b
      = (dserialTlv mc b).bind (fun p =>
          (dserialTlvs mc n p.2).map (fun q => (p.1 :: q.1, q.2))) := by
  simp only [dserialTlvs, bind, StateT.bind, get, getThe, MonadStateOf.get,
    StateT.get, pure, Option.bind_some, hb, if_true]
  cases dserialTlv mc b with
  | none => rfl
  | some p =>
    simp only [Option.bind_some]
    cases dserialTlvs mc n p.2 <;> rfl

theorem dserialTlvs_done (mc : Machine) (n : ℕ) {b : Dsbuff}
    (hb : ¬ b.next < realSize b) : dserialTlvs mc n b = some ([], b) := by
  cases n with
  | zero => rfl
  | succ n =>
    simp only [dserialTlvs, bind, StateT.bind, get, getThe, MonadStateOf.get,
      StateT.get, pure, Option.bind_some, hb, if_false]
    rfl

theorem lt_realSize_iff (b : Dsbuff) : b.next < realSize b ↔ 0 < b.rest.length := by
  rw [Cursor.length_rest]
  exact Nat.sub_pos_iff_lt.symm

/-- With nothing to read there are no TLVs. -/
theorem some_nil_eq_iff_framing (b : Dsbuff) (ts : List Tlv) (b' : Dsbuff) :
    some (([] : List Tlv), b) = some (ts, b')
      ↔ Framing [] ts ∧ b' = b.skip ([] : List UInt8).length := by
  constructor
  · intro h
    obtain ⟨rfl, rfl⟩ := Prod.mk.inj (Option.some.inj h)
    exact ⟨.nil, rfl⟩
  · rintro ⟨hf, rfl⟩
    cases hf
    rfl

/-- **The loop of `dserial_msg` returns exactly on framed bytes**, with the
TLVs they are framed into and the cursor past the last of them. The bound on
its rounds is not felt. -/
theorem dserialTlvs_iff_framing (mc : Machine) (n : ℕ) (b : Dsbuff)
    (hn : b.rest.length ≤ n) (ts : List Tlv) (b' : Dsbuff) :
    dserialTlvs mc n b = some (ts, b')
      ↔ Framing b.rest ts ∧ b' = b.skip b.rest.length := by
  induction n generalizing b ts with
  | zero =>
    have hnil : b.rest = [] := List.length_eq_zero_iff.mp (Nat.le_zero.mp hn)
    rw [dserialTlvs_done mc 0 (by rw [lt_realSize_iff, hnil]; simp), hnil]
    exact some_nil_eq_iff_framing b ts b'
  | succ n ih =>
    rcases hrest : b.rest with _ | ⟨type, _ | ⟨length, rest⟩⟩
    · rw [dserialTlvs_done mc _ (by rw [lt_realSize_iff, hrest]; simp)]
      exact some_nil_eq_iff_framing b ts b'
    · rw [dserialTlvs_succ mc n (by rw [lt_realSize_iff, hrest]; simp),
        dserialTlv_short mc (by rw [hrest]; simp)]
      simp only [Option.bind_none, reduceCtorEq, false_iff]
      rintro ⟨hf, -⟩
      cases hf
    · rw [dserialTlvs_succ mc n (by rw [lt_realSize_iff, hrest]; simp),
        dserialTlv_eq mc hrest]
      rw [hrest, List.length_cons, List.length_cons] at hn
      by_cases hv : valueLen type length ≤ rest.length
      · rw [if_pos hv, Option.bind_some]
        have hskip : (b.skip (2 + valueLen type length)).rest
            = rest.drop (valueLen type length) := by
          rw [Cursor.rest_skip, hrest, Nat.add_comm]
          rfl
        have hlen : (rest.drop (valueLen type length)).length
            = rest.length - valueLen type length := List.length_drop
        constructor
        · intro h
          obtain ⟨⟨ts', b''⟩, hq, heq⟩ := Option.map_eq_some_iff.mp h
          obtain ⟨rfl, rfl⟩ := Prod.mk.inj heq
          obtain ⟨hf, rfl⟩ := (ih _ (by rw [hskip]; omega) ts').mp hq
          rw [hskip] at hf
          refine ⟨?_, ?_⟩
          · have hvs : (rest.take (valueLen type length)).length = valueLen type length := by
              rw [List.length_take, min_eq_left hv]
            have h := Framing.cons hvs hf
            rwa [List.take_append_drop] at h
          · rw [Cursor.skip_skip, hskip, hlen, List.length_cons, List.length_cons]
            dsimp only
            congr 1
            omega
        · rintro ⟨hf, rfl⟩
          cases hf with
          | cons hvs hf =>
            rename_i vs rest' ts'
            have htake : (vs ++ rest').take (valueLen type length) = vs :=
              List.take_left' hvs
            have hdrop : (vs ++ rest').drop (valueLen type length) = rest' :=
              List.drop_left' hvs
            rw [hdrop] at hskip hlen
            refine Option.map_eq_some_iff.mpr
              ⟨(ts', b.skip (type :: length :: (vs ++ rest')).length), ?_, by rw [htake]⟩
            refine (ih _ (by rw [hskip]; omega) ts').mpr ⟨by rw [hskip]; exact hf, ?_⟩
            rw [Cursor.skip_skip, hskip, hlen, List.length_cons, List.length_cons]
            congr 1
            omega
      · rw [if_neg hv]
        simp only [Option.bind_none, reduceCtorEq, false_iff]
        rintro ⟨hf, -⟩
        cases hf with
        | cons hvs hf =>
          rw [List.length_append] at hv
          omega

/-- **`dserial_msg` returns exactly on a header followed by framed bytes**,
with the TLVs they are framed into and the cursor at the end of the data. -/
theorem dserialMsg_iff (mc : Machine) (d : List UInt8) (m : Msg) (b : Dsbuff) :
    dserialMsg mc (newDsbuff d) = some (m, b)
      ↔ ∃ magic version hi lo rest ts, d = magic :: version :: hi :: lo :: rest
        ∧ Framing rest ts ∧ b = (newDsbuff d).skip d.length
        ∧ m = ⟨magic, version, UInt16.ofNat (ofBE [hi, lo]), ts.length, ts⟩ := by
  have heq : dserialMsg mc (newDsbuff d)
      = (dserialChar (newDsbuff d)).bind (fun p =>
          (dserialChar p.2).bind (fun q =>
            (dserialShort mc q.2).bind (fun r =>
              (dserialTlvs mc (realSize r.2) r.2).bind (fun t =>
                some (⟨p.1, q.1, r.1, t.1.length, t.1⟩, t.2))))) := rfl
  rcases d with _ | ⟨magic, _ | ⟨version, _ | ⟨hi, _ | ⟨lo, rest⟩⟩⟩⟩
  case cons.cons.cons.cons =>
    set d := magic :: version :: hi :: lo :: rest with hd
    have h₁ : dserialChar (newDsbuff d) = some (magic, (newDsbuff d).skip 1) :=
      takes_dserialChar.eq_some [magic] rfl rfl
    have h₂ : dserialChar ((newDsbuff d).skip 1)
        = some (version, (newDsbuff d).skip 2) :=
      takes_dserialChar.eq_some [version] (c := (newDsbuff d).skip 1) rfl rfl
    have h₃ : dserialShort mc ((newDsbuff d).skip 2)
        = some (UInt16.ofNat (ofBE [hi, lo]), (newDsbuff d).skip 4) :=
      (takes_dserialShort mc).eq_some [hi, lo] (c := (newDsbuff d).skip 2)
        rfl rfl
    have hrest : ((newDsbuff d).skip 4).rest = rest := rfl
    have hlen : d.length = 4 + rest.length := by
      rw [hd]
      simp only [List.length_cons]
      omega
    have hskip : ((newDsbuff d).skip 4).skip rest.length
        = (newDsbuff d).skip d.length := by
      rw [Cursor.skip_skip, hlen]
    have hloop := dserialTlvs_iff_framing mc (realSize ((newDsbuff d).skip 4))
      ((newDsbuff d).skip 4) (by rw [hrest]; show _ ≤ d.length; omega)
    rw [hrest, hskip] at hloop
    rw [heq, h₁, Option.bind_some, h₂, Option.bind_some, h₃, Option.bind_some]
    constructor
    · intro h
      obtain ⟨⟨ts, b'⟩, ht, hm⟩ := Option.bind_eq_some_iff.mp h
      obtain ⟨rfl, rfl⟩ := Prod.mk.inj (Option.some.inj hm)
      obtain ⟨hf, hb⟩ := (hloop ts b').mp ht
      exact ⟨magic, version, hi, lo, rest, ts, hd, hf, hb, rfl⟩
    · rintro ⟨magic', version', hi', lo', rest', ts, hd', hf, rfl, rfl⟩
      rw [hd] at hd'
      simp only [List.cons.injEq] at hd'
      obtain ⟨rfl, rfl, rfl, rfl, rfl⟩ := hd'
      rw [(hloop ts _).mpr ⟨hf, rfl⟩]
      rfl
  all_goals
    constructor
    · intro h
      exact absurd h (by rw [heq]; simp [takes_dserialChar _, takes_dserialShort mc _])
    · rintro ⟨magic', version', hi', lo', rest', ts, hd', -⟩
      simp at hd'

/-- **The TLVs of a datagram** are those its bytes after the header are framed
into. -/
theorem dserialMsg_body_iff (mc : Machine) (d : List UInt8) (ts : List Tlv) :
    (∃ m b, dserialMsg mc (newDsbuff d) = some (m, b) ∧ m.body = ts)
      ↔ 4 ≤ d.length ∧ Framing (d.drop 4) ts := by
  constructor
  · rintro ⟨m, b, hm, rfl⟩
    obtain ⟨magic, version, hi, lo, rest, ts, rfl, hf, -, rfl⟩ := (dserialMsg_iff mc d m b).mp hm
    exact ⟨Nat.le_add_left 4 rest.length, hf⟩
  · rintro ⟨hlen, hf⟩
    rcases d with _ | ⟨magic, _ | ⟨version, _ | ⟨hi, _ | ⟨lo, rest⟩⟩⟩⟩
    case cons.cons.cons.cons =>
      exact ⟨_, _, (dserialMsg_iff mc _ _ _).mpr
        ⟨magic, version, hi, lo, rest, ts, rfl, hf, rfl, rfl⟩, rfl⟩
    all_goals simp at hlen

/-- The cursor stops at the end of the datagram. -/
theorem next_of_dserialMsg {mc : Machine} {d : List UInt8} {m : Msg} {b : Dsbuff}
    (h : dserialMsg mc (newDsbuff d) = some (m, b)) : b.next = realSize b := by
  obtain ⟨_, _, _, _, _, _, -, -, rfl, -⟩ := (dserialMsg_iff mc d m b).mp h
  rw [Cursor.next_skip]
  exact Nat.zero_add _

end Miaouchat
