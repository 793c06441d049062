import Miaouchat.Lib.Bytes

/-!
# TLVs and messages

The protocol carries TLVs – a type byte, a length byte, a value – gathered
in messages. This module has the data types of `types.h` for them and the
constructors of `types.c`.

Two of the source's habits matter later. The length byte of a TLV is computed
by its constructor and not by the encoder, so the two can disagree; and it is
an `unsigned char`, so what is assigned to it loses everything above its low
byte. The body is a `void*` whose real type the type byte decides. Here it is
a sum, and `Tlv.fits` says it is the summand the type byte announces: no
constructor and no decoder builds anything else, and a `switch` on the type
is then a `match` on the body.

A `char*` that points to data is the list of the bytes it points to.
-/

namespace Miaouchat

/-- The TLV types of the protocol. `TLV_UNDEFINED` is left out: it is `-1`,
and no `unsigned char` equals it. -/
inductive TlvType
  | pad1
  | padn
  | hello
  | neighbour
  | data
  | ack
  | goAway
  | warning
  deriving DecidableEq, Repr

/-- The byte that announces a type. -/
def TlvType.code : TlvType → UInt8
  | .pad1 => 0
  | .padn => 1
  | .hello => 2
  | .neighbour => 3
  | .data => 4
  | .ack => 5
  | .goAway => 6
  | .warning => 7

/-- The type a byte announces; `none` is the `default` of every `switch`. -/
def TlvType.ofByte (t : UInt8) : Option TlvType :=
  match t.toNat with
  | 0 => some .pad1
  | 1 => some .padn
  | 2 => some .hello
  | 3 => some .neighbour
  | 4 => some .data
  | 5 => some .ack
  | 6 => some .goAway
  | 7 => some .warning
  | _ => none

@[simp] theorem TlvType.ofByte_code (k : TlvType) : TlvType.ofByte k.code = some k := by
  cases k <;> rfl

/-- The sixteen bytes of an IPv6 address. -/
abbrev Ip : Type := Vector UInt8 16

/-! ## Bodies -/

structure PadnBody where
  zeroes : UInt32
  deriving DecidableEq, Repr

structure HelloBody where
  isLong : Bool
  sourceId : UInt64
  destId : UInt64
  deriving DecidableEq, Repr

structure NeighbourBody where
  ip : Ip
  port : UInt16
  deriving DecidableEq, Repr

structure DataBody where
  senderId : UInt64
  nonce : UInt32
  type : UInt8
  dataLen : ℕ
  data : List UInt8
  deriving DecidableEq, Repr

structure AckBody where
  senderId : UInt64
  nonce : UInt32
  deriving DecidableEq, Repr

/-- The pointer `message` is not set when there is no message; `[]` stands
for it. -/
structure GoAwayBody where
  code : UInt8
  hasMessage : Bool
  message : List UInt8
  deriving DecidableEq, Repr

structure WarningBody where
  msgLen : ℕ
  message : List UInt8
  deriving DecidableEq, Repr

/-- The body of a TLV. `empty` is the pointer no function follows: `NULL` from
the decoder, unset from `new_tlv_pad1`. -/
inductive TlvBody
  | empty
  | padn (b : PadnBody)
  | hello (b : HelloBody)
  | neighbour (b : NeighbourBody)
  | data (b : DataBody)
  | ack (b : AckBody)
  | goAway (b : GoAwayBody)
  | warning (b : WarningBody)
  deriving DecidableEq, Repr

/-- The type a body is for, if it is for one. -/
def TlvBody.kind : TlvBody → Option TlvType
  | .empty => none
  | .padn _ => some .padn
  | .hello _ => some .hello
  | .neighbour _ => some .neighbour
  | .data _ => some .data
  | .ack _ => some .ack
  | .goAway _ => some .goAway
  | .warning _ => some .warning

/-- The kind of body a type byte announces: none for a Pad1 and for a type
the protocol does not know. -/
def bodyKind (t : UInt8) : Option TlvType :=
  match TlvType.ofByte t with
  | some .pad1 => none
  | k => k

/-- **A TLV**: its type, its length byte, and a body of the kind the type
announces. -/
structure Tlv where
  type : UInt8
  length : UInt8
  body : TlvBody
  /-- The body is what the type byte says it is. -/
  fits : body.kind = bodyKind type
  deriving DecidableEq, Repr

/-- A message: the common header and the TLVs. -/
structure Msg where
  magic : UInt8
  version : UInt8
  length : UInt16
  tlvNb : ℕ
  body : List Tlv
  deriving DecidableEq, Repr

/-! ## Constructors of bodies -/

def newPadnBody (n : UInt32) : PadnBody := ⟨n⟩

def newHelloBody (isLong : Bool) (srcId dstId : UInt64) : HelloBody :=
  { sourceId := srcId, destId := if isLong then dstId else 0, isLong := isLong }

/-- The loop copies sixteen bytes from where `ip` points. -/
def newNeighbourBody (ip : List UInt8) (port : UInt16) : NeighbourBody :=
  ⟨Vector.ofFn fun i => ip.getD i 0, port⟩

def newDataBody (senderId : UInt64) (nonce : UInt32) (type : UInt8)
    (data : List UInt8) (dataLen : ℕ) : DataBody :=
  ⟨senderId, nonce, type, dataLen, data⟩

def newAckBody (senderId : UInt64) (nonce : UInt32) : AckBody := ⟨senderId, nonce⟩

def newGoAwayBody (code : UInt8) (m : List UInt8) (msgLen : ℕ) : GoAwayBody :=
  { code := code
    hasMessage := msgLen > 0
    message := if msgLen > 0 then m else [] }

def newWarningBody (msg : List UInt8) (msgLen : ℕ) : WarningBody := ⟨msgLen, msg⟩

/-! ## Constructors of TLVs -/

def newTlvPad1 : Tlv := ⟨TlvType.pad1.code, 0, .empty, rfl⟩

def newTlvPadn (n : UInt32) : Tlv :=
  ⟨TlvType.padn.code, n.toUInt8, .padn (newPadnBody n), rfl⟩

def newTlvHello (isLong : Bool) (sourceId destId : UInt64) : Tlv :=
  ⟨TlvType.hello.code, 8 + (if isLong then 8 else 0),
    .hello (newHelloBody isLong sourceId destId), rfl⟩

/-- The length is `sizeof(char) * 8 + sizeof(uint16_t)`, as in the source. -/
def newTlvNeighbour (ip : List UInt8) (port : UInt16) : Tlv :=
  ⟨TlvType.neighbour.code, 1 * 8 + 2, .neighbour (newNeighbourBody ip port), rfl⟩

/-- `new_nonce` at the time `s`; `none` is a division by zero. -/
def newNonce (s : ℕ) (id : UInt64) : Option UInt32 :=
  if id.toUInt32 = 0 then none
  else some (UInt32.ofNat ((s ^^^ 2) / id.toUInt32.toNat))

def newTlvDataB (body : DataBody) : Tlv :=
  ⟨TlvType.data.code, UInt8.ofNat (body.dataLen + 8 + 4 + 1), .data body, rfl⟩

/-- `new_tlv_data` at the time `s`, undefined where the nonce is. -/
def newTlvData (s : ℕ) (senderId : UInt64) (type : UInt8) (data : List UInt8)
    (dataLen : ℕ) : Option Tlv :=
  (newNonce s senderId).map fun nonce =>
    ⟨TlvType.data.code, UInt8.ofNat (dataLen + 8 + 4 + 1),
      .data (newDataBody senderId nonce type data dataLen), rfl⟩

def newTlvAck (senderId : UInt64) (nonce : UInt32) : Tlv :=
  ⟨TlvType.ack.code, 8 + 4, .ack (newAckBody senderId nonce), rfl⟩

/-- The length counts the code and not the message. -/
def newTlvGoAway (code : UInt8) (message : List UInt8) (messageLen : ℕ) : Tlv :=
  ⟨TlvType.goAway.code, 1, .goAway (newGoAwayBody code message messageLen), rfl⟩

def newTlvWarning (message : List UInt8) (messageLen : ℕ) : Tlv :=
  ⟨TlvType.warning.code, UInt8.ofNat messageLen,
    .warning (newWarningBody message messageLen), rfl⟩

/-- The nonce aside, `new_tlv_data` builds what `new_tlv_data_b` does. -/
theorem newTlvData_eq_newTlvDataB {s : ℕ} {senderId : UInt64} {type : UInt8}
    {data : List UInt8} {dataLen : ℕ} {t : Tlv}
    (h : newTlvData s senderId type data dataLen = some t) :
    ∃ nonce, t = newTlvDataB (newDataBody senderId nonce type data dataLen) := by
  obtain ⟨nonce, -, rfl⟩ := Option.map_eq_some_iff.mp h
  exact ⟨nonce, rfl⟩

/-- `new_msg`: the length is a running sum in sixteen bits. -/
def newMsg (ts : List Tlv) : Msg where
  magic := 93
  version := 2
  length := ts.foldl (fun len t => len + (1 * 2 + t.length.toUInt16)) 0
  tlvNb := ts.length
  body := ts

/-- **The header's length** is the sum of the TLVs' declared sizes, reduced to
sixteen bits. -/
theorem toNat_length_newMsg (ts : List Tlv) :
    (newMsg ts).length.toNat
      = (ts.map (fun t => 2 + t.length.toNat)).sum % 2 ^ 16 := by
  have hfold : ∀ (len : UInt16),
      (ts.foldl (fun len t => len + (1 * 2 + t.length.toUInt16)) len).toNat
        = (len.toNat + (ts.map (fun t => 2 + t.length.toNat)).sum) % 2 ^ 16 := by
    induction ts with
    | nil =>
      intro len
      simp
    | cons t ts ih =>
      intro len
      have hstep : (len + (1 * 2 + t.length.toUInt16)).toNat
          = (len.toNat + (2 + t.length.toNat)) % 2 ^ 16 := by
        simp [UInt16.toNat_add]
      rw [List.foldl_cons, ih, hstep, List.map_cons, List.sum_cons, Nat.mod_add_mod,
        Nat.add_assoc]
  have h := hfold 0
  rwa [UInt16.toNat_zero, Nat.zero_add] at h

end Miaouchat
