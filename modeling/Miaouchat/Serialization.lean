import Miaouchat.Types

/-!
# The encoder

`serialization.c` writes a message into a buffer that grows by doubling. Every
`serial_*` function ends in the same three steps – reserve room, copy the
bytes, move the cursor – so they are one function here, `Sbuff.put`, applied
to the bytes each of them copies. `Sbuff` carries what makes the copies safe:
the block is not empty, the cursor is inside it, and `real_size` is the
cursor.

The bytes an integer function copies are the host's own, after `htons`,
`htonl` or the macro `htonll`; on both byte orders they are the big-endian
bytes of the argument (`inMemory_htons`, `inMemory_htonl`, `inMemory_htonll`).

`serial_str` is the exception. It copies from `&s`, the address of its own
parameter, and not from `s`. What it writes is the eight bytes of the pointer,
in the host's order, and then whatever the stack holds above the parameter.
`Frame` is that piece of memory, and the bytes `s` points to play no part.

`TlvBody.wire` says which bytes a body leaves on the wire, and
`written_serialTlv` and `written_serialMsg` that the functions write them.
-/

namespace Miaouchat

open Bytes

/-! ## Byte order -/

def htons (e : Endian) (s : UInt16) : UInt16 :=
  UInt16.ofNat (ofMemory e (beBytes 2 s.toNat))

def htonl (e : Endian) (l : UInt32) : UInt32 :=
  UInt32.ofNat (ofMemory e (beBytes 4 l.toNat))

/-- The macro `htonll`, with its branch for either byte order. -/
def htonll (e : Endian) (x : UInt64) : UInt64 :=
  if 1 = htonl e 1 then x
  else ((htonl e (x &&& 0xFFFFFFFF).toUInt32).toUInt64 <<< 32)
    ||| (htonl e (x >>> 32).toUInt32).toUInt64

theorem inMemory_htons (e : Endian) (s : UInt16) :
    inMemory e 2 (htons e s).toNat = beBytes 2 s.toNat := by
  have hlt : ofMemory e (beBytes 2 s.toNat) < 2 ^ 16 :=
    (ofMemory_lt e _).trans_eq (by rw [length_beBytes]; rfl)
  have h := inMemory_ofMemory e (beBytes 2 s.toNat)
  rw [length_beBytes] at h
  rw [htons, UInt16.toNat_ofNat', Nat.mod_eq_of_lt hlt, h]

theorem inMemory_htonl (e : Endian) (l : UInt32) :
    inMemory e 4 (htonl e l).toNat = beBytes 4 l.toNat := by
  have hlt : ofMemory e (beBytes 4 l.toNat) < 2 ^ 32 :=
    (ofMemory_lt e _).trans_eq (by rw [length_beBytes]; rfl)
  have h := inMemory_ofMemory e (beBytes 4 l.toNat)
  rw [length_beBytes] at h
  rw [htonl, UInt32.toNat_ofNat', Nat.mod_eq_of_lt hlt, h]

/-- The two halves of an eight-byte integer put together by shift and or. -/
theorem toNat_shiftLeft_or (a b : UInt32) :
    ((a.toUInt64 <<< 32) ||| b.toUInt64).toNat = b.toNat + 256 ^ 4 * a.toNat := by
  have ha := a.toNat_lt
  have hb := b.toNat_lt
  have hshift : a.toNat <<< 32 % 2 ^ 64 = a.toNat <<< 32 :=
    Nat.mod_eq_of_lt (by rw [Nat.shiftLeft_eq]; omega)
  have hor : (a.toNat <<< 32) ||| b.toNat = a.toNat <<< 32 + b.toNat :=
    (Nat.shiftLeft_add_eq_or_of_lt hb a.toNat).symm
  rw [UInt64.toNat_or, UInt64.toNat_shiftLeft, UInt32.toNat_toUInt64,
    UInt32.toNat_toUInt64]
  show a.toNat <<< 32 % 2 ^ 64 ||| b.toNat = _
  rw [hshift, hor, Nat.shiftLeft_eq]
  omega

/-- **`htonll` swaps an eight-byte integer into network order on either
host.** On a little-endian one the two swapped halves trade places. -/
theorem inMemory_htonll (e : Endian) (x : UInt64) :
    inMemory e 8 (htonll e x).toNat = beBytes 8 x.toNat := by
  cases e with
  | big =>
    rw [htonll, if_pos (by decide)]
    rfl
  | little =>
    rw [htonll, if_neg (by decide), toNat_shiftLeft_or]
    set lo : UInt32 := (x &&& 0xFFFFFFFF).toUInt32 with hlo
    set hi : UInt32 := (x >>> 32).toUInt32 with hhi
    have hlov : lo.toNat = x.toNat % 256 ^ 4 := by
      rw [hlo, UInt64.toNat_toUInt32, UInt64.toNat_and]
      show (x.toNat &&& (2 ^ 32 - 1)) % 2 ^ 32 = _
      rw [Nat.and_two_pow_sub_one_eq_mod, Nat.mod_mod]
      rfl
    have hhiv : hi.toNat = x.toNat / 256 ^ 4 := by
      have hx := x.toNat_lt
      rw [hhi, UInt64.toNat_toUInt32, UInt64.toNat_shiftRight]
      show x.toNat >>> 32 % 2 ^ 32 = _
      rw [Nat.shiftRight_eq_div_pow]
      omega
    have hlow := inMemory_htonl .little lo
    have hhigh := inMemory_htonl .little hi
    have hb : (htonl .little hi).toNat < 256 ^ 4 := (htonl .little hi).toNat_lt
    show leBytes (4 + 4) _ = beBytes (4 + 4) _
    rw [leBytes_add, beBytes_add, ← leBytes_mod 4, Nat.add_mul_mod_self_left,
      Nat.mod_eq_of_lt hb, Nat.add_mul_div_left _ _ (by norm_num),
      Nat.div_eq_of_lt hb, Nat.zero_add, ← beBytes_mod 4 x.toNat, ← hlov, ← hhiv]
    exact congrArg₂ (· ++ ·) hhigh hlow

/-! ## The buffer -/

/-- What the program runs on: the byte order, and the bytes a fresh block of
memory holds before anything is written to it. -/
structure Machine where
  endian : Endian
  fresh : ℕ → UInt8

/-- A buffer being written, `sbuff_t` from `new_sbuff`. The field `size` of
the source is the length of the allocated block. -/
structure Sbuff where
  data : List UInt8
  next : ℕ
  realSize : ℕ
  /-- The block is not empty, so doubling it makes room. -/
  size_pos : 0 < data.length
  /-- The cursor is inside the block. -/
  next_le : next ≤ data.length
  /-- Everything before the cursor has been written. -/
  real_eq : realSize = next

namespace Sbuff

def size (b : Sbuff) : ℕ := b.data.length

/-- What has been written, and what `sendto` sends. -/
def written (b : Sbuff) : List UInt8 := b.data.take b.realSize

theorem length_written (b : Sbuff) : b.written.length = b.next := by
  rw [written, b.real_eq, List.length_take, min_eq_left b.next_le]

/-- `realloc(data, size * 2)`: the contents stay and the new half is fresh. -/
def double (mc : Machine) (b : Sbuff) : Sbuff where
  data := b.data ++ (List.range b.size).map (fun i => mc.fresh (b.size + i))
  next := b.next
  realSize := b.realSize
  size_pos := by
    rw [List.length_append]
    exact Nat.add_pos_left b.size_pos _
  next_le := by
    rw [List.length_append]
    exact b.next_le.trans (Nat.le_add_right _ _)
  real_eq := b.real_eq

@[simp] theorem size_double (mc : Machine) (b : Sbuff) :
    (b.double mc).size = 2 * b.size := by
  simp [size, double]
  omega

end Sbuff

/-- `SBUFF_INIT_SIZE` bytes, none of them written. -/
def newSbuff (mc : Machine) : Sbuff where
  data := (List.range 64).map mc.fresh
  next := 0
  realSize := 0
  size_pos := by simp
  next_le := Nat.zero_le _
  real_eq := rfl

@[simp] theorem written_newSbuff (mc : Machine) : (newSbuff mc).written = [] := rfl

/-- The `while` of `sbuff_reserve_space`, with a bound on its rounds. -/
def reserveLoop (mc : Machine) (bytes : ℕ) : ℕ → Sbuff → Sbuff
  | 0, b => b
  | n + 1, b =>
    if b.next + bytes > b.size then reserveLoop mc bytes n (b.double mc) else b

/-- `sbuff_reserve_space`. The block at least doubles in each round, so
`next + bytes` rounds are more than it takes (`sbuffReserveSpace_spec`). -/
def sbuffReserveSpace (mc : Machine) (b : Sbuff) (bytes : ℕ) : Sbuff :=
  reserveLoop mc bytes (b.next + bytes) b

/-- One round keeps the cursor and what is written. -/
theorem reserveLoop_keeps (mc : Machine) (bytes n : ℕ) (b : Sbuff) :
    (reserveLoop mc bytes n b).next = b.next
      ∧ (reserveLoop mc bytes n b).written = b.written := by
  induction n generalizing b with
  | zero => exact ⟨rfl, rfl⟩
  | succ n ih =>
    rw [reserveLoop]
    split
    · obtain ⟨hnext, hwritten⟩ := ih (b.double mc)
      refine ⟨hnext, hwritten.trans ?_⟩
      unfold Sbuff.written
      show (b.data ++ _).take b.realSize = b.data.take b.realSize
      rw [List.take_append_of_le_length]
      exact b.real_eq.le.trans b.next_le
    · exact ⟨rfl, rfl⟩

/-- Rounds enough to reach the size asked for end the loop. -/
theorem reserveLoop_room (mc : Machine) (bytes n : ℕ) (b : Sbuff)
    (h : b.next + bytes < b.size + n + 1) :
    b.next + bytes ≤ (reserveLoop mc bytes n b).size := by
  induction n generalizing b with
  | zero =>
    rw [reserveLoop]
    omega
  | succ n ih =>
    rw [reserveLoop]
    split
    · have hpos : 0 < b.size := b.size_pos
      refine ih (b.double mc) ?_
      rw [Sbuff.size_double]
      show b.next + bytes < _
      omega
    · omega

/-- **`sbuff_reserve_space` ends**, with room for what was asked, the cursor
where it was and the contents kept. -/
theorem sbuffReserveSpace_spec (mc : Machine) (b : Sbuff) (bytes : ℕ) :
    (sbuffReserveSpace mc b bytes).next = b.next
      ∧ (sbuffReserveSpace mc b bytes).written = b.written
      ∧ b.next + bytes ≤ (sbuffReserveSpace mc b bytes).size := by
  obtain ⟨hnext, hwritten⟩ := reserveLoop_keeps mc bytes (b.next + bytes) b
  exact ⟨hnext, hwritten, reserveLoop_room mc bytes _ b (by omega)⟩

/-- The three steps of every `serial_*` function: reserve room for the bytes,
copy them at the cursor, move `next` and `real_size` past them. -/
def Sbuff.put (mc : Machine) (bytes : List UInt8) (b : Sbuff) : Sbuff :=
  let b' := sbuffReserveSpace mc b bytes.length
  { data := b'.data.take b'.next ++ bytes ++ b'.data.drop (b'.next + bytes.length)
    next := b'.next + bytes.length
    realSize := b'.realSize + bytes.length
    size_pos := by
      have hpos := b'.size_pos
      have hle := b'.next_le
      simp only [List.length_append, List.length_take, List.length_drop]
      omega
    next_le := by
      have hle := b'.next_le
      simp only [List.length_append, List.length_take, List.length_drop]
      omega
    real_eq := congrArg (· + bytes.length) b'.real_eq }

/-- **What a copy leaves written** is what was written, then the bytes. -/
@[simp] theorem written_put (mc : Machine) (bytes : List UInt8) (b : Sbuff) :
    (b.put mc bytes).written = b.written ++ bytes := by
  obtain ⟨-, hwritten, -⟩ := sbuffReserveSpace_spec mc b bytes.length
  set b' := sbuffReserveSpace mc b bytes.length with hb'
  have hreal : b'.realSize = (b'.data.take b'.next).length := by
    rw [List.length_take, min_eq_left b'.next_le, b'.real_eq]
  rw [← hwritten]
  show (b'.data.take b'.next ++ bytes ++ b'.data.drop (b'.next + bytes.length)).take
      (b'.realSize + bytes.length) = b'.data.take b'.realSize ++ bytes
  rw [List.take_left' (by rw [List.length_append, hreal]), b'.real_eq]

/-! ## The functions of the encoder -/

/-- The memory from the address of `serial_str`'s parameter `s` upward: the
pointer itself, then the stack above it. -/
structure Frame where
  ptr : UInt64
  stack : ℕ → UInt8

/-- The first `n` bytes of that memory. -/
def Frame.bytes (e : Endian) (fr : Frame) (n : ℕ) : List UInt8 :=
  (inMemory e 8 fr.ptr.toNat ++ (List.range (n - 8)).map fr.stack).take n

@[simp] theorem Frame.length_bytes (e : Endian) (fr : Frame) (n : ℕ) :
    (fr.bytes e n).length = n := by
  rw [Frame.bytes, List.length_take, List.length_append, length_inMemory,
    List.length_map, List.length_range]
  omega

/-- `strlen` of a NUL-terminated string. -/
def strlen (s : List UInt8) : ℕ := (s.takeWhile (· ≠ 0)).length

def serialChar (mc : Machine) (c : UInt8) (b : Sbuff) : Sbuff := b.put mc [c]

def serialShort (mc : Machine) (s : UInt16) (b : Sbuff) : Sbuff :=
  b.put mc (inMemory mc.endian 2 (htons mc.endian s).toNat)

def serialInt (mc : Machine) (i : UInt32) (b : Sbuff) : Sbuff :=
  b.put mc (inMemory mc.endian 4 (htonl mc.endian i).toNat)

def serialLong (mc : Machine) (l : UInt64) (b : Sbuff) : Sbuff :=
  b.put mc (inMemory mc.endian 8 (htonll mc.endian l).toNat)

/-- `serial_str` copies `str_len` bytes from `&s`. -/
def serialStr (mc : Machine) (fr : Frame) (_s : List UInt8) (strLen : ℕ)
    (b : Sbuff) : Sbuff :=
  b.put mc (fr.bytes mc.endian strLen)

def serialPadnBody (mc : Machine) (e : PadnBody) (b : Sbuff) : Sbuff :=
  (serialChar mc 0)^[e.zeroes.toNat] b

def serialHelloBody (mc : Machine) (e : HelloBody) (b : Sbuff) : Sbuff :=
  let b := serialLong mc e.sourceId b
  if e.isLong then serialLong mc e.destId b else b

def serialNeighbourBody (mc : Machine) (fr : Frame) (e : NeighbourBody)
    (b : Sbuff) : Sbuff :=
  serialShort mc e.port (serialStr mc fr e.ip.toList 16 b)

def serialDataBody (mc : Machine) (fr : Frame) (e : DataBody) (b : Sbuff) : Sbuff :=
  let b := serialLong mc e.senderId b
  let b := serialInt mc e.nonce b
  let b := serialChar mc e.type b
  serialStr mc fr e.data e.dataLen b

def serialAckBody (mc : Machine) (e : AckBody) (b : Sbuff) : Sbuff :=
  serialInt mc e.nonce (serialLong mc e.senderId b)

def serialGoAwayBody (mc : Machine) (fr : Frame) (e : GoAwayBody) (b : Sbuff) :
    Sbuff :=
  let b := serialChar mc e.code b
  if e.hasMessage then serialStr mc fr e.message (strlen e.message) b else b

def serialWarningBody (mc : Machine) (fr : Frame) (e : WarningBody) (b : Sbuff) :
    Sbuff :=
  serialStr mc fr e.message (strlen e.message) b

def serialTlv (mc : Machine) (fr : Frame) (t : Tlv) (b : Sbuff) : Sbuff :=
  let b := serialChar mc t.type b
  let b := serialChar mc t.length b
  match t.body with
  | .empty => b
  | .padn e => serialPadnBody mc e b
  | .hello e => serialHelloBody mc e b
  | .neighbour e => serialNeighbourBody mc fr e b
  | .data e => serialDataBody mc fr e b
  | .ack e => serialAckBody mc e b
  | .goAway e => serialGoAwayBody mc fr e b
  | .warning e => serialWarningBody mc fr e b

/-- The loop of `serial_msg` over the TLVs; `fr i` is the memory that
`serial_str` finds while the TLV of index `i` is written. -/
def serialTlvs (mc : Machine) (fr : ℕ → Frame) : ℕ → List Tlv → Sbuff → Sbuff
  | _, [], b => b
  | i, t :: ts, b => serialTlvs mc fr (i + 1) ts (serialTlv mc (fr i) t b)

def serialMsg (mc : Machine) (fr : ℕ → Frame) (m : Msg) (b : Sbuff) : Sbuff :=
  let b := serialChar mc m.magic b
  let b := serialChar mc m.version b
  let b := serialShort mc m.length b
  serialTlvs mc fr 0 m.body b

/-! ## What is on the wire -/

/-- The bytes a body leaves on the wire. -/
def TlvBody.wire (e : Endian) (fr : Frame) : TlvBody → List UInt8
  | .empty => []
  | .padn b => List.replicate b.zeroes.toNat 0
  | .hello b =>
    beBytes 8 b.sourceId.toNat ++ if b.isLong then beBytes 8 b.destId.toNat else []
  | .neighbour b => fr.bytes e 16 ++ beBytes 2 b.port.toNat
  | .data b =>
    beBytes 8 b.senderId.toNat ++ beBytes 4 b.nonce.toNat ++ [b.type]
      ++ fr.bytes e b.dataLen
  | .ack b => beBytes 8 b.senderId.toNat ++ beBytes 4 b.nonce.toNat
  | .goAway b => b.code :: if b.hasMessage then fr.bytes e (strlen b.message) else []
  | .warning b => fr.bytes e (strlen b.message)

/-- The bytes a TLV leaves on the wire: type, length byte, body. -/
def Tlv.wire (e : Endian) (fr : Frame) (t : Tlv) : List UInt8 :=
  t.type :: t.length :: t.body.wire e fr

/-- The bytes of a sequence of TLVs, the first of them of index `i`. -/
def tlvsWire (e : Endian) (fr : ℕ → Frame) : ℕ → List Tlv → List UInt8
  | _, [] => []
  | i, t :: ts => t.wire e (fr i) ++ tlvsWire e fr (i + 1) ts

section Written

variable (mc : Machine) (fr : Frame) (b : Sbuff)

@[simp] theorem written_serialChar (c : UInt8) :
    (serialChar mc c b).written = b.written ++ [c] :=
  written_put mc _ b

@[simp] theorem written_serialShort (s : UInt16) :
    (serialShort mc s b).written = b.written ++ beBytes 2 s.toNat := by
  rw [serialShort, written_put, inMemory_htons]

@[simp] theorem written_serialInt (i : UInt32) :
    (serialInt mc i b).written = b.written ++ beBytes 4 i.toNat := by
  rw [serialInt, written_put, inMemory_htonl]

@[simp] theorem written_serialLong (l : UInt64) :
    (serialLong mc l b).written = b.written ++ beBytes 8 l.toNat := by
  rw [serialLong, written_put, inMemory_htonll]

/-- **`serial_str` writes its own frame**, whatever the string. -/
@[simp] theorem written_serialStr (s : List UInt8) (n : ℕ) :
    (serialStr mc fr s n b).written = b.written ++ fr.bytes mc.endian n :=
  written_put mc _ b

theorem written_serialPadnBody (e : PadnBody) :
    (serialPadnBody mc e b).written = b.written ++ List.replicate e.zeroes.toNat 0 := by
  unfold serialPadnBody
  generalize e.zeroes.toNat = n
  induction n with
  | zero => simp
  | succ n ih =>
    rw [Function.iterate_succ_apply', written_serialChar, ih, List.append_assoc,
      List.replicate_succ']

/-- **A TLV is written as its wire bytes.** -/
theorem written_serialTlv (t : Tlv) :
    (serialTlv mc fr t b).written = b.written ++ t.wire mc.endian fr := by
  unfold serialTlv Tlv.wire
  cases t.body with
  | empty => simp [TlvBody.wire]
  | padn e => simp [TlvBody.wire, written_serialPadnBody]
  | hello e => cases hl : e.isLong <;> simp [serialHelloBody, TlvBody.wire, hl]
  | neighbour e => simp [serialNeighbourBody, TlvBody.wire]
  | data e => simp [serialDataBody, TlvBody.wire]
  | ack e => simp [serialAckBody, TlvBody.wire]
  | goAway e => cases hm : e.hasMessage <;> simp [serialGoAwayBody, TlvBody.wire, hm]
  | warning e => simp [serialWarningBody, TlvBody.wire]

end Written

theorem written_serialTlvs (mc : Machine) (fr : ℕ → Frame) (i : ℕ) (ts : List Tlv)
    (b : Sbuff) :
    (serialTlvs mc fr i ts b).written = b.written ++ tlvsWire mc.endian fr i ts := by
  induction ts generalizing i b with
  | nil => simp [serialTlvs, tlvsWire]
  | cons t ts ih =>
    rw [serialTlvs, ih, written_serialTlv, tlvsWire, List.append_assoc]

/-- **A message is written as its header and the wire bytes of its TLVs.** -/
theorem written_serialMsg (mc : Machine) (fr : ℕ → Frame) (m : Msg) (b : Sbuff) :
    (serialMsg mc fr m b).written
      = b.written ++ [m.magic, m.version] ++ beBytes 2 m.length.toNat
        ++ tlvsWire mc.endian fr 0 m.body := by
  unfold serialMsg
  simp [written_serialTlvs]

end Miaouchat
