import Miaouchat.RoundTrip

/-!
# The buffer as a log

Through `serial_char`, `serial_short`, `serial_int` and `serial_long` the
growing buffer is a log that is only appended to. A `SerialCall` is a call of
one of the four with its argument, and `AppendOnly` what a buffer has after
calls whose big-endian bytes make up a given log: the cursor and `real_size`
stand after the log, the block is 64 bytes doubled some number of times, and
no count of bytes in it is out of reach of a `size_t`.

`Reserves` is what a run of the loop of `sbuff_reserve_space` is, round by
round. One call keeps `AppendOnly` with its bytes added to the log
(`AppendOnly.serial`), whatever the byte order of the host, and the calls of
`dserial_*` that match, which are given the kinds of the values only, read the log
back (`dserialCalls_eq_some`).
-/

namespace Miaouchat

open Bytes Reader

/-! ## The rounds of the reservation -/

/-- **The loop of `sbuff_reserve_space` takes `b` to `b'` in `k` rounds**: the
test held before each of them, and no longer after the last. -/
structure Reserves (mc : Machine) (bytes k : ℕ) (b b' : Sbuff) : Prop where
  rounds : b' = (Sbuff.double mc)^[k] b
  more : ∀ j < k, ((Sbuff.double mc)^[j] b).next + bytes > ((Sbuff.double mc)^[j] b).size
  done : ¬ b'.next + bytes > b'.size

@[simp] theorem next_double_iterate (mc : Machine) (k : ℕ) (b : Sbuff) :
    ((Sbuff.double mc)^[k] b).next = b.next := by
  induction k generalizing b with
  | zero => rfl
  | succ k ih => exact ih (b.double mc)

@[simp] theorem size_double_iterate (mc : Machine) (k : ℕ) (b : Sbuff) :
    ((Sbuff.double mc)^[k] b).size = 2 ^ k * b.size := by
  induction k generalizing b with
  | zero => simp
  | succ k ih =>
    rw [Function.iterate_succ_apply, ih, Sbuff.size_double]
    ring

/-- The loop with a bound on its rounds takes the rounds the test asks for. -/
theorem reserveLoop_rounds (mc : Machine) (bytes n : ℕ) (b : Sbuff) :
    ∃ k, reserveLoop mc bytes n b = (Sbuff.double mc)^[k] b
      ∧ ∀ j < k, ((Sbuff.double mc)^[j] b).next + bytes > ((Sbuff.double mc)^[j] b).size := by
  induction n generalizing b with
  | zero => exact ⟨0, rfl, by simp⟩
  | succ n ih =>
    rw [reserveLoop]
    split
    · rename_i hmore
      obtain ⟨k, hk, hall⟩ := ih (b.double mc)
      refine ⟨k + 1, hk, fun j hj => ?_⟩
      cases j with
      | zero => exact hmore
      | succ j => exact hall j (Nat.lt_of_succ_lt_succ hj)
    · exact ⟨0, rfl, by simp⟩

/-- **`sbuff_reserve_space` terminates.** -/
theorem reserves_sbuffReserveSpace (mc : Machine) (b : Sbuff) (bytes : ℕ) :
    ∃ k, Reserves mc bytes k b (sbuffReserveSpace mc b bytes) := by
  obtain ⟨k, hk, hall⟩ := reserveLoop_rounds mc bytes (b.next + bytes) b
  obtain ⟨hnext, -, hroom⟩ := sbuffReserveSpace_spec mc b bytes
  exact ⟨k, hk, hall, by omega⟩

/-- **A block of 64 bytes doubled some number of times is one still**, and it
is no longer than 2^63 bytes where what is asked for is less. -/
theorem Reserves.size {mc : Machine} {bytes k m : ℕ} {b b' : Sbuff}
    (h : Reserves mc bytes k b b') (hm : b.size = 64 * 2 ^ m) (hb : b.size ≤ 2 ^ 63)
    (hlt : b.next + bytes < 2 ^ 63) : b'.size = 64 * 2 ^ (k + m) ∧ b'.size ≤ 2 ^ 63 := by
  have hsize : b'.size = 2 ^ k * b.size := by rw [h.rounds, size_double_iterate]
  refine ⟨by rw [hsize, hm, pow_add]; ring, ?_⟩
  cases k with
  | zero => rwa [hsize, pow_zero, one_mul]
  | succ k =>
    have hlast := h.more k (Nat.lt_succ_self k)
    rw [next_double_iterate, size_double_iterate] at hlast
    have hpow : 2 ^ k * b.size = 2 ^ (k + m + 6) := by rw [hm, pow_add, pow_add]; ring
    have hexp : k + m + 6 < 63 :=
      (Nat.pow_lt_pow_iff_right (by decide)).mp (hpow.symm.trans_lt (hlast.trans hlt))
    calc b'.size = 2 ^ (k + m + 6 + 1) := by rw [hsize, pow_succ, pow_succ, ← hpow]; ring
      _ ≤ 2 ^ 63 := Nat.pow_le_pow_right (by decide) hexp

/-! ## The calls -/

/-- The integers that there are functions for. -/
inductive SerialKind
  | char
  | short
  | int
  | long
  deriving DecidableEq, Repr

/-- A call of one of the four integer functions, with its argument. -/
inductive SerialCall
  | char (c : UInt8)
  | short (s : UInt16)
  | int (i : UInt32)
  | long (l : UInt64)
  deriving DecidableEq, Repr

/-- The call of `dserial_*` for a value of the kind, and what it returns. -/
def SerialKind.dserial (mc : Machine) : SerialKind → Reader UInt8 SerialCall
  | char => return .char (← dserialChar)
  | short => return .short (← dserialShort mc)
  | int => return .int (← dserialInt mc)
  | long => return .long (← dserialLong mc)

namespace SerialCall

def kind : SerialCall → SerialKind
  | char _ => .char
  | short _ => .short
  | int _ => .int
  | long _ => .long

/-- The call, made on a buffer. -/
def serial (mc : Machine) : SerialCall → Sbuff → Sbuff
  | char c => serialChar mc c
  | short s => serialShort mc s
  | int i => serialInt mc i
  | long l => serialLong mc l

/-- The `sizeof` of the argument. -/
def width : SerialCall → ℕ
  | char _ => 1
  | short _ => 2
  | int _ => 4
  | long _ => 8

/-- **The big-endian encoding of the argument.** -/
def bytes : SerialCall → List UInt8
  | char c => beBytes 1 c.toNat
  | short s => beBytes 2 s.toNat
  | int i => beBytes 4 i.toNat
  | long l => beBytes 8 l.toNat

@[simp] theorem length_bytes (c : SerialCall) : c.bytes.length = c.width := by
  cases c <;> exact length_beBytes _ _

theorem bytes_char (c : UInt8) : (char c).bytes = [c] := by
  show [UInt8.ofNat c.toNat] = [c]
  rw [UInt8.ofNat_toNat]

/-- **Every one of the four calls puts its big-endian bytes**, on either
host. -/
theorem serial_eq_put (mc : Machine) (c : SerialCall) (b : Sbuff) :
    c.serial mc b = b.put mc c.bytes := by
  cases c with
  | char c => rw [bytes_char]; rfl
  | short s => exact congrArg (b.put mc) (inMemory_htons mc.endian s)
  | int i => exact congrArg (b.put mc) (inMemory_htonl mc.endian i)
  | long l => exact congrArg (b.put mc) (inMemory_htonll mc.endian l)

/-- **A value is read back where its bytes are next**, on either host. -/
theorem dserial_eq_some (mc : Machine) (c : SerialCall) {cur : Cursor UInt8}
    {more : List UInt8} (h : cur.rest = c.bytes ++ more) :
    c.kind.dserial mc cur = some (c, cur.skip c.width) := by
  cases c with
  | char c =>
    rw [bytes_char] at h
    exact (takes_dserialChar.map char).eq_some [c] h rfl
  | short s =>
    rw [kind, SerialKind.dserial,
      ((takes_dserialShort mc).map short).eq_some _ h (length_beBytes 2 _), bytes,
      ofNat_ofBE_beBytes_short, width]
  | int i =>
    rw [kind, SerialKind.dserial,
      ((takes_dserialInt mc).map int).eq_some _ h (length_beBytes 4 _), bytes,
      ofNat_ofBE_beBytes_int, width]
  | long l =>
    rw [kind, SerialKind.dserial,
      ((takes_dserialLong mc).map long).eq_some _ h (length_beBytes 8 _), bytes,
      ofNat_ofBE_beBytes_long, width]

end SerialCall

/-- The calls made one after the other on a buffer. -/
def serialCalls (mc : Machine) : List SerialCall → Sbuff → Sbuff
  | [], b => b
  | c :: cs, b => serialCalls mc cs (c.serial mc b)

/-- The calls of `dserial_*` for values of these kinds. -/
def dserialCalls (mc : Machine) : List SerialKind → Reader UInt8 (List SerialCall)
  | [] => return []
  | k :: ks => do
    let v ← k.dserial mc
    let vs ← dserialCalls mc ks
    return v :: vs

/-- The encodings of the arguments, in the order of the calls. -/
def logOf (calls : List SerialCall) : List UInt8 := calls.flatMap SerialCall.bytes

theorem logOf_cons (c : SerialCall) (cs : List SerialCall) :
    logOf (c :: cs) = c.bytes ++ logOf cs :=
  List.flatMap_cons

theorem length_logOf (cs : List SerialCall) :
    (logOf cs).length = (cs.map SerialCall.width).sum := by
  simp only [logOf, List.length_flatMap, SerialCall.length_bytes]

/-- **The matching calls read the log back.** -/
theorem dserialCalls_eq_some (mc : Machine) (calls : List SerialCall) {cur : Cursor UInt8}
    {more : List UInt8} (h : cur.rest = logOf calls ++ more) :
    dserialCalls mc (calls.map SerialCall.kind) cur
      = some (calls, cur.skip (logOf calls).length) := by
  induction calls generalizing cur with
  | nil => rfl
  | cons c cs ih =>
    rw [logOf_cons, List.append_assoc] at h
    have hread := c.dserial_eq_some mc h
    have hrest : (cur.skip c.width).rest = logOf cs ++ more := by
      rw [Cursor.rest_skip, h, ← c.length_bytes, List.drop_left]
    have hbind : dserialCalls mc ((c :: cs).map SerialCall.kind) cur
        = (c.kind.dserial mc cur).bind fun p =>
            (dserialCalls mc (cs.map SerialCall.kind) p.2).bind fun q =>
              some (p.1 :: q.1, q.2) := rfl
    rw [hbind, hread, Option.bind_some, ih hrest, Option.bind_some, Cursor.skip_skip,
      logOf_cons, List.length_append, c.length_bytes]

/-! ## The log -/

/-- **The buffer holds the log and nothing more**: cursor and `real_size` are
after it, inside a block of 64 bytes doubled some number of times. -/
structure AppendOnly (b : Sbuff) (log : List UInt8) : Prop where
  next_eq : b.next = b.realSize
  real_le : b.realSize ≤ b.size
  doubled : ∃ k, b.size = 64 * 2 ^ k
  size_le : b.size ≤ 2 ^ 63
  bytes : b.data.take b.next = log

theorem appendOnly_newSbuff (mc : Machine) : AppendOnly (newSbuff mc) [] where
  next_eq := rfl
  real_le := Nat.zero_le _
  doubled := ⟨0, by simp [Sbuff.size, newSbuff]⟩
  size_le := by simp [Sbuff.size, newSbuff]
  bytes := rfl

theorem AppendOnly.next_eq_length {b : Sbuff} {log : List UInt8} (h : AppendOnly b log) :
    b.next = log.length := by
  rw [← h.bytes, List.length_take, min_eq_left b.next_le]

/-- A copy into a block with room leaves its size. -/
theorem size_put (mc : Machine) (bytes : List UInt8) (b : Sbuff) :
    (b.put mc bytes).size = (sbuffReserveSpace mc b bytes.length).size := by
  obtain ⟨-, -, hroom⟩ := sbuffReserveSpace_spec mc b bytes.length
  obtain ⟨hnext, -⟩ := reserveLoop_keeps mc bytes.length (b.next + bytes.length) b
  set b' := sbuffReserveSpace mc b bytes.length with hb'
  have hnext' : b'.next = b.next := hnext
  show (b'.data.take b'.next ++ bytes ++ b'.data.drop (b'.next + bytes.length)).length
    = b'.data.length
  have hroom' : b'.next + bytes.length ≤ b'.data.length := by rw [hnext']; exact hroom
  simp only [List.length_append, List.length_take, List.length_drop]
  omega

/-- **What one call does to a buffer that holds a log**: the loop of
`sbuff_reserve_space` ends, the bytes fit where they are copied, and the log
is longer by them. -/
structure Appends (mc : Machine) (c : SerialCall) (b : Sbuff) (log : List UInt8) : Prop where
  before : AppendOnly b log
  reserves : ∃ k, Reserves mc c.width k b (sbuffReserveSpace mc b c.width)
  fits : (sbuffReserveSpace mc b c.width).next + c.width ≤ (sbuffReserveSpace mc b c.width).size
  after : AppendOnly (c.serial mc b) (log ++ c.bytes)

/-- **One call appends its bytes to the log.** -/
theorem AppendOnly.serial {b : Sbuff} {log : List UInt8} (mc : Machine) (c : SerialCall)
    (h : AppendOnly b log) (hlt : log.length + c.width < 2 ^ 63) : Appends mc c b log := by
  obtain ⟨k, hk⟩ := reserves_sbuffReserveSpace mc b c.width
  obtain ⟨m, hm⟩ := h.doubled
  obtain ⟨hsize, hle⟩ := hk.size hm h.size_le (by rw [h.next_eq_length]; exact hlt)
  have hput : (c.serial mc b).size = (sbuffReserveSpace mc b c.width).size := by
    rw [c.serial_eq_put, size_put, c.length_bytes]
  refine ⟨h, ⟨k, hk⟩, Nat.le_of_not_lt hk.done, ?_⟩
  refine ⟨(c.serial mc b).real_eq.symm, ?_, ⟨k + m, hput.trans hsize⟩, hput.trans_le hle, ?_⟩
  · rw [(c.serial mc b).real_eq]
    exact (c.serial mc b).next_le
  · have hwritten : (c.serial mc b).written = b.written ++ c.bytes := by
      rw [c.serial_eq_put, written_put]
    rw [← (c.serial mc b).real_eq, ← h.bytes, ← b.real_eq]
    exact hwritten

/-- **Calls one after the other append their bytes one after the other.** -/
theorem AppendOnly.serialCalls {b : Sbuff} {log : List UInt8} (mc : Machine)
    (calls : List SerialCall) (h : AppendOnly b log)
    (hlt : log.length + (logOf calls).length < 2 ^ 63) :
    AppendOnly (serialCalls mc calls b) (log ++ logOf calls) := by
  induction calls generalizing b log with
  | nil => simpa [logOf, Miaouchat.serialCalls] using h
  | cons c cs ih =>
    rw [logOf_cons, List.length_append, c.length_bytes] at hlt
    rw [logOf_cons, ← List.append_assoc]
    refine ih (h.serial mc c (by omega)).after ?_
    rw [List.length_append, c.length_bytes]
    omega

/-- **The growing buffer is an append-only big-endian log.** Every call of a
sequence finds room for its bytes and appends them, and the calls of `dserial_*`
for the kinds of the values, on what was written, return the values, on a host of
either byte order. -/
theorem serialCalls_appends (mc mc' : Machine) (calls : List SerialCall)
    (hlt : (calls.map SerialCall.width).sum < 2 ^ 63) :
    (∀ cs c cs', calls = cs ++ c :: cs' →
        Appends mc c (serialCalls mc cs (newSbuff mc)) (logOf cs))
      ∧ AppendOnly (serialCalls mc calls (newSbuff mc)) (logOf calls)
      ∧ dserialCalls mc' (calls.map SerialCall.kind)
            (newDsbuff (serialCalls mc calls (newSbuff mc)).written)
          = some (calls, (newDsbuff (logOf calls)).skip (logOf calls).length) := by
  have hlog : ∀ cs, (logOf cs).length < 2 ^ 63 →
      AppendOnly (serialCalls mc cs (newSbuff mc)) (logOf cs) := fun cs hcs =>
    (appendOnly_newSbuff mc).serialCalls mc cs (by simpa using hcs)
  have hall := hlog calls (by rw [length_logOf]; exact hlt)
  refine ⟨?_, hall, ?_⟩
  · rintro cs c cs' rfl
    rw [List.map_append, List.map_cons, List.sum_append, List.sum_cons, ← length_logOf cs] at hlt
    exact (hlog cs (by omega)).serial mc c (by omega)
  · have hwritten : (serialCalls mc calls (newSbuff mc)).written = logOf calls := by
      rw [← hall.bytes, hall.next_eq]
      rfl
    have hrest : (newDsbuff (logOf calls)).rest = logOf calls ++ [] := by
      rw [rest_newDsbuff, List.append_nil]
    rw [hwritten]
    exact dserialCalls_eq_some mc' calls hrest

/-- Sixty bytes, and then a long that straddles the end of the first block. -/
def straddlingCalls : List SerialCall := List.replicate 7 (.long 1) ++ [.int 2, .long 3]

/-- They are written on a little-endian host. -/
theorem serialCalls_appends_straddling :
    AppendOnly (serialCalls ⟨.little, fun _ => 0⟩ straddlingCalls (newSbuff ⟨.little, fun _ => 0⟩))
      (logOf straddlingCalls) :=
  (serialCalls_appends ⟨.little, fun _ => 0⟩ ⟨.big, fun _ => 0⟩ straddlingCalls (by decide)).2.1

end Miaouchat
