import Mathlib

/-!
# Integers as byte strings

A fixed-width unsigned integer travels as a string of bytes, and two orders
of those bytes matter: the order in which a host keeps them in memory, which
is the host's business, and the order of the network, which is most
significant byte first. `leBytes w n` and `beBytes w n` are the two strings
of `w` bytes for the integer `n`, and `ofLE` and `ofBE` read them back.

`ofBE_beBytes` and `leBytes_ofLE` say the two directions are inverse on
integers that fit, and `leBytes_add` splits a string at any byte, which is
how an eight-byte integer is handled as two four-byte halves.
-/

namespace Bytes

/-- The `w` low-order bytes of `n`, least significant first. -/
def leBytes : ℕ → ℕ → List UInt8
  | 0, _ => []
  | w + 1, n => UInt8.ofNat n :: leBytes w (n / 256)

/-- The `w` low-order bytes of `n`, most significant first. -/
def beBytes (w n : ℕ) : List UInt8 := (leBytes w n).reverse

/-- The integer a byte string denotes, least significant byte first. -/
def ofLE : List UInt8 → ℕ
  | [] => 0
  | b :: bs => b.toNat + 256 * ofLE bs

/-- The integer a byte string denotes, most significant byte first. -/
def ofBE (bs : List UInt8) : ℕ := ofLE bs.reverse

@[simp] theorem length_leBytes (w n : ℕ) : (leBytes w n).length = w := by
  induction w generalizing n with
  | zero => rfl
  | succ w ih => rw [leBytes, List.length_cons, ih]

@[simp] theorem length_beBytes (w n : ℕ) : (beBytes w n).length = w := by
  rw [beBytes, List.length_reverse, length_leBytes]

/-- Reading back the low-order bytes gives the integer modulo their range. -/
theorem ofLE_leBytes (w n : ℕ) : ofLE (leBytes w n) = n % 256 ^ w := by
  induction w generalizing n with
  | zero => simp [leBytes, ofLE, Nat.mod_one]
  | succ w ih =>
    rw [leBytes, ofLE, ih, UInt8.toNat_ofNat', pow_succ 256 w,
      mul_comm (256 ^ w) 256, Nat.mod_mul]

/-- An integer that fits is read back from its big-endian bytes. -/
theorem ofBE_beBytes {w n : ℕ} (h : n < 256 ^ w) : ofBE (beBytes w n) = n := by
  rw [ofBE, beBytes, List.reverse_reverse, ofLE_leBytes, Nat.mod_eq_of_lt h]

/-- A byte string denotes an integer of its width. -/
theorem ofLE_lt (bs : List UInt8) : ofLE bs < 256 ^ bs.length := by
  induction bs with
  | nil => simp [ofLE]
  | cons b bs ih =>
    have hb := b.toNat_lt
    rw [ofLE, List.length_cons, pow_succ]
    omega

theorem ofBE_lt (bs : List UInt8) : ofBE bs < 256 ^ bs.length := by
  simpa [ofBE] using ofLE_lt bs.reverse

/-- The bytes of the integer a string denotes are the string. -/
theorem leBytes_ofLE (bs : List UInt8) : leBytes bs.length (ofLE bs) = bs := by
  induction bs with
  | nil => rfl
  | cons b bs ih =>
    have hb := b.toNat_lt
    have hlow : UInt8.ofNat (b.toNat + 256 * ofLE bs) = b := by
      refine UInt8.toNat_inj.mp ?_
      rw [UInt8.toNat_ofNat']
      omega
    have hhigh : (b.toNat + 256 * ofLE bs) / 256 = ofLE bs := by omega
    rw [ofLE, List.length_cons, leBytes, hlow, hhigh, ih]

theorem beBytes_ofBE (bs : List UInt8) : beBytes bs.length (ofBE bs) = bs := by
  have h := leBytes_ofLE bs.reverse
  rw [List.length_reverse] at h
  rw [beBytes, ofBE, h, List.reverse_reverse]

/-- **A byte string splits at any byte**: its low-order part is that of the
same integer, and the rest that of the integer shifted down. -/
theorem leBytes_add (w v n : ℕ) :
    leBytes (w + v) n = leBytes w n ++ leBytes v (n / 256 ^ w) := by
  induction w generalizing n with
  | zero => simp [leBytes]
  | succ w ih =>
    rw [Nat.succ_add, leBytes, leBytes, ih, List.cons_append, Nat.div_div_eq_div_mul,
      pow_succ, mul_comm (256 ^ w) 256]

/-- Only the part of the integer that fits shows in its bytes. -/
theorem leBytes_mod (w n : ℕ) : leBytes w (n % 256 ^ w) = leBytes w n := by
  rw [← ofLE_leBytes]
  simpa using leBytes_ofLE (leBytes w n)

theorem beBytes_mod (w n : ℕ) : beBytes w (n % 256 ^ w) = beBytes w n := by
  rw [beBytes, beBytes, leBytes_mod]

theorem beBytes_add (w v n : ℕ) :
    beBytes (w + v) n = beBytes w (n / 256 ^ v) ++ beBytes v n := by
  rw [beBytes, beBytes, beBytes, add_comm, leBytes_add, List.reverse_append]

/-! ## What a host keeps in memory -/

/-- The byte order of a host. -/
inductive Endian
  | little
  | big
  deriving DecidableEq, Repr

/-- The bytes a host of order `e` keeps in memory for a `w`-byte integer. -/
def inMemory (e : Endian) (w n : ℕ) : List UInt8 :=
  match e with
  | .little => leBytes w n
  | .big => beBytes w n

/-- The integer a host of order `e` reads from the bytes in memory. -/
def ofMemory (e : Endian) (bs : List UInt8) : ℕ :=
  match e with
  | .little => ofLE bs
  | .big => ofBE bs

@[simp] theorem length_inMemory (e : Endian) (w n : ℕ) :
    (inMemory e w n).length = w := by
  cases e
  · exact length_leBytes w n
  · exact length_beBytes w n

theorem ofMemory_lt (e : Endian) (bs : List UInt8) :
    ofMemory e bs < 256 ^ bs.length := by
  cases e
  · exact ofLE_lt bs
  · exact ofBE_lt bs

theorem inMemory_ofMemory (e : Endian) (bs : List UInt8) :
    inMemory e bs.length (ofMemory e bs) = bs := by
  cases e
  · exact leBytes_ofLE bs
  · exact beBytes_ofBE bs

end Bytes
