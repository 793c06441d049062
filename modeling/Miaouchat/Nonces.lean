import Miaouchat.Types

/-!
# Nonces

The pair of sender id and nonce is to tell a message from all others.
`new_nonce` divides the clock, with one of its bits flipped, by the id, and keeps
thirty-two bits of the quotient. It is the same for as many seconds in a row as
the id is large, and an id is any number that `rand` returns: a client whose id
is `1804289383` changes its nonce every fifty-seven years, and one whose id is
zero divides by zero.
-/

namespace Miaouchat

/-- `RAND_MAX`. -/
def randMax : ℕ := 2147483647

/-- `new_client_id`, by what its calls of `rand` return. The id that it makes of
the first two is overwritten. -/
def newClientId (rand : ℕ → ℕ) : UInt64 :=
  let _ := UInt64.ofNat (rand 0) <<< 32 ||| UInt64.ofNat (rand 1)
  UInt64.ofNat (rand 2)

/-- A call of `new_tlv_data` by a client, at a time. -/
structure DataCall where
  time : ℕ
  type : UInt8
  data : List UInt8
  dataLen : ℕ

namespace DataCall

/-- What the call returns, if it does. -/
def tlv (id : UInt64) (c : DataCall) : Option Tlv :=
  newTlvData c.time id c.type c.data c.dataLen

end DataCall

/-- The sender id and the nonce of a Data TLV. -/
def dataId (t : Tlv) : Option (UInt64 × UInt32) :=
  match t.body with
  | .data b => some (b.senderId, b.nonce)
  | _ => none

/-- **Two messages of a client can be told apart**: both are created, and their
pairs of sender id and nonce differ. -/
def Distinguishable (id : UInt64) (c c' : DataCall) : Prop :=
  ∃ t t', c.tlv id = some t ∧ c'.tlv id = some t' ∧ dataId t ≠ dataId t'

/-- **Two times are in the same turn of an id**: with bit 1 of both flipped, they
are in blocks of `id` seconds in a row that have the same number, or numbers
that differ by a multiple of `2 ^ 32`. -/
def SameTurn (id time time' : ℕ) : Prop :=
  ∃ k i i' r r', r < id ∧ r' < id ∧ time ^^^ 2 = (k + 2 ^ 32 * i) * id + r
    ∧ time' ^^^ 2 = (k + 2 ^ 32 * i') * id + r'

theorem sameTurn_iff {id : ℕ} (hid : 0 < id) (time time' : ℕ) :
    SameTurn id time time'
      ↔ (time ^^^ 2) / id % 2 ^ 32 = (time' ^^^ 2) / id % 2 ^ 32 := by
  have hblock : ∀ {k i r}, r < id → ((k + 2 ^ 32 * i) * id + r) / id % 2 ^ 32 = k % 2 ^ 32 := by
    intro k i r hr
    rw [Nat.mul_comm, Nat.mul_add_div hid, Nat.div_eq_of_lt hr, Nat.add_zero,
      Nat.add_mul_mod_self_left]
  constructor
  · rintro ⟨k, i, i', r, r', hr, hr', h, h'⟩
    rw [h, h', hblock hr, hblock hr']
  · intro h
    have hdiv : ∀ n : ℕ, n = (n / id % 2 ^ 32 + 2 ^ 32 * (n / id / 2 ^ 32)) * id + n % id := by
      intro n
      rw [Nat.mod_add_div, Nat.mul_comm, Nat.div_add_mod]
    exact ⟨_, _, _, _, _, Nat.mod_lt _ hid, Nat.mod_lt _ hid, hdiv (time ^^^ 2),
      h ▸ hdiv (time' ^^^ 2)⟩

section Rand

variable {rand : ℕ → ℕ}

theorem toNat_newClientId (hrand : ∀ i, rand i ≤ randMax) :
    (newClientId rand).toUInt32.toNat = rand 2 := by
  have hlt : rand 2 < 2 ^ 32 := Nat.lt_of_le_of_lt (hrand 2) (by decide)
  show (UInt64.ofNat (rand 2)).toUInt32.toNat = _
  rw [UInt64.toNat_toUInt32, UInt64.toNat_ofNat']
  omega

/-- The id is zero where `rand` returns zero. -/
theorem newClientId_eq_zero_iff (hrand : ∀ i, rand i ≤ randMax) :
    (newClientId rand).toUInt32 = 0 ↔ rand 2 = 0 := by
  rw [← UInt32.toNat_inj, toNat_newClientId hrand]
  rfl

/-- **The nonce of a client**, where its id is not zero. -/
theorem newNonce_newClientId (hrand : ∀ i, rand i ≤ randMax) (hid : rand 2 ≠ 0) (time : ℕ) :
    newNonce time (newClientId rand) = some (UInt32.ofNat ((time ^^^ 2) / rand 2)) := by
  rw [newNonce, if_neg ((newClientId_eq_zero_iff hrand).not.mpr hid), toNat_newClientId hrand]

/-- **Two messages of a client can be told apart exactly where its id is not
zero and their times are in different turns of it.** -/
theorem distinguishable_iff (hrand : ∀ i, rand i ≤ randMax) (c c' : DataCall) :
    Distinguishable (newClientId rand) c c'
      ↔ rand 2 ≠ 0 ∧ ¬ SameTurn (rand 2) c.time c'.time := by
  by_cases hid : rand 2 = 0
  · have hnone : newNonce c.time (newClientId rand) = none := by
      rw [newNonce, if_pos ((newClientId_eq_zero_iff hrand).mpr hid)]
    refine iff_of_false ?_ fun h => h.1 hid
    rintro ⟨t, -, ht, -⟩
    rw [DataCall.tlv, newTlvData, hnone] at ht
    cases ht
  · have htlv : ∀ c : DataCall, ∃ t, c.tlv (newClientId rand) = some t
        ∧ dataId t = some (newClientId rand, UInt32.ofNat ((c.time ^^^ 2) / rand 2)) := by
      intro c
      have hrun : c.tlv (newClientId rand)
          = some (newTlvDataB (newDataBody (newClientId rand)
              (UInt32.ofNat ((c.time ^^^ 2) / rand 2)) c.type c.data c.dataLen)) := by
        rw [DataCall.tlv, newTlvData, newNonce_newClientId hrand hid]
        rfl
      exact ⟨_, hrun, rfl⟩
    obtain ⟨t, ht, hpair⟩ := htlv c
    obtain ⟨t', ht', hpair'⟩ := htlv c'
    have hsame : dataId t = dataId t' ↔ SameTurn (rand 2) c.time c'.time := by
      rw [hpair, hpair', sameTurn_iff (Nat.pos_of_ne_zero hid), Option.some_inj,
        Prod.mk.injEq, ← UInt32.toNat_inj, UInt32.toNat_ofNat', UInt32.toNat_ofNat']
      exact and_iff_right rfl
    constructor
    · rintro ⟨t₁, t₁', h, h', hne⟩
      cases ht.symm.trans h
      cases ht'.symm.trans h'
      exact ⟨hid, hsame.not.mp hne⟩
    · rintro ⟨-, hturn⟩
      exact ⟨t, t', ht, ht', hsame.not.mpr hturn⟩

end Rand

/-- A client whose id is one tells apart two messages of different seconds. -/
theorem distinguishable_iff_one :
    Distinguishable (newClientId fun _ => 1) ⟨1556000000, 0, [], 0⟩ ⟨1556000001, 0, [], 0⟩ := by
  refine (distinguishable_iff (fun _ => by decide) _ _).mpr ⟨Nat.one_ne_zero, ?_⟩
  rw [sameTurn_iff Nat.one_pos]
  decide

/-- A client whose id is `1804289383` does not. -/
theorem not_distinguishable :
    ¬ ∀ (rand : ℕ → ℕ), (∀ i, rand i ≤ randMax) → ∀ c c' : DataCall,
        Distinguishable (newClientId rand) c c' := by
  intro hall
  obtain ⟨t, t', ht, ht', hne⟩ := hall (fun _ => 1804289383) (fun _ => by decide)
    ⟨1556000000, 0, [], 0⟩ ⟨1556000001, 0, [], 0⟩
  cases ht
  cases ht'
  exact hne (by decide)

end Miaouchat
