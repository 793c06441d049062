import Miaouchat.Retries
import Mathlib.Logic.Relation

/-!
# Batches

The TLVs that `worker_iter_msg` gathers in `tab` are to keep to limits: sixty-four
of them at most, with `size` the sum of their sizes, in datagrams that are not
larger than the PMTU, and no slot of `tab` is to be read that has not been filled
since the last flush. This is to hold at the head of each round of the loop, and in
the round (`WithinLimits`).

The loop counts a TLV before it reads its length, so what it reads is the slot
after. The limits are kept where nothing is put in `tab`, and nowhere else.
-/

namespace Miaouchat

open Relation

/-! ## Rounds -/

/-- A round of the loop of `worker_iter_msg`, and whether it leaves the loop. -/
def iterMsgRound (env : Env) (e : ℕ) (n : Option ℕ) (b : Batch) : M (Bool × Batch) := do
  let nbr ← entryAt e
  let c ← StateT.lift (nbr.msgToSend.heap.deref n)
  if c.data.timeSend < env.time then
    let b ← flushBatch env nbr c.data b
    if c.data.tries ≥ 5 then return (true, b)
    else
      let b ← putMessage e n nbr c b
      return (false, b)
  else return (false, b)

/-- A round that goes on leads from one head of the loop to the next. -/
def NextHead (env : Env) (e : ℕ) (n : Option ℕ) (h h' : Batch × State) : Prop :=
  iterMsgRound env e n h.1 h.2 = .ok ((false, h'.1), h'.2)

/-- The loop is at its head, with a batch and a state, in the pass over the entry
`e` that starts from `s` on the node `n`. -/
def AtHead (env : Env) (e : ℕ) (n : Option ℕ) (s : State) (h : Batch × State) : Prop :=
  ReflTransGen (NextHead env e n) (newBatch env, s) h

/-- **The loop is its rounds.** -/
theorem iterMsgLoop_succ (env : Env) (e : ℕ) (n : Option ℕ) (k : ℕ) (b : Batch) :
    iterMsgLoop env e n (k + 1) b = (do
      let (left, b) ← iterMsgRound env e n b
      if left then return (-1, b) else iterMsgLoop env e n k b) := by
  rw [iterMsgLoop, iterMsgRound, bind_assoc]
  refine congrArg (entryAt e >>= ·) (funext fun nbr => ?_)
  rw [bind_assoc]
  refine congrArg (StateT.lift (nbr.msgToSend.heap.deref n) >>= ·) (funext fun c => ?_)
  split
  · rw [bind_assoc]
    refine congrArg (flushBatch env nbr c.data b >>= ·) (funext fun b₁ => ?_)
    split
    · rfl
    · rw [bind_assoc]
      rfl
  · rfl

/-- **A loop that returns** leaves from a head that it has come to. -/
theorem iterMsgLoop_eq_ok {env : Env} {e : ℕ} {n : Option ℕ} {k : ℕ} {b b' : Batch}
    {s s' : State} {status : ℤ} (h : iterMsgLoop env e n k b s = .ok ((status, b'), s')) :
    ∃ h₁, ReflTransGen (NextHead env e n) (b, s) h₁
      ∧ iterMsgRound env e n h₁.1 h₁.2 = .ok ((true, b'), s') := by
  induction k generalizing b s with
  | zero => cases h
  | succ k ih =>
    rw [iterMsgLoop_succ] at h
    obtain ⟨⟨left, b₁⟩, s₁, hround, hrest⟩ := bind_eq_ok h
    cases left with
    | true =>
      cases hrest
      exact ⟨(b, s), .refl, hround⟩
    | false =>
      obtain ⟨h₁, hreach, hlast⟩ := ih hrest
      have hgo : NextHead env e n (b, s) (b₁, s₁) := hround
      exact ⟨h₁, .head hgo hreach, hlast⟩

/-! ## Limits -/

/-- The batch after the test that may flush it, for a message of `len` bytes. -/
def Batch.flushed (pmtu len : ℕ) (b : Batch) : Batch :=
  if b.size + len + 4 > pmtu then b.clear else b

/-- The batch with a body put in the next slot, where the slot after leads to
`t`. -/
def Batch.put (b : Batch) (body : DataBody) (t : Tlv) : Batch :=
  ⟨Function.update b.tab b.count (some (newTlvDataB body)), b.count + 1,
    b.size + t.length.toNat + 2⟩

/-- The bytes that some TLVs add up to, by their lengths. -/
def tlvsSize (ts : List Tlv) : ℕ := (ts.map fun t => 2 + t.length.toNat).sum

/-- The bytes of a datagram of them. -/
def datagramSize (ts : List Tlv) : ℕ := 4 + tlvsSize ts

/-- The slot has been filled since the last flush. -/
def Batch.Filled (b : Batch) (i : ℕ) : Prop := i < b.count

/-- The slot that is read when a message is put in the batch: `count` has gone on by
then. -/
def Batch.slotRead (b : Batch) : ℕ := b.count + 1

/-- **The round keeps the limits**, for a message that is due and the batch `b`: what
is flushed fits in the PMTU, and so does what is left when the round leaves the loop;
and the slot that is read when the message is put has been filled. -/
structure RoundWithin (pmtu : ℕ) (m : DllistMsg) (b : Batch) : Prop where
  flush : b.size + m.body.dataLen + 4 > pmtu → datagramSize b.tlvs ≤ pmtu
  leave : 5 ≤ m.tries → datagramSize (b.flushed pmtu m.body.dataLen).tlvs ≤ pmtu
  read : ¬ 5 ≤ m.tries →
    ∀ t, ((b.flushed pmtu m.body.dataLen).put m.body t).Filled
      (b.flushed pmtu m.body.dataLen).slotRead

/-- **A pass over the entry `e` keeps the limits**: at each head of the loop that it
comes to there are at most sixty-four TLVs in the batch and `size` is theirs, and the
round for a message that is due keeps the limits too. -/
def WithinLimits (env : Env) (e : ℕ) (s : State) : Prop :=
  ∀ nbr n, s.entries e = some nbr → nbr.msgToSend.first = some n →
    ∀ b s', AtHead env e (some n) s (b, s') →
      b.count ≤ 64 ∧ b.size = tlvsSize b.tlvs
        ∧ ∀ nbr' c, s'.entries e = some nbr' →
          nbr'.msgToSend.heap.deref (some n) = .ok c → c.data.timeSend < env.time →
          RoundWithin nbr'.pmtu.toNat c.data b

/-- **What the pass sends last fits in the PMTU** where the limits are kept. -/
theorem WithinLimits.last {env : Env} {e n k : ℕ} {s s' : State} {nbr : NeighbourEntry}
    {b : Batch} {status : ℤ} (h : WithinLimits env e s) (hnbr : s.entries e = some nbr)
    (hfirst : nbr.msgToSend.first = some n)
    (hloop : iterMsgLoop env e (some n) k (newBatch env) s = .ok ((status, b), s')) :
    ∃ (s₁ : State) (nbr' : NeighbourEntry), s₁.entries e = some nbr'
      ∧ datagramSize b.tlvs ≤ nbr'.pmtu.toNat := by
  obtain ⟨⟨b₁, s₁⟩, hhead, hround⟩ := iterMsgLoop_eq_ok hloop
  obtain ⟨nbr', s₂, hentry, hrest⟩ := bind_eq_ok hround
  obtain ⟨hnbr', rfl⟩ := entryAt_eq_ok hentry
  obtain ⟨c, s₃, hlift, hrest⟩ := bind_eq_ok hrest
  obtain ⟨hc, rfl⟩ := lift_eq_ok hlift
  refine ⟨s₃, nbr', hnbr', ?_⟩
  split at hrest
  · next hdue =>
    have hwithin := (h nbr n hnbr hfirst b₁ s₃ hhead).2.2 nbr' c hnbr' hc hdue
    have hflush := flushBatch_run env nbr' c.data b₁ s₃
    by_cases hfits : b₁.size + c.data.body.dataLen + 4 > nbr'.pmtu.toNat
    · rw [if_pos hfits] at hflush
      rw [bind_error hflush] at hrest
      cases hrest
    rw [if_neg hfits] at hflush
    rw [bind_ok hflush] at hrest
    have hkept : b₁.flushed nbr'.pmtu.toNat c.data.body.dataLen = b₁ := if_neg hfits
    split at hrest
    · next htries =>
      cases hrest
      exact hkept ▸ hwithin.leave htries
    · obtain ⟨b₂, s₄, -, hret⟩ := bind_eq_ok hrest
      cases hret
  · cases hrest

section Limits

variable {env : Env} {e : ℕ} {s : State} {nbr : NeighbourEntry} {x : ℕ × DllistMsg}
  {xs : List (ℕ × DllistMsg)} {p q : Option ℕ}

end Limits

end Miaouchat
