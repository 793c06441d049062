import Miaouchat.Worker

/-!
# Retries

A pending message is to be sent again and again until it is acknowledged, five
times at most, and after the `n`-th time not before between `2ⁿ` and `2ⁿ⁺¹`
seconds have gone by. `BacksOff` is a pass of `worker_iter_msg` that keeps to
this.

The loop of `worker_iter_msg` stays on the first pending message, and drops the
date that `set_time_send` computes for it. A message that is due is due again
in the next round, and all the tries that are left go into `tab` in one burst
(`iterMsgLoop_due`). The pass then frees `tab`, which is on the stack, and does not
return (`workerIterMsg_due`). A message that is not due is looked at for ever. So
passes back off exactly where the first pending message is not due, or there is
none (`backOff_iff`).
-/

namespace Miaouchat

/-! ## Passes as they are to be -/

/-- The datagrams of some messages of TLVs sent to `addr`, where `n` datagrams
have been sent before. -/
def datagrams (env : Env) (addr : SockaddrIn6) : ℕ → List (List Tlv) →
    List (SockaddrIn6 × List UInt8)
  | _, [] => []
  | n, ts :: tss =>
    (addr, (serialMsg env.mc (env.frames n) (newMsg ts) (newSbuff env.mc)).written)
      :: datagrams env addr (n + 1) tss

/-- **What a pass may do with a pending message**: leave it alone; or, where it is
due and has been tried less than five times, send it once, count the try, and
put its date off by at least `2 ^ tries` seconds and less than twice as many. -/
def Retried (env : Env) (sent : Bool) (m m' : DllistMsg) : Prop :=
  if sent then
    m.timeSend ≤ env.time ∧ m.tries < 5 ∧ m'.tries = m.tries + 1
      ∧ m'.mapKey = m.mapKey ∧ m'.body = m.body
      ∧ env.time + 2 ^ m'.tries.toNat ≤ m'.timeSend
      ∧ m'.timeSend < env.time + 2 ^ (m'.tries.toNat + 1)
  else m' = m

/-- **The pass backs off**: `ms` are the pending messages, each with whether it is
sent in the pass and with what the pass leaves of it, and the datagrams of the
pass carry those sent, once each. -/
def BacksOff (env : Env) (e : ℕ) (s s' : State) : Prop :=
  ∃ (nbr nbr' : NeighbourEntry) (ms : List (DllistMsg × Bool × DllistMsg))
    (batches : List (List Tlv)),
    s.entries e = some nbr ∧ s'.entries e = some nbr'
      ∧ dllistContents nbr.msgToSend = ms.map (fun m => m.1)
      ∧ dllistContents nbr'.msgToSend = ms.map (fun m => m.2.2)
      ∧ s'.sent = s.sent ++ datagrams env nbr.addr s.sent.length batches
      ∧ batches.flatten.Perm
        ((ms.filter fun m => m.2.1).map fun m => newTlvDataB m.1.body)
      ∧ ∀ m ∈ ms, Retried env m.2.1 m.1 m.2.2

/-- **Passes over the entry `e`, one after the other, all back off.** A pass that
goes on for ever is the last, and sends nothing more
(`iterMsgLoop_notDue`). -/
def BackOff (e : ℕ) : List Env → State → Prop
  | [], _ => True
  | env :: envs, s =>
    match workerIterMsg env e s with
    | .error .loop => True
    | .error _ => False
    | .ok (_, s') => BacksOff env e s s' ∧ BackOff e envs s'

/-! ## A round -/

section Round

variable {env : Env} {e : ℕ} {nbr : NeighbourEntry} {b : Batch} {s : State}

/-- Once a batch has been sent, the free of its array has no outcome. -/
theorem sendBatch_wild (env : Env) (nbr : NeighbourEntry) (b : Batch) (s : State) :
    sendBatch env nbr b s = .error .wild := rfl

/-- A batch is left as it is, or sent. -/
theorem flushBatch_run (env : Env) (nbr : NeighbourEntry) (m : DllistMsg) (b : Batch)
    (s : State) :
    flushBatch env nbr m b s
      = if b.size + m.body.dataLen + 4 > nbr.pmtu.toNat then .error .wild else .ok (b, s) := by
  unfold flushBatch
  split
  · exact bind_error (sendBatch_wild env nbr b s)
  · rfl

/-- A TLV that fills the next slot comes last in the batch. -/
theorem tlvs_update (b : Batch) (t : Tlv) (size : ℕ) :
    (Batch.mk (Function.update b.tab b.count (some t)) (b.count + 1) size).tlvs
      = b.tlvs ++ [t] := by
  unfold Batch.tlvs
  rw [List.range_succ, List.filterMap_append]
  refine congrArg₂ (· ++ ·) (List.filterMap_congr fun i hi => ?_) ?_
  · exact Function.update_of_ne (List.mem_range.mp hi).ne ..
  · simp

/-- A message once it has been put in a batch. -/
def DllistMsg.tried (m : DllistMsg) : DllistMsg := { m with tries := m.tries + 1 }

/-- The entry once the message in the cell `c`, at the address `a`, has been put
in a batch. -/
def NeighbourEntry.tried (nbr : NeighbourEntry) (a : ℕ) (c : Cell DllistMsg) :
    NeighbourEntry :=
  { nbr with
    msgToSend := { nbr.msgToSend with
      heap := nbr.msgToSend.heap.set a (some { c with data := c.data.tried }) } }

/-- **A message put in the batch counts one try more**, and keeps its date. The
slot that is read may lead nowhere. -/
theorem putMessage_run (e a : ℕ) (nbr : NeighbourEntry) (c : Cell DllistMsg) (b : Batch)
    (s : State) :
    putMessage e (some a) nbr c b s = .error .wild
      ∨ ∃ b₁, putMessage e (some a) nbr c b s = .ok (b₁, { s with
          entries := Function.update s.entries e (some (nbr.tried a c)) })
        ∧ b₁.tlvs = b.tlvs ++ [newTlvDataB c.data.body] := by
  unfold putMessage
  dsimp only
  cases Function.update b.tab b.count (some (newTlvDataB c.data.body)) (b.count + 1) with
  | none => exact .inl rfl
  | some t => exact .inr ⟨_, rfl, tlvs_update ..⟩

/-- **A round for a message that is not due** changes nothing, and the loop stays
on it. -/
theorem iterMsgLoop_notDue {env : Env} {e k : ℕ} {n : Option ℕ} {b : Batch} {s : State}
    {nbr : NeighbourEntry} {c : Cell DllistMsg} (hnbr : s.entries e = some nbr)
    (hc : nbr.msgToSend.heap.deref n = .ok c) (hdue : ¬ c.data.timeSend < env.time) :
    iterMsgLoop env e n (k + 1) b s = iterMsgLoop env e n k b s := by
  rw [iterMsgLoop, bind_ok (entryAt_ok hnbr), bind_ok (lift_ok hc s),
    if_neg hdue]

/-- **A round for a message that is due**, and fits: the loop is left, or the message
put in the batch. -/
theorem iterMsgLoop_round {env : Env} {e k : ℕ} {n : Option ℕ} {b : Batch} {s : State}
    {nbr : NeighbourEntry} {c : Cell DllistMsg} (hnbr : s.entries e = some nbr)
    (hc : nbr.msgToSend.heap.deref n = .ok c) (hdue : c.data.timeSend < env.time)
    (hflush : flushBatch env nbr c.data b s = .ok (b, s)) :
    iterMsgLoop env e n (k + 1) b s
      = (if c.data.tries ≥ 5 then return (-1, b)
        else do
          let b ← putMessage e n nbr c b
          iterMsgLoop env e n k b : M (ℤ × Batch)) s := by
  rw [iterMsgLoop, bind_ok (entryAt_ok hnbr), bind_ok (lift_ok hc s), if_pos hdue,
    bind_ok hflush]

/-- A round in which the batch is sent is the last. -/
theorem iterMsgLoop_sent {env : Env} {e k : ℕ} {n : Option ℕ} {b : Batch} {s : State}
    {nbr : NeighbourEntry} {c : Cell DllistMsg} (hnbr : s.entries e = some nbr)
    (hc : nbr.msgToSend.heap.deref n = .ok c) (hdue : c.data.timeSend < env.time)
    (hflush : flushBatch env nbr c.data b s = .error .wild) :
    iterMsgLoop env e n (k + 1) b s = .error .wild := by
  rw [iterMsgLoop, bind_ok (entryAt_ok hnbr), bind_ok (lift_ok hc s), if_pos hdue,
    bind_error hflush]

/-- Below five the count of tries does not overflow. -/
theorem toNat_tries_succ {tries : UInt16} (h : ¬ 5 ≤ tries) :
    (tries + 1).toNat = tries.toNat + 1 := by
  have hnat : tries.toNat < 5 := Nat.lt_of_not_le h
  rw [UInt16.toNat_add]
  show (tries.toNat + 1) % 2 ^ 16 = _
  omega

end Round

/-! ## A pass -/

section Pass

variable {env : Env} {e : ℕ} {s : State} {nbr : NeighbourEntry} {x : ℕ × DllistMsg}
  {xs : List (ℕ × DllistMsg)} {p q : Option ℕ}

theorem deref_first (hs : Shape nbr.msgToSend (x :: xs) p q) :
    nbr.msgToSend.heap.deref (some x.1) = .ok ⟨headAddr q xs, p, x.2⟩ :=
  deref_headAddr hs.linked

/-- The loop goes on for ever on a message that is not due. -/
theorem iterMsgLoop_forever (hnbr : s.entries e = some nbr)
    (hs : Shape nbr.msgToSend (x :: xs) p q) (hdue : ¬ x.2.timeSend < env.time) (k : ℕ)
    (b : Batch) : iterMsgLoop env e (some x.1) k b s = .error .loop := by
  induction k with
  | zero => rfl
  | succ k ih => rw [iterMsgLoop_notDue hnbr (deref_first hs) hdue, ih]

/-- **The loop on a message that is due**, where it is left, has put it in the batch
as many times as there are tries left. Else it has come to a slot that leads nowhere,
or sent the batch before. -/
theorem iterMsgLoop_due {k : ℕ} {b : Batch} (hnbr : s.entries e = some nbr)
    (hs : Shape nbr.msgToSend (x :: xs) p q) (hdue : x.2.timeSend < env.time)
    (hk : 0 < k) (hrounds : 6 ≤ x.2.tries.toNat + k) :
    iterMsgLoop env e (some x.1) k b s = .error .wild
      ∨ ∃ b' s', iterMsgLoop env e (some x.1) k b s = .ok ((-1, b'), s')
        ∧ b'.tlvs
          = b.tlvs ++ List.replicate (5 - x.2.tries.toNat) (newTlvDataB x.2.body) := by
  induction k generalizing s nbr x b with
  | zero => cases hk
  | succ k ih =>
    have hflush := flushBatch_run env nbr x.2 b s
    by_cases hfits : b.size + x.2.body.dataLen + 4 > nbr.pmtu.toNat
    · rw [if_pos hfits] at hflush
      exact .inl (iterMsgLoop_sent hnbr (deref_first hs) hdue hflush)
    rw [if_neg hfits] at hflush
    rw [iterMsgLoop_round hnbr (deref_first hs) hdue hflush]
    by_cases htries : 5 ≤ x.2.tries
    · have hnat : 5 ≤ x.2.tries.toNat := htries
      rw [if_pos htries, Nat.sub_eq_zero_of_le hnat]
      exact .inr ⟨b, s, rfl, (List.append_nil _).symm⟩
    · have hnat : x.2.tries.toNat < 5 := Nat.lt_of_not_le htries
      have hnext := toNat_tries_succ htries
      rw [if_neg htries]
      rcases putMessage_run e x.1 nbr ⟨headAddr q xs, p, x.2⟩ b s with hwild | ⟨b₁, hput, hb₁⟩
      · exact .inl (bind_error hwild)
      · have hshape : Shape (nbr.tried x.1 ⟨headAddr q xs, p, x.2⟩).msgToSend
            ((x.1, x.2.tried) :: xs) p q := hs.setFirst x.2.tried
        have hentry : ({ s with
            entries := Function.update s.entries e
              (some (nbr.tried x.1 ⟨headAddr q xs, p, x.2⟩)) } : State).entries e
            = some (nbr.tried x.1 ⟨headAddr q xs, p, x.2⟩) := Function.update_self ..
        rw [bind_ok hput]
        rcases ih hentry hshape hdue (by omega)
          (show 6 ≤ (x.2.tries + 1).toNat + k by omega) with hwild | ⟨b', s', hrun, hb'⟩
        · exact .inl hwild
        · have hleft : 5 - x.2.tries.toNat = (5 - (x.2.tries + 1).toNat) + 1 := by omega
          refine .inr ⟨b', s', hrun, ?_⟩
          calc b'.tlvs
              = b₁.tlvs ++ List.replicate (5 - (x.2.tries + 1).toNat)
                  (newTlvDataB x.2.body) := hb'
            _ = b.tlvs ++ List.replicate (5 - x.2.tries.toNat) (newTlvDataB x.2.body) := by
                rw [hb₁, hleft, List.replicate_succ, List.append_assoc, List.singleton_append]

/-- **A pass over a neighbour whose first pending message is due** comes to a wild
access: in the loop, or when what is in `tab` has been sent. -/
theorem workerIterMsg_due (hnbr : s.entries e = some nbr)
    (hs : Shape nbr.msgToSend (x :: xs) p q) (hdue : x.2.timeSend < env.time) :
    workerIterMsg env e s = .error .wild := by
  rw [workerIterMsg_of_some env hnbr hs.first_eq]
  rcases iterMsgLoop_due hnbr hs hdue (by decide : 0 < 65) (by omega) with hwild |
    ⟨b', s', hrun, -⟩
  · exact bind_error hwild
  · rw [bind_ok hrun]
    exact bind_error (sendBatch_wild env nbr b' s')

/-- A pass over a neighbour whose first pending message is not due never
returns. -/
theorem workerIterMsg_forever (hnbr : s.entries e = some nbr)
    (hs : Shape nbr.msgToSend (x :: xs) p q) (hdue : ¬ x.2.timeSend < env.time) :
    workerIterMsg env e s = .error .loop := by
  rw [workerIterMsg_of_some env hnbr hs.first_eq]
  exact bind_error (iterMsgLoop_forever hnbr hs hdue 65 _)

end Pass

/-! ## Passes -/

section Passes

variable {env : Env} {e : ℕ} {s s' : State} {nbr nbr' : NeighbourEntry}

/-- With nothing pending, all passes back off. -/
theorem backOff_of_nil {p q : Option ℕ} (envs : List Env) (hnbr : s.entries e = some nbr)
    (hs : Shape nbr.msgToSend [] p q) : BackOff e envs s := by
  induction envs with
  | nil => trivial
  | cons env envs ih =>
    rw [BackOff, workerIterMsg_of_none env hnbr hs.first_eq]
    have hcontents : dllistContents nbr.msgToSend = [] := hs.contents_eq
    have hidle : BacksOff env e s s :=
      ⟨nbr, nbr, [], [], hnbr, hnbr, hcontents, hcontents, (List.append_nil _).symm, .refl _,
        fun _ => nofun⟩
    exact ⟨hidle, ih⟩

/-- **Passes back off exactly where the first pending message, if there is one, is
not due in the first pass.** -/
theorem backOff_iff {xs : List (ℕ × DllistMsg)} {p q : Option ℕ} (env : Env) (envs : List Env)
    (hnbr : s.entries e = some nbr) (hs : Shape nbr.msgToSend xs p q) :
    BackOff e (env :: envs) s
      ↔ ∀ m ∈ (dllistContents nbr.msgToSend).head?, ¬ m.timeSend < env.time := by
  rw [hs.contents_eq]
  cases xs with
  | nil => exact iff_of_true (backOff_of_nil _ hnbr hs) fun _ => nofun
  | cons x xs =>
    have hcond : (∀ m ∈ ((x :: xs).map Prod.snd).head?, ¬ m.timeSend < env.time)
        ↔ ¬ x.2.timeSend < env.time :=
      ⟨fun h => h x.2 rfl, fun h m hm => Option.some.inj hm ▸ h⟩
    rw [hcond, BackOff]
    by_cases hdue : x.2.timeSend < env.time
    · rw [workerIterMsg_due hnbr hs hdue]
      exact iff_of_false id fun h => h hdue
    · rw [workerIterMsg_forever hnbr hs hdue]
      exact iff_of_true trivial hdue

end Passes

/-- A list of one pending message. -/
def onePending (m : DllistMsg) : Dllist DllistMsg where
  first := some 0
  last := some 0
  size := 1
  type := .msg
  heap := Heap.set (fun _ => none) 0 (some ⟨none, none, m⟩)
  used := 1
  junk := fun _ => (none, none)

theorem shape_onePending (m : DllistMsg) : Shape (onePending m) [(0, m)] none none where
  linked := ⟨rfl, trivial⟩
  first_eq := rfl
  last_eq := rfl
  nodup := List.nodup_singleton _
  only := fun a c hc => by
    by_cases ha : a = 0
    · exact ha ▸ List.mem_singleton_self _
    · replace hc : Heap.set (fun _ => none) 0 (some ⟨none, none, m⟩) a = some c := hc
      rw [Heap.set_of_ne ha] at hc
      cases hc
  lt_used := fun a ha => List.mem_singleton.mp ha ▸ Nat.zero_lt_one
  size_eq := rfl

/-- One entry, with one pending message, of the date 1. -/
def pendingState (tries : UInt16) : State :=
  { State.init fun _ => (none, none) with
    entries := fun _ =>
      some ⟨⟨shortIp 1, 257⟩, 1024, onePending ⟨1, tries, ['7', '1'], ⟨7, 1, 0, 0, []⟩⟩⟩
    entryCount := 1 }

/-- A pass at the time 10, where the slots of `tab` lead to a Pad1. -/
def passEnv : Env := { shortEnv with time := 10, slots := fun _ => some newTlvPad1 }

/-- A message is not sent before its date, and the pass that looks at it does not
end. -/
theorem backOff_iff_notDue : BackOff 0 [shortEnv, passEnv] (pendingState 0) := by
  rw [backOff_iff shortEnv [passEnv] rfl (shape_onePending _)]
  exact fun m _ => Nat.not_lt_zero m.timeSend

/-- A new message is put in `tab` five times in the first pass that finds it due, and
the pass does not come to its end. -/
theorem not_backOff :
    ¬ ∀ (env : Env) (envs : List Env) (e : ℕ) (s : State) (nbr : NeighbourEntry)
        (xs : List (ℕ × DllistMsg)) (p q : Option ℕ),
        (env :: envs).Pairwise (fun env env' => env.time ≤ env'.time) →
        s.entries e = some nbr → Shape nbr.msgToSend xs p q → BackOff e (env :: envs) s := by
  intro hall
  have hback := hall passEnv [] 0 (pendingState 0) _ _ none none (List.pairwise_singleton ..)
    rfl (shape_onePending _)
  rw [BackOff, workerIterMsg_due rfl (shape_onePending _) (by decide)] at hback
  exact hback

end Miaouchat
