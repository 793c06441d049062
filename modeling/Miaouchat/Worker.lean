import Miaouchat.Connect

/-!
# The worker

`worker.c` passes over the current neighbours with all four mutexes held. For
each it sends the pending messages that are due, in messages of TLVs, and then
moves the neighbour to the potential ones.

The loop of `worker_iter_msg` never leaves the first pending message: `n` is
not advanced. A message that is not due keeps the loop going for ever; one that
is due is put in `tab`, and the length added to `size` is read from the slot
after it, which is unset. The date `set_time_send` returns is dropped, so the
message is still due in the next round. And the array of the message that is
sent is `tab` itself, an array on the stack, which `free_msg` then frees.

`worker_iter_nbr` moves a neighbour whatever the result, and its iterator then
stands on a node that has left the map. Its parts are actions of their own: what
has been sent when one of them fails stays sent. Only `worker_iter_msg` is one
action, with the mutexes of all four structures held.
-/

namespace Miaouchat

/-- The TLVs gathered by `worker_iter_msg`: what the slots of `tab` lead to,
`count` and `size`. -/
structure Batch where
  tab : ℕ → Option Tlv
  count : ℕ
  size : ℕ

def newBatch (env : Env) : Batch := ⟨env.slots, 0, 0⟩

/-- The filled slots are set to `NULL`, and the batch begun anew. -/
def Batch.clear (b : Batch) : Batch :=
  ⟨fun i => if i < b.count then none else b.tab i, 0, 0⟩

/-- The TLVs of a batch, for `new_msg`. -/
def Batch.tlvs (b : Batch) : List Tlv := (List.range b.count).filterMap b.tab

/-- `send_msg` of a batch to a neighbour, and `free_msg` of the message, whose array
is `tab`. -/
def sendBatch (env : Env) (ent : NeighbourEntry) (b : Batch) : M Unit := do
  sendMsg env ent.addr b.tlvs
  freeLocal

/-- A batch is sent when the message `m` does not fit with it in the PMTU of
the neighbour, and a new one begun. -/
def flushBatch (env : Env) (nbr : NeighbourEntry) (m : DllistMsg) (b : Batch) : M Batch :=
  if b.size + m.body.dataLen + 4 > nbr.pmtu.toNat then do
    sendBatch env nbr b
    return b.clear
  else return b

/-- A message of the entry `e`, in the cell `c` at the address `n`, is put in
the batch and counts one try more. The slot read for `size` is the next one. -/
def putMessage (e : ℕ) (n : Option ℕ) (nbr : NeighbourEntry) (c : Cell DllistMsg)
    (b : Batch) : M Batch := do
  let tab := Function.update b.tab b.count (some (newTlvDataB c.data.body))
  match tab (b.count + 1) with
  | none => throw .wild
  | some t =>
    let m := { c.data with tries := c.data.tries + 1 }
    let heap := nbr.msgToSend.heap.set (n.getD 0) (some { c with data := m })
    setEntry e { nbr with msgToSend := { nbr.msgToSend with heap := heap } }
    return ⟨tab, b.count + 1, b.size + t.length.toNat + 2⟩

/-- The loop of `worker_iter_msg` on the entry `e`, standing on the node `n`,
with a bound on its rounds. -/
def iterMsgLoop (env : Env) (e : ℕ) (n : Option ℕ) : ℕ → Batch → M (ℤ × Batch)
  | 0, _ => throw .loop
  | k + 1, b => do
    let nbr ← entryAt e
    let c ← StateT.lift (nbr.msgToSend.heap.deref n)
    if c.data.timeSend < env.time then
      let b ← flushBatch env nbr c.data b
      if c.data.tries ≥ 5 then return (-1, b)
      else
        let b ← putMessage e n nbr c b
        iterMsgLoop env e n k b
    else iterMsgLoop env e n k b

/-- `worker_iter_msg`. `tab` has sixty-four slots, so a loop of more rounds
than that is one that fills no slot. -/
def workerIterMsg (env : Env) (e : ℕ) : M ℤ := do
  let nbr ← entryAt e
  if nbr.msgToSend.first = none then return 0
  else
    let (status, b) ← iterMsgLoop env e nbr.msgToSend.first 65 (newBatch env)
    sendBatch env nbr b
    return status

section WorkerIterMsg

variable {e : ℕ} {s : State} {nbr : NeighbourEntry}

/-- A pass over a neighbour with no pending message does nothing. -/
theorem workerIterMsg_of_none (env : Env) (hnbr : s.entries e = some nbr)
    (hfirst : nbr.msgToSend.first = none) : workerIterMsg env e s = .ok (0, s) := by
  unfold workerIterMsg
  rw [bind_ok (entryAt_ok hnbr), if_pos hfirst]
  rfl

/-- Any other is the loop, started on the first message. -/
theorem workerIterMsg_of_some (env : Env) {a : ℕ} (hnbr : s.entries e = some nbr)
    (hfirst : nbr.msgToSend.first = some a) :
    workerIterMsg env e s = (iterMsgLoop env e (some a) 65 (newBatch env) >>= fun r => do
      sendBatch env nbr r.2
      return r.1) s := by
  unfold workerIterMsg
  rw [bind_ok (entryAt_ok hnbr), if_neg (by rw [hfirst]; exact Option.some_ne_none a), hfirst]

end WorkerIterMsg

/-- A round of the loop of `worker_iter_nbr`, where the map is `m`, and what comes
`next`. -/
def iterNbrRound (env : Env) (m : Map ℕ) (iter : MapIter) (next : MapIter → Code Unit) :
    Code Unit := do
  let (key, iter) ← Prog.call (StateT.lift (mapNext m iter))
  match key with
  | none => return ()
  | some key =>
    match mapGet m key with
    | none => return ()
    | some e => do
      let rc ← Prog.call (workerIterMsg env e)
      if rc < 0 then Prog.call (emptyPending e) else pure ()
      let nbr ← Prog.call (entryAt e)
      Prog.call (sendGoAway env nbr.addr)
      let _ ← Prog.call (mapTransferNeighbour env .cur .pot key)
      next iter

/-- The loop, with a bound on its rounds. -/
def iterNbrLoop (env : Env) : ℕ → MapIter → Code Unit
  | 0, _ => Prog.call (throw .loop)
  | k + 1, iter => do
    let s ← Prog.call get
    iterNbrRound env s.cur iter (iterNbrLoop env k)

/-- `worker_iter_nbr`. -/
def workerIterNbr (env : Env) : Code Unit := do
  let s ← Prog.call get
  iterNbrLoop env (s.cur.keys.length + 1) mapIter

/-- One pass of `worker_loop`. -/
def workerPass (env : Env) : Code Unit := do
  getCurNeighbours
  getPotNeighbours
  getMsgList
  getMsgMap
  workerIterNbr env
  Prog.give .curNeighbours
  Prog.give .potNeighbours
  Prog.give .msgList
  Prog.give .msgMap

end Miaouchat
