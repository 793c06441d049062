import Miaouchat.MsgList

/-!
# The handlers of the server

`connect.c` handles the TLVs of a datagram one by one, each with a function of
its own. What they print plays no part here, and what they free is left aside:
`Frees` has `send_ack` and `process_datagram` with the frees of what `malloc` has
not returned, and `Memory` counts the others.

A peer is looked up by the key of its socket address, where the port is read
as the host reads it. `process_hello` takes the address of a new peer from
`&client`, the address of its own parameter, and hands its text to
`add_new_neighbour` while it still holds the mutexes of both maps.
-/

namespace Miaouchat

/-- `new_neighbour_key_sock`. -/
def newNeighbourKeySock (env : Env) (s : SockaddrIn6) : List Char :=
  newNeighbourKey (env.inetNtop s.addr) s.port

/-- `send_hello`. -/
def sendHello (env : Env) (pair : SockaddrIn6) (isLong : Bool) (srcId dstId : UInt64) :
    M Unit :=
  sendMsg env pair [newTlvHello isLong srcId dstId]

/-- `send_ack`, but for its free of the message (`Frees.sendAck`). -/
def sendAck (env : Env) (pair : SockaddrIn6) (senderId : UInt64) (nonce : UInt32) : M Unit :=
  sendMsg env pair [newTlvAck senderId nonce]

/-- `send_go_away`. -/
def sendGoAway (env : Env) (pair : SockaddrIn6) : M Unit :=
  sendMsg env pair [newTlvGoAway 2 [] 0]

/-- The text of a port, printed in a buffer of ten bytes. -/
def portText (port : UInt16) : List Char := snprintf 10 (decimal port.toNat)

/-- `dllist_empty(e->msg_to_send, false)`. -/
def emptyPending (e : ℕ) : M Unit := do
  let ent ← entryAt e
  let l ← StateT.lift (dllistEmpty ent.msgToSend)
  setEntry e { ent with msgToSend := l }

/-- The answer of `process_hello` to a short Hello. -/
def answerHello (env : Env) (b : HelloBody) (client : SockaddrIn6) : Code Unit :=
  if b.isLong then pure ()
  else Prog.call (sendHello env client true b.sourceId env.clientId)

/-- What `process_hello` does with the peer of a key, when it has found the
maps as they are in `s`: a current neighbour is left alone, a potential one
becomes current, and any other is added. -/
def admitPeer (env : Env) (client : SockaddrIn6) (key : List Char) (s : State) : Code Unit :=
  if (mapGet s.cur key).isSome then pure ()
  else if (mapGet s.pot key).isNone then
    addNewNeighbour env (env.inetNtop env.clientSlot) (portText client.port)
  else do
    let _ ← Prog.call (mapTransferNeighbour env .pot .cur key)

/-- `process_hello`. -/
def processHello (env : Env) (b : HelloBody) (client : SockaddrIn6) : Code Unit := do
  answerHello env b client
  getCurNeighbours
  getPotNeighbours
  let s ← Prog.call get
  admitPeer env client (newNeighbourKeySock env client) s
  Prog.give .curNeighbours
  Prog.give .potNeighbours

/-- `process_neighbour`. -/
def processNeighbour (env : Env) (b : NeighbourBody) : Code Unit :=
  addNewNeighbour env (env.inetNtop b.ip) (portText b.port)

/-- `process_data`. What it prints after `add_msg` is left out, and what `send_ack`
frees is left aside (`Frees.processData`). -/
def processData (env : Env) (b : DataBody) (client : SockaddrIn6) : Code Unit := do
  Prog.call (sendAck env client b.senderId b.nonce)
  let _ ← addMsg env b

/-- `process_ack`. -/
def processAck (env : Env) (b : AckBody) (pair : SockaddrIn6) : Code Unit := do
  getCurNeighbours
  let s ← Prog.call get
  let e ← Prog.call (follow (mapGet s.cur (newNeighbourKeySock env pair)))
  let _ ← Prog.call (rmNbrMsg b.senderId b.nonce e)
  Prog.give .curNeighbours

/-- `process_go_away`. The body is not looked at. -/
def processGoAway (env : Env) (_b : GoAwayBody) (pair : SockaddrIn6) : Code Unit := do
  getCurNeighbours
  getPotNeighbours
  let key := newNeighbourKeySock env pair
  let s ← Prog.call get
  let e ← Prog.call (follow (mapGet s.cur key))
  Prog.call (emptyPending e)
  let _ ← Prog.call (mapTransferNeighbour env .cur .pot key)
  Prog.give .curNeighbours
  Prog.give .potNeighbours

end Miaouchat
