import Miaouchat.Deserialization
import Miaouchat.Reachable

/-!
# Datagrams

`process_datagram` decodes a datagram and hands the TLVs of the message, in
order, to the handlers of their types. A Pad1, a Warning and a TLV of an unknown
type have no handler that touches the state; at a PadN the function returns.

The network and the clock may answer each handler differently, so there is an
`Env` for each call of a handler, in the order of the calls.

What is freed is left aside, as in `Connect`. The second half of the module is what
the handlers compute from a state, the mutexes left aside.
-/

namespace Miaouchat

/-- The call that the `switch` of `process_datagram` makes for a body, where it
makes one that touches the state. -/
def handler (env : Env) (client : SockaddrIn6) : TlvBody → Option (Code Unit)
  | .hello b => some (processHello env b client)
  | .neighbour b => some (processNeighbour env b)
  | .data b => some (processData env b client)
  | .ack b => some (processAck env b client)
  | .goAway b => some (processGoAway env b client)
  | .empty | .padn _ | .warning _ => none

/-- The loop of `process_datagram`, where `k` handlers have been called. It
returns at a PadN. -/
def processTlvs (env : ℕ → Env) (client : SockaddrIn6) : ℕ → List Tlv → Code Unit
  | _, [] => pure ()
  | k, t :: ts =>
    if t.type = TlvType.padn.code then pure ()
    else match handler (env k) client t.body with
      | none => processTlvs env client k ts
      | some call => do
        call
        processTlvs env client (k + 1) ts

/-- What `process_datagram` does with the message it has decoded. The decoder
counts in `tlv_nb` the TLVs it stores. -/
def processMsg (env : ℕ → Env) (m : Msg) (client : SockaddrIn6) : Code Unit :=
  if m.magic ≠ 93 ∨ m.version ≠ 2 then pure ()
  else processTlvs env client 0 m.body

/-- The message decoded from a datagram. Reading past the datagram and storing
past the slots of the message have no outcome. -/
def received (mc : Machine) (input : List UInt8) : Except Fault Msg :=
  match dserialMsg mc (newDsbuff input) with
  | none => .error .wild
  | some (m, _) => if m.body.length ≤ msgTlvNbDef then .ok m else .error .wild

/-- `process_datagram`, but for its free of the buffer (`Frees.processDatagram`). -/
def processDatagram (env : ℕ → Env) (input : List UInt8) (client : SockaddrIn6) :
    Code Unit := do
  let m ← Prog.call (StateT.lift (received (env 0).mc input))
  processMsg env m client

/-- A datagram of one Data, from the sender 7 with the nonce 1. -/
def oneData : List UInt8 := [93, 2, 0, 15, 4, 13, 0, 0, 0, 0, 0, 0, 0, 7, 0, 0, 0, 1, 0]

/-! ## The loop -/

section Loop

variable {env : ℕ → Env} {client : SockaddrIn6} {k : ℕ} {t : Tlv} {ts : List Tlv}

theorem processTlvs_padn (ht : t.type = TlvType.padn.code) :
    processTlvs env client k (t :: ts) = pure () :=
  if_pos ht

theorem processTlvs_skip (ht : t.type ≠ TlvType.padn.code)
    (hcall : handler (env k) client t.body = none) :
    processTlvs env client k (t :: ts) = processTlvs env client k ts := by
  rw [processTlvs, if_neg ht, hcall]

theorem processTlvs_call (ht : t.type ≠ TlvType.padn.code) {call : Code Unit}
    (hcall : handler (env k) client t.body = some call) :
    processTlvs env client k (t :: ts) = (do
      call
      processTlvs env client (k + 1) ts) := by
  rw [processTlvs, if_neg ht, hcall]

end Loop

/-- A message with the protocol's magic number and version is handed to the
loop. -/
theorem processMsg_of_header {env : ℕ → Env} {m : Msg} {client : SockaddrIn6}
    (hmagic : m.magic = 93) (hversion : m.version = 2) :
    processMsg env m client = processTlvs env client 0 m.body :=
  if_neg (by simp [hmagic, hversion])

/-! ## What the handlers compute -/

/-- The bytes of the datagram of one TLV that is sent from the state `s`. -/
def bytesOf (env : Env) (s : State) (t : Tlv) : List UInt8 :=
  (serialMsg env.mc (env.frames s.sent.length) (newMsg [t]) (newSbuff env.mc)).written

/-- A message of one TLV, sent. -/
theorem sendMsg_one (env : Env) (pair : SockaddrIn6) (t : Tlv) (s : State) :
    sendMsg env pair [t] s = .ok ((), s.withSent pair (bytesOf env s t)) :=
  rfl

/-- The state in which `process_hello` looks its peer up: a short Hello has been
answered. -/
def State.answered (s : State) (env : Env) (b : HelloBody) (client : SockaddrIn6) : State :=
  if b.isLong then s
  else s.withSent client (bytesOf env s (newTlvHello true b.sourceId env.clientId))

/-- **`process_hello`** answers, and then deals with its peer. -/
theorem exec_processHello (env : Env) (b : HelloBody) (client : SockaddrIn6) (s : State) :
    (processHello env b client).exec s
      = (admitPeer env client (newNeighbourKeySock env client) (s.answered env b client)).exec
          (s.answered env b client) := by
  have hanswer : (answerHello env b client).exec s = .ok ((), s.answered env b client) := by
    unfold answerHello State.answered
    split
    · rfl
    · exact (Prog.exec_call _ s).trans (sendMsg_one ..)
  unfold processHello getCurNeighbours getPotNeighbours
  rw [Prog.exec_bind_ok hanswer, Prog.exec_take_bind, Prog.exec_take_bind,
    Prog.exec_get_bind, Prog.exec_bind]
  cases (admitPeer env client (newNeighbourKeySock env client)
    (s.answered env b client)).exec (s.answered env b client) <;> rfl

/-- A current neighbour is left alone. -/
theorem exec_admitPeer_cur (env : Env) (client : SockaddrIn6) {key : List Char} {s : State}
    (h : (mapGet s.cur key).isSome) : (admitPeer env client key s).exec s = .ok ((), s) := by
  unfold admitPeer
  rw [if_pos h]
  rfl

/-- An unknown peer is added. -/
theorem exec_admitPeer_new (env : Env) (client : SockaddrIn6) {key : List Char} {s : State}
    (hcur : mapGet s.cur key = none) (hpot : mapGet s.pot key = none) :
    (admitPeer env client key s).exec s
      = (addNewNeighbour env (env.inetNtop env.clientSlot) (portText client.port)).exec s := by
  unfold admitPeer
  rw [if_neg (by rw [hcur]; exact Bool.false_ne_true), if_pos (by rw [hpot]; rfl)]

/-- A potential neighbour becomes a current one. -/
theorem exec_admitPeer_pot (env : Env) (client : SockaddrIn6) {key : List Char} {s : State}
    {e : ℕ} (hcur : mapGet s.cur key = none) (hpot : mapGet s.pot key = some e) :
    (admitPeer env client key s).exec s
      = (mapTransferNeighbour env .pot .cur key s).map fun r => ((), r.2) := by
  unfold admitPeer
  rw [if_neg (by rw [hcur]; exact Bool.false_ne_true),
    if_neg (by rw [hpot]; exact Bool.false_ne_true), Prog.exec_bind, Prog.exec_call]
  cases mapTransferNeighbour env .pot .cur key s <;> rfl

/-- **`process_data`** acknowledges, and then adds the message. -/
theorem exec_processData (env : Env) (b : DataBody) (client : SockaddrIn6) (s : State) :
    (processData env b client).exec s
      = ((addMsg env b).exec
          (s.withSent client (bytesOf env s (newTlvAck b.senderId b.nonce)))).map
        fun r => ((), r.2) := by
  have hack : sendAck env client b.senderId b.nonce s = .ok ((),
      s.withSent client (bytesOf env s (newTlvAck b.senderId b.nonce))) := sendMsg_one ..
  unfold processData
  rw [Prog.exec_call_bind hack, Prog.exec_bind]
  cases (addMsg env b).exec
    (s.withSent client (bytesOf env s (newTlvAck b.senderId b.nonce))) <;> rfl

/-- **`process_ack`** removes a pending message of a current neighbour. -/
theorem exec_processAck {env : Env} (b : AckBody) {pair : SockaddrIn6} {s : State} {e : ℕ}
    (he : mapGet s.cur (newNeighbourKeySock env pair) = some e) :
    (processAck env b pair).exec s
      = (rmNbrMsg b.senderId b.nonce e s).map fun r => ((), r.2) := by
  unfold processAck getCurNeighbours
  rw [Prog.exec_take_bind, Prog.exec_get_bind, he]
  rw [Prog.exec_call_bind (a := e) rfl, Prog.exec_bind, Prog.exec_call]
  cases rmNbrMsg b.senderId b.nonce e s <;> rfl

/-- **`process_go_away`** empties the pending messages of a current neighbour
and makes it a potential one. -/
theorem exec_processGoAway {env : Env} (b : GoAwayBody) {pair : SockaddrIn6} {s : State}
    {e : ℕ} (he : mapGet s.cur (newNeighbourKeySock env pair) = some e) :
    (processGoAway env b pair).exec s
      = ((do
          emptyPending e
          mapTransferNeighbour env .cur .pot (newNeighbourKeySock env pair) : M Bool) s).map
        fun r => ((), r.2) := by
  unfold processGoAway getCurNeighbours getPotNeighbours
  rw [Prog.exec_take_bind, Prog.exec_take_bind]
  dsimp only
  rw [Prog.exec_get_bind, he, Prog.exec_call_bind (a := e) rfl, Prog.exec_bind,
    Prog.exec_call]
  show (emptyPending e s >>= _) = Except.map _ (emptyPending e s >>= _)
  cases emptyPending e s with
  | error f => rfl
  | ok r =>
    show Prog.exec (Prog.call _ >>= _) r.2 = Except.map _ (mapTransferNeighbour _ _ _ _ r.2)
    rw [Prog.exec_bind, Prog.exec_call]
    cases mapTransferNeighbour env .cur .pot (newNeighbourKeySock env pair) r.2 <;> rfl

/-- A peer that is no current neighbour has no Ack or GoAway handled. -/
theorem exec_processAck_none {env : Env} (b : AckBody) {pair : SockaddrIn6} {s : State}
    (h : mapGet s.cur (newNeighbourKeySock env pair) = none) :
    (processAck env b pair).exec s = .error .null := by
  unfold processAck getCurNeighbours
  rw [Prog.exec_take_bind, Prog.exec_get_bind, h]
  rfl

theorem exec_processGoAway_none {env : Env} (b : GoAwayBody) {pair : SockaddrIn6} {s : State}
    (h : mapGet s.cur (newNeighbourKeySock env pair) = none) :
    (processGoAway env b pair).exec s = .error .null := by
  unfold processGoAway getCurNeighbours getPotNeighbours
  rw [Prog.exec_take_bind, Prog.exec_take_bind]
  dsimp only
  rw [Prog.exec_get_bind, h]
  rfl

/-! ## What the handlers have done when they return -/

section Returned

variable {env : Env} {pair : SockaddrIn6} {s s' : State}

/-- **A peer is left alone, moved or added.** -/
theorem admitPeer_cases {key : List Char}
    (h : (admitPeer env pair key s).exec s = .ok ((), s')) :
    (mapGet s.cur key ≠ none ∧ s' = s)
      ∨ (mapGet s.cur key = none ∧ mapGet s.pot key ≠ none
        ∧ ∃ moved, mapTransferNeighbour env .pot .cur key s = .ok (moved, s'))
      ∨ (mapGet s.cur key = none ∧ mapGet s.pot key = none
        ∧ (addNewNeighbour env (env.inetNtop env.clientSlot) (portText pair.port)).exec s
          = .ok ((), s')) := by
  cases hcur : mapGet s.cur key with
  | some e =>
    rw [exec_admitPeer_cur env pair (Option.isSome_of_mem hcur)] at h
    cases h
    exact .inl ⟨Option.some_ne_none e, rfl⟩
  | none =>
    cases hpot : mapGet s.pot key with
    | some e =>
      rw [exec_admitPeer_pot env pair hcur hpot] at h
      exact .inr (.inl ⟨rfl, Option.some_ne_none e, map_eq_ok h⟩)
    | none =>
      rw [exec_admitPeer_new env pair hcur hpot] at h
      exact .inr (.inr ⟨rfl, rfl, h⟩)

/-- A datagram that is handled has been decoded. -/
theorem processDatagram_eq_ok {env : ℕ → Env} {input : List UInt8} {client : SockaddrIn6}
    (h : (processDatagram env input client).exec s = .ok ((), s')) :
    ∃ m, received (env 0).mc input = .ok m ∧ (processMsg env m client).exec s = .ok ((), s') := by
  obtain ⟨m, s₁, hlift, hrest⟩ := Prog.exec_bind_eq_ok h
  rw [Prog.exec_call] at hlift
  obtain ⟨hm, rfl⟩ := lift_eq_ok hlift
  exact ⟨m, hm, hrest⟩

/-- An Ack is handled where its peer is a current neighbour with an entry. -/
theorem processAck_eq_ok {b : AckBody} (h : (processAck env b pair).exec s = .ok ((), s')) :
    ∃ e ent r, mapGet s.cur (newNeighbourKeySock env pair) = some e
      ∧ s.entries e = some ent ∧ rmNbrMsg b.senderId b.nonce e s = .ok (r, s') := by
  cases he : mapGet s.cur (newNeighbourKeySock env pair) with
  | none => cases (exec_processAck_none b he).symm.trans h
  | some e =>
    obtain ⟨r, hrm⟩ := map_eq_ok ((exec_processAck b he).symm.trans h)
    obtain ⟨ent, s₁, hent, -⟩ := bind_eq_ok hrm
    exact ⟨e, ent, r, rfl, (entryAt_eq_ok hent).1, hrm⟩

/-- A GoAway is handled where its peer is a current neighbour. -/
theorem processGoAway_eq_ok {b : GoAwayBody}
    (h : (processGoAway env b pair).exec s = .ok ((), s')) :
    ∃ e s₁ moved, mapGet s.cur (newNeighbourKeySock env pair) = some e
      ∧ emptyPending e s = .ok ((), s₁)
      ∧ mapTransferNeighbour env .cur .pot (newNeighbourKeySock env pair) s₁
        = .ok (moved, s') := by
  cases he : mapGet s.cur (newNeighbourKeySock env pair) with
  | none => cases (exec_processGoAway_none b he).symm.trans h
  | some e =>
    obtain ⟨moved, hrun⟩ := map_eq_ok ((exec_processGoAway b he).symm.trans h)
    obtain ⟨_, s₁, hempty, htransfer⟩ := bind_eq_ok hrun
    exact ⟨e, s₁, moved, rfl, hempty, htransfer⟩

end Returned

end Miaouchat
