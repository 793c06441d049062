import Miaouchat.Datagram

/-!
# What the server frees

Two frees of `connect.c` are of something that `malloc` has not returned. `send_ack`
frees the message it has sent, and with it the array of its TLVs, which is its own
variable `t`. And `process_datagram` frees its buffer at the end of the loop, and with
it the array that `udp_server` has received the datagram in. The handlers of
`Connect` and the loop of `Datagram` go on as if these were nothing; in the
functions of this module, which have the same names, they are part of the code.

So an Ack is sent, and that is the last the server does; and where no Ack is sent
the server comes to the end of the loop, unless it returns at a PadN. What is left
is `exec_processDatagram_iff`: the datagrams that this code is done with are those
for which it frees nothing, and with these it does what it does in `Datagram`.
-/

namespace Miaouchat

namespace Frees

/-- `send_ack`. -/
def sendAck (env : Env) (pair : SockaddrIn6) (senderId : UInt64) (nonce : UInt32) :
    Code Unit := do
  Prog.call (Miaouchat.sendAck env pair senderId nonce)
  Prog.call freeLocal

/-- `process_data`. What it prints after `add_msg` is left out. -/
def processData (env : Env) (b : DataBody) (client : SockaddrIn6) : Code Unit := do
  sendAck env client b.senderId b.nonce
  let _ ← addMsg env b

/-- The call that the `switch` of `process_datagram` makes for a body. -/
def handler (env : Env) (client : SockaddrIn6) : TlvBody → Option (Code Unit)
  | .data b => some (processData env b client)
  | body => Miaouchat.handler env client body

/-- The loop of `process_datagram`, where `k` handlers have been called. It gives
`false` where the function returns from it, at a PadN. -/
def processTlvs (env : ℕ → Env) (client : SockaddrIn6) : ℕ → List Tlv → Code Bool
  | _, [] => pure true
  | k, t :: ts =>
    if t.type = TlvType.padn.code then pure false
    else match handler (env k) client t.body with
      | none => processTlvs env client k ts
      | some call => do
        call
        processTlvs env client (k + 1) ts

/-- What `process_datagram` does with the message it has decoded. At the end it frees
the array of the datagram. -/
def processMsg (env : ℕ → Env) (m : Msg) (client : SockaddrIn6) : Code Unit :=
  if m.magic ≠ 93 ∨ m.version ≠ 2 then pure ()
  else do
    let ended ← processTlvs env client 0 m.body
    if ended then Prog.call freeLocal else pure ()

/-- `process_datagram`. -/
def processDatagram (env : ℕ → Env) (input : List UInt8) (client : SockaddrIn6) :
    Code Unit := do
  let m ← Prog.call (StateT.lift (received (env 0).mc input))
  processMsg env m client

/-! ## What is not freed -/

/-- **The loop comes to a PadN before any Data.** -/
def PadnFirst : List Tlv → Prop
  | [] => False
  | t :: ts => t.type = TlvType.padn.code ∨ (∀ b, t.body ≠ .data b) ∧ PadnFirst ts

/-- **The message is dismissed**: its header is not that of the protocol, or the loop
is left at a PadN. -/
def Dismissed (m : Msg) : Prop := (m.magic ≠ 93 ∨ m.version ≠ 2) ∨ PadnFirst m.body

section Loop

variable {env : ℕ → Env} {client : SockaddrIn6} {k : ℕ} {t : Tlv} {ts : List Tlv}
  {s s' : State}

/-- **A Data is acknowledged**, and that is the end. -/
theorem outcome_processData (env : Env) (b : DataBody) (client : SockaddrIn6) (s : State) :
    (processData env b client).outcome s = (.error .wild,
      s.withSent client (bytesOf env s (newTlvAck b.senderId b.nonce))) := by
  have hsent : Miaouchat.sendAck env client b.senderId b.nonce s = .ok ((),
      s.withSent client (bytesOf env s (newTlvAck b.senderId b.nonce))) := sendMsg_one ..
  have hack : (sendAck env client b.senderId b.nonce).outcome s = (.error .wild,
      s.withSent client (bytesOf env s (newTlvAck b.senderId b.nonce))) :=
    (Prog.outcome_call_bind hsent).trans (Prog.outcome_call_error rfl)
  exact Prog.outcome_bind_error hack

/-- The other handlers are the same. -/
theorem handler_of_ne (env : Env) (client : SockaddrIn6) {body : TlvBody}
    (h : ∀ b, body ≠ .data b) :
    handler env client body = Miaouchat.handler env client body := by
  cases body with
  | data b => exact absurd rfl (h b)
  | empty | padn _ | hello _ | neighbour _ | ack _ | goAway _ | warning _ => rfl

theorem processTlvs_padn (ht : t.type = TlvType.padn.code) :
    processTlvs env client k (t :: ts) = pure false :=
  if_pos ht

theorem processTlvs_skip (ht : t.type ≠ TlvType.padn.code)
    (hcall : handler (env k) client t.body = none) :
    processTlvs env client k (t :: ts) = processTlvs env client k ts := by
  rw [processTlvs, if_neg ht, hcall]

theorem processTlvs_call (ht : t.type ≠ TlvType.padn.code) {call : Code Unit}
    (hcall : handler (env k) client t.body = some call) :
    processTlvs env client k (t :: ts) = (do
      call
      processTlvs env client (k + 1) ts) := by
  rw [processTlvs, if_neg ht, hcall]

/-- **The loop is left at a PadN** where it comes to one before any Data, and is done
with what comes before. -/
theorem exec_processTlvs_iff :
    (processTlvs env client k ts).exec s = .ok (false, s')
      ↔ (Miaouchat.processTlvs env client k ts).exec s = .ok ((), s') ∧ PadnFirst ts := by
  induction ts generalizing k s with
  | nil => exact iff_of_false nofun fun h => h.2
  | cons t ts ih =>
    by_cases ht : t.type = TlvType.padn.code
    · rw [processTlvs_padn ht, Miaouchat.processTlvs_padn ht, and_iff_left (.inl ht)]
      exact ⟨fun h => by cases h; rfl, fun h => by cases h; rfl⟩
    · rw [PadnFirst, or_iff_right ht]
      by_cases hdata : ∃ b, t.body = .data b
      · obtain ⟨b, hb⟩ := hdata
        have hcall : handler (env k) client t.body = some (processData (env k) b client) := by
          rw [hb]
          rfl
        rw [processTlvs_call ht hcall,
          Prog.exec_bind_error (Prog.exec_of_outcome (outcome_processData (env k) b client s))]
        exact iff_of_false nofun fun h => h.2.1 b hb
      · have hne : ∀ b, t.body ≠ .data b := not_exists.mp hdata
        have hsame := handler_of_ne (env k) client hne
        rw [and_iff_right hne]
        cases hcall : Miaouchat.handler (env k) client t.body with
        | none =>
          rw [processTlvs_skip ht (hsame.trans hcall), Miaouchat.processTlvs_skip ht hcall, ih]
        | some call =>
          rw [processTlvs_call ht (hsame.trans hcall), Miaouchat.processTlvs_call ht hcall]
          cases hrun : call.exec s with
          | error f =>
            rw [Prog.exec_bind_error hrun, Prog.exec_bind_error hrun]
            exact iff_of_false nofun fun h => by cases h.1
          | ok r => rw [Prog.exec_bind_ok hrun, Prog.exec_bind_ok hrun, ih]

end Loop

/-- **The messages that the code is done with are those that are dismissed**, where what
is done before is done with. -/
theorem exec_processMsg_iff {env : ℕ → Env} {m : Msg} {client : SockaddrIn6} {s s' : State} :
    (processMsg env m client).exec s = .ok ((), s')
      ↔ (Miaouchat.processMsg env m client).exec s = .ok ((), s') ∧ Dismissed m := by
  unfold processMsg Miaouchat.processMsg Dismissed
  by_cases hheader : m.magic ≠ 93 ∨ m.version ≠ 2
  · rw [if_pos hheader, if_pos hheader, and_iff_left (.inl hheader)]
  · rw [if_neg hheader, if_neg hheader, or_iff_right hheader, ← exec_processTlvs_iff]
    constructor
    · intro h
      obtain ⟨ended, s₁, hloop, hrest⟩ := Prog.exec_bind_eq_ok h
      cases ended with
      | true =>
        rw [if_pos rfl, Prog.exec_call] at hrest
        cases hrest
      | false =>
        cases hrest
        exact hloop
    · intro h
      rw [Prog.exec_bind_ok h]
      rfl

/-- **So it is with datagrams.** -/
theorem exec_processDatagram_iff {env : ℕ → Env} {input : List UInt8} {client : SockaddrIn6}
    {s s' : State} :
    (processDatagram env input client).exec s = .ok ((), s')
      ↔ (Miaouchat.processDatagram env input client).exec s = .ok ((), s')
        ∧ ∀ m, received (env 0).mc input = .ok m → Dismissed m := by
  unfold processDatagram Miaouchat.processDatagram
  cases hm : received (env 0).mc input with
  | error f =>
    have hlift := lift_error (α := Msg) (f := f) rfl s
    rw [Prog.exec_call_bind_error hlift, Prog.exec_call_bind_error hlift]
    exact iff_of_false nofun fun h => by cases h.1
  | ok m =>
    have hlift := lift_ok (a := m) rfl s
    rw [Prog.exec_call_bind hlift, Prog.exec_call_bind hlift, exec_processMsg_iff]
    exact and_congr_right fun _ => ⟨fun h m' hm' => Except.ok.inj hm' ▸ h, fun h => h m rfl⟩

end Frees

end Miaouchat
