import Miaouchat.Datagram
import Miaouchat.RoundTrip

/-!
# The Hello handshake

A client that meets another sends it a short Hello with its own id, and is to
be answered with a long Hello that has the answering client's id as the source
and its own as the destination. `process_hello` passes the two ids to
`send_hello` in the other order: the answer names the client it is sent to as
its source. A node that answers itself does not show it
(`identifies_iff`).
-/

namespace Miaouchat

/-- A short Hello that a client sends from the state `s`, with `send_hello` or
as one of the datagrams of `add_new_neighbour`. -/
inductive SentHello (env : Env) (s : State) (bytes : List UInt8) : Prop
  | sendHello {pair : SockaddrIn6} {dstId : UInt64} {s' : State}
      (hrun : sendHello env pair false env.clientId dstId s = .ok ((), s'))
      (hsent : s'.sent = s.sent ++ [(pair, bytes)])
  | addNewNeighbour {host port : List Char} {pair : SockaddrIn6} {s' : State}
      {datagrams : List (SockaddrIn6 × List UInt8)}
      (hrun : (addNewNeighbour env host port).exec s = .ok ((), s'))
      (hsent : s'.sent = s.sent ++ datagrams) (hmem : (pair, bytes) ∈ datagrams)

/-- The client `client` is in a map of neighbours, with an entry. -/
def InMaps (env : Env) (client : SockaddrIn6) (s : State) : Prop :=
  ∃ w e ent, mapGet (s.nbrs w) (newNeighbourKeySock env client) = some e
    ∧ s.entries e = some ent

/-- **The datagram is answered with both ids**: one datagram goes back, and it
is decoded as one long Hello from the client that has answered to the one that
had sent the datagram. -/
def Identifies (envA : Env) (envB : ℕ → Env) (bytes : List UInt8) (client : SockaddrIn6)
    (s : State) : Prop :=
  ∃ s' reply, (processDatagram envB bytes client).exec s = .ok ((), s')
    ∧ s'.sent = s.sent ++ [(client, reply)]
    ∧ ∃ m b, dserialMsg envA.mc (newDsbuff reply) = some (m, b)
      ∧ m.body.map Tlv.body = [.hello ⟨true, (envB 0).clientId, envA.clientId⟩]

/-! ## Sending -/

/-- The datagram of one Hello is decoded as it was built. -/
theorem dserialMsg_bytesOf_hello (env : Env) (mc : Machine) (s : State) (isLong : Bool)
    (srcId dstId : UInt64) :
    ∃ b, dserialMsg mc (newDsbuff (bytesOf env s (newTlvHello isLong srcId dstId)))
      = some (newMsg [newTlvHello isLong srcId dstId], b) :=
  dserialMsg_written env.mc mc (env.frames s.sent.length) [.hello isLong srcId dstId]

/-- **Either way the datagram is a short Hello** with the id of the client. -/
theorem SentHello.bytes_eq {env : Env} {s : State} {bytes : List UInt8}
    (h : SentHello env s bytes) :
    bytes = bytesOf env s (newTlvHello false env.clientId 0) := by
  cases h with
  | sendHello hrun hsent =>
    cases hrun
    have hlast := List.append_cancel_left hsent
    exact (Prod.mk.inj (List.cons.inj hlast).1).2.symm
  | addNewNeighbour hrun hsent hmem =>
    rw [exec_addNewNeighbour] at hrun
    cases hrun
    rw [State.sent_withAddresses] at hsent
    rw [← List.append_cancel_left hsent] at hmem
    obtain ⟨p, -, hp⟩ := List.mem_map.mp hmem
    exact (Prod.mk.inj hp).2.symm

/-! ## Answering -/

/-- A transfer of an entry that is there returns, and sends nothing. -/
theorem mapTransferNeighbour_ok (env : Env) {w w' : Nbrs} (hw : w' ≠ w) {key : List Char}
    {s : State} {e : ℕ} {ent : NeighbourEntry} (he : mapGet (s.nbrs w) key = some e)
    (hent : s.entries e = some ent) :
    ∃ moved s', mapTransferNeighbour env w w' key s = .ok (moved, s') ∧ s'.sent = s.sent := by
  rw [mapTransferNeighbour_some env hw he hent]
  dsimp only
  split
  · exact ⟨_, _, rfl, by rw [State.sent_setNbrs, State.sent_setNbrs]⟩
  · exact ⟨_, _, rfl, by rw [State.sent_setNbrs]⟩

/-- A known client is left in the maps, or moved, and sent nothing. -/
theorem exec_admitPeer_known {env : Env} {client : SockaddrIn6} {s : State}
    (h : InMaps env client s) :
    ∃ s', (admitPeer env client (newNeighbourKeySock env client) s).exec s = .ok ((), s')
      ∧ s'.sent = s.sent := by
  obtain ⟨w, e, ent, he, hent⟩ := h
  cases hcur : mapGet s.cur (newNeighbourKeySock env client) with
  | some e' => exact ⟨s, exec_admitPeer_cur env client (Option.isSome_of_mem hcur), rfl⟩
  | none =>
    cases w with
    | cur => cases hcur.symm.trans he
    | pot =>
      obtain ⟨moved, s', hrun, hsent⟩ :=
        mapTransferNeighbour_ok env (by decide : Nbrs.cur ≠ .pot) he hent
      exact ⟨s', by rw [exec_admitPeer_pot env client hcur he, hrun]; rfl, hsent⟩

/-- **A short Hello of a known client** is answered with one datagram. -/
theorem exec_processHello_known {env : Env} {client : SockaddrIn6} {s : State}
    (h : InMaps env client s) (srcId dstId : UInt64) :
    ∃ s', (processHello env ⟨false, srcId, dstId⟩ client).exec s = .ok ((), s')
      ∧ s'.sent = s.sent
        ++ [(client, bytesOf env s (newTlvHello true srcId env.clientId))] := by
  have h₁ : InMaps env client (s.answered env ⟨false, srcId, dstId⟩ client) := h
  obtain ⟨s', hrun, hsent⟩ := exec_admitPeer_known h₁
  exact ⟨s', (exec_processHello ..).trans hrun, hsent⟩

/-- The datagram of a short Hello is handed to `process_hello`. -/
theorem exec_processDatagram_hello (env : Env) (envB : ℕ → Env) (s : State)
    (srcId : UInt64) (client : SockaddrIn6) (s' : State) :
    (processDatagram envB (bytesOf env s (newTlvHello false srcId 0)) client).exec s'
      = (processHello (envB 0) ⟨false, srcId, 0⟩ client).exec s' := by
  obtain ⟨b, hb⟩ := dserialMsg_bytesOf_hello env (envB 0).mc s false srcId 0
  have hreceived : received (envB 0).mc (bytesOf env s (newTlvHello false srcId 0))
      = .ok (newMsg [newTlvHello false srcId 0]) := by
    unfold received
    rw [hb]
    rfl
  unfold processDatagram
  rw [Prog.exec_call_bind (lift_ok hreceived s'), processMsg_of_header rfl rfl]
  show Prog.exec (processTlvs envB client 0 [newTlvHello false srcId 0]) s' = _
  have htype : (newTlvHello false srcId 0).type ≠ TlvType.padn.code :=
    show TlvType.hello.code ≠ TlvType.padn.code by decide
  rw [processTlvs_call htype rfl, Prog.exec_bind]
  show Except.bind ((processHello (envB 0) ⟨false, srcId, 0⟩ client).exec s') _ = _
  cases (processHello (envB 0) ⟨false, srcId, 0⟩ client).exec s' <;> rfl

/-- **What the answer is decoded as**: its source is the client it is sent to,
and its destination the one that sends it. -/
theorem exec_processDatagram_sentHello {envA : Env} {envB : ℕ → Env} {bytes : List UInt8}
    {sA sB : State} {client : SockaddrIn6} (hA : SentHello envA sA bytes)
    (hB : InMaps (envB 0) client sB) :
    ∃ s' reply b, (processDatagram envB bytes client).exec sB = .ok ((), s')
      ∧ s'.sent = sB.sent ++ [(client, reply)]
      ∧ dserialMsg envA.mc (newDsbuff reply)
        = some (newMsg [newTlvHello true envA.clientId (envB 0).clientId], b) := by
  obtain ⟨s', hrun, hsent⟩ := exec_processHello_known hB envA.clientId 0
  obtain ⟨b, hdecoded⟩ := dserialMsg_bytesOf_hello (envB 0) envA.mc sB true envA.clientId
    (envB 0).clientId
  rw [← exec_processDatagram_hello envA envB sA, ← hA.bytes_eq] at hrun
  exact ⟨s', _, b, hrun, hsent, hdecoded⟩

/-- An answer with both ids has them the same. -/
theorem Identifies.ids_eq {envA : Env} {envB : ℕ → Env} {bytes : List UInt8} {sA sB : State}
    {client : SockaddrIn6} (h : Identifies envA envB bytes client sB)
    (hA : SentHello envA sA bytes) (hB : InMaps (envB 0) client sB) :
    envA.clientId = (envB 0).clientId := by
  obtain ⟨s₁, reply₁, hrun₁, hsent₁, m, b₁, hm, hbody⟩ := h
  obtain ⟨s', reply, b, hrun, hsent, hdecoded⟩ := exec_processDatagram_sentHello hA hB
  cases hrun.symm.trans hrun₁
  have hreply : reply = reply₁ := (Prod.mk.inj (List.cons.inj
    (List.append_cancel_left (hsent.symm.trans hsent₁))).1).2
  rw [← hreply, hdecoded] at hm
  cases hm
  injection (List.cons.inj hbody).1 with hhello
  exact congrArg HelloBody.sourceId hhello

/-- **The short Hello of a known client is answered with both ids exactly where
the ids are the same.** -/
theorem identifies_iff {envA : Env} {envB : ℕ → Env} {bytes : List UInt8} {sA sB : State}
    {client : SockaddrIn6} (hA : SentHello envA sA bytes) (hB : InMaps (envB 0) client sB) :
    Identifies envA envB bytes client sB ↔ envA.clientId = (envB 0).clientId := by
  refine ⟨fun h => h.ids_eq hA hB, fun hids => ?_⟩
  obtain ⟨s', reply, b, hrun, hsent, hdecoded⟩ := exec_processDatagram_sentHello hA hB
  refine ⟨s', reply, hrun, hsent, _, b, hdecoded, ?_⟩
  rw [hids]
  rfl

/-- A client of an id. -/
def clientEnv (id : UInt64) : Env := { shortEnv with clientId := id }

theorem inMaps_oneNeighbour (id : UInt64) :
    InMaps (clientEnv id) ⟨shortIp 1, 257⟩ (oneNeighbour 257) := by
  have he : mapGet ((oneNeighbour 257).nbrs .cur)
      (newNeighbourKeySock shortEnv ⟨shortIp 1, 257⟩) = some 0 := by decide
  exact ⟨.cur, 0, ⟨⟨shortIp 1, 257⟩, 1024, newDllist .msg fun _ => (none, none)⟩, he, rfl⟩

theorem sentHello_clientEnv (id : UInt64) (s : State) :
    SentHello (clientEnv id) s (bytesOf (clientEnv id) s (newTlvHello false id 0)) :=
  .sendHello (sendMsg_one (clientEnv id) ⟨shortIp 2, 257⟩ (newTlvHello false id 0) s) rfl

/-- A node that answers itself. -/
theorem identifies_iff_self :
    Identifies (clientEnv 1) (fun _ => clientEnv 1)
      (bytesOf (clientEnv 1) (oneNeighbour 257) (newTlvHello false 1 0)) ⟨shortIp 1, 257⟩
      (oneNeighbour 257) :=
  (identifies_iff (sentHello_clientEnv 1 (oneNeighbour 257)) (inMaps_oneNeighbour 1)).mpr rfl

/-- The client 2 answers the client 1. -/
theorem not_identifies :
    ¬ ∀ (envA : Env) (envB : ℕ → Env) (bytes : List UInt8) (sA sB : State)
        (client : SockaddrIn6), SentHello envA sA bytes → InMaps (envB 0) client sB →
        Identifies envA envB bytes client sB := by
  intro hall
  have hA := sentHello_clientEnv 1 (oneNeighbour 257)
  have hB := inMaps_oneNeighbour 2
  have h := hall (clientEnv 1) (fun _ => clientEnv 2) _ _ _ _ hA hB
  have hids : (1 : UInt64) = 2 := h.ids_eq hA hB
  exact absurd hids (by decide)

end Miaouchat
