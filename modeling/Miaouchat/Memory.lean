import Miaouchat.Lib.Blocks
import Miaouchat.Datagram

/-!
# The memory of messages

Which blocks of memory the code asks for, and which it frees, for the messages it
receives and sends: messages, TLVs, bodies, the payloads of bodies, and buffers. What
a handler does to the maps of neighbours is a parameter, `MapWork`: the keys, entries
and nodes of maps are not followed. The mutexes are left aside.

Two frees are of something that `malloc` never returned. `send_ack` has the message
it has sent freed with the array of its TLVs, which is its own variable `t`; and
`process_datagram` frees with its buffer the array `req` of `udp_server`. It gets
there unless it returns before: for a wrong magic number or version, or at a PadN. So
a datagram is handled without a wild access exactly when one of these is met before
any Data (`server_frees_iff`). Then nothing is freed but bodies, and memory fills up
(`server_leaks`).
-/

namespace Miaouchat

/-! ## What is where -/

/-- A TLV in memory: itself, its body, and the payload its body points to. -/
structure TlvBlocks where
  tlv : Tlv
  self : Pointer
  body : Pointer
  text : Pointer

/-- A message in memory: itself, the array of its TLVs, and these. -/
structure MsgBlocks where
  self : Pointer
  body : Pointer
  tlvs : List TlvBlocks

/-- A buffer in memory. -/
structure SbuffBlocks where
  self : Pointer
  data : Pointer

/-! ## `types.c` -/

/-- `new_tlv_hello`, `new_tlv_ack`. -/
def newTlvMem (t : Tlv) : Mem TlvBlocks := do
  let out ← malloc
  let body ← malloc
  return ⟨t, out, body, .null⟩

/-- `new_msg`, on an array at `ts`. -/
def newMsgMem (ts : Pointer) (tlvs : List TlvBlocks) : Mem MsgBlocks := do
  let m ← malloc
  return ⟨m, ts, tlvs⟩

/-- `free_go_away_body`. -/
def freeGoAwayBody (b : GoAwayBody) (body text : Pointer) : Mem Unit := do
  if b.hasMessage then free text else pure ()
  free body

/-- `free_warning_body`. -/
def freeWarningBody (b : WarningBody) (body text : Pointer) : Mem Unit := do
  if b.msgLen > 0 then free text else pure ()
  free body

/-- `free_tlv`. -/
def freeTlv (t : TlvBlocks) : Mem Unit := do
  match t.tlv.body with
  | .empty => pure ()
  | .padn _ | .hello _ | .neighbour _ | .ack _ => free t.body
  | .data _ =>
    free t.text
    free t.body
  | .goAway b => freeGoAwayBody b t.body t.text
  | .warning b => freeWarningBody b t.body t.text
  free t.self

/-- The loop of `free_msg`. -/
def freeTlvs : List TlvBlocks → Mem Unit
  | [] => return ()
  | t :: ts => do
    freeTlv t
    freeTlvs ts

/-- `free_msg`. -/
def freeMsg (m : MsgBlocks) (tlv : Bool) : Mem Unit := do
  if tlv then freeTlvs m.tlvs else pure ()
  free m.body
  free m.self

/-- `new_sbuff`. The messages of one TLV that are written to it here fit in the data
it begins with. -/
def newSbuffMem : Mem SbuffBlocks := do
  let b ← malloc
  let data ← malloc
  return ⟨b, data⟩

/-- `new_dsbuff`, on the array of the datagram. -/
def newDsbuffMem (data : Pointer) : Mem SbuffBlocks := do
  let b ← malloc
  return ⟨b, data⟩

/-- `free_sbuff`. -/
def freeSbuff (b : SbuffBlocks) : Mem Unit := do
  free b.data
  free b.self

/-! ## `serialization.c` -/

/-- The function that decodes a body: the body, and the payload it points to. -/
def dserialBodyMem : TlvBody → Mem (Pointer × Pointer)
  | .empty => pure (.null, .null)
  | .padn _ | .hello _ | .ack _ => do
    let b ← malloc
    return (b, .null)
  | .neighbour _ => do
    let ip ← malloc
    let out ← malloc
    free ip
    return (out, .null)
  | .goAway b => do
    let msg ← if b.hasMessage then malloc else pure .null
    let out ← malloc
    return (out, msg)
  | .data _ | .warning _ => do
    let text ← malloc
    let b ← malloc
    return (b, text)

/-- `dserial_tlv`, for the TLV it decodes. -/
def dserialTlvMem (t : Tlv) : Mem TlvBlocks := do
  let self ← malloc
  let (body, text) ← dserialBodyMem t.body
  return ⟨t, self, body, text⟩

/-- The loop of `dserial_msg`. -/
def dserialTlvsMem : List Tlv → Mem (List TlvBlocks)
  | [] => return []
  | t :: ts => do
    let b ← dserialTlvMem t
    let bs ← dserialTlvsMem ts
    return b :: bs

/-- `dserial_msg`, for the message it decodes. -/
def dserialMsgMem (m : Msg) : Mem MsgBlocks := do
  let self ← malloc
  let body ← malloc
  let tlvs ← dserialTlvsMem m.body
  return ⟨self, body, tlvs⟩

/-! ## `connect.c` -/

/-- `send_hello`. -/
def sendHelloMem (isLong : Bool) (srcId dstId : UInt64) : Mem Unit := do
  let t ← newTlvMem (newTlvHello isLong srcId dstId)
  let m ← newMsgMem .other [t]
  let b ← newSbuffMem
  free t.body
  free t.self
  free m.self
  freeSbuff b

/-- `send_ack`. -/
def sendAckMem (senderId : UInt64) (nonce : UInt32) : Mem Unit := do
  let t ← newTlvMem (newTlvAck senderId nonce)
  let m ← newMsgMem .other [t]
  let buff ← newSbuffMem
  freeMsg m true
  freeSbuff buff

/-- `add_new_neighbour`, of a host that is found. -/
def addNewNeighbourMem (clientId : UInt64) : Mem Unit := do
  let t ← newTlvMem (newTlvHello false clientId 0)
  let _ ← newMsgMem .other [t]
  let sb ← newSbuffMem
  freeSbuff sb

/-- What comes of the work that a handler does on the maps of neighbours: no host is
added, one that `getaddrinfo` finds is, or there is a wild access. -/
inductive MapWork
  | idle
  | adds
  | wild
  deriving DecidableEq, Repr

/-- Work that adds no host. -/
def lookupMem : MapWork → Mem Unit
  | .idle | .adds => pure ()
  | .wild => throw .wild

/-- Work that may add one. -/
def addingMem (clientId : UInt64) : MapWork → Mem Unit
  | .adds => addNewNeighbourMem clientId
  | w => lookupMem w

/-- The handler of a TLV, whose work on the maps comes to `w`. -/
def handlerMem (clientId : UInt64) (w : MapWork) (t : TlvBlocks) : Mem Unit :=
  match t.tlv.body with
  | .empty | .padn _ => pure ()
  | .hello b => do
    if b.isLong then pure () else sendHelloMem true b.sourceId clientId
    addingMem clientId w
    free t.body
  | .neighbour _ => do
    addingMem clientId w
    free t.body
  | .data b => sendAckMem b.senderId b.nonce
  | .ack _ => do
    lookupMem w
    free t.body
  | .goAway b => do
    lookupMem w
    freeGoAwayBody b t.body t.text
  | .warning b => freeWarningBody b t.body t.text

/-- The loop of `process_datagram`, from the TLV `k` on. It returns `false` at a
PadN. -/
def processTlvsMem (clientId : UInt64) (work : ℕ → MapWork) : ℕ → List TlvBlocks → Mem Bool
  | _, [] => return true
  | k, t :: ts =>
    if t.tlv.type = TlvType.padn.code then return false
    else do
      handlerMem clientId (work k) t
      processTlvsMem clientId work (k + 1) ts

/-- `process_datagram`, on an array of its caller. -/
def processDatagramMem (mc : Machine) (clientId : UInt64) (work : ℕ → MapWork)
    (input : List UInt8) : Mem Unit := do
  let buffer ← newDsbuffMem .other
  let m ← StateT.lift (received mc input)
  let msg ← dserialMsgMem m
  if m.magic ≠ 93 ∨ m.version ≠ 2 then return ()
  else
    let done ← processTlvsMem clientId work 0 msg.tlvs
    if done then
      freeMsg msg false
      freeSbuff buffer
    else return ()

/-- The rounds of `udp_server` that handle the datagrams `ds`. -/
def udpServerMem (mc : Machine) (clientId : UInt64) :
    List ((ℕ → MapWork) × List UInt8) → Mem Unit
  | [] => return ()
  | d :: ds => do
    processDatagramMem mc clientId d.1 d.2
    udpServerMem mc clientId ds

/-! ## What becomes of the blocks -/

/-- The blocks of a TLV. -/
def TlvBlocks.held (t : TlvBlocks) : Multiset ℕ := t.self.held + (t.body.held + t.text.held)

theorem singleton_held (a : ℕ) : (Pointer.block a).held = {a} := rfl

/-- **All that a TLV points to was returned by `malloc`**, or is nothing. -/
structure TlvBlocks.OnHeap (t : TlvBlocks) : Prop where
  self : ∃ a, t.self = .block a
  body : t.body ≠ .other
  text : t.text ≠ .other

section Sending

/-- **`send_hello` gives all its blocks back.** -/
theorem turns_sendHello (isLong : Bool) (srcId dstId : UInt64) :
    Turns 0 (sendHelloMem isLong srcId dstId) fun _ B => B = 0 := by
  simp only [sendHelloMem, newTlvMem, newMsgMem, newSbuffMem, freeSbuff, bind_assoc, pure_bind]
  refine Turns.malloc_bind fun t => Turns.malloc_bind fun body => Turns.malloc_bind fun m =>
    Turns.malloc_bind fun b => Turns.malloc_bind fun data => ?_
  simp only [← singleton_held]
  refine Turns.freed_bind (R := Pointer.held (.block data) + Pointer.held (.block b)
    + Pointer.held (.block m) + Pointer.held (.block t)) nofun (by abel) ?_
  refine Turns.freed_bind (R := Pointer.held (.block data) + Pointer.held (.block b)
    + Pointer.held (.block m)) nofun (by abel) ?_
  refine Turns.freed_bind (R := Pointer.held (.block data) + Pointer.held (.block b)) nofun
    (by abel) ?_
  exact Turns.freed_bind nofun rfl (Turns.freed nofun (by abel))

/-- `add_new_neighbour` keeps the TLV it has sent, with its body, and the message. -/
theorem turns_addNewNeighbour (clientId : UInt64) :
    Turns 0 (addNewNeighbourMem clientId) fun _ B => B.card = 3 := by
  simp only [addNewNeighbourMem, newTlvMem, newMsgMem, newSbuffMem, freeSbuff, bind_assoc,
    pure_bind]
  refine Turns.malloc_bind fun t => Turns.malloc_bind fun body => Turns.malloc_bind fun m =>
    Turns.malloc_bind fun b => Turns.malloc_bind fun data => ?_
  refine Turns.freed_bind nofun rfl ?_
  have hfree : Turns _ (free (.block b)) fun _ B => B = {m} + ({body} + ({t} + 0)) :=
    Turns.freed nofun rfl
  refine hfree.mono fun _ B hB => ?_
  rw [hB]
  rfl

/-- **`send_ack` frees its own variable.** -/
theorem breaks_sendAck (senderId : UInt64) (nonce : UInt32) :
    Breaks 0 (sendAckMem senderId nonce) := by
  simp only [sendAckMem, newTlvMem, newMsgMem, newSbuffMem, bind_assoc, pure_bind]
  refine Breaks.malloc_bind fun t => Breaks.malloc_bind fun body => Breaks.malloc_bind fun m =>
    Breaks.malloc_bind fun b => Breaks.malloc_bind fun data => ?_
  refine Breaks.bind_left ?_ _
  have htlv : freeTlv ⟨newTlvAck senderId nonce, .block t, .block body, .null⟩
      = (do free (.block body); free (.block t)) := rfl
  simp only [freeMsg, freeTlvs, htlv, bind_assoc, pure_bind, if_true, ← singleton_held]
  refine Breaks.freed_bind (R := Pointer.held (.block data) + Pointer.held (.block b)
    + Pointer.held (.block m) + Pointer.held (.block t)) nofun (by abel) ?_
  refine Breaks.freed_bind (R := Pointer.held (.block data) + Pointer.held (.block b)
    + Pointer.held (.block m)) nofun (by abel) ?_
  exact (breaks_free_other _).bind_left _

end Sending

/-! ## Receiving -/

section Receiving

theorem turns_dserialBody (b : TlvBody) :
    Turns 0 (dserialBodyMem b) fun r B =>
      B = r.1.held + r.2.held ∧ r.1 ≠ .other ∧ r.2 ≠ .other := by
  cases b with
  | empty => exact Turns.pure ⟨rfl, nofun, nofun⟩
  | padn | hello | ack =>
    exact Turns.malloc_bind fun b => Turns.pure ⟨rfl, nofun, nofun⟩
  | neighbour =>
    refine Turns.malloc_bind fun ip => Turns.malloc_bind fun out => ?_
    refine Turns.freed_bind (R := {out}) nofun (by simp only [Pointer.held]; abel) ?_
    exact Turns.pure ⟨rfl, nofun, nofun⟩
  | data | warning =>
    exact Turns.malloc_bind fun text => Turns.malloc_bind fun b =>
      Turns.pure ⟨by simp only [Pointer.held]; abel, nofun, nofun⟩
  | goAway b =>
    cases hmessage : b.hasMessage with
    | true =>
      have hrun : dserialBodyMem (.goAway b) = (do
          let msg ← malloc
          let out ← malloc
          return (out, msg)) := by
        simp only [dserialBodyMem, hmessage, if_true]
      rw [hrun]
      exact Turns.malloc_bind fun msg => Turns.malloc_bind fun out =>
        Turns.pure ⟨by simp only [Pointer.held]; abel, nofun, nofun⟩
    | false =>
      have hrun : dserialBodyMem (.goAway b) = (do
          let out ← malloc
          return (out, .null)) := by
        simp only [dserialBodyMem, hmessage, Bool.false_eq_true, if_false, pure_bind]
      rw [hrun]
      exact Turns.malloc_bind fun out => Turns.pure ⟨rfl, nofun, nofun⟩

theorem turns_dserialTlv (t : Tlv) :
    Turns 0 (dserialTlvMem t) fun b B => B = b.held ∧ b.OnHeap ∧ b.tlv = t := by
  refine Turns.malloc_bind fun self => ?_
  refine (turns_dserialBody t.body).step (R := {self} + 0) (zero_add _).symm fun r B hB => ?_
  obtain ⟨rfl, hbody, htext⟩ := hB
  refine Turns.pure ⟨?_, ⟨⟨self, rfl⟩, hbody, htext⟩, rfl⟩
  show r.1.held + r.2.held + ({self} + 0) = {self} + (r.1.held + r.2.held)
  abel

/-- **Decoding** gives each TLV blocks of its own. -/
theorem turns_dserialTlvs (ts : List Tlv) :
    Turns 0 (dserialTlvsMem ts) fun bs B =>
      B = (bs.map TlvBlocks.held).sum ∧ (∀ b ∈ bs, b.OnHeap) ∧ bs.map TlvBlocks.tlv = ts := by
  induction ts with
  | nil => exact Turns.pure ⟨rfl, fun _ => nofun, rfl⟩
  | cons t ts ih =>
    refine (turns_dserialTlv t).bind fun b B hB => ?_
    obtain ⟨rfl, hb, rfl⟩ := hB
    refine ih.step (R := b.held) (zero_add _).symm fun bs B hB => ?_
    obtain ⟨rfl, hbs, rfl⟩ := hB
    refine Turns.pure ⟨?_, List.forall_mem_cons.mpr ⟨hb, hbs⟩, rfl⟩
    rw [List.map_cons, List.sum_cons, add_comm]

variable {t : TlvBlocks}

/-- Freeing the payload of a body, or not, and the body. -/
theorem turns_freeBody (ht : t.OnHeap) (c : Bool) :
    Turns (t.body.held + t.text.held) (do
      if c then free t.text else pure ()
      free t.body) fun _ _ => True := by
  cases c with
  | true =>
    refine Turns.freed_bind ht.text (add_comm _ _) ?_
    exact (Turns.freed ht.body (add_zero _).symm).mono fun _ _ _ => trivial
  | false => exact (Turns.freed ht.body rfl).mono fun _ _ _ => trivial

/-- **The handler of a TLV comes to no wild access**: it answers no Data, and nor does
its work on the maps come to one. -/
def Returns (w : MapWork) (t : Tlv) : Prop :=
  match t.body with
  | .data _ => False
  | .empty | .padn _ | .warning _ => True
  | .hello _ | .neighbour _ | .ack _ | .goAway _ => w ≠ .wild

variable {w : MapWork}

theorem lookupMem_eq (hw : w ≠ .wild) : lookupMem w = pure () := by
  cases w with
  | idle | adds => rfl
  | wild => exact absurd rfl hw

theorem turns_adding (hw : w ≠ .wild) (clientId : UInt64) :
    Turns 0 (addingMem clientId w) fun _ _ => True := by
  cases w with
  | idle => exact Turns.pure trivial
  | adds => exact (turns_addNewNeighbour clientId).mono fun _ _ _ => trivial
  | wild => exact absurd rfl hw

theorem breaks_lookup : Breaks 0 (lookupMem .wild) := fun _ _ _ => rfl

theorem breaks_adding (clientId : UInt64) : Breaks 0 (addingMem clientId .wild) :=
  fun _ _ _ => rfl

/-- **A handler that returns frees at most the body and the payload of its TLV.** -/
theorem turns_handler (ht : t.OnHeap) (hw : Returns w t.tlv) (clientId : UInt64) :
    Turns (t.body.held + t.text.held) (handlerMem clientId w t) fun _ _ => True := by
  have hfree : ∀ R, Turns (t.body.held + t.text.held + R) (free t.body) fun _ _ => True :=
    fun R => (Turns.freed ht.body (add_assoc _ _ _)).mono fun _ _ _ => trivial
  have hadd : w ≠ .wild → Turns (t.body.held + t.text.held) (do
      addingMem clientId w
      free t.body) fun _ _ => True := fun hw =>
    (turns_adding hw clientId).step (zero_add _).symm fun _ B _ => by
      rw [add_comm B]
      exact hfree B
  unfold handlerMem
  unfold Returns at hw
  cases hbody : t.tlv.body with
  | empty | padn => exact Turns.pure trivial
  | neighbour =>
    rw [hbody] at hw
    exact hadd hw
  | ack =>
    rw [hbody] at hw
    dsimp only
    rw [lookupMem_eq hw, pure_bind, ← add_zero (t.body.held + t.text.held)]
    exact hfree 0
  | goAway b =>
    rw [hbody] at hw
    dsimp only
    rw [lookupMem_eq hw, pure_bind]
    exact turns_freeBody ht b.hasMessage
  | warning b =>
    have hwarning : freeWarningBody b t.body t.text = (do
        if decide (b.msgLen > 0) then free t.text else pure ()
        free t.body) := by
      simp only [freeWarningBody, decide_eq_true_eq]
    dsimp only
    rw [hwarning]
    exact turns_freeBody ht _
  | data b =>
    rw [hbody] at hw
    exact hw.elim
  | hello b =>
    rw [hbody] at hw
    dsimp only
    split
    · exact hadd hw
    · refine (turns_sendHello true b.sourceId clientId).step (zero_add _).symm fun _ B hB => ?_
      rw [hB, zero_add]
      exact hadd hw

/-- **Any other handler comes to a wild access.** -/
theorem breaks_handler (hw : ¬ Returns w t.tlv) (clientId : UInt64) :
    Breaks 0 (handlerMem clientId w t) := by
  unfold handlerMem
  unfold Returns at hw
  cases hbody : t.tlv.body with
  | data b => exact breaks_sendAck b.senderId b.nonce
  | empty | padn | warning =>
    rw [hbody] at hw
    exact absurd trivial hw
  | neighbour =>
    rw [hbody] at hw
    rw [of_not_not hw]
    exact (breaks_adding clientId).bind_left _
  | ack | goAway =>
    rw [hbody] at hw
    rw [of_not_not hw]
    exact breaks_lookup.bind_left _
  | hello b =>
    rw [hbody] at hw
    rw [of_not_not hw]
    dsimp only
    split
    · exact (breaks_adding clientId).bind_left _
    · refine Breaks.bind (turns_sendHello true b.sourceId clientId) fun _ B hB => ?_
      rw [hB]
      exact (breaks_adding clientId).bind_left _

/-- Each TLV has a block of its own. -/
theorem length_le_card_held {bs : List TlvBlocks} (hbs : ∀ b ∈ bs, b.OnHeap) :
    bs.length ≤ ((bs.map TlvBlocks.held).sum).card := by
  induction bs with
  | nil => exact Nat.zero_le _
  | cons b bs ih =>
    obtain ⟨hb, hbs⟩ := List.forall_mem_cons.mp hbs
    obtain ⟨a, ha⟩ := hb.self
    rw [List.map_cons, List.sum_cons, Multiset.card_add, TlvBlocks.held, Multiset.card_add, ha,
      singleton_held, Multiset.card_singleton, List.length_cons]
    have := ih hbs
    omega

/-- **The loop of `process_datagram` stops at a PadN**, and the handlers before it come to
no wild access. The TLVs are those from `k` on. -/
def StopsAtPadn (work : ℕ → MapWork) (k : ℕ) (ts : List Tlv) : Prop :=
  ∃ n t, ts[n]? = some t ∧ t.type = TlvType.padn.code
    ∧ ∀ i < n, ∀ u, ts[i]? = some u → Returns (work (k + i)) u

theorem not_stopsAtPadn_nil (work : ℕ → MapWork) (k : ℕ) : ¬ StopsAtPadn work k [] := by
  rintro ⟨n, t, h, -⟩
  cases h

theorem stopsAtPadn_cons {work : ℕ → MapWork} {k : ℕ} {u : Tlv} {ts : List Tlv} :
    StopsAtPadn work k (u :: ts)
      ↔ u.type = TlvType.padn.code ∨ Returns (work k) u ∧ StopsAtPadn work (k + 1) ts := by
  constructor
  · rintro ⟨n, t, ht, hpadn, hbefore⟩
    cases n with
    | zero =>
      cases ht
      exact .inl hpadn
    | succ n =>
      refine .inr ⟨hbefore 0 n.succ_pos u rfl, n, t, ht, hpadn, fun i hi v hv => ?_⟩
      rw [Nat.add_assoc, Nat.add_comm 1 i]
      exact hbefore (i + 1) (Nat.succ_lt_succ hi) v hv
  · rintro (hpadn | ⟨hu, n, t, ht, hpadn, hbefore⟩)
    · exact ⟨0, u, rfl, hpadn, fun _ => nofun⟩
    · refine ⟨n + 1, t, ht, hpadn, fun i hi v hv => ?_⟩
      cases i with
      | zero =>
        cases hv
        exact hu
      | succ i =>
        rw [Nat.add_comm i 1, ← Nat.add_assoc]
        exact hbefore i (Nat.lt_of_succ_lt_succ hi) v hv

/-- The blocks of the TLVs, those that the first handler may free set apart. -/
theorem sum_held_cons (t : TlvBlocks) (ts : List TlvBlocks) :
    ((t :: ts).map TlvBlocks.held).sum
      = t.body.held + t.text.held + (t.self.held + (ts.map TlvBlocks.held).sum) := by
  rw [List.map_cons, List.sum_cons, TlvBlocks.held]
  abel

/-- **Where the loop stops at a PadN**, it frees none of the TLVs. -/
theorem turns_processTlvs {bs : List TlvBlocks} {work : ℕ → MapWork} {k : ℕ}
    (hbs : ∀ b ∈ bs, b.OnHeap) (hstops : StopsAtPadn work k (bs.map TlvBlocks.tlv))
    (clientId : UInt64) :
    Turns (bs.map TlvBlocks.held).sum (processTlvsMem clientId work k bs) fun done B =>
      done = false ∧ bs.length ≤ B.card := by
  induction bs generalizing k with
  | nil => exact absurd hstops (not_stopsAtPadn_nil work k)
  | cons b bs ih =>
    obtain ⟨hb, hrest⟩ := List.forall_mem_cons.mp hbs
    by_cases hpadn : b.tlv.type = TlvType.padn.code
    · rw [processTlvsMem, if_pos hpadn]
      exact Turns.pure ⟨rfl, length_le_card_held hbs⟩
    · obtain ⟨hreturns, hstops⟩ := (stopsAtPadn_cons.mp hstops).resolve_left hpadn
      rw [processTlvsMem, if_neg hpadn]
      obtain ⟨a, ha⟩ := hb.self
      have hsum := sum_held_cons b bs
      rw [ha, singleton_held] at hsum
      refine (turns_handler hb hreturns clientId).step hsum fun _ B _ => ?_
      have hB : B + ({a} + (bs.map TlvBlocks.held).sum)
          = (bs.map TlvBlocks.held).sum + ({a} + B) := by abel
      rw [hB]
      refine ((ih hrest hstops).frame ({a} + B)).mono fun done B' hB' => ?_
      obtain ⟨B', rfl, hdone, hlen⟩ := hB'
      refine ⟨hdone, ?_⟩
      rw [Multiset.card_add, Multiset.card_add, Multiset.card_singleton, List.length_cons]
      omega

/-- **Where it does not**, a handler comes to a wild access, or the loop ends, and `p`
is run. -/
theorem breaks_processTlvs {bs : List TlvBlocks} {work : ℕ → MapWork} {k : ℕ}
    (hbs : ∀ b ∈ bs, b.OnHeap) (hstops : ¬ StopsAtPadn work k (bs.map TlvBlocks.tlv))
    {A : Multiset ℕ} {p : Mem Unit} (hp : Breaks A p) (clientId : UInt64) :
    Breaks ((bs.map TlvBlocks.held).sum + A) (do
      let done ← processTlvsMem clientId work k bs
      if done then p else return ()) := by
  induction bs generalizing k A with
  | nil =>
    rw [List.map_nil, List.sum_nil, zero_add]
    exact hp
  | cons b bs ih =>
    obtain ⟨hb, hrest⟩ := List.forall_mem_cons.mp hbs
    rw [List.map_cons, stopsAtPadn_cons, not_or, not_and_or] at hstops
    obtain ⟨hpadn, hstops⟩ := hstops
    rw [processTlvsMem, if_neg hpadn, bind_assoc]
    rcases hstops with hfatal | hstops
    · refine Breaks.bind_left ?_ _
      rw [← zero_add (_ + A)]
      exact (breaks_handler hfatal clientId).frame _
    · by_cases hreturns : Returns (work k) b.tlv
      · have hsum : ((b :: bs).map TlvBlocks.held).sum + A
            = b.body.held + b.text.held + (b.self.held + (bs.map TlvBlocks.held).sum + A) := by
          rw [sum_held_cons, add_assoc]
        refine Breaks.step (turns_handler hb hreturns clientId) hsum fun _ B _ => ?_
        have hB : B + (b.self.held + (bs.map TlvBlocks.held).sum + A)
            = (bs.map TlvBlocks.held).sum + (A + (b.self.held + B)) := by abel
        rw [hB]
        exact ih hrest hstops (hp.frame _)
      · refine Breaks.bind_left ?_ _
        rw [← zero_add (_ + A)]
        exact (breaks_handler hreturns clientId).frame _

theorem turns_dserialMsg (m : Msg) :
    Turns 0 (dserialMsgMem m) fun msg B =>
      B = msg.self.held + msg.body.held + (msg.tlvs.map TlvBlocks.held).sum
        ∧ (∃ a b, msg.self = .block a ∧ msg.body = .block b) ∧ (∀ b ∈ msg.tlvs, b.OnHeap)
        ∧ msg.tlvs.map TlvBlocks.tlv = m.body := by
  refine Turns.malloc_bind fun self => Turns.malloc_bind fun body => ?_
  refine (turns_dserialTlvs m.body).step (zero_add _).symm fun bs B hB => ?_
  obtain ⟨rfl, hbs, htlv⟩ := hB
  refine Turns.pure ⟨?_, ⟨self, body, rfl, rfl⟩, hbs, htlv⟩
  simp only [singleton_held]
  abel

end Receiving

/-! ## Datagrams -/

/-- **The message makes `process_datagram` return early**: its header is not that of
the protocol, or the loop stops at a PadN. -/
def Dismissed (work : ℕ → MapWork) (m : Msg) : Prop :=
  m.magic ≠ 93 ∨ m.version ≠ 2 ∨ StopsAtPadn work 0 m.body

section Datagrams

variable {mc : Machine} {work : ℕ → MapWork} {input : List UInt8} {m : Msg}

/-- What `process_datagram` does when it has decoded a message. -/
theorem processDatagramMem_eq (hm : received mc input = .ok m) (clientId : UInt64) :
    processDatagramMem mc clientId work input = (do
      let b ← malloc
      let msg ← dserialMsgMem m
      if m.magic ≠ 93 ∨ m.version ≠ 2 then return ()
      else
        let done ← processTlvsMem clientId work 0 msg.tlvs
        if done then
          freeMsg msg false
          freeSbuff ⟨b, .other⟩
        else return ()) := by
  unfold processDatagramMem
  rw [hm]
  rfl

/-- **A datagram that is dismissed** leaves its buffer, its message, the array of its
TLVs and its TLVs behind. -/
theorem turns_processDatagram (hm : received mc input = .ok m) (hdismissed : Dismissed work m)
    (clientId : UInt64) :
    Turns 0 (processDatagramMem mc clientId work input) fun _ B =>
      3 + m.body.length ≤ B.card := by
  rw [processDatagramMem_eq hm]
  refine Turns.malloc_bind fun b => ?_
  refine (turns_dserialMsg m).step (zero_add _).symm fun msg B hB => ?_
  obtain ⟨rfl, ⟨self, body, hself, hbody⟩, hbs, htlv⟩ := hB
  rw [hself, hbody, singleton_held, singleton_held]
  have hlen : msg.tlvs.length = m.body.length := by rw [← htlv, List.length_map]
  split
  · refine Turns.pure ?_
    have := length_le_card_held hbs
    simp only [Multiset.card_add, Multiset.card_singleton, Multiset.card_zero]
    omega
  · rename_i hheader
    have hstops : StopsAtPadn work 0 (msg.tlvs.map TlvBlocks.tlv) :=
      htlv ▸ (or_assoc.mpr hdismissed).resolve_left hheader
    have hsum : {self} + {body} + (msg.tlvs.map TlvBlocks.held).sum + ({b} + 0)
        = (msg.tlvs.map TlvBlocks.held).sum + ({self} + {body} + {b}) := by abel
    refine (turns_processTlvs hbs hstops clientId).step hsum fun done B hB => ?_
    obtain ⟨rfl, hcard⟩ := hB
    refine Turns.pure ?_
    simp only [Multiset.card_add, Multiset.card_singleton]
    omega

/-- **Any other datagram** comes to a wild access. -/
theorem breaks_processDatagram (hm : received mc input = .ok m) (hdismissed : ¬ Dismissed work m)
    (clientId : UInt64) :
    Breaks 0 (processDatagramMem mc clientId work input) := by
  rw [Dismissed, ← or_assoc, not_or] at hdismissed
  obtain ⟨hheader, hstops⟩ := hdismissed
  rw [processDatagramMem_eq hm]
  refine Breaks.malloc_bind fun b => ?_
  refine Breaks.step (turns_dserialMsg m) (zero_add _).symm fun msg B hB => ?_
  obtain ⟨rfl, ⟨self, body, hself, hbody⟩, hbs, htlv⟩ := hB
  rw [if_neg hheader, hself, hbody, singleton_held, singleton_held]
  have hsum : {self} + {body} + (msg.tlvs.map TlvBlocks.held).sum + ({b} + 0)
      = (msg.tlvs.map TlvBlocks.held).sum + ({body} + ({self} + {b})) := by abel
  rw [hsum]
  refine breaks_processTlvs hbs (htlv ▸ hstops) ?_ clientId
  have hfree : freeMsg msg false = (do free (.block body); free (.block self)) := by
    rw [← hself, ← hbody]
    rfl
  rw [hfree, bind_assoc]
  refine Breaks.freed_bind nofun rfl ?_
  refine Breaks.freed_bind nofun rfl ?_
  exact (breaks_free_other _).bind_left _

end Datagrams

/-! ## The server -/

section Server

variable {mc : Machine}

/-- The datagram is dismissed. -/
def DismissedIn (mc : Machine) (work : ℕ → MapWork) (input : List UInt8) : Prop :=
  ∃ m, received mc input = .ok m ∧ Dismissed work m

/-- The TLVs of a datagram. -/
def tlvsIn (mc : Machine) (input : List UInt8) : ℕ :=
  match received mc input with
  | .ok m => m.body.length
  | .error _ => 0

/-- **One datagram**, from any memory: it is dismissed and leaves blocks behind, or it
is not and comes to a wild access. -/
theorem processDatagramMem_cases (mc : Machine) (clientId : UInt64) (work : ℕ → MapWork)
    (input : List UInt8) (m : Blocks) :
    (DismissedIn mc work input ∧ ∃ m', processDatagramMem mc clientId work input m = .ok ((), m')
        ∧ m.live ⊆ m'.live ∧ m.live.card + (3 + tlvsIn mc input) ≤ m'.live.card)
      ∨ (¬ DismissedIn mc work input
        ∧ processDatagramMem mc clientId work input m = .error .wild) := by
  have hval : m.live.val = 0 + m.live.val := (zero_add _).symm
  cases hm : received mc input with
  | error f =>
    have hnot : ¬ DismissedIn mc work input := by
      rintro ⟨m, h, -⟩
      cases hm.symm.trans h
    refine .inr ⟨hnot, ?_⟩
    have hf : f = .wild := by
      unfold received at hm
      split at hm
      · exact (Except.error.inj hm).symm
      · split at hm
        · cases hm
        · exact (Except.error.inj hm).symm
    unfold processDatagramMem
    rw [hm, hf]
    rfl
  | ok msg =>
    by_cases hdismissed : Dismissed work msg
    · refine .inl ⟨⟨msg, hm, hdismissed⟩, ?_⟩
      obtain ⟨_, m', B, hrun, hm', hB⟩ :=
        turns_processDatagram hm hdismissed clientId m m.live.val hval
      have hlive : m.live.val ≤ m'.live.val := hm' ▸ Multiset.le_add_left _ _
      refine ⟨m', hrun, Finset.val_le_iff.mp hlive, ?_⟩
      have hcard := congrArg Multiset.card hm'
      rw [Multiset.card_add, Finset.card_val, Finset.card_val] at hcard
      rw [tlvsIn, hm]
      dsimp only
      omega
    · refine .inr ⟨fun ⟨m, h, hd⟩ => ?_, ?_⟩
      · cases hm.symm.trans h
        exact hdismissed hd
      · exact breaks_processDatagram hm hdismissed clientId m m.live.val hval

theorem udpServerMem_cons_ok {clientId : UInt64} {d : (ℕ → MapWork) × List UInt8}
    {m m₁ : Blocks} (h : processDatagramMem mc clientId d.1 d.2 m = .ok ((), m₁))
    (ds : List ((ℕ → MapWork) × List UInt8)) :
    udpServerMem mc clientId (d :: ds) m = udpServerMem mc clientId ds m₁ := by
  show (processDatagramMem mc clientId d.1 d.2 m).bind _ = _
  rw [h]
  rfl

theorem udpServerMem_cons_error {clientId : UInt64} {d : (ℕ → MapWork) × List UInt8}
    {m : Blocks} {f : Fault} (h : processDatagramMem mc clientId d.1 d.2 m = .error f)
    (ds : List ((ℕ → MapWork) × List UInt8)) :
    udpServerMem mc clientId (d :: ds) m = .error f := by
  show (processDatagramMem mc clientId d.1 d.2 m).bind _ = _
  rw [h]
  rfl

/-- **The server comes to no wild access exactly when it dismisses every datagram.** -/
theorem server_frees_iff (clientId : UInt64) (ds : List ((ℕ → MapWork) × List UInt8))
    (m : Blocks) :
    (∃ m', udpServerMem mc clientId ds m = .ok ((), m'))
      ↔ ∀ d ∈ ds, ∃ msg, received mc d.2 = .ok msg ∧ Dismissed d.1 msg := by
  induction ds generalizing m with
  | nil => exact iff_of_true ⟨m, rfl⟩ fun _ => nofun
  | cons d ds ih =>
    rw [List.forall_mem_cons]
    rcases processDatagramMem_cases mc clientId d.1 d.2 m with
      ⟨hd, m₁, hrun, -⟩ | ⟨hd, hrun⟩
    · rw [udpServerMem_cons_ok hrun, ih m₁]
      exact (and_iff_right hd).symm
    · rw [udpServerMem_cons_error hrun]
      exact iff_of_false (fun ⟨_, h⟩ => by cases h) fun h => hd h.1

/-- **Where it does, memory fills up**: every datagram leaves three blocks behind, and
one more for each of its TLVs. -/
theorem server_leaks (clientId : UInt64) {ds : List ((ℕ → MapWork) × List UInt8)} {m m' : Blocks}
    (h : udpServerMem mc clientId ds m = .ok ((), m')) :
    m.live ⊆ m'.live
      ∧ m.live.card + (ds.map fun d => 3 + tlvsIn mc d.2).sum ≤ m'.live.card := by
  induction ds generalizing m with
  | nil =>
    cases h
    exact ⟨subset_rfl, le_rfl⟩
  | cons d ds ih =>
    rcases processDatagramMem_cases mc clientId d.1 d.2 m with
      ⟨-, m₁, hrun, hsub, hcard⟩ | ⟨-, hrun⟩
    · rw [udpServerMem_cons_ok hrun] at h
      obtain ⟨hsub', hcard'⟩ := ih h
      refine ⟨hsub.trans hsub', ?_⟩
      rw [List.map_cons, List.sum_cons]
      omega
    · cases (udpServerMem_cons_error hrun ds).symm.trans h

/-- A datagram of one PadN. -/
def onePadn : List UInt8 := [93, 2, 0, 2, 1, 0]

/-- Two of them take eight blocks. -/
theorem server_leaks_padn :
    ∃ m' : Blocks,
      udpServerMem ⟨.little, fun _ => 0⟩ 7 [(fun _ => .idle, onePadn), (fun _ => .wild, onePadn)]
          ⟨∅, 0, fun _ h => absurd h (Finset.notMem_empty _)⟩ = .ok ((), m')
        ∧ 8 ≤ m'.live.card := by
  obtain ⟨msg, t, hmsg, hbody, htype⟩ : ∃ msg t,
      received ⟨.little, fun _ => 0⟩ onePadn = .ok msg ∧ msg.body = [t]
        ∧ t.type = TlvType.padn.code := ⟨_, _, rfl, rfl, rfl⟩
  have hstops : ∀ work, StopsAtPadn work 0 msg.body := fun work => by
    rw [hbody]
    exact stopsAtPadn_cons.mpr (.inl htype)
  have hrun (work : ℕ → MapWork) (m : Blocks) : ∃ m',
      processDatagramMem ⟨.little, fun _ => 0⟩ 7 work onePadn m = .ok ((), m') := by
    rcases processDatagramMem_cases ⟨.little, fun _ => 0⟩ 7 work onePadn m with
      ⟨-, m', h, -⟩ | ⟨h, -⟩
    · exact ⟨m', h⟩
    · exact absurd ⟨msg, hmsg, .inr (.inr (hstops work))⟩ h
  obtain ⟨m₁, h₁⟩ := hrun (fun _ => .idle) ⟨∅, 0, fun _ h => absurd h (Finset.notMem_empty _)⟩
  obtain ⟨m₂, h₂⟩ := hrun (fun _ => .wild) m₁
  have hboth := (udpServerMem_cons_ok (d := (_, onePadn)) h₁ [(fun _ => .wild, onePadn)]).trans
    (udpServerMem_cons_ok (d := (_, onePadn)) h₂ [])
  have htlvs : tlvsIn ⟨.little, fun _ => 0⟩ onePadn = 1 := by
    rw [tlvsIn, hmsg]
    show msg.body.length = 1
    rw [hbody]
    rfl
  have hcard := (server_leaks 7 hboth).2
  simp only [List.map_cons, List.map_nil, List.sum_cons, List.sum_nil, htlvs] at hcard
  exact ⟨m₂, hboth, by omega⟩

end Server

end Miaouchat
