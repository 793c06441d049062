import Miaouchat.Framing
import Miaouchat.Frees
import Miaouchat.RoundTrip

/-!
# Acknowledging

A datagram of complete Data TLVs, with single bytes of padding between them, is
to be answered by one Ack for each Data, repeats included, and the key of each
Data is to be in the list of messages once afterwards.

The code sends the Ack of the first Data, frees a variable of `send_ack` and goes no
further; without a Data it frees the array of the datagram (`outcome_pieces`). So
there is no such datagram that it is done with (`acknowledges_never`).

The rest is about the code without these frees. `processDatas` is then what is left
of the dispatcher on such a datagram; each round of it inserts a key in the list
(`List.insert`) and sends an Ack whose bytes do not depend on the state. What can go
wrong is the search. The first node pushed on an empty list keeps what `malloc` left
in its `next` link, so the search for a second key, in the same datagram, may run off
the list (`acknowledges_iff`).
-/

namespace Miaouchat

open Bytes

/-! ## The Ack of a Data -/

namespace Piece

/-- The sender id of a Data on the wire. -/
def senderId (p : Piece) : UInt64 := UInt64.ofNat (ofBE (p.value.take 8))

/-- The nonce of a Data on the wire. -/
def nonce (p : Piece) : UInt32 := UInt32.ofNat (ofBE ((p.value.drop 8).take 4))

/-- The key of the message a Data carries. -/
def key (p : Piece) : List Char := newDataKey p.senderId p.nonce

def isData (p : Piece) : Bool := p.type = TlvType.data.code

/-- A Data long enough for its fixed fields, or a single byte of padding. -/
def IsDataOrPad1 (p : Piece) : Prop :=
  p.type = TlvType.data.code ∧ 13 ≤ p.length.toNat ∨ p.type = TlvType.pad1.code ∧ p.length = 0

/-- The body the decoder makes of a Data. -/
def dataBody (p : Piece) : DataBody :=
  newDataBody p.senderId p.nonce ((p.value.drop 12).headD 0) (p.value.drop 13)
    (dataLenOf p.length.toNat)

theorem dataKey_dataBody (p : Piece) : dataKey p.dataBody = p.key := rfl

/-- The decoder goes over such a piece exactly. -/
theorem IsDataOrPad1.valueLen_eq {p : Piece} (h : p.IsDataOrPad1) :
    valueLen p.type p.length = p.length.toNat := by
  rcases h with ⟨ht, hlen⟩ | ⟨ht, hlen⟩
  · rw [ht]
    exact valueLen_data hlen
  · rw [ht, hlen]
    rfl

end Piece

/-- **The datagram acknowledges the Data**: it decodes, on any host, to a single
Ack with the sender id and the nonce of the Data, and its header gives its
length. -/
def AcksPiece (d : List UInt8) (p : Piece) : Prop :=
  ∀ mc, ∃ m b, dserialMsg mc (newDsbuff d) = some (m, b)
    ∧ m.body = [newTlvAck p.senderId p.nonce] ∧ 4 + m.length.toNat = d.length

/-- An Ack sent decodes to itself. -/
theorem dserialMsg_ack (env : Env) (s : State) (mc : Machine) (id : UInt64) (nonce : UInt32) :
    ∃ m b, dserialMsg mc (newDsbuff (bytesOf env s (newTlvAck id nonce))) = some (m, b)
      ∧ m.body = [newTlvAck id nonce]
      ∧ 4 + m.length.toNat = (bytesOf env s (newTlvAck id nonce)).length := by
  obtain ⟨b, hb⟩ := dserialMsg_written env.mc mc (env.frames s.sent.length) [.ack id nonce]
  refine ⟨_, b, hb, rfl, ?_⟩
  unfold bytesOf
  rw [written_serialMsg, written_newSbuff]
  rfl

/-! ## A message list that can be searched -/

/-- **The list of messages is well linked, without duplicates**, and the
current neighbours have entries with lists of the tag `DLL_MSG`. -/
structure Listed (s : State) : Prop where
  shape : ∃ xs p q, Shape s.msgList xs p q
  type_eq : s.msgList.type = .string
  nodup : (dllistContents s.msgList).Nodup
  nbrs : ∀ key e, mapGet s.cur key = some e →
    ∃ ent, s.entries e = some ent ∧ ent.msgToSend.type = .msg

namespace Listed

variable {s : State} {b : DataBody} {client : SockaddrIn6}

/-- Sending a datagram changes nothing of this. -/
theorem withSent (h : Listed s) (pair : SockaddrIn6) (bytes : List UInt8) :
    Listed (s.withSent pair bytes) :=
  ⟨h.shape, h.type_eq, h.nodup, h.nbrs⟩

/-- **`process_data` of a known message** sends an Ack. -/
theorem processData_known (h : Listed s) (env : Env) (client : SockaddrIn6)
    (hmem : dataKey b ∈ dllistContents s.msgList) :
    (processData env b client).exec s
      = .ok ((), s.withSent client (bytesOf env s (newTlvAck b.senderId b.nonce))) := by
  obtain ⟨xs, p, q, hs⟩ := h.shape
  have hfound := isInMsgList_of_mem (b := b)
    (s := s.withSent client (bytesOf env s (newTlvAck b.senderId b.nonce))) hs
    (hs.contents_eq ▸ hmem)
  rw [exec_processData, exec_addMsg_known hfound]
  rfl

/-- **`process_data` of a new message** sends an Ack and lists the message. The
list ends in `NULL` if it did and was not empty, or if `malloc` has left `NULL`
in the new node. -/
theorem processData_new (h : Listed s) (env : Env) (client : SockaddrIn6)
    (hnotMem : dataKey b ∉ dllistContents s.msgList) (hend : NullTerminated s.msgList) :
    ∃ s', (processData env b client).exec s = .ok ((), s') ∧ Listed s'
      ∧ s'.sent = s.sent ++ [(client, bytesOf env s (newTlvAck b.senderId b.nonce))]
      ∧ dllistContents s'.msgList = dataKey b :: dllistContents s.msgList
      ∧ (NullTerminated s'.msgList ↔ dllistContents s.msgList ≠ []
        ∨ (s.msgList.junk s.msgList.used).1 = none) := by
  obtain ⟨xs, p, q, hs⟩ := h.shape
  obtain ⟨l, hpush, hs', htype, -⟩ := hs.pushFront (dataKey b)
  have hcontents : dllistContents l = dataKey b :: dllistContents s.msgList := by
    rw [hs'.contents_eq, hs.contents_eq]
    rfl
  rw [h.type_eq] at hpush
  have hfound := isInMsgList_of_notMem (b := b)
    (s := s.withSent client (bytesOf env s (newTlvAck b.senderId b.nonce))) hs
    (hs.contents_eq ▸ hnotMem) hend
  have hadd := @exec_addMsg_new env _ _ hfound _ hpush fun k e he => by
    obtain ⟨ent, hent, htag⟩ := h.nbrs k e he
    exact ⟨ent, hent, fun hint => by rw [htag] at hint; cases hint⟩
  have hrun := (exec_processData env b client s).trans (congrArg (Except.map _) hadd)
  refine ⟨_, hrun, ⟨⟨_, _, _, hs'⟩, htype.trans h.type_eq, ?_, h.nbrs⟩, rfl, hcontents, ?_⟩
  · show (dllistContents l).Nodup
    rw [hcontents]
    exact List.nodup_cons.mpr ⟨hnotMem, h.nodup⟩
  · rw [show NullTerminated l ↔ _ from hs'.nullTerminated_iff, hs.contents_eq]
    rcases hs.nullTerminated_iff.mp hend with rfl | rfl
    · simp
    · cases xs <;> simp

/-- **`process_data` of a new message where the list does not end in `NULL`**
never returns. -/
theorem processData_runs_off (h : Listed s) (env : Env) (client : SockaddrIn6)
    (hnotMem : dataKey b ∉ dllistContents s.msgList) (hend : ¬ NullTerminated s.msgList) :
    ∃ f, (processData env b client).exec s = .error f := by
  obtain ⟨xs, p, q, hs⟩ := h.shape
  obtain ⟨f, hf⟩ := isInMsgList_runs_off (b := b)
    (s := s.withSent client (bytesOf env s (newTlvAck b.senderId b.nonce))) hs
    (hs.contents_eq ▸ hnotMem) hend
  exact ⟨f, by rw [exec_processData, exec_addMsg_error hf]; rfl⟩

end Listed

/-! ## One Data after the other -/

/-- `process_data` for each of the bodies, where `k` handlers have been
called. -/
def processDatas (env : ℕ → Env) (client : SockaddrIn6) : ℕ → List DataBody → Code Unit
  | _, [] => pure ()
  | k, b :: bs => do
    processData (env k) b client
    processDatas env client (k + 1) bs

/-- The bodies of the Data among the TLVs. -/
def dataBodies (ts : List Tlv) : List DataBody :=
  ts.filterMap fun t => match t.body with
    | .data b => some b
    | _ => none

/-- A TLV of the type Data has a body of a Data. -/
theorem Tlv.body_of_data {t : Tlv} (ht : t.type = TlvType.data.code) :
    ∃ b, t.body = .data b := by
  have hkind : t.body.kind = some .data := by
    rw [t.fits, ht]
    rfl
  cases hbody : t.body with
  | data b => exact ⟨b, rfl⟩
  | empty | padn _ | hello _ | neighbour _ | ack _ | goAway _ | warning _ =>
    rw [hbody] at hkind
    cases hkind

theorem Tlv.body_of_pad1 {t : Tlv} (ht : t.type = TlvType.pad1.code) : t.body = .empty := by
  have hkind : t.body.kind = none := by
    rw [t.fits, ht]
    rfl
  cases hbody : t.body with
  | empty => rfl
  | padn _ | hello _ | neighbour _ | data _ | ack _ | goAway _ | warning _ =>
    rw [hbody] at hkind
    cases hkind

theorem dataBodies_cons_pad1 {t : Tlv} (ht : t.type = TlvType.pad1.code) (ts : List Tlv) :
    dataBodies (t :: ts) = dataBodies ts :=
  List.filterMap_cons_none (by rw [Tlv.body_of_pad1 ht])

theorem dataBodies_cons_data {t : Tlv} {b : DataBody} (hbody : t.body = .data b)
    (ts : List Tlv) : dataBodies (t :: ts) = b :: dataBodies ts :=
  List.filterMap_cons_some (by rw [hbody])

/-- **The dispatcher, on Data and Pad1**, handles the bodies of the Data. -/
theorem processTlvs_eq_processDatas (env : ℕ → Env) (client : SockaddrIn6) (k : ℕ)
    {ts : List Tlv}
    (hts : ∀ t ∈ ts, t.type = TlvType.pad1.code ∨ t.type = TlvType.data.code) :
    processTlvs env client k ts = processDatas env client k (dataBodies ts) := by
  induction ts generalizing k with
  | nil => rfl
  | cons t ts ih =>
    have hrest := fun k => ih k fun u hu => hts u (List.mem_cons_of_mem t hu)
    rcases hts t List.mem_cons_self with ht | ht
    · rw [processTlvs_skip (by rw [ht]; decide) (by rw [Tlv.body_of_pad1 ht]; rfl), hrest,
        dataBodies_cons_pad1 ht]
    · obtain ⟨b, hbody⟩ := Tlv.body_of_data ht
      rw [processTlvs_call (by rw [ht]; decide) (by rw [hbody]; rfl), hrest,
        dataBodies_cons_data hbody]
      rfl

/-- **The search for the keys of `bs` will return**: the list ends in `NULL` and
goes on ending in it, or it is empty and the keys are all the same, or the keys
are in it. -/
def Searchable (s : State) (bs : List DataBody) : Prop :=
  (∀ b ∈ bs, dataKey b ∈ dllistContents s.msgList)
    ∨ NullTerminated s.msgList ∧ (dllistContents s.msgList ≠ []
      ∨ (s.msgList.junk s.msgList.used).1 = none ∨ ∀ b ∈ bs, ∀ b' ∈ bs, dataKey b = dataKey b')

section Run

variable {s : State} {client : SockaddrIn6}

/-- **One Data** is acknowledged, and its key is inserted in the list. -/
theorem Listed.processData_run (h : Listed s) (env : Env) (client : SockaddrIn6) {b : DataBody}
    {bs : List DataBody} (hsearch : Searchable s (b :: bs)) :
    ∃ s', (processData env b client).exec s = .ok ((), s') ∧ Listed s' ∧ Searchable s' bs
      ∧ s'.sent = s.sent ++ [(client, bytesOf env s (newTlvAck b.senderId b.nonce))]
      ∧ dllistContents s'.msgList = (dllistContents s.msgList).insert (dataKey b) := by
  by_cases hmem : dataKey b ∈ dllistContents s.msgList
  · refine ⟨_, h.processData_known env client hmem, h.withSent .., ?_, rfl,
      (List.insert_of_mem hmem).symm⟩
    refine hsearch.imp (fun hall b' hb' => hall b' (List.mem_cons_of_mem b hb')) ?_
    rintro ⟨hend, -⟩
    exact ⟨hend, .inl (List.ne_nil_of_mem hmem)⟩
  · obtain ⟨hend, hfine⟩ := hsearch.resolve_left fun hall => hmem (hall b List.mem_cons_self)
    obtain ⟨s', hrun, h', hsent, hcontents, hend'⟩ := h.processData_new env client hmem hend
    refine ⟨s', hrun, h', ?_, hsent, hcontents.trans (List.insert_of_not_mem hmem).symm⟩
    unfold Searchable
    rw [hcontents]
    rcases hfine with hne | hnull | hsame
    · exact .inr ⟨hend'.mpr (.inl hne), .inl (List.cons_ne_nil _ _)⟩
    · exact .inr ⟨hend'.mpr (.inr hnull), .inl (List.cons_ne_nil _ _)⟩
    · refine .inl fun b' hb' => ?_
      rw [← hsame b List.mem_cons_self b' (List.mem_cons_of_mem b hb')]
      exact List.mem_cons_self

/-- **Any number of Data** are acknowledged one by one, and their keys inserted
in the list. -/
theorem Listed.processDatas_run (h : Listed s) (env : ℕ → Env) (client : SockaddrIn6) (k : ℕ)
    {bs : List DataBody} (hsearch : Searchable s bs) :
    ∃ s' acks, (processDatas env client k bs).exec s = .ok ((), s') ∧ Listed s'
      ∧ s'.sent = s.sent ++ acks.map (fun d => (client, d))
      ∧ List.Forall₂ (fun d b => ∃ env s, d = bytesOf env s (newTlvAck b.senderId b.nonce))
        acks bs
      ∧ (∀ key ∈ dllistContents s.msgList, key ∈ dllistContents s'.msgList)
      ∧ ∀ b ∈ bs, dataKey b ∈ dllistContents s'.msgList := by
  induction bs generalizing s k with
  | nil => exact ⟨s, [], rfl, h, by simp, .nil, fun _ hkey => hkey, fun _ => nofun⟩
  | cons b bs ih =>
    obtain ⟨s₁, hrun, h₁, hsearch₁, hsent, hcontents⟩ := h.processData_run (env k) client hsearch
    obtain ⟨s', acks, hrest, h', hsent', hacks, hkept, hlisted⟩ := ih h₁ (k + 1) hsearch₁
    refine ⟨s', bytesOf (env k) s (newTlvAck b.senderId b.nonce) :: acks, ?_, h', ?_,
      .cons ⟨_, _, rfl⟩ hacks, fun key hkey => hkept key ?_, fun b' hb' => ?_⟩
    · exact (Prog.exec_bind_ok hrun).trans hrest
    · rw [hsent', hsent, List.append_assoc]
      rfl
    · rw [hcontents]
      exact List.mem_insert_of_mem hkey
    · rcases List.mem_cons.mp hb' with rfl | hb'
      · refine hkept _ ?_
        rw [hcontents]
        exact List.mem_insert_self
      · exact hlisted b' hb'

/-- Where the list does not end in `NULL`, the search for a key that is not in
it runs off, whatever known keys come first. -/
theorem Listed.processDatas_runs_off (h : Listed s) (env : ℕ → Env) (client : SockaddrIn6)
    (k : ℕ) {bs : List DataBody} (hend : ¬ NullTerminated s.msgList)
    (hnew : ∃ b ∈ bs, dataKey b ∉ dllistContents s.msgList) :
    ∃ f, (processDatas env client k bs).exec s = .error f := by
  induction bs generalizing s k with
  | nil =>
    obtain ⟨b, hb, -⟩ := hnew
    cases hb
  | cons b bs ih =>
    by_cases hmem : dataKey b ∈ dllistContents s.msgList
    · obtain ⟨b', hb', hnotMem⟩ := hnew
      have hb'' := (List.mem_cons.mp hb').resolve_left fun heq => hnotMem (heq ▸ hmem)
      obtain ⟨f, hf⟩ := ih (h.withSent client
        (bytesOf (env k) s (newTlvAck b.senderId b.nonce))) (k + 1) hend ⟨b', hb'', hnotMem⟩
      exact ⟨f, (Prog.exec_bind_ok (h.processData_known (env k) client hmem)).trans hf⟩
    · obtain ⟨f, hf⟩ := h.processData_runs_off (env k) client hmem hend
      exact ⟨f, Prog.exec_bind_error hf⟩

/-- So do two different keys, where the list is empty and `malloc` leaves a link
in its first node. -/
theorem Listed.processDatas_runs_off_empty (h : Listed s) (env : ℕ → Env)
    (client : SockaddrIn6) (k : ℕ) {bs : List DataBody} (hempty : dllistContents s.msgList = [])
    (hend : NullTerminated s.msgList) (hjunk : (s.msgList.junk s.msgList.used).1 ≠ none)
    (hne : ∃ b ∈ bs, ∃ b' ∈ bs, dataKey b ≠ dataKey b') :
    ∃ f, (processDatas env client k bs).exec s = .error f := by
  cases bs with
  | nil =>
    obtain ⟨b, hb, -⟩ := hne
    cases hb
  | cons b bs =>
    have hnotMem : dataKey b ∉ dllistContents s.msgList := by
      rw [hempty]
      exact List.not_mem_nil
    obtain ⟨s', hrun, h', -, hcontents, hend'⟩ := h.processData_new (env k) client hnotMem hend
    rw [hempty] at hcontents hend'
    have hother : ∃ b' ∈ bs, dataKey b' ∉ dllistContents s'.msgList := by
      by_contra hall
      push Not at hall
      have hsame : ∀ b' ∈ b :: bs, dataKey b' = dataKey b := by
        intro b' hb'
        rcases List.mem_cons.mp hb' with rfl | hb'
        · rfl
        · exact List.mem_singleton.mp (hcontents ▸ hall b' hb')
      obtain ⟨b₁, hb₁, b₂, hb₂, hdiff⟩ := hne
      exact hdiff ((hsame b₁ hb₁).trans (hsame b₂ hb₂).symm)
    obtain ⟨f, hf⟩ := h'.processDatas_runs_off env client (k + 1)
      (fun hterm => (hend'.mp hterm).elim (fun hnil => hnil rfl) hjunk) hother
    exact ⟨f, (Prog.exec_bind_ok hrun).trans hf⟩

end Run

/-! ## The datagram -/

/-- The TLVs of a datagram of such pieces. -/
theorem received_pieces (mc : Machine) (hi lo : UInt8) {ps : List Piece}
    (hlen : ps.length ≤ 64) (hps : ∀ p ∈ ps, p.IsDataOrPad1) :
    ∃ m, received mc (93 :: 2 :: hi :: lo :: ps.flatMap Piece.wire) = .ok m
      ∧ m.magic = 93 ∧ m.version = 2
      ∧ m.body = ps.map (fun p => tlvOf p.type p.length p.value) := by
  set ts := ps.map (fun p => tlvOf p.type p.length p.value)
  have hdecode := (dserialMsg_iff mc (93 :: 2 :: hi :: lo :: ps.flatMap Piece.wire) _ _).mpr
    ⟨93, 2, hi, lo, _, ts, rfl, framing_flatMap_wire fun p hp => (hps p hp).valueLen_eq, rfl, rfl⟩
  refine ⟨⟨93, 2, UInt16.ofNat (ofBE [hi, lo]), ts.length, ts⟩, ?_, rfl, rfl, rfl⟩
  unfold received
  rw [hdecode]
  exact if_pos ((List.length_map _).trans_le hlen)

/-- The bodies of the Data among them. -/
theorem dataBodies_pieces {ps : List Piece} (hps : ∀ p ∈ ps, p.IsDataOrPad1) :
    dataBodies (ps.map fun p => tlvOf p.type p.length p.value)
      = (ps.filter Piece.isData).map Piece.dataBody := by
  induction ps with
  | nil => rfl
  | cons p ps ih =>
    have hrest := ih fun q hq => hps q (List.mem_cons_of_mem p hq)
    rcases hps p List.mem_cons_self with ⟨ht, -⟩ | ⟨ht, -⟩
    · have hbody : (tlvOf p.type p.length p.value).body = .data p.dataBody := by
        rw [ht]
        rfl
      rw [List.map_cons, List.filter_cons_of_pos (by rw [Piece.isData, ht]; rfl), List.map_cons,
        ← hrest]
      exact dataBodies_cons_data hbody _
    · rw [List.map_cons, List.filter_cons_of_neg (by rw [Piece.isData, ht]; decide), ← hrest]
      have htype : (tlvOf p.type p.length p.value).type = TlvType.pad1.code := ht
      exact dataBodies_cons_pad1 htype _

/-- **The call acknowledges the Data `ps`**: it returns; one Ack for each has gone to
the client, in order, nothing else is sent, and each key is in the list once. -/
def Acknowledges (call : Code Unit) (client : SockaddrIn6) (s : State) (ps : List Piece) :
    Prop :=
  ∃ s' acks, call.exec s = .ok ((), s')
    ∧ s'.sent = s.sent ++ acks.map (fun d => (client, d))
    ∧ List.Forall₂ AcksPiece acks ps
    ∧ ∀ p ∈ ps, (dllistContents s'.msgList).count p.key = 1

/-! ### The frees left aside -/

/-- What `process_datagram` does with such a datagram. -/
theorem exec_processDatagram_pieces (env : ℕ → Env) (hi lo : UInt8) {ps : List Piece}
    (hlen : ps.length ≤ 64) (hps : ∀ p ∈ ps, p.IsDataOrPad1) (client : SockaddrIn6)
    (s : State) :
    (processDatagram env (93 :: 2 :: hi :: lo :: ps.flatMap Piece.wire) client).exec s
      = (processDatas env client 0 ((ps.filter Piece.isData).map Piece.dataBody)).exec s := by
  obtain ⟨m, hm, hmagic, hversion, hbody⟩ := received_pieces (env 0).mc hi lo hlen hps
  unfold processDatagram
  rw [Prog.exec_call_bind (lift_ok hm s), processMsg_of_header hmagic hversion, hbody,
    processTlvs_eq_processDatas, dataBodies_pieces hps]
  intro t ht
  obtain ⟨p, hp, rfl⟩ := List.mem_map.mp ht
  exact (hps p hp).symm.imp And.left And.left

/-- **Without the frees the Data of a datagram are acknowledged exactly where the list
is not empty, or `malloc` leaves `NULL` in its first node, or there is one key
only.** -/
theorem acknowledges_iff (env : ℕ → Env) (hi lo : UInt8) {ps : List Piece}
    (hlen : ps.length ≤ 64) (hps : ∀ p ∈ ps, p.IsDataOrPad1) (client : SockaddrIn6)
    {s : State} (hs : Listed s) (hend : NullTerminated s.msgList) :
    Acknowledges (processDatagram env (93 :: 2 :: hi :: lo :: ps.flatMap Piece.wire) client)
        client s (ps.filter Piece.isData)
      ↔ dllistContents s.msgList ≠ [] ∨ (s.msgList.junk s.msgList.used).1 = none
        ∨ ∀ p ∈ ps.filter Piece.isData, ∀ q ∈ ps.filter Piece.isData, p.key = q.key := by
  have hexec := exec_processDatagram_pieces env hi lo hlen hps client s
  constructor
  · rintro ⟨s', acks, hrun, -⟩
    by_contra hbad
    push Not at hbad
    obtain ⟨hempty, hjunk, p, hp, q, hq, hne⟩ := hbad
    rw [← p.dataKey_dataBody, ← q.dataKey_dataBody] at hne
    obtain ⟨f, hf⟩ := hs.processDatas_runs_off_empty env client 0 hempty hend hjunk
      ⟨_, List.mem_map_of_mem hp, _, List.mem_map_of_mem hq, hne⟩
    rw [hexec, hf] at hrun
    cases hrun
  · intro hfine
    have hsearch : Searchable s ((ps.filter Piece.isData).map Piece.dataBody) := by
      refine .inr ⟨hend, hfine.imp_right (Or.imp_right fun hsame => ?_)⟩
      intro b hb b' hb'
      obtain ⟨p, hp, rfl⟩ := List.mem_map.mp hb
      obtain ⟨q, hq, rfl⟩ := List.mem_map.mp hb'
      rw [p.dataKey_dataBody, q.dataKey_dataBody]
      exact hsame p hp q hq
    obtain ⟨s', acks, hrun, h', hsent, hacks, -, hlisted⟩ :=
      hs.processDatas_run env client 0 hsearch
    refine ⟨s', acks, hexec.trans hrun, hsent, ?_, fun p hp => ?_⟩
    · rw [List.forall₂_map_right_iff] at hacks
      refine hacks.imp fun d p hd => ?_
      obtain ⟨env', s'', rfl⟩ := hd
      exact fun mc => dserialMsg_ack env' s'' mc p.senderId p.nonce
    · rw [← p.dataKey_dataBody]
      exact List.count_eq_one_of_mem h'.nodup (hlisted p.dataBody (List.mem_map_of_mem hp))

/-! ### The frees -/

/-- The state in which the Ack of the first Data has been sent, if there is one. -/
def State.firstAcked (s : State) (env : Env) (client : SockaddrIn6) (bs : List DataBody) :
    State :=
  bs.head?.elim s fun b => s.withSent client (bytesOf env s (newTlvAck b.senderId b.nonce))

section Frees

variable {env : ℕ → Env} {client : SockaddrIn6} {s : State}

/-- The loop goes over Pad1 and does nothing. -/
theorem processTlvs_of_noData {k : ℕ} {ts : List Tlv}
    (hts : ∀ t ∈ ts, t.type = TlvType.pad1.code ∨ t.type = TlvType.data.code)
    (hnone : dataBodies ts = []) : Frees.processTlvs env client k ts = pure true := by
  induction ts with
  | nil => rfl
  | cons t ts ih =>
    rcases hts t List.mem_cons_self with ht | ht
    · rw [Frees.processTlvs_skip (by rw [ht]; decide) (by rw [Tlv.body_of_pad1 ht]; rfl)]
      rw [dataBodies_cons_pad1 ht] at hnone
      exact ih (fun u hu => hts u (List.mem_cons_of_mem t hu)) hnone
    · obtain ⟨b, hbody⟩ := Tlv.body_of_data ht
      rw [dataBodies_cons_data hbody] at hnone
      cases hnone

/-- **The first Data is the last that the loop comes to.** -/
theorem outcome_processTlvs_data {k : ℕ} {ts : List Tlv} {b : DataBody} {bs : List DataBody}
    (hts : ∀ t ∈ ts, t.type = TlvType.pad1.code ∨ t.type = TlvType.data.code)
    (hdata : dataBodies ts = b :: bs) :
    (Frees.processTlvs env client k ts).outcome s = (.error .wild,
      s.withSent client (bytesOf (env k) s (newTlvAck b.senderId b.nonce))) := by
  induction ts with
  | nil => cases hdata
  | cons t ts ih =>
    rcases hts t List.mem_cons_self with ht | ht
    · rw [Frees.processTlvs_skip (by rw [ht]; decide) (by rw [Tlv.body_of_pad1 ht]; rfl)]
      rw [dataBodies_cons_pad1 ht] at hdata
      exact ih (fun u hu => hts u (List.mem_cons_of_mem t hu)) hdata
    · obtain ⟨b', hbody⟩ := Tlv.body_of_data ht
      rw [dataBodies_cons_data hbody] at hdata
      obtain rfl : b' = b := (List.cons.inj hdata).1
      rw [Frees.processTlvs_call (by rw [ht]; decide)
        (show Frees.handler (env k) client t.body = some (Frees.processData (env k) b' client) by
          rw [hbody]
          rfl)]
      exact Prog.outcome_bind_error (Frees.outcome_processData ..)

/-- **What `process_datagram` comes to, on Data and Pad1**: a wild free, when the first
Data has been acknowledged. -/
theorem outcome_pieces (env : ℕ → Env) (hi lo : UInt8) {ps : List Piece}
    (hlen : ps.length ≤ 64) (hps : ∀ p ∈ ps, p.IsDataOrPad1) (client : SockaddrIn6)
    (s : State) :
    (Frees.processDatagram env (93 :: 2 :: hi :: lo :: ps.flatMap Piece.wire) client).outcome s
      = (.error .wild,
          s.firstAcked (env 0) client ((ps.filter Piece.isData).map Piece.dataBody)) := by
  obtain ⟨m, hm, hmagic, hversion, hbody⟩ := received_pieces (env 0).mc hi lo hlen hps
  have hts : ∀ t ∈ m.body, t.type = TlvType.pad1.code ∨ t.type = TlvType.data.code := by
    rw [hbody]
    intro t ht
    obtain ⟨p, hp, rfl⟩ := List.mem_map.mp ht
    exact (hps p hp).symm.imp And.left And.left
  have hheader : ¬ (m.magic ≠ 93 ∨ m.version ≠ 2) := by simp [hmagic, hversion]
  have hdatas : dataBodies m.body = (ps.filter Piece.isData).map Piece.dataBody :=
    hbody ▸ dataBodies_pieces hps
  unfold Frees.processDatagram Frees.processMsg
  rw [Prog.outcome_call_bind (lift_ok hm s), if_neg hheader, ← hdatas]
  cases hbodies : dataBodies m.body with
  | nil =>
    rw [processTlvs_of_noData hts hbodies]
    have hfree : freeLocal s = .error .wild := rfl
    exact Prog.outcome_call_error hfree
  | cons b bs => exact Prog.outcome_bind_error (outcome_processTlvs_data hts hbodies)

/-- **No datagram of Data and Pad1 is acknowledged as it should be**: there is none that
`process_datagram` returns from. -/
theorem acknowledges_never (env : ℕ → Env) (hi lo : UInt8) {ps : List Piece}
    (hlen : ps.length ≤ 64) (hps : ∀ p ∈ ps, p.IsDataOrPad1) (client : SockaddrIn6)
    (s : State) :
    ¬ Acknowledges
        (Frees.processDatagram env (93 :: 2 :: hi :: lo :: ps.flatMap Piece.wire) client)
        client s (ps.filter Piece.isData) := by
  rintro ⟨s', acks, hrun, -⟩
  cases (Prog.exec_of_outcome (outcome_pieces env hi lo hlen hps client s)).symm.trans hrun

end Frees

/-- Two Data of the sender 7, with a Pad1 between them. -/
def twoData : List Piece :=
  [⟨4, 13, [0, 0, 0, 0, 0, 0, 0, 7, 0, 0, 0, 1, 0], rfl⟩, ⟨0, 0, [], rfl⟩,
    ⟨4, 13, [0, 0, 0, 0, 0, 0, 0, 7, 0, 0, 0, 2, 0], rfl⟩]

theorem isDataOrPad1_twoData : ∀ p ∈ twoData, p.IsDataOrPad1 := by
  simp [twoData, Piece.IsDataOrPad1, TlvType.code]

theorem listed_init (junk : ℕ → Option ℕ × Option ℕ) : Listed (State.init junk) where
  shape := ⟨[], none, none, shape_newDllist ..⟩
  type_eq := rfl
  nodup := List.nodup_nil
  nbrs := fun key e h => by cases (mapGet_mapInit key).symm.trans h

/-- The two in one datagram, received first. -/
theorem acknowledges_never_twoData :
    ¬ Acknowledges
        (Frees.processDatagram (fun _ => quietEnv)
          (93 :: 2 :: 0 :: 32 :: twoData.flatMap Piece.wire) ⟨Vector.replicate 16 1, 48132⟩)
        ⟨Vector.replicate 16 1, 48132⟩ (State.init fun _ => (none, none))
        (twoData.filter Piece.isData) :=
  acknowledges_never _ 0 32 (by decide) isDataOrPad1_twoData _ _

/-- The first of the two alone, in the state before anything has happened. -/
theorem not_acknowledges_oneData :
    ¬ ∀ (env : ℕ → Env) (hi lo : UInt8) (ps : List Piece) (client : SockaddrIn6) (s : State),
        ps.length ≤ 64 → (∀ p ∈ ps, p.IsDataOrPad1) → Listed s → NullTerminated s.msgList →
          Acknowledges
            (Frees.processDatagram env (93 :: 2 :: hi :: lo :: ps.flatMap Piece.wire) client)
            client s (ps.filter Piece.isData) := by
  intro hall
  have hone : ∀ p ∈ twoData.take 1, p.IsDataOrPad1 := fun p hp =>
    isDataOrPad1_twoData p (List.mem_of_mem_take hp)
  obtain ⟨s', acks, hrun, -⟩ := hall (fun _ => quietEnv) 0 15 (twoData.take 1)
    ⟨Vector.replicate 16 1, 48132⟩ (State.init fun _ => (none, none)) (by decide) hone
    (listed_init _) (fun _ _ => nofun)
  cases (Prog.exec_of_outcome (outcome_pieces _ 0 15 (by decide) hone _ _)).symm.trans hrun

end Miaouchat
