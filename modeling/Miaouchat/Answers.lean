import Miaouchat.Stream
import Miaouchat.Wire

/-!
# What a client answers

A Data is answered by an Ack, and a short Hello by a long one; each answer goes
to the peer that the datagram came from, in a datagram of its own. There are no
other Acks and no other long Hellos: `answers_of_run` says that those a client
has sent are, in order, the answers to what it has received. A Data that has been
received before is answered again, and so is one whose message is not shown.

All the rest of what is sent is not asked for: the short Hellos of
`add_new_neighbour`, all with the identifier of the client, and the GoAways of
the worker.

The mutexes are left aside, and so is what is freed.
-/

namespace Miaouchat

/-! ## Answers -/

/-- A TLV that answers another. -/
def Control.isAnswer : Control → Bool
  | .ack .. | .longHello .. => true
  | .shortHello _ | .goAway => false

/-- A TLV that a client sends by itself, where `id` is its identifier. -/
def Control.Unasked (id : UInt64) (c : Control) : Prop := c = .shortHello id ∨ c = .goAway

theorem Control.Unasked.isAnswer_eq {id : UInt64} {c : Control} (h : c.Unasked id) :
    c.isAnswer = false := by
  rcases h with rfl | rfl <;> rfl

/-- The datagrams of control TLVs, each with the peer it is sent to. -/
def sending (cs : List (SockaddrIn6 × Control)) : List (SockaddrIn6 × List UInt8) :=
  cs.map fun d => (d.1, d.2.datagram)

theorem sending_append (cs cs' : List (SockaddrIn6 × Control)) :
    sending (cs ++ cs') = sending cs ++ sending cs' :=
  List.map_append

/-- The answer to a TLV. -/
def TlvBody.answer (id : UInt64) : TlvBody → Option Control
  | .hello b => if b.isLong then none else some (.longHello b.sourceId id)
  | .data b => some (.ack b.senderId b.nonce)
  | .neighbour _ | .ack _ | .goAway _ | .empty | .padn _ | .warning _ => none

/-- The answers to a list of TLVs. -/
def answersTo (id : UInt64) (ts : List Tlv) : List Control :=
  (ts.takeWhile fun t => t.type ≠ TlvType.padn.code).filterMap fun t => t.body.answer id

theorem answersTo_padn {id : UInt64} {t : Tlv} (ht : t.type = TlvType.padn.code)
    (ts : List Tlv) : answersTo id (t :: ts) = [] := by
  rw [answersTo, List.takeWhile_cons_of_neg (by simpa using ht)]
  rfl

theorem answersTo_cons {id : UInt64} {t : Tlv} (ht : t.type ≠ TlvType.padn.code)
    (ts : List Tlv) :
    answersTo id (t :: ts) = (t.body.answer id).toList ++ answersTo id ts := by
  rw [answersTo, List.takeWhile_cons_of_pos (by simpa using ht), List.filterMap_cons]
  cases t.body.answer id <;> rfl

/-- The answers to a decoded message. -/
def Msg.answers (id : UInt64) (m : Msg) : List Control :=
  if m.magic ≠ 93 ∨ m.version ≠ 2 then [] else answersTo id m.body

/-- The answers to what is received at an event, each with the peer it is for. -/
def Event.answers (id : UInt64) (mc : Machine) : Event → List (SockaddrIn6 × Control)
  | .datagram input client =>
    match received mc input with
    | .ok m => (m.answers id).map (Prod.mk client)
    | .error _ => []
  | .addNewNeighbour _ _ | .workerPass => []

/-- The answers to what is received in a run. -/
def answersIn (id : UInt64) (xs : List (State × (ℕ → Env) × Event)) :
    List (SockaddrIn6 × Control) :=
  xs.flatMap fun x => x.2.2.answers id (x.2.1 0).mc

/-! ## What code sends, the mutexes left aside -/

section Sending

variable {W : Control → Prop} {before : List (SockaddrIn6 × List UInt8)} {env : Env}

/-- `add_new_neighbour` sends its Hello to each address. -/
theorem keeps_wired_addNewNeighbour (hW : W (.shortHello env.clientId))
    (host port : List Char) :
    Keeps (Wired W before) (addNewNeighbour env host port).exec := by
  refine ⟨fun s a s' hrun hs => ?_⟩
  refine ⟨(neighbourly_nbrsGood.addNewNeighbour env host port).rel s a s' hrun hs.nbrs, ?_⟩
  obtain ⟨ds, hsent, hds⟩ := hs.sent
  have hhello : shortHello env s = (Control.shortHello env.clientId).datagram :=
    written_control env.mc _ (.shortHello env.clientId)
  rw [exec_addNewNeighbour] at hrun
  cases hrun
  rw [State.sent_withAddresses, hsent, List.append_assoc, hhello]
  refine ⟨_, rfl, fun d hd => ?_⟩
  rcases List.mem_append.mp hd with hd | hd
  · exact hds d hd
  · obtain ⟨p, -, rfl⟩ := List.mem_map.mp hd
    exact ⟨.shortHello env.clientId, hW, rfl⟩

theorem keeps_wired_admitPeer (hW : W (.shortHello env.clientId)) (client : SockaddrIn6)
    (key : List Char) (s : State) :
    Keeps (Wired W before) (admitPeer env client key s).exec :=
  moves_admitPeer (keeps_wired_addNewNeighbour hW)
    (keeps_wired_mapTransferNeighbour env .pot .cur) client key s

theorem keeps_wired_processAck (b : AckBody) (pair : SockaddrIn6) :
    Keeps (Wired W before) (processAck env b pair).exec :=
  moves_processAck keeps_wired_rmNbrMsg env b pair

theorem keeps_wired_processGoAway (b : GoAwayBody) (pair : SockaddrIn6) :
    Keeps (Wired W before) (processGoAway env b pair).exec :=
  moves_processGoAway keeps_wired_emptyPending
    (keeps_wired_mapTransferNeighbour env .cur .pot) b pair

theorem keeps_wired_workerPass (hW : W .goAway) :
    Keeps (Wired W before) (workerPass env).exec :=
  moves_workerPass (moves_workerIterNbr (keeps_wired_workerIterMsg env) keeps_wired_emptyPending
    (keeps_wired_sendMsg hW env) (keeps_wired_mapTransferNeighbour env .cur .pot))

end Sending

/-- `add_msg` sends nothing: a message that is new is only put on the lists of
pending messages. -/
theorem sent_addMsg {env : Env} {b : DataBody} {added : Bool} {s s' : State} (h : Good s)
    (hrun : (addMsg env b).exec s = .ok (added, s')) : s'.sent = s.sent := by
  by_cases hmem : dataKey b ∈ dllistContents s.msgList
  · rw [h.storeSound.addMsg_known env hmem] at hrun
    cases hrun
    rfl
  · by_cases hend : NullTerminated s.msgList
    · obtain ⟨l, hadd, -⟩ := h.storeSound.addMsg_new h.type_eq env hmem hend
      rw [hadd] at hrun
      cases hrun
      rfl
    · obtain ⟨e, he⟩ := h.storeSound.addMsg_runs_off env hmem hend
      cases he.symm.trans hrun

/-! ## The invariant -/

/-- **The state of a client that has given the answers `as`**, and has sent
nothing else but what it is not asked for. -/
structure Answered (id : UInt64) (as : List (SockaddrIn6 × Control)) (s : State) : Prop where
  good : Good s
  sent : ∃ cs, s.sent = sending cs ∧ cs.filter (fun d => d.2.isAnswer) = as
    ∧ ∀ d ∈ cs, d.2.isAnswer = false → d.2.Unasked id

namespace Answered

variable {id : UInt64} {as : List (SockaddrIn6 × Control)} {s s' : State}

theorem init (id : UInt64) (junk : ℕ → Option ℕ × Option ℕ) :
    Answered id [] (State.init junk) :=
  ⟨.init junk, [], rfl, rfl, fun _ hd => absurd hd List.not_mem_nil⟩

/-- Datagrams are sent in addition. -/
theorem add (h : Answered id as s) (hgood : Good s') {cs bs : List (SockaddrIn6 × Control)}
    (hsent : s'.sent = s.sent ++ sending cs)
    (hbs : cs.filter (fun d => d.2.isAnswer) = bs)
    (hcs : ∀ d ∈ cs, d.2.isAnswer = false → d.2.Unasked id) : Answered id (as ++ bs) s' := by
  obtain ⟨cs₀, hsent₀, has, hcs₀⟩ := h.sent
  refine ⟨hgood, cs₀ ++ cs, ?_, ?_, fun d hd => ?_⟩
  · rw [hsent, hsent₀, sending_append]
  · rw [List.filter_append, has, hbs]
  · rcases List.mem_append.mp hd with hd | hd
    · exact hcs₀ d hd
    · exact hcs d hd

/-- **An answer is sent.** -/
theorem answer (h : Answered id as s) {c : Control} (hc : c.isAnswer = true)
    (client : SockaddrIn6) :
    Answered id (as ++ [(client, c)]) (s.withSent client c.datagram) := by
  have hgood : Good (s.withSent client c.datagram) :=
    h.good.of_sameStore ⟨rfl, rfl, rfl⟩ (h.good.nbrs.congr rfl rfl rfl)
  have hsent : (s.withSent client c.datagram).sent = s.sent ++ sending [(client, c)] := rfl
  refine h.add hgood hsent (List.filter_cons_of_pos hc) fun d hd hno => ?_
  rw [List.mem_singleton.mp hd, hc] at hno
  cases hno

/-- **Only what is not asked for is sent.** -/
theorem of_wired (h : Answered id as s) (hgood : Good s')
    (hw : Wired (Control.Unasked id) s.sent s') : Answered id as s' := by
  obtain ⟨ds, hsent, hds⟩ := hw.sent
  obtain ⟨cs, rfl, hcs⟩ : ∃ cs, ds = sending cs ∧ ∀ d ∈ cs, d.2.Unasked id := by
    clear hsent
    induction ds with
    | nil => exact ⟨[], rfl, fun _ hd => absurd hd List.not_mem_nil⟩
    | cons d ds ih =>
      obtain ⟨⟨c, hc, hd⟩, hrest⟩ := List.forall_mem_cons.mp hds
      obtain ⟨cs, rfl, hcs⟩ := ih hrest
      refine ⟨(d.1, c) :: cs, ?_, List.forall_mem_cons.mpr ⟨hc, hcs⟩⟩
      show d :: sending cs = (d.1, c.datagram) :: sending cs
      rw [← hd]
  have hnone : cs.filter (fun d => d.2.isAnswer) = [] := by
    rw [List.filter_eq_nil_iff]
    intro d hd
    rw [(hcs d hd).isAnswer_eq]
    exact Bool.false_ne_true
  rw [← List.append_nil as]
  exact h.add hgood hsent hnone fun d hd _ => hcs d hd

/-- Code that sends only what is not asked for gives no answer. -/
theorem unasked (h : Answered id as s) {p : Code Unit} (hgood : Keeps Good p.exec)
    (hp : Keeps (Wired (Control.Unasked id) s.sent) p.exec) (hrun : p.exec s = .ok ((), s')) :
    Answered id as s' :=
  h.of_wired (hgood.rel s () s' hrun h.good) <|
    hp.rel s () s' hrun
      ⟨h.good.nbrs, [], (List.append_nil _).symm, fun _ hd => absurd hd List.not_mem_nil⟩

variable {env : Env} {client : SockaddrIn6}

/-- `process_data`. -/
theorem processData (h : Answered id as s) {b : DataBody}
    (hrun : (Miaouchat.processData env b client).exec s = .ok ((), s')) :
    Answered id (as ++ [(client, .ack b.senderId b.nonce)]) s' := by
  have hgood := (keeps_good env (.processData b client)).rel s () s' hrun h.good
  have hack : bytesOf env s (newTlvAck b.senderId b.nonce)
      = (Control.ack b.senderId b.nonce).datagram :=
    written_control env.mc _ (.ack b.senderId b.nonce)
  rw [exec_processData, hack] at hrun
  obtain ⟨added, hadd⟩ := map_eq_ok hrun
  have hsent : Answered id (as ++ [(client, .ack b.senderId b.nonce)])
      (s.withSent client (Control.ack b.senderId b.nonce).datagram) := h.answer rfl client
  obtain ⟨cs, hcs⟩ := hsent.sent
  exact ⟨hgood, cs, (sent_addMsg hsent.good hadd).trans hcs.1, hcs.2⟩

/-- `process_hello`. -/
theorem processHello (h : Answered id as s) (hid : env.clientId = id) {b : HelloBody}
    (hrun : (Miaouchat.processHello env b client).exec s = .ok ((), s')) :
    Answered id (as ++ (TlvBody.answer id (.hello b)).toList.map (Prod.mk client)) s' := by
  subst hid
  have hgood := (keeps_good env (.processHello b client)).rel s () s' hrun h.good
  rw [exec_processHello] at hrun
  have hanswered : Answered env.clientId
      (as ++ (TlvBody.answer env.clientId (.hello b)).toList.map (Prod.mk client))
      (s.answered env b client) := by
    obtain ⟨isLong, srcId, dstId⟩ := b
    cases isLong with
    | true => exact (List.append_nil as).symm ▸ h
    | false =>
      have hlong : bytesOf env s (newTlvHello true srcId env.clientId)
          = (Control.longHello srcId env.clientId).datagram :=
        written_control env.mc _ (.longHello srcId env.clientId)
      show Answered _ (as ++ [(client, .longHello srcId env.clientId)])
        (s.withSent client (bytesOf env s (newTlvHello true srcId env.clientId)))
      rw [hlong]
      exact h.answer rfl client
  refine hanswered.of_wired hgood ((keeps_wired_admitPeer (.inl rfl) ..).rel _ () s' hrun ?_)
  exact ⟨hanswered.good.nbrs, [], (List.append_nil _).symm,
    fun _ hd => absurd hd List.not_mem_nil⟩

/-- **A handler** gives its answer. -/
theorem handler (h : Answered id as s) (hid : env.clientId = id) {body : TlvBody}
    {call : Code Unit} (hcall : Miaouchat.handler env client body = some call)
    (hrun : call.exec s = .ok ((), s')) :
    Answered id (as ++ (body.answer id).toList.map (Prod.mk client)) s' := by
  have hquiet : ∀ op : Operation, op.code env = call →
      Keeps (Wired (Control.Unasked id) s.sent) call.exec → Answered id (as ++ []) s' := by
    rintro op rfl hp
    rw [List.append_nil]
    exact h.unasked (keeps_good env op) hp hrun
  cases body with
  | hello b =>
    cases hcall
    exact h.processHello hid hrun
  | data b =>
    cases hcall
    exact h.processData hrun
  | neighbour b =>
    cases hcall
    exact hquiet (.processNeighbour b) rfl (keeps_wired_addNewNeighbour (.inl (hid ▸ rfl)) ..)
  | ack b =>
    cases hcall
    exact hquiet (.processAck b client) rfl (keeps_wired_processAck b client)
  | goAway b =>
    cases hcall
    exact hquiet (.processGoAway b client) rfl (keeps_wired_processGoAway b client)
  | empty | padn _ | warning _ => cases hcall

/-- **The loop of `process_datagram`** gives the answers up to a PadN. -/
theorem processTlvs (h : Answered id as s) {env : ℕ → Env} (hid : ∀ k, (env k).clientId = id)
    {k : ℕ} {ts : List Tlv}
    (hrun : (Miaouchat.processTlvs env client k ts).exec s = .ok ((), s')) :
    Answered id (as ++ (answersTo id ts).map (Prod.mk client)) s' := by
  induction ts generalizing as s k with
  | nil =>
    cases hrun
    exact (List.append_nil as).symm ▸ h
  | cons t ts ih =>
    by_cases ht : t.type = TlvType.padn.code
    · rw [processTlvs_padn ht] at hrun
      cases hrun
      rw [answersTo_padn ht]
      exact (List.append_nil as).symm ▸ h
    · rw [answersTo_cons ht, List.map_append, ← List.append_assoc]
      cases hcall : Miaouchat.handler (env k) client t.body with
      | none =>
        rw [processTlvs_skip ht hcall] at hrun
        have hnone : t.body.answer id = none := by
          cases hbody : t.body with
          | empty | padn _ | warning _ => rfl
          | hello _ | neighbour _ | data _ | ack _ | goAway _ =>
            rw [hbody] at hcall
            cases hcall
        rw [hnone]
        exact ih ((List.append_nil as).symm ▸ h) hrun
      | some call =>
        rw [processTlvs_call ht hcall] at hrun
        obtain ⟨_, s₁, hfirst, hrest⟩ := Prog.exec_bind_eq_ok hrun
        exact ih (h.handler (hid k) hcall hfirst) hrest

/-- **One event** is answered. -/
theorem event (h : Answered id as s) {x : (ℕ → Env) × Event} (hid : ∀ k, (x.1 k).clientId = id)
    (hstep : EventStep s x s') : Answered id (as ++ x.2.answers id (x.1 0).mc) s' := by
  obtain ⟨env, e⟩ := x
  cases e with
  | datagram input client =>
    have hrun : (processDatagram env input client).exec s = .ok ((), s') := hstep
    obtain ⟨m, hm, hmsg⟩ := processDatagram_eq_ok hrun
    show Answered id (as ++ Event.answers id (env 0).mc (.datagram input client)) s'
    rw [Event.answers, hm]
    show Answered id (as ++ (m.answers id).map (Prod.mk client)) s'
    unfold processMsg at hmsg
    unfold Msg.answers
    split at hmsg
    · rename_i hno
      cases hmsg
      rw [if_pos hno]
      exact (List.append_nil as).symm ▸ h
    · rename_i hok
      rw [if_neg hok]
      exact h.processTlvs hid hmsg
  | addNewNeighbour host port =>
    show Answered id (as ++ []) s'
    rw [List.append_nil]
    exact h.unasked (keeps_good (env 0) (.addNewNeighbour host port))
      (keeps_wired_addNewNeighbour (.inl (hid 0 ▸ rfl)) host port) hstep
  | workerPass =>
    show Answered id (as ++ []) s'
    rw [List.append_nil]
    exact h.unasked (keeps_good (env 0) .workerPass) (keeps_wired_workerPass (.inr rfl)) hstep

end Answered

/-! ## Runs -/

section Runs

variable {id : UInt64} {junk : ℕ → Option ℕ × Option ℕ}
  {xs : List (State × (ℕ → Env) × Event)} {s : State}

theorem answered_of_run (h : Run EventStep (State.init junk) xs s)
    (hid : ∀ x ∈ xs, ∀ k, (x.2.1 k).clientId = id) : Answered id (answersIn id xs) s := by
  induction h with
  | nil => exact .init id junk
  | snoc h hstep ih =>
    obtain ⟨hxs, hlast⟩ := List.forall_mem_append.mp hid
    unfold answersIn
    rw [List.flatMap_append, List.flatMap_singleton]
    exact (ih hxs).event (hlast _ (List.mem_singleton_self _)) hstep

/-- **A client gives each answer once**, to the peer that it is for, and in the
order in which it receives what it answers. What it sends else, it is not asked
for. -/
theorem answers_of_run (h : Run EventStep (State.init junk) xs s)
    (hid : ∀ x ∈ xs, ∀ k, (x.2.1 k).clientId = id) :
    ∃ cs, s.sent = sending cs ∧ cs.filter (fun d => d.2.isAnswer) = answersIn id xs
      ∧ ∀ d ∈ cs, d.2.isAnswer = false → d.2 = .shortHello id ∨ d.2 = .goAway :=
  (answered_of_run h hid).sent

set_option maxRecDepth 10000 in
/-- A Data arrives from one peer, and a Hello from another. -/
theorem answers_of_run_both : ∃ (s : State) (cs : List (SockaddrIn6 × Control)),
    s.sent = sending cs ∧ cs.filter (fun d => d.2.isAnswer)
      = [(⟨shortIp 1, 1212⟩, .ack 7 1), (⟨shortIp 2, 1212⟩, .longHello 5 quietEnv.clientId)] := by
  obtain ⟨s₁, s₂, hdata, hhello, hanswers⟩ : ∃ s₁ s₂,
      EventStep (State.init fun _ => (none, none))
          (fun _ => quietEnv, .datagram oneData ⟨shortIp 1, 1212⟩) s₁
        ∧ EventStep s₁ (fun _ => quietEnv,
          .datagram (Control.shortHello 5).datagram ⟨shortIp 2, 1212⟩) s₂
        ∧ answersIn quietEnv.clientId [(State.init fun _ => (none, none),
            (fun _ => quietEnv, .datagram oneData ⟨shortIp 1, 1212⟩)),
            (s₁, (fun _ => quietEnv,
              .datagram (Control.shortHello 5).datagram ⟨shortIp 2, 1212⟩))]
          = [(⟨shortIp 1, 1212⟩, .ack 7 1),
            (⟨shortIp 2, 1212⟩, .longHello 5 quietEnv.clientId)] :=
    ⟨_, _, rfl, rfl, rfl⟩
  obtain ⟨cs, hsent, hfilter, -⟩ :=
    answers_of_run ((Run.nil.snoc hdata).snoc hhello) fun x hx k => by
      rcases List.mem_cons.mp hx with rfl | hx
      · rfl
      · obtain rfl := List.mem_singleton.mp hx
        rfl
  exact ⟨s₂, cs, hsent, hfilter.trans hanswers⟩

end Runs

end Miaouchat
