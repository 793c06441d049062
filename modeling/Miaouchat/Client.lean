import Miaouchat.Control
import Miaouchat.Deadlock
import Miaouchat.Lib.Rules

/-!
# The threads of a client

What the threads of a client do, in any number: handle datagrams, make passes of
the worker, and add the neighbours of a host.

Their code is gone through once, with the rules of `Lib.Rules`. What an action
may do is left open in `Permits`, which says for each action the mutexes it is
made with; so is the order of the mutexes, in `Takes`. A Hello of a new peer
makes `process_hello` ask for a mutex that it holds, and a message that is
added to the empty list does the same in `add_msg`: there the code ends.
-/

namespace Miaouchat

open Prog

/-- **What a client does**: its threads handle datagrams, make passes of the
worker and add the neighbours of a host. -/
inductive ClientJob : Code Unit → Prop
  | datagram (env : ℕ → Env) (input : List UInt8) (client : SockaddrIn6) :
      ClientJob (processDatagram env input client)
  | pass (env : Env) : ClientJob (workerPass env)
  | host (env : Env) (host port : List Char) : ClientJob (addNewNeighbour env host port)

/-! ## The parts of the state -/

/-- The mutex of a map of neighbours. -/
def Nbrs.mutex : Nbrs → Mutex
  | .cur => .curNeighbours
  | .pot => .potNeighbours

/-- **The part of the state that each mutex goes with**, and all the rest of
it. -/
def stateGuards : Guards Mutex State where
  same m s s' := match m with
    | .curNeighbours => s'.cur = s.cur
    | .potNeighbours => s'.pot = s.pot
    | .msgMap => s'.msgMap = s.msgMap
    | .msgList => s'.msgList = s.msgList
  rest m s s' := match m with
    | .curNeighbours => s' = { s with cur := s'.cur }
    | .potNeighbours => s' = { s with pot := s'.pot }
    | .msgMap => s' = { s with msgMap := s'.msgMap }
    | .msgList => s' = { s with msgList := s'.msgList }
  same_refl m s := by cases m <;> rfl
  same_trans {m s s' s''} h h' := by cases m <;> exact Eq.trans h' h

/-! ## What is left open -/

/-- **What the code asks of the actions** on neighbours: `C H x` says that `x`
may be made with the mutexes of `H` held, and `W` which control TLVs may be
sent. -/
structure Permits (W : Control → Prop) (C : Finset Mutex → ∀ {γ : Type}, M γ → Prop) :
    Prop where
  shortHello : ∀ id, W (.shortHello id)
  longHello : ∀ srcId dstId, W (.longHello srcId dstId)
  look : ∀ {γ : Type} (H : Finset Mutex) (v : State → γ),
    (∀ m ∉ H, ∀ s s', stateGuards.rest m s s' → v s = v s') → C H (fun s => .ok (v s, s))
  lift : ∀ {γ : Type} (H : Finset Mutex) (x : Except Fault γ), C H (StateT.lift x)
  udpSend : ∀ H pair c ok, W c → C H (udpSend pair c.datagram ok)
  sendMsg : ∀ H env pair c, W c → C H (sendMsg env pair [c.tlv])
  newNeighbourEntry : ∀ H env addr, C H (newNeighbourEntry env addr)
  mapAddNeighbourEntry : ∀ (H : Finset Mutex) env w e, w.mutex ∈ H →
    C H (mapAddNeighbourEntry env w e)
  mapTransferNeighbour : ∀ (H : Finset Mutex) env w w' key, w.mutex ∈ H → w'.mutex ∈ H →
    C H (mapTransferNeighbour env w w' key)
  rmNbrMsg : ∀ (H : Finset Mutex) id nonce e, .curNeighbours ∈ H → C H (rmNbrMsg id nonce e)
  emptyPending : ∀ (H : Finset Mutex) e, .curNeighbours ∈ H → C H (emptyPending e)
  entryAt : ∀ H e, C H (entryAt e)
  workerIterMsg : ∀ env e (H : Finset Mutex), (∀ m, m ∈ H) → C H (workerIterMsg env e)
  goAway : W .goAway
  searchKey : ∀ (H : Finset Mutex) key, .msgList ∈ H → C H (searchKey key)
  bindMsg : ∀ (H : Finset Mutex) key b, .msgMap ∈ H → C H (bindMsg key b)

/-- And of those that list a message and show it. -/
structure PermitsListing (C : Finset Mutex → ∀ {γ : Type}, M γ → Prop) : Prop where
  listMsg : ∀ (H : Finset Mutex) key, .msgList ∈ H → C H (listMsg key)
  enqueue : ∀ (H : Finset Mutex) env key b, .curNeighbours ∈ H →
    C H (forCurNeighbours (enqueue env key b))
  printMessage : ∀ (H : Finset Mutex) b, C H (printMessage b)

/-- **What a pass of the worker asks of the actions**, made with the mutexes of `H`
held. -/
structure PermitsPass (env : Env) (C : Finset Mutex → ∀ {γ : Type}, M γ → Prop)
    (H : Finset Mutex) : Prop where
  lookCur : C H (fun s => .ok (s.cur, s))
  lift : ∀ {γ : Type} (x : Except Fault γ), C H (StateT.lift x)
  workerIterMsg : ∀ e, C H (workerIterMsg env e)
  emptyPending : ∀ e, C H (emptyPending e)
  entryAt : ∀ e, C H (entryAt e)
  sendGoAway : ∀ pair, C H (sendGoAway env pair)
  mapTransferNeighbour : ∀ key, C H (mapTransferNeighbour env .cur .pot key)

/-- **What the code asks of the order** of the mutexes, where neither a new peer
nor a new message turns up. -/
structure Takes (ok : Finset Mutex → Mutex → Prop) : Prop where
  cur : ok ∅ .curNeighbours
  pot : ok ∅ .potNeighbours
  list : ok ∅ .msgList
  both : ok {.curNeighbours} .potNeighbours
  third : ok {.potNeighbours, .curNeighbours} .msgList
  fourth : ok {.msgList, .potNeighbours, .curNeighbours} .msgMap

/-- The order of the worker will do. -/
theorem takes_above : Takes (Above Mutex.rank) := by
  constructor <;> decide

theorem takes_any : Takes fun _ _ => True := by
  constructor <;> trivial

section Derivations

variable {W : Control → Prop} {I : State → Prop} {ok : Finset Mutex → Mutex → Prop}
  {C : Finset Mutex → ∀ {γ : Type}, M γ → Prop} (hC : Permits W C) (hok : Takes ok)

include hC hok

/-! ## Adding neighbours -/

theorem derives_addAddress (env : Env) {c : Control} (hc : W c) (i : ℕ) (p : SockaddrIn6) :
    Derives I ok C (fun _ H => H = ∅) (addAddress env c.datagram i p) ∅ := by
  have hadd : ∀ w : Nbrs, ok ∅ w.mutex → Derives I ok C (fun _ H => H = ∅) (do
      Prog.take w.mutex
      let e ← Prog.call (newNeighbourEntry env p)
      let _ ← Prog.call (mapAddNeighbourEntry env w e)
      Prog.give w.mutex : Code Unit) ∅ := fun w hw =>
    .take_bind hw fun _ => .call_bind (hC.newNeighbourEntry ..) fun _ _ _ _ _ =>
      .call_bind (hC.mapAddNeighbourEntry _ _ _ _ (Finset.mem_insert_self ..)) fun _ _ _ _ _ =>
        .give (Finset.mem_insert_self ..) (Finset.erase_insert (Finset.notMem_empty _))
  refine .call_bind (hC.udpSend _ _ _ _ hc) fun _ _ sent _ _ => ?_
  cases sent with
  | true => exact hadd .cur hok.cur
  | false => exact hadd .pot hok.pot

theorem derives_addAddresses (env : Env) {c : Control} (hc : W c) (i : ℕ)
    (ps : List SockaddrIn6) :
    Derives I ok C (fun _ H => H = ∅) (addAddresses env c.datagram i ps) ∅ := by
  induction ps generalizing i with
  | nil => exact .done rfl
  | cons p ps ih =>
    exact (derives_addAddress hC hok env hc i p).bind fun _ _ hH => hH ▸ ih (i + 1)

omit hok in
/-- The Hello of `add_new_neighbour` is built before the rest. -/
theorem derives_addNewNeighbour_bind {Q : Unit → Finset Mutex → Prop} (env : Env)
    (host port : List Char) {H : Finset Mutex} (hnone : Q () H)
    (hsome : ∀ ai, env.getaddrinfo host port = some ai →
      Derives I ok C Q (addAddresses env (Control.shortHello env.clientId).datagram 0 ai) H) :
    Derives I ok C Q (addNewNeighbour env host port) H := by
  unfold addNewNeighbour
  cases hai : env.getaddrinfo host port with
  | none => exact .done hnone
  | some ai =>
    refine .call_bind (hC.look H _ fun m _ s s' hrest => ?_) fun s _ hello s' hrun => ?_
    · have hsent : s'.sent = s.sent := by cases m <;> (rw [show s' = _ from hrest])
      rw [hsent]
    · obtain rfl : _ = hello := (Prod.mk.inj (Except.ok.inj hrun)).1
      rw [show newTlvHello false env.clientId 0 = (Control.shortHello env.clientId).tlv from rfl,
        written_control]
      exact hsome ai hai

/-- **`add_new_neighbour`** holds nothing at the end. -/
theorem derives_addNewNeighbour (env : Env) (host port : List Char) :
    Derives I ok C (fun _ H => H = ∅) (addNewNeighbour env host port) ∅ :=
  derives_addNewNeighbour_bind hC env host port rfl fun ai _ =>
    derives_addAddresses hC hok env (hC.shortHello _) 0 ai

/-! ## The handlers -/

/-- **Whether a Hello may be one of a new peer**: only where mutexes may be
asked for in any order. Else there is an environment that finds no address for
it. -/
def HelloTaken (ok : Finset Mutex → Mutex → Prop) (env : Env) (client : SockaddrIn6) : Prop :=
  (∀ H m, ok H m)
    ∨ env.getaddrinfo (env.inetNtop env.clientSlot) (portText client.port) = none

omit hok in
/-- **A new peer makes the code ask for a mutex it holds**, and any other leaves
the mutexes of both maps held. -/
theorem derives_admitPeer {env : Env} {client : SockaddrIn6} (hnew : HelloTaken ok env client)
    (key : List Char) (s : State) :
    Derives I ok C (fun _ H => H = mapMutexes) (admitPeer env client key s) mapMutexes := by
  unfold admitPeer
  split
  · exact .done rfl
  · split
    · refine derives_addNewNeighbour_bind hC env _ _ rfl fun ai hai => ?_
      rcases hnew with hany | hnone
      · cases ai with
        | nil => exact .done rfl
        | cons p ps =>
          have hround : Derives I ok C (fun _ _ => False)
              (addAddress env (Control.shortHello env.clientId).datagram 0 p) mapMutexes := by
            refine .call_bind (hC.udpSend _ _ _ _ (hC.shortHello _)) fun _ _ sent _ _ => ?_
            cases sent with
            | true => exact .take_held (hany _ _) (by decide)
            | false => exact .take_held (hany _ _) (by decide)
          exact hround.bind fun _ _ h => h.elim
      · cases hai.symm.trans hnone
    · exact .call_bind (hC.mapTransferNeighbour _ _ _ _ _ (by decide) (by decide))
        fun _ _ _ _ _ => .done rfl

theorem derives_processHello {env : Env} {client : SockaddrIn6}
    (hnew : HelloTaken ok env client) (b : HelloBody) :
    Derives I ok C (fun _ H => H = ∅) (processHello env b client) ∅ := by
  have hanswer : Derives I ok C (fun _ H => H = ∅) (answerHello env b client) ∅ := by
    unfold answerHello
    split
    · exact .done rfl
    · exact .call (hC.sendMsg _ _ _ (.longHello b.sourceId env.clientId) (hC.longHello ..))
        fun _ _ _ _ _ => rfl
  have hboth : insert .potNeighbours (insert .curNeighbours ∅) = mapMutexes := by decide
  refine hanswer.bind fun _ H hH => ?_
  subst hH
  refine .take_bind hok.cur fun _ => .take_bind hok.both fun _ => ?_
  rw [hboth]
  -- what is looked at of the state are the two maps
  refine .look (v := fun s => (s.cur, s.pot)) (q := fun v => do
    admitPeer env client (newNeighbourKeySock env client)
      { State.init (fun _ => (none, none)) with cur := v.1, pot := v.2 }
    Prog.give .curNeighbours
    Prog.give .potNeighbours) (hC.look _ _ fun m hm s s' hrest => ?_) fun s _ => ?_
  · cases m with
    | curNeighbours => exact absurd (by decide) hm
    | potNeighbours => exact absurd (by decide) hm
    | msgMap => rw [show s' = _ from hrest]
    | msgList => rw [show s' = _ from hrest]
  · refine (derives_admitPeer hC hnew _ _).bind fun _ H hH => ?_
    subst hH
    exact .give_bind (by decide) <| .give (by decide) (by decide)

theorem derives_processNeighbour (env : Env) (b : NeighbourBody) :
    Derives I ok C (fun _ H => H = ∅) (processNeighbour env b) ∅ :=
  derives_addNewNeighbour hC hok ..

omit hok in
/-- Looking a current neighbour up, with the mutex of the map held. -/
theorem derives_lookCur {α : Type} {Q : α → Finset Mutex → Prop} {q : Map ℕ → Code α}
    {H : Finset Mutex} (hH : .curNeighbours ∈ H) (hq : ∀ m, Derives I ok C Q (q m) H) :
    Derives I ok C Q (Prog.call get >>= fun s => q s.cur) H := by
  refine .look (hC.look H State.cur fun m hm s s' hrest => ?_) fun s _ => hq s.cur
  cases m with
  | curNeighbours => exact absurd hH hm
  | potNeighbours => rw [show s' = _ from hrest]
  | msgMap => rw [show s' = _ from hrest]
  | msgList => rw [show s' = _ from hrest]

omit hok in
theorem derives_follow_bind {α β : Type} {Q : β → Finset Mutex → Prop} {v : Option α}
    {q : α → Code β} {H : Finset Mutex} (hq : ∀ a, Derives I ok C Q (q a) H) :
    Derives I ok C Q (Prog.call (follow v) >>= q) H := by
  refine .call_bind ?_ fun _ _ a _ _ => hq a
  cases v with
  | none => exact hC.lift H (.error .null)
  | some a => exact hC.lift H (.ok a)

theorem derives_processAck (env : Env) (b : AckBody) (pair : SockaddrIn6) :
    Derives I ok C (fun _ H => H = ∅) (processAck env b pair) ∅ :=
  .take_bind hok.cur fun _ =>
    derives_lookCur hC (q := fun m => do
      let e ← Prog.call (follow (mapGet m (newNeighbourKeySock env pair)))
      let _ ← Prog.call (rmNbrMsg b.senderId b.nonce e)
      Prog.give .curNeighbours) (by decide) fun _ => derives_follow_bind hC fun _ =>
        .call_bind (hC.rmNbrMsg _ _ _ _ (by decide)) fun _ _ _ _ _ =>
          .give (by decide) (by decide)

theorem derives_processGoAway (env : Env) (b : GoAwayBody) (pair : SockaddrIn6) :
    Derives I ok C (fun _ H => H = ∅) (processGoAway env b pair) ∅ :=
  .take_bind hok.cur fun _ => .take_bind hok.both fun _ =>
    derives_lookCur hC (q := fun m => do
      let e ← Prog.call (follow (mapGet m (newNeighbourKeySock env pair)))
      Prog.call (emptyPending e)
      let _ ← Prog.call (mapTransferNeighbour env .cur .pot (newNeighbourKeySock env pair))
      Prog.give .curNeighbours
      Prog.give .potNeighbours) (by decide) fun _ => derives_follow_bind hC fun _ =>
        .call_bind (hC.emptyPending _ _ (by decide)) fun _ _ _ _ _ =>
          .call_bind (hC.mapTransferNeighbour _ _ _ _ _ (by decide) (by decide))
            fun _ _ _ _ _ => .give_bind (by decide) <| .give (by decide) (by decide)

omit hok in
/-- **All of it is permitted** where all four mutexes are held. -/
theorem permitsPass (env : Env) {H : Finset Mutex} (hall : ∀ m, m ∈ H) :
    PermitsPass env C H where
  lookCur := hC.look H State.cur fun m hm => absurd (hall m) hm
  lift := hC.lift H
  workerIterMsg := fun e => hC.workerIterMsg env e H hall
  emptyPending := fun e => hC.emptyPending H e (hall _)
  entryAt := hC.entryAt H
  sendGoAway := fun pair => hC.sendMsg H env pair .goAway hC.goAway
  mapTransferNeighbour := fun key => hC.mapTransferNeighbour H env _ _ key (hall _) (hall _)

omit hC hok in
/-- **The loop of a pass** takes no mutex and gives up none. -/
theorem derives_iterNbrLoop {env : Env} {H : Finset Mutex} (hpass : PermitsPass env C H)
    (n : ℕ) (iter : MapIter) :
    Derives I ok C (fun _ H' => H' = H) (iterNbrLoop env n iter) H := by
  induction n generalizing iter with
  | zero => exact .call (hpass.lift (.error .loop)) fun _ _ _ _ _ => rfl
  | succ n ih =>
    refine .look (v := State.cur) (q := fun m => iterNbrRound env m iter (iterNbrLoop env n))
      hpass.lookCur fun s _ => ?_
    refine .call_bind (hpass.lift _) fun _ _ r _ _ => ?_
    obtain ⟨key, iter'⟩ := r
    cases key with
    | none => exact .done rfl
    | some key =>
      dsimp only
      cases mapGet s.cur key with
      | none => exact .done rfl
      | some e =>
        have hrest : Derives I ok C (fun _ H' => H' = H) (do
            let nbr ← Prog.call (entryAt e)
            Prog.call (sendGoAway env nbr.addr)
            let _ ← Prog.call (mapTransferNeighbour env .cur .pot key)
            iterNbrLoop env n iter' : Code Unit) H :=
          .call_bind (hpass.entryAt e) fun _ _ _ _ _ =>
            .call_bind (hpass.sendGoAway _) fun _ _ _ _ _ =>
              .call_bind (hpass.mapTransferNeighbour key) fun _ _ _ _ _ => ih iter'
        refine .call_bind (hpass.workerIterMsg e) fun _ _ rc _ _ => ?_
        split
        · exact .call_bind (hpass.emptyPending e) fun _ _ _ _ _ => hrest
        · exact hrest

omit hC in
/-- **A pass of the worker** acts with all four mutexes held. -/
theorem derives_workerPass {env : Env}
    (hpass : ∀ H : Finset Mutex, (∀ m, m ∈ H) → PermitsPass env C H) :
    Derives I ok C (fun _ H => H = ∅) (workerPass env) ∅ := by
  refine .take_bind hok.cur fun _ => .take_bind hok.both fun _ => .take_bind hok.third fun _ =>
    .take_bind hok.fourth fun _ => ?_
  have hall := hpass (insert .msgMap (insert .msgList (insert .potNeighbours
    (insert .curNeighbours ∅)))) fun m => by cases m <;> decide
  have hiter : Derives I ok C (fun _ H' => H' = _) (workerIterNbr env) _ :=
    .look (v := State.cur) (q := fun m => iterNbrLoop env (m.keys.length + 1) mapIter)
      hall.lookCur fun _ _ => derives_iterNbrLoop hall _ _
  refine hiter.bind fun _ H hH => ?_
  subst hH
  exact .give_bind (by decide) <| .give_bind (by decide) <| .give_bind (by decide) <|
    .give (by decide) (by decide)

/-! ## Messages -/

omit hok in
/-- **A search of the list** ends with the mutex of the list given up, or, when
the list is empty, held. -/
theorem derives_isInMsgList (hlist : ok ∅ .msgList) (b : DataBody) :
    Derives I ok C (fun found H =>
        (H = ∅ ∧ ∃ s s₁ s', I s ∧ s.msgList.first ≠ none ∧ I s₁
          ∧ searchKey (dataKey b) s₁ = .ok (found, s'))
        ∨ (found = false ∧ H = {.msgList} ∧ ∃ s, I s ∧ s.msgList.first = none))
      (isInMsgList b) ∅ := by
  refine .take_bind hlist fun _ => ?_
  refine .look (v := State.msgList) (q := fun l => if l.first = none then pure false else do
      let found ← Prog.call (searchKey (dataKey b))
      Prog.give .msgList
      return found) (hC.look _ _ fun m hm s s' hrest => ?_) fun s hs => ?_
  · cases m with
    | msgList => exact absurd (by decide) hm
    | curNeighbours => rw [show s' = _ from hrest]
    | potNeighbours => rw [show s' = _ from hrest]
    | msgMap => rw [show s' = _ from hrest]
  · split
    · rename_i hfirst
      exact .done (.inr ⟨rfl, rfl, s, hs, hfirst⟩)
    · rename_i hfirst
      exact .call_bind (hC.searchKey _ _ (by decide)) fun s₁ hs₁ found s' hrun =>
        .give_bind (by decide) <| .done (.inl ⟨by decide, s, s₁, s', hs, hfirst, hs₁, hrun⟩)

omit hok in
/-- **`add_msg`**, where mutexes may be asked for in any order. -/
theorem derives_addMsg (hL : PermitsListing C) (hany : ∀ H m, ok H m) (env : Env)
    (b : DataBody) : Derives I ok C (fun _ H => H = ∅) (addMsg env b) ∅ := by
  refine (derives_isInMsgList hC (hany _ _) b).bind fun found H h => ?_
  cases found with
  | true =>
    obtain ⟨hH, -⟩ | ⟨hfalse, -⟩ := h
    · exact .done hH
    · cases hfalse
  | false =>
    refine .take_bind (hany _ _) fun _ => .call_bind (hC.bindMsg _ _ _ (by simp))
      fun _ _ _ _ _ => .take_bind (hany _ _) fun hnot => ?_
    -- the mutex of the list is not held, so the list was not found empty
    have hH : H = ∅ := by
      obtain ⟨hH, -⟩ | ⟨-, hH, -⟩ := h
      · exact hH
      · exact absurd (by simp [hH]) hnot
    subst hH
    exact .call_bind (hL.listMsg _ _ (by decide)) fun _ _ _ _ _ =>
      .take_bind (hany _ _) fun _ => .call_bind (hL.enqueue _ _ _ _ (by decide))
        fun _ _ _ _ _ => .call_bind (hL.printMessage ..) fun _ _ _ _ _ =>
          .give_bind (by decide) <| .give_bind (by decide) <| .give_bind (by decide) <|
            .done (by decide)

omit hok in
/-- **Where the list is empty, `add_msg` does not return.** -/
theorem derives_addMsg_empty (hempty : ∀ s, I s → s.msgList.first = none)
    (hany : ∀ H m, ok H m) (env : Env) (b : DataBody) :
    Derives I ok C (fun _ _ => False) (addMsg env b) ∅ := by
  refine (derives_isInMsgList hC (hany _ _) b).bind fun found H h => ?_
  obtain ⟨-, s, -, -, hs, hfirst, -⟩ | ⟨hfound, hH, -⟩ := h
  · exact absurd (hempty s hs) hfirst
  · subst hfound hH
    exact .take_bind (hany _ _) fun _ => .call_bind (hC.bindMsg _ _ _ (by decide))
      fun _ _ _ _ _ => .take_held (hany _ _) (by decide)

/-- **Where the message is in the list, `add_msg` takes the mutex of the list
only.** -/
theorem derives_addMsg_known {b : DataBody} (hlisted : ∀ s, I s → s.msgList.first ≠ none)
    (hfound : ∀ s, I s → ∀ found s', searchKey (dataKey b) s = .ok (found, s') → found = true)
    (env : Env) : Derives I ok C (fun _ H => H = ∅) (addMsg env b) ∅ := by
  refine (derives_isInMsgList hC hok.list b).bind fun found H h => ?_
  obtain ⟨hH, -, s, s', -, -, hs, hrun⟩ | ⟨-, -, s, hs, hfirst⟩ := h
  · rw [hfound s hs found s' hrun]
    exact .done hH
  · exact absurd hfirst (hlisted s hs)

omit hok in
/-- The Ack is sent before the message is added. -/
theorem derives_processData {Q : Unit → Finset Mutex → Prop} {env : Env} {b : DataBody}
    (hack : W (.ack b.senderId b.nonce))
    (hadd : Derives I ok C (fun _ H => Q () H) (addMsg env b) ∅) (client : SockaddrIn6) :
    Derives I ok C Q (processData env b client) ∅ :=
  .call_bind (hC.sendMsg _ _ _ (.ack b.senderId b.nonce) hack) fun _ _ _ _ _ =>
    hadd.bind fun _ _ h => .done h

/-! ## Datagrams -/

/-- **A handler** holds nothing at the end. -/
theorem derives_handler {env : Env} {client : SockaddrIn6} {body : TlvBody} {call : Code Unit}
    (hnew : ∀ b, body = .hello b → HelloTaken ok env client)
    (hdata : ∀ b, body = .data b →
      Derives I ok C (fun _ H => H = ∅) (processData env b client) ∅)
    (hcall : handler env client body = some call) :
    Derives I ok C (fun _ H => H = ∅) call ∅ := by
  unfold handler at hcall
  split at hcall <;> cases hcall
  · exact derives_processHello hC hok (hnew _ rfl) _
  · exact derives_processNeighbour hC hok ..
  · exact hdata _ rfl
  · exact derives_processAck hC hok ..
  · exact derives_processGoAway hC hok ..

omit hC hok

variable {env : ℕ → Env} {client : SockaddrIn6}

/-- **The loop over the TLVs** holds nothing at the end, where each handler
does. -/
theorem derives_processTlvs {ts : List Tlv}
    (h : ∀ k, ∀ t ∈ ts, ∀ call, handler (env k) client t.body = some call →
      Derives I ok C (fun _ H => H = ∅) call ∅) (k : ℕ) :
    Derives I ok C (fun _ H => H = ∅) (processTlvs env client k ts) ∅ := by
  induction ts generalizing k with
  | nil => exact .done rfl
  | cons t ts ih =>
    have hrest := ih fun k u hu => h k u (List.mem_cons_of_mem _ hu)
    by_cases ht : t.type = TlvType.padn.code
    · rw [processTlvs_padn ht]
      exact .done rfl
    · cases hcall : handler (env k) client t.body with
      | none =>
        rw [processTlvs_skip ht hcall]
        exact hrest k
      | some call =>
        rw [processTlvs_call ht hcall]
        exact (h k t List.mem_cons_self call hcall).bind fun _ _ hH => hH ▸ hrest (k + 1)

/-- **The loop comes to a Data**: there is one before the first PadN. -/
def ComesToData (ts : List Tlv) : Prop :=
  ∃ t ∈ ts.takeWhile (·.type ≠ TlvType.padn.code), ∃ b, t.body = .data b

/-- A loop that comes to a Data does not return, where `process_data` does not. -/
theorem derives_processTlvs_data {ts : List Tlv} (hts : ComesToData ts)
    (h : ∀ k, ∀ t ∈ ts, ∀ call, handler (env k) client t.body = some call →
      Derives I ok C (fun _ H => H = ∅) call ∅)
    (hdata : ∀ k b, Derives I ok C (fun _ _ => False) (processData (env k) b client) ∅)
    (k : ℕ) : Derives I ok C (fun _ _ => False) (processTlvs env client k ts) ∅ := by
  induction ts generalizing k with
  | nil =>
    obtain ⟨t, ht, -⟩ := hts
    cases ht
  | cons t ts ih =>
    obtain ⟨u, hu, b, hb⟩ := hts
    by_cases ht : t.type = TlvType.padn.code
    · rw [List.takeWhile_cons_of_neg (by simpa using ht)] at hu
      cases hu
    · rw [List.takeWhile_cons_of_pos (by simpa using ht)] at hu
      rcases List.mem_cons.mp hu with rfl | hu
      · have hcall : handler (env k) client u.body = some (processData (env k) b client) := by
          rw [hb]
          rfl
        rw [processTlvs_call ht hcall]
        exact (hdata k b).bind fun _ _ h => h.elim
      · have hrest := ih ⟨u, hu, b, hb⟩ fun k v hv => h k v (List.mem_cons_of_mem _ hv)
        cases hcall : handler (env k) client t.body with
        | none =>
          rw [processTlvs_skip ht hcall]
          exact hrest k
        | some call =>
          rw [processTlvs_call ht hcall]
          exact (h k t List.mem_cons_self call hcall).bind fun _ _ hH => hH ▸ hrest (k + 1)

theorem derives_processMsg {m : Msg}
    (h : ∀ k, ∀ t ∈ m.body, ∀ call, handler (env k) client t.body = some call →
      Derives I ok C (fun _ H => H = ∅) call ∅) :
    Derives I ok C (fun _ H => H = ∅) (processMsg env m client) ∅ := by
  unfold processMsg
  split
  · exact .done rfl
  · exact derives_processTlvs h 0

include hC

/-- **`process_datagram`**, by the message that is decoded. -/
theorem derives_processDatagram {Q : Unit → Finset Mutex → Prop} {input : List UInt8}
    (h : ∀ m, received (env 0).mc input = .ok m →
      Derives I ok C Q (processMsg env m client) ∅) :
    Derives I ok C Q (processDatagram env input client) ∅ :=
  .call_bind (hC.lift _ _) fun _ _ m _ hrun => h m (lift_eq_ok hrun).1

end Derivations

end Miaouchat
