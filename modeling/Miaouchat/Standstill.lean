import Miaouchat.Client

/-!
# Clients on default mutexes

The mutexes of `shared_resources.c` are default ones: a thread that locks one it
holds waits for ever, and unlocking one that is not held is not defined. This is
about the states that the threads of a client reach on such mutexes, in any
number and any order of their steps.

No thread unlocks a mutex that it does not hold (`holder_of_unlock`). But
`is_in_msg_list` returns from the empty list with the mutex of the list held,
and `add_msg` then asks for it once more. So no message is ever listed or shown
(`nothing_shown`), and a thread that has begun to handle a datagram with a Data
never comes to its end (`never_idle`). Once the server waits for itself so, the
worker cannot act either, and nothing changes any more (`shared_frozen`).

Where no new message and no new peer turns up there is always a thread that can
go on (`progress_of_settled`).
-/

namespace Miaouchat

open Prog

/-- The states that the threads of a client reach on default mutexes. -/
abbrev ClientReach {ι : Type} [DecidableEq ι] (S S' : Threads ι State Mutex Fault) : Prop :=
  Threads.DefaultReach (fun _ _ p => ClientJob p) S S'

/-- What a thread alone reaches by the steps of a schedule. -/
theorem clientReach_of_goAlong {ι : Type} [DecidableEq ι] {s : State} {t : ι} {p : Code Unit}
    (hp : ClientJob p) {ts : List ι} {S : Threads ι State Mutex Fault}
    (h : ((Threads.idle s).begin t p).goAlong ts = some S) : ClientReach (Threads.idle s) S :=
  .head (.start rfl hp) (Threads.defaultReach_of_goAlong h)

/-- The actions keep an invariant. -/
abbrev Keeping (I : State → Prop) (_H : Finset Mutex) {γ : Type} (x : M γ) : Prop := Keeps I x

/-- Code made of actions that keep an invariant obeys. -/
theorem obeys_of_derives {I : State → Prop} {ok : Finset Mutex → Mutex → Prop} {α : Type}
    {Q : α → Finset Mutex → Prop} {p : Code α} {H : Finset Mutex}
    (h : Derives I ok (Keeping I) Q p H) : p.Obeys I ok Q H :=
  h.obeys fun _ _ _ hx => hx

/-- **An invariant kept by the code that deals with neighbours** asks nothing of
what is sent. -/
theorem permits_of_neighbourly {I : State → Prop} (h : Neighbourly (Keep I))
    (hbind : ∀ key b, Keeps I (bindMsg key b)) : Permits (fun _ => True) (Keeping I) where
  shortHello := fun _ => trivial
  longHello := fun _ _ => trivial
  look := fun _ _ _ => Moves.get.bind fun _ => Moves.pure _
  lift := fun _ x => Moves.lift x
  udpSend := fun _ _ _ _ _ => h.udpSend ..
  sendMsg := fun _ _ _ _ _ => h.sendMsg ..
  newNeighbourEntry := fun _ => h.newNeighbourEntry
  mapAddNeighbourEntry := fun _ _ _ _ _ => h.mapAddNeighbourEntry ..
  mapTransferNeighbour := fun _ _ _ _ _ _ _ => h.mapTransferNeighbour ..
  rmNbrMsg := fun _ _ _ _ _ => h.rmNbrMsg ..
  emptyPending := fun _ _ _ => h.emptyPending _
  entryAt := fun _ e => moves_entryAt e
  workerIterMsg := fun env e _ _ => h.workerIterMsg env e
  goAway := trivial
  searchKey := fun _ _ _ => Moves.get.bind fun _ => (Moves.lift _).bind fun _ => Moves.pure _
  bindMsg := fun _ key b _ => hbind key b

/-! ## Unlocking -/

section Any

/-- No invariant at all. -/
theorem neighbourly_any : Neighbourly (Keep fun _ : State => True) :=
  AllowsNeighbours.neighbourly
    ⟨fun _ _ _ => id, fun _ _ _ => id, fun _ _ _ => id⟩

theorem permits_any : Permits (fun _ => True) (Keeping fun _ => True) :=
  permits_of_neighbourly neighbourly_any fun _ _ => ⟨fun _ _ _ _ _ => trivial⟩

/-- **Every job keeps to the mutexes it holds**, and holds none at the end. -/
theorem obeys_clientJob {p : Code Unit} (h : ClientJob p) :
    p.Obeys (fun _ => True) (fun _ _ => True) (fun _ H => H = ∅) ∅ := by
  have hlisting : PermitsListing (Keeping fun _ => True) :=
    ⟨fun _ _ _ => ⟨fun _ _ _ _ => id⟩, fun _ _ _ _ _ => ⟨fun _ _ _ _ => id⟩,
      fun _ _ => ⟨fun _ _ _ _ => id⟩⟩
  refine obeys_of_derives ?_
  cases h with
  | pass env => exact derives_workerPass takes_any fun _ => permitsPass permits_any env
  | host env host port => exact derives_addNewNeighbour permits_any takes_any env host port
  | datagram env input client =>
    refine derives_processDatagram permits_any fun m _ => derives_processMsg ?_
    intro k t _ call hcall
    refine derives_handler permits_any takes_any (fun _ _ => .inl fun _ _ => trivial)
      (fun b _ => ?_) hcall
    exact derives_processData permits_any trivial
      (derives_addMsg permits_any hlisting (fun _ _ => trivial) _ b) client

variable {ι : Type} [DecidableEq ι] {S : Threads ι State Mutex Fault}

theorem disciplined_clientReach {s : State} (h : ClientReach (Threads.idle s) S) :
    Threads.Disciplined (fun _ => True)
      (fun _ p H => p.Obeys (fun _ => True) (fun _ _ => True) (fun _ H => H = ∅) H) S :=
  (Threads.disciplined_idle trivial).reach
    (fun _ => Threads.discipline_obeys _ _ fun _ => id) (fun _ _ _ _ => obeys_clientJob) h

/-- **No thread unlocks a mutex that it does not hold**, from any state. -/
theorem holder_of_unlock {s : State} (h : ClientReach (Threads.idle s) S) {t : ι} {m : Mutex}
    {k : Code Unit} (hcode : S.code t = some (.unlock m k)) : S.holder m = some t :=
  (disciplined_clientReach h).gives hcode

/-- The worker has passed over no neighbours, and is about to give up the first
mutex. -/
theorem holder_of_unlock_pass : ∃ (S : Threads Unit State Mutex Fault) (k : Code Unit),
    S.code () = some (.unlock .curNeighbours k) ∧ S.holder .curNeighbours = some () := by
  let s : State := State.init fun _ => (none, none)
  obtain ⟨S, k, hrun, hcode⟩ : ∃ (S : Threads Unit State Mutex Fault) (k : Code Unit),
      ((Threads.idle s).begin () (workerPass quietEnv)).goAlong (List.replicate 7 ()) = some S
        ∧ S.code () = some (.unlock .curNeighbours k) := ⟨_, _, rfl, rfl⟩
  exact ⟨S, k, hcode, holder_of_unlock (clientReach_of_goAlong (.pass quietEnv) hrun) hcode⟩

end Any

/-! ## The empty list -/

section Empty

/-- The list of messages and what was shown are those given. -/
def StoreIs (L : Dllist (List Char)) (shown : List DataBody) (s : State) : Prop :=
  s.msgList = L ∧ s.shown = shown

variable {L : Dllist (List Char)} {shown : List DataBody}

theorem permits_storeIs : Permits (fun _ => True) (Keeping (StoreIs L shown)) := by
  refine permits_of_neighbourly (AllowsNeighbours.neighbourly
    ⟨fun _ _ _ => id, fun _ _ _ => id, fun s w m hs => ?_⟩) fun _ _ => ⟨?_⟩
  · exact ⟨(s.msgList_setNbrs w m).trans hs.1, (s.shown_setNbrs w m).trans hs.2⟩
  · intro s a s' hrun hs
    cases hrun
    exact hs

/-- **While the list is empty, `process_data` does not return.** -/
theorem derives_processData_empty (hempty : L.first = none) (env : Env) (b : DataBody)
    (client : SockaddrIn6) :
    Derives (StoreIs L shown) (fun _ _ => True) (Keeping (StoreIs L shown))
      (fun _ _ => False) (processData env b client) ∅ :=
  derives_processData permits_storeIs trivial
    (derives_addMsg_empty permits_storeIs 
      (fun _ (hs : StoreIs L shown _) => hs.1.symm ▸ hempty) (fun _ _ => trivial) env b) client

/-- So every other handler keeps it empty, and holds nothing at the end. -/
theorem derives_handler_empty (hempty : L.first = none) {env : Env} {client : SockaddrIn6}
    {body : TlvBody} {call : Code Unit} (hcall : handler env client body = some call) :
    Derives (StoreIs L shown) (fun _ _ => True) (Keeping (StoreIs L shown))
      (fun _ H => H = ∅) call ∅ :=
  derives_handler permits_storeIs takes_any (fun _ _ => .inl fun _ _ => trivial)
    (fun b _ => (derives_processData_empty hempty env b client).mono fun _ _ h => h.elim) hcall

theorem obeys_clientJob_empty (hempty : L.first = none) {p : Code Unit} (h : ClientJob p) :
    p.Obeys (StoreIs L shown) (fun _ _ => True) (fun _ H => H = ∅) ∅ := by
  refine obeys_of_derives ?_
  cases h with
  | pass env => exact derives_workerPass takes_any fun _ => permitsPass permits_storeIs env
  | host env host port => exact derives_addNewNeighbour permits_storeIs takes_any env host port
  | datagram env input client =>
    exact derives_processDatagram permits_storeIs fun m _ =>
      derives_processMsg fun _ _ _ _ => derives_handler_empty hempty

variable {ι : Type} [DecidableEq ι] {S S' : Threads ι State Mutex Fault} {s : State}

theorem disciplined_empty (hempty : s.msgList.first = none)
    (h : ClientReach (Threads.idle s) S) :
    Threads.Disciplined (StoreIs s.msgList s.shown)
      (fun _ p H => p.Obeys (StoreIs s.msgList s.shown) (fun _ _ => True) (fun _ H => H = ∅) H)
      S :=
  (Threads.disciplined_idle ⟨rfl, rfl⟩).reach (fun _ => Threads.discipline_obeys _ _ fun _ => id)
    (fun _ _ _ _ => obeys_clientJob_empty hempty) h

/-- **No message is ever listed or shown** by threads that start with the empty
list. -/
theorem nothing_shown (hempty : s.msgList.first = none) (h : ClientReach (Threads.idle s) S) :
    S.shared.msgList = s.msgList ∧ S.shared.shown = s.shown :=
  (disciplined_empty hempty h).1

/-- The server, alone, has begun to handle it, and has made `n` steps more. -/
def dataSteps (n : ℕ) : Option (Threads Party State Mutex Fault) :=
  ((Threads.idle (State.init fun _ => (none, none))).begin .server
    (processDatagram (fun _ => quietEnv) oneData ⟨shortIp 1, 1212⟩)).goAlong
      (List.replicate n .server)

/-- The Data has been acknowledged, and its body is in the map of messages. -/
theorem nothing_shown_data : ∃ S : Threads Party State Mutex Fault, S.shared.sent.length = 1
    ∧ S.shared.shown = [] := by
  obtain ⟨S, hrun, hsent⟩ : ∃ S, dataSteps 6 = some S ∧ S.shared.sent.length = 1 :=
    ⟨_, rfl, rfl⟩
  exact ⟨S, hsent, (nothing_shown rfl (clientReach_of_goAlong (.datagram ..) hrun)).2⟩

/-- **A thread that begins to handle a datagram with a Data is never idle
again**, if the list was empty at the start. -/
theorem never_idle (hempty : s.msgList.first = none) (h : ClientReach (Threads.idle s) S)
    {t : ι} (hidle : S.code t = none) {env : ℕ → Env} {input : List UInt8}
    {client : SockaddrIn6} {m : Msg} (hm : received (env 0).mc input = .ok m)
    (hmagic : m.magic = 93) (hversion : m.version = 2) (hdata : ComesToData m.body)
    (h' : ClientReach (S.begin t (processDatagram env input client)) S') :
    S'.code t ≠ none := by
  have hdatagram : (processDatagram env input client).Obeys (StoreIs s.msgList s.shown)
      (fun _ _ => True) (fun _ _ => False) ∅ := by
    refine obeys_of_derives (derives_processDatagram permits_storeIs fun m' hm' => ?_)
    obtain rfl : m = m' := Except.ok.inj (hm.symm.trans hm')
    rw [processMsg_of_header hmagic hversion]
    exact derives_processTlvs_data hdata (fun _ _ _ _ => derives_handler_empty hempty)
      (fun _ b => derives_processData_empty hempty _ b client) 0
  -- threads other than `t` may come to the end of their code
  have hS : Threads.Disciplined (StoreIs s.msgList s.shown) (fun u p H =>
      p.Obeys (StoreIs s.msgList s.shown) (fun _ _ => True) (fun _ H => H = ∅ ∧ u ≠ t) H) S :=
    (disciplined_empty hempty h).imp fun u p H hcode hp => hp.mono fun _ _ hH =>
      ⟨hH, fun hu => by rw [hu, hidle] at hcode; cases hcode⟩
  refine (Threads.Disciplined.busy (t := t)
    (fun _ => Threads.discipline_obeys _ _ fun _ hH => hH.1) (fun _ hH => hH.2 rfl)
    (fun u _ p hu _ hp => (obeys_clientJob_empty hempty hp).mono fun _ _ hH => ⟨hH, hu⟩)
    (hS.start hidle (hdatagram.mono fun _ _ hfalse => hfalse.elim)) ?_ h').2
  show Function.update S.code t _ t ≠ none
  rw [Function.update_self]
  exact Option.some_ne_none _

/-- A server that begins to handle one Data. -/
theorem never_idle_data : ∃ S : Threads Party State Mutex Fault,
    dataSteps 6 = some S ∧ S.code .server ≠ none := by
  obtain ⟨S, hrun⟩ : ∃ S, dataSteps 6 = some S := ⟨_, rfl⟩
  obtain ⟨m, t, b, hm, hmagic, hversion, hbody, htype, hdata⟩ : ∃ m t b,
      received quietEnv.mc oneData = .ok m ∧ m.magic = 93 ∧ m.version = 2 ∧ m.body = [t]
        ∧ t.type = TlvType.data.code ∧ t.body = .data b := ⟨_, _, _, rfl, rfl, rfl, rfl, rfl, rfl⟩
  have hcomes : ComesToData m.body := by
    refine ⟨t, ?_, b, hdata⟩
    rw [hbody, List.takeWhile_cons_of_pos (by rw [htype]; decide)]
    exact List.mem_cons_self
  exact ⟨S, hrun, never_idle rfl .refl rfl hm hmagic hversion hcomes
    (Threads.defaultReach_of_goAlong hrun)⟩

end Empty

/-! ## A server that waits for itself -/

section Frozen

/-- **What the server and the worker do** while the window is open. -/
inductive PartyJob : Party → Code Unit → Prop
  | datagram (env : ℕ → Env) (input : List UInt8) (client : SockaddrIn6) :
      PartyJob .server (processDatagram env input client)
  | pass (env : Env) : PartyJob .worker (workerPass env)

theorem PartyJob.clientJob {t : Party} {p : Code Unit} (h : PartyJob t p) : ClientJob p := by
  cases h with
  | datagram env input client => exact .datagram env input client
  | pass env => exact .pass env

/-- The states that the two threads reach on default mutexes. -/
abbrev PartyReach (S S' : Threads Party State Mutex Fault) : Prop :=
  Threads.DefaultReach (fun t _ p => PartyJob t p) S S'

/-- Both threads keep to the mutexes they hold, and the worker acts only while it
holds all of them. -/
def PartyKeeps (t : Party) (p : Code Unit) (H : Finset Mutex) : Prop :=
  p.Obeys (fun _ => True) (fun _ _ => True) (fun _ H => H = ∅) H
    ∧ (t = .worker → ∀ m, p.Within (fun _ => True) m (fun _ _ => True) H)

theorem discipline_partyKeeps (t : Party) :
    Threads.Discipline (fun _ : State => True) (PartyKeeps t) where
  ret _ h := h.1
  act _ _ _ s h _ := ⟨trivial, (h.1 s trivial).2, fun ht m => (h.2 ht m).2 s trivial⟩
  lock _ _ _ h hm := ⟨h.1.2 hm, fun ht m => h.2 ht m hm⟩
  unlock _ _ _ h := ⟨h.1.2, h.2⟩

theorem partyKeeps_job {t : Party} {p : Code Unit} (h : PartyJob t p) : PartyKeeps t p ∅ := by
  refine ⟨obeys_clientJob h.clientJob, fun ht m => ?_⟩
  cases h with
  | datagram => cases ht
  | pass env =>
    have hpass : ∀ H : Finset Mutex, (∀ m, m ∈ H) →
        PermitsPass env (fun H _ _ => m ∈ H) H := fun _ h =>
      ⟨h m, fun _ => h m, fun _ => h m, fun _ => h m, fun _ => h m, fun _ => h m, fun _ => h m⟩
    exact Derives.within (C := fun H _ _ => m ∈ H) (fun _ _ _ h => h)
      ((derives_workerPass takes_any hpass).mono fun _ _ _ => trivial)

/-- **Once the server waits for a mutex that it holds, nothing changes any
more**: it goes on waiting, and the worker acts no more. -/
theorem shared_frozen {s : State} {S S' : Threads Party State Mutex Fault} {m : Mutex}
    (h : PartyReach (Threads.idle s) S) (hself : S.SelfLocked .server m)
    (h' : PartyReach S S') : S'.SelfLocked .server m ∧ S'.shared = S.shared := by
  have hjobs : ∀ t (_ : State) p, True → PartyJob t p → PartyKeeps t p ∅ :=
    fun _ _ _ _ => partyKeeps_job
  refine Threads.Disciplined.frozen discipline_partyKeeps hjobs
    ((Threads.disciplined_idle trivial).reach discipline_partyKeeps hjobs h)
    (fun u hu p H hp => ?_) hself h'
  cases u with
  | server => exact absurd rfl hu
  | worker => exact hp.2 rfl m

/-- The server has taken the first Data of all, and the worker begins a pass. -/
theorem shared_frozen_data : ∃ S S' : Threads Party State Mutex Fault,
    dataSteps 6 = some S ∧ S'.holder .curNeighbours = some .worker
      ∧ S'.shared = S.shared := by
  obtain ⟨S, hrun, hlock, hheld⟩ : ∃ S, dataSteps 6 = some S
      ∧ (∃ k, S.code .server = some (.lock .msgList k))
      ∧ S.holder .msgList = some .server := ⟨_, rfl, ⟨_, rfl⟩, rfl⟩
  obtain ⟨S', hrun', hcur⟩ : ∃ S', (S.begin .worker (workerPass quietEnv)).goAlong [.worker]
      = some S' ∧ S'.holder .curNeighbours = some .worker := by
    cases hrun
    exact ⟨_, rfl, rfl⟩
  have h : PartyReach (Threads.idle (State.init fun _ => (none, none))) S :=
    .head (.start rfl (.datagram ..)) (Threads.defaultReach_of_goAlong hrun)
  have hidle : S.code .worker = none := by
    cases hrun
    rfl
  exact ⟨S, S', hrun, hcur, (shared_frozen h ⟨hlock, hheld⟩
    (.head (.start hidle (.pass quietEnv)) (Threads.defaultReach_of_goAlong hrun'))).2⟩

end Frozen

/-! ## Progress -/

section Progress

/-- **A datagram with nothing new in it**: no Hello has an address found for its
peer, and every Data is of a message that is settled. -/
def NothingNew (L : Dllist (List Char)) (env : ℕ → Env) (client : SockaddrIn6) (m : Msg) :
    Prop :=
  ∀ t ∈ m.body,
    ((∃ b, t.body = .hello b) → ∀ k, (env k).getaddrinfo ((env k).inetNtop (env k).clientSlot)
      (portText client.port) = none)
    ∧ ∀ b, t.body = .data b → Settled b L

/-- The jobs of a client to which nothing new turns up. -/
inductive SettledJob (L : Dllist (List Char)) : Code Unit → Prop
  | datagram (env : ℕ → Env) (input : List UInt8) (client : SockaddrIn6)
      (h : ∀ m, received (env 0).mc input = .ok m → NothingNew L env client m) :
      SettledJob L (processDatagram env input client)
  | pass (env : Env) : SettledJob L (workerPass env)
  | host (env : Env) (host port : List Char) : SettledJob L (addNewNeighbour env host port)

instance : Fintype Mutex :=
  ⟨{.curNeighbours, .potNeighbours, .msgMap, .msgList}, fun m => by cases m <;> decide⟩

/-- The list of messages is the one given. -/
def ListIs (L : Dllist (List Char)) (s : State) : Prop := s.msgList = L

variable {L : Dllist (List Char)}

theorem permits_listIs : Permits (fun _ => True) (Keeping (ListIs L)) := by
  refine permits_of_neighbourly (AllowsNeighbours.neighbourly
    ⟨fun _ _ _ => id, fun _ _ _ => id, fun s w m hs => (s.msgList_setNbrs w m).trans hs⟩)
    fun _ _ => ⟨fun s a s' hrun hs => ?_⟩
  cases hrun
  exact hs

section Shaped

variable {xs : List (ℕ × List Char)} {p q : Option ℕ} {b : DataBody} {s s' : State}

theorem first_ne_none_of_settled (hs : Shape L xs p q) (h : Settled b L) : L.first ≠ none := by
  rw [Settled, hs.contents_eq, hs.nullTerminated_iff, not_or] at h
  refine hs.first_ne_none ?_
  rintro rfl
  exact h.elim (absurd · List.not_mem_nil) (fun h => absurd rfl h.1)

/-- **The search for a settled message** finds it, if it returns. -/
theorem searchKey_settled (hs : Shape L xs p q) (h : Settled b L) (hL : s.msgList = L)
    {found : Bool} (hrun : searchKey (dataKey b) s = .ok (found, s')) : found = true := by
  have hexec : (isInMsgList b).exec s = .ok (found, s') := by
    rw [exec_isInMsgList, if_neg (hL.symm ▸ first_ne_none_of_settled hs h)]
    exact hrun
  by_cases hmem : dataKey b ∈ xs.map Prod.snd
  · rw [isInMsgList_of_mem (hL.symm ▸ hs) hmem] at hexec
    cases hexec
    rfl
  · have hend := h.resolve_left (hs.contents_eq ▸ hmem)
    obtain ⟨e, he⟩ := isInMsgList_runs_off (hL.symm ▸ hs) hmem (hL.symm ▸ hend)
    rw [he] at hexec
    cases hexec

theorem obeys_settledJob (hs : Shape L xs p q) {c : Code Unit} (h : SettledJob L c) :
    c.Obeys (ListIs L) (Above Mutex.rank) (fun _ H => H = ∅) ∅ := by
  refine obeys_of_derives ?_
  cases h with
  | pass env => exact derives_workerPass takes_above fun _ => permitsPass permits_listIs env
  | host env host port => exact derives_addNewNeighbour permits_listIs takes_above env host port
  | datagram env input client hnew =>
    refine derives_processDatagram permits_listIs fun m hm => derives_processMsg ?_
    intro k t ht call hcall
    obtain ⟨hhello, hdata⟩ := hnew m hm t ht
    refine derives_handler permits_listIs takes_above
      (fun b hb => .inr (hhello ⟨b, hb⟩ k)) (fun b hb => ?_) hcall
    exact derives_processData permits_listIs trivial
      (derives_addMsg_known permits_listIs takes_above
        (fun s' (hL : s'.msgList = L) => hL.symm ▸ first_ne_none_of_settled hs (hdata b hb))
        (fun _ hL _ _ => searchKey_settled hs (hdata b hb) hL) _) client

end Shaped

variable {ι : Type} [DecidableEq ι] {S : Threads ι State Mutex Fault} {s : State}

/-- **While nothing new turns up, the threads do not all wait**: where one has
code, one can go on, or has failed. -/
theorem progress_of_settled {xs : List (ℕ × List Char)} {p q : Option ℕ}
    (hs : Shape s.msgList xs p q)
    (h : Threads.DefaultReach (fun _ _ c => SettledJob s.msgList c) (Threads.idle s) S) {t : ι}
    (ht : S.code t ≠ none) : (∃ u, S.Failed u) ∨ ∃ S', S.GoesOn S' := by
  have hS : Threads.Disciplined (ListIs s.msgList) (fun _ c H =>
      c.Obeys (ListIs s.msgList) (Above Mutex.rank) (fun _ H => H = ∅) H) S :=
    (Threads.disciplined_idle (show ListIs s.msgList s from rfl)).reach
      (fun _ => Threads.discipline_obeys _ _ fun _ => id)
      (fun _ _ _ _ => obeys_settledJob hs) h
  exact hS.progress ht

/-- Two passes of the worker are begun, and one of them has made a step. -/
theorem progress_of_settled_passes : ∃ S : Threads Bool State Mutex Fault,
    S.code true ≠ none ∧ S.code false ≠ none
      ∧ ((∃ u, S.Failed u) ∨ ∃ S', S.GoesOn S') := by
  let s : State := State.init fun _ => (none, none)
  let S₀ : Threads Bool State Mutex Fault := (Threads.idle s).begin true (workerPass quietEnv)
  obtain ⟨S, hrun, htrue, hfalse⟩ : ∃ S, (S₀.begin false (workerPass quietEnv)).goAlong [true]
      = some S ∧ (∃ p, S.code true = some p) ∧ ∃ p, S.code false = some p :=
    ⟨_, rfl, ⟨_, rfl⟩, ⟨_, rfl⟩⟩
  have hne := Option.ne_none_iff_exists'.mpr htrue
  have hs : Shape s.msgList [] none none := shape_newDllist ..
  exact ⟨S, hne, Option.ne_none_iff_exists'.mpr hfalse,
    progress_of_settled hs (.head (.start rfl (.pass quietEnv))
      (.head (.start rfl (.pass quietEnv)) (Threads.defaultReach_of_goAlong hrun))) hne⟩

end Progress

end Miaouchat
