import Miaouchat.Standstill

/-!
# What clients send each other

Whatever a client is sent, all it ever sends are control TLVs, one in a datagram
(`sent_control`): Hellos, Acks and GoAways. The messages of `worker_iter_msg` would
have other TLVs, but no message is ever pending, and it returns at once.

So it is with clients that only have each other to talk to. A `Network` has any
number of clients, each with any number of threads; a datagram that one of them
has sent may arrive at any other, from any address, late, in any order, any
number of times, or not at all. Then not even an Ack is ever sent, since no
client sends a Data, and nothing is ever shown (`network_greets`).
-/

namespace Miaouchat

open Prog

/-! ## Good neighbours -/

/-- **The neighbours are good**, and since `before` only control TLVs that `W`
allows have been sent, one in a datagram. -/
structure Wired (W : Control → Prop) (before : List (SockaddrIn6 × List UInt8))
    (s : State) : Prop where
  nbrs : NbrsGood s
  sent : ∃ ds, s.sent = before ++ ds ∧ ∀ d ∈ ds, ∃ c, W c ∧ d.2 = c.datagram

section Keeping

variable {W : Control → Prop} {before : List (SockaddrIn6 × List UInt8)} {α : Type}

theorem Wired.of_sent {s s' : State} (h : Wired W before s) (hnbrs : NbrsGood s')
    (hsent : s'.sent = s.sent) : Wired W before s' :=
  ⟨hnbrs, hsent ▸ h.sent⟩

/-- An action that keeps the neighbours good, and sends nothing. -/
theorem keeps_wired {x : M α} (h : Keeps NbrsGood x)
    (hsent : ∀ s, NbrsGood s → ∀ a s', x s = .ok (a, s') → s'.sent = s.sent) :
    Keeps (Wired W before) x :=
  ⟨fun s a s' hrun hs => hs.of_sent (h.rel s a s' hrun hs.nbrs) (hsent s hs.nbrs a s' hrun)⟩

/-- **A datagram of an allowed control TLV.** -/
theorem keeps_wired_udpSend {c : Control} (hc : W c) (pair : SockaddrIn6) (ok : Bool) :
    Keeps (Wired W before) (udpSend pair c.datagram ok) := by
  refine ⟨fun s a s' hrun hs => ?_⟩
  refine ⟨(neighbourly_nbrsGood.udpSend ..).rel s a s' hrun hs.nbrs, ?_⟩
  obtain ⟨ds, hsent, hds⟩ := hs.sent
  cases hrun
  refine ⟨ds ++ [(pair, c.datagram)], ?_, fun d hd => ?_⟩
  · show s.sent ++ _ = _
    rw [hsent, List.append_assoc]
  · rcases List.mem_append.mp hd with hd | hd
    · exact hds d hd
    · exact ⟨c, hc, by rw [List.mem_singleton.mp hd]⟩

theorem keeps_wired_sendMsg {c : Control} (hc : W c) (env : Env) (pair : SockaddrIn6) :
    Keeps (Wired W before) (sendMsg env pair [c.tlv]) := by
  refine ⟨fun s a s' hrun hs => ?_⟩
  rw [sendMsg_run, written_control] at hrun
  cases hrun
  exact (keeps_wired_udpSend hc pair true).rel s true _ rfl hs

/-- An action on an entry does nothing, where that is what it does when no
message is pending. -/
theorem unmoved_of_entryAt {e : ℕ} {f : NeighbourEntry → M α} {s s' : State} {a : α}
    (h : ∀ ent, s.entries e = some ent → f ent s = .ok (a, s') → s' = s)
    (hrun : (entryAt e >>= f) s = .ok (a, s')) : s' = s := by
  obtain ⟨ent, s₁, hent, hrest⟩ := bind_eq_ok hrun
  obtain ⟨he, rfl⟩ := entryAt_eq_ok hent
  exact h ent he hrest

theorem keeps_wired_mapAddNeighbourEntry (env : Env) (w : Nbrs) (e : ℕ) :
    Keeps (Wired W before) (mapAddNeighbourEntry env w e) :=
  keeps_wired (neighbourly_nbrsGood.mapAddNeighbourEntry env w e) fun s _ _ s' hrun => by
    obtain ⟨_, -, ⟨-, rfl⟩ | ⟨-, rfl⟩⟩ := mapAddNeighbourEntry_eq_ok hrun
    · exact s.sent_setNbrs ..
    · rfl

theorem keeps_wired_mapTransferNeighbour (env : Env) (w w' : Nbrs) (key : List Char) :
    Keeps (Wired W before) (mapTransferNeighbour env w w' key) := by
  have hpop : Keeps (Wired W before) (mapPopNeighbour w key) :=
    keeps_wired (neighbourly_nbrsGood.mapPopNeighbour w key) fun s _ _ s' hrun => by
      obtain ⟨-, rfl⟩ := mapPopNeighbour_eq_ok hrun
      exact s.sent_setNbrs ..
  exact hpop.bind fun e => keeps_wired_mapAddNeighbourEntry env w' e

theorem keeps_wired_rmNbrMsg (id : UInt64) (nonce : UInt32) (e : ℕ) :
    Keeps (Wired W before) (rmNbrMsg id nonce e) :=
  keeps_wired (neighbourly_nbrsGood.rmNbrMsg id nonce e) fun s hs _ s' hrun => by
    refine congrArg State.sent (unmoved_of_entryAt (fun ent he hrest => ?_) hrun)
    rw [if_pos (hs.first_eq he)] at hrest
    cases hrest
    rfl

theorem keeps_wired_emptyPending (e : ℕ) : Keeps (Wired W before) (emptyPending e) :=
  keeps_wired (neighbourly_nbrsGood.emptyPending e) fun s hs _ s' hrun => by
    refine congrArg State.sent (unmoved_of_entryAt (fun ent he hrest => ?_) hrun)
    have hempty := dllistEmpty_of_isEmpty ((hs.empty e ent he).2.isEmpty_iff.mpr rfl)
    rw [bind_ok (lift_ok hempty s)] at hrest
    cases hrest
    show { s with entries := Function.update s.entries e (some ent) } = s
    rw [Function.update_eq_self_iff.mpr he.symm]

theorem keeps_wired_workerIterMsg (env : Env) (e : ℕ) :
    Keeps (Wired W before) (workerIterMsg env e) :=
  keeps_wired (neighbourly_nbrsGood.workerIterMsg env e) fun s hs _ s' hrun => by
    refine congrArg State.sent (unmoved_of_entryAt (fun ent he hrest => ?_) hrun)
    rw [if_pos (hs.first_eq he)] at hrest
    cases hrest
    rfl

/-- **What a client does keeps its neighbours good**, and sends only control
TLVs. -/
theorem permits_wired (hshort : ∀ id, W (.shortHello id))
    (hlong : ∀ srcId dstId, W (.longHello srcId dstId)) (hgoAway : W .goAway) :
    Permits W (Keeping (Wired W before)) where
  shortHello := hshort
  longHello := hlong
  look := fun _ _ _ => Moves.get.bind fun _ => Moves.pure _
  lift := fun _ x => Moves.lift x
  udpSend := fun _ pair _ ok hc => keeps_wired_udpSend hc pair ok
  sendMsg := fun _ env pair _ hc => keeps_wired_sendMsg hc env pair
  newNeighbourEntry := fun _ env addr =>
    keeps_wired (neighbourly_nbrsGood.newNeighbourEntry env addr) fun s _ _ s' hrun => by
      rw [newNeighbourEntry_run] at hrun
      cases hrun
      rfl
  mapAddNeighbourEntry := fun _ env w e _ => keeps_wired_mapAddNeighbourEntry env w e
  mapTransferNeighbour := fun _ env w w' key _ _ => keeps_wired_mapTransferNeighbour env w w' key
  rmNbrMsg := fun _ id nonce e _ => keeps_wired_rmNbrMsg id nonce e
  emptyPending := fun _ e _ => keeps_wired_emptyPending e
  entryAt := fun _ e => moves_entryAt e
  workerIterMsg := fun env e _ _ => keeps_wired_workerIterMsg env e
  goAway := hgoAway
  searchKey := fun _ _ _ => Moves.get.bind fun _ => (Moves.lift _).bind fun _ => Moves.pure _
  bindMsg := fun _ key b _ => ⟨fun s a s' hrun hs => by
    cases hrun
    exact ⟨hs.nbrs.congr rfl rfl rfl, hs.sent⟩⟩

/-- A message that is listed is put on no list of pending messages. -/
theorem permitsListing_wired : PermitsListing (Keeping (Wired W before)) where
  listMsg := fun _ key _ => Moves.get.bind fun _ => (Moves.lift _).bind fun _ =>
    Moves.modify fun _ hs => ⟨hs.nbrs.congr rfl rfl rfl, hs.sent⟩
  enqueue := fun _ env key b _ => moves_forCurNeighbours fun e => ⟨fun s _ s' hrun hs => by
    obtain ⟨ent, s₁, hent, -⟩ := bind_eq_ok hrun
    obtain ⟨he, rfl⟩ := entryAt_eq_ok hent
    rw [enqueue_run he fun h => by rw [(hs.nbrs.empty e ent he).1] at h; cases h] at hrun
    cases hrun
    exact hs⟩
  printMessage := fun _ b => Moves.modify fun _ hs => ⟨hs.nbrs.congr rfl rfl rfl, hs.sent⟩

end Keeping

/-! ## One client -/

section Client

variable {before : List (SockaddrIn6 × List UInt8)}

theorem obeys_clientJob_wired {p : Code Unit} (h : ClientJob p) :
    p.Obeys (Wired (fun _ => True) before) (fun _ _ => True) (fun _ H => H = ∅) ∅ := by
  have hpermits : Permits (fun _ => True) (Keeping (Wired (fun _ => True) before)) :=
    permits_wired (fun _ => trivial) (fun _ _ => trivial) trivial
  refine obeys_of_derives ?_
  cases h with
  | pass env => exact derives_workerPass takes_any fun _ => permitsPass hpermits env
  | host env host port => exact derives_addNewNeighbour hpermits takes_any env host port
  | datagram env input client =>
    refine derives_processDatagram hpermits fun m _ => derives_processMsg ?_
    intro k t _ call hcall
    refine derives_handler hpermits takes_any (fun _ _ => .inl fun _ _ => trivial)
      (fun b _ => ?_) hcall
    exact derives_processData hpermits trivial
      (derives_addMsg hpermits permitsListing_wired (fun _ _ => trivial) _ b) client

/-- **Whatever it is sent, a client sends control TLVs only**, one in a
datagram, from any state that it reaches; and `worker_iter_msg` finds nothing to
send to any neighbour, wherever the threads are. -/
theorem sent_control {ι : Type} [DecidableEq ι] {S : Threads ι State Mutex Fault} {s : State}
    (hs : Reachable s) (h : ClientReach (Threads.idle s) S) :
    (∃ ds, S.shared.sent = s.sent ++ ds ∧ ∀ d ∈ ds, ∃ c : Control, d.2 = c.datagram)
      ∧ ∀ env e ent, S.shared.entries e = some ent →
        workerIterMsg env e S.shared = .ok (0, S.shared) := by
  have hwired : Wired (fun _ => True) s.sent s :=
    ⟨hs.good.nbrs, [], (List.append_nil _).symm, fun _ => nofun⟩
  have hS : Threads.Disciplined (Wired (fun _ => True) s.sent) (fun _ p H =>
      p.Obeys (Wired (fun _ => True) s.sent) (fun _ _ => True) (fun _ H => H = ∅) H) S :=
    (Threads.disciplined_idle hwired).reach (fun _ => Threads.discipline_obeys _ _ fun _ => id)
      (fun _ _ _ _ => obeys_clientJob_wired) h
  obtain ⟨ds, hsent, hds⟩ := hS.1.sent
  refine ⟨⟨ds, hsent, fun d hd => (hds d hd).imp fun _ hc => hc.2⟩, fun env e ent he => ?_⟩
  exact workerIterMsg_of_none env he (hS.1.nbrs.first_eq he)

/-- A network where every name is that of one host, `::2`. -/
def hostEnv : Env :=
  { quietEnv with getaddrinfo := fun _ _ => some [⟨shortIp 2, 1212⟩] }

/-- A client adds the host, and the worker is to pass over it. -/
def hostAndPass : Threads Party State Mutex Fault :=
  ((Threads.idle (State.init fun _ => (none, none))).begin .server
    (addNewNeighbour hostEnv [] [])).begin .worker (workerPass hostEnv)

/-- The host is added, and the worker comes as far as its GoAway. -/
def hostAndPassSteps : List Party := List.replicate 6 .server ++ List.replicate 10 .worker

/-- The Hello to the host and the GoAway of the worker. -/
theorem hostAndPass_sent : ∃ S, hostAndPass.goAlong hostAndPassSteps = some S
    ∧ S.shared.sent = [(⟨shortIp 2, 1212⟩, (Control.shortHello 1).datagram),
        (⟨shortIp 2, 1212⟩, Control.goAway.datagram)]
    ∧ (S.shared.entries 0).isSome :=
  ⟨_, rfl, rfl, rfl⟩

/-- A client that has greeted a neighbour and sent it away. -/
theorem sent_control_goAway : ∃ S : Threads Party State Mutex Fault,
    (⟨shortIp 2, 1212⟩, Control.goAway.datagram) ∈ S.shared.sent
      ∧ (∀ d ∈ S.shared.sent, ∃ c : Control, d.2 = c.datagram)
      ∧ workerIterMsg hostEnv 0 S.shared = .ok (0, S.shared) := by
  obtain ⟨S, hrun, hS, hmet⟩ := hostAndPass_sent
  obtain ⟨⟨ds, hsent, hds⟩, hnone⟩ := sent_control (.init fun _ => (none, none))
    (.head (.start rfl (.host ..)) (.head (.start rfl (.pass _))
      (Threads.defaultReach_of_goAlong hrun)))
  obtain ⟨ent, hent⟩ := Option.isSome_iff_exists.mp hmet
  exact ⟨S, hS ▸ .tail _ (.head _), fun d hd => hds d (by rwa [hsent] at hd),
    hnone hostEnv 0 ent hent⟩

end Client

/-! ## Clients among themselves -/

section Network

/-- **Any number of clients**, each with threads of its own. -/
abbrev Network (κ ι : Type) : Type := κ → Threads ι State Mutex Fault

variable {κ ι : Type} [DecidableEq κ] [DecidableEq ι]

/-- What a client of a network does: the datagrams it handles are some that a
client has sent. -/
inductive NetworkJob (N : Network κ ι) : Code Unit → Prop
  | datagram (env : ℕ → Env) (client : SockaddrIn6) {k : κ} {pair : SockaddrIn6}
      {input : List UInt8} (hsent : (pair, input) ∈ (N k).shared.sent) :
      NetworkJob N (processDatagram env input client)
  | pass (env : Env) : NetworkJob N (workerPass env)
  | host (env : Env) (host port : List Char) : NetworkJob N (addNewNeighbour env host port)

/-- A step of a thread of one of the clients. -/
def NetworkStep (N N' : Network κ ι) : Prop :=
  ∃ k S, Threads.DefaultStep (fun _ _ p => NetworkJob N p) (N k) S ∧ N' = Function.update N k S

/-- **What a network reaches.** -/
def NetworkReach (N N' : Network κ ι) : Prop := Relation.ReflTransGen NetworkStep N N'

omit [DecidableEq κ] [DecidableEq ι] in
theorem NetworkJob.clientJob {N : Network κ ι} {p : Code Unit} (h : NetworkJob N p) :
    ClientJob p := by
  cases h with
  | datagram env client hsent => exact .datagram env _ client
  | pass env => exact .pass env
  | host env host port => exact .host env host port

variable {N₀ N : Network κ ι}

/-- **A client among others does what it may do alone.** -/
theorem NetworkReach.client (h : NetworkReach N₀ N) (k : κ) : ClientReach (N₀ k) (N k) := by
  induction h with
  | refl => exact .refl
  | @tail N₁ N₂ _ hstep ih =>
    obtain ⟨k', S, hstep, rfl⟩ := hstep
    by_cases hk : k = k'
    · subst hk
      rw [Function.update_self]
      exact ih.tail (hstep.mono fun _ _ _ => NetworkJob.clientJob)
    · rwa [Function.update_of_ne hk]

/-- A Hello or a GoAway. -/
def Control.isGreeting : Control → Prop
  | .ack .. => False
  | .shortHello _ | .longHello .. | .goAway => True

/-- The code of each client keeps its neighbours good, and sends Hellos and
GoAways only. -/
def Greets (S : Threads ι State Mutex Fault) : Prop :=
  Threads.Disciplined (Wired Control.isGreeting []) (fun _ p H =>
    p.Obeys (Wired Control.isGreeting []) (fun _ _ => True) (fun _ H => H = ∅) H) S

omit [DecidableEq κ] [DecidableEq ι] in
/-- **Hellos and GoAways are answered by Hellos and GoAways.** -/
theorem obeys_networkJob (hN : ∀ k, Greets (N k)) {p : Code Unit} (h : NetworkJob N p) :
    p.Obeys (Wired Control.isGreeting []) (fun _ _ => True) (fun _ H => H = ∅) ∅ := by
  have hpermits : Permits Control.isGreeting (Keeping (Wired Control.isGreeting [])) :=
    permits_wired (fun _ => trivial) (fun _ _ => trivial) trivial
  refine obeys_of_derives ?_
  cases h with
  | pass env => exact derives_workerPass takes_any fun _ => permitsPass hpermits env
  | host env host port => exact derives_addNewNeighbour hpermits takes_any env host port
  | @datagram env client k pair input hsent =>
    obtain ⟨ds, hds, hcontrol⟩ := (hN k).1.sent
    obtain ⟨c, hc, rfl⟩ : ∃ c : Control, c.isGreeting ∧ input = c.datagram :=
      hcontrol _ (by rwa [hds] at hsent)
    refine derives_processDatagram hpermits fun m hm => derives_processMsg ?_
    obtain rfl : newMsg [c.tlv] = m := Except.ok.inj ((received_control _ c).symm.trans hm)
    intro i t ht call hcall
    obtain rfl : t = c.tlv := List.mem_singleton.mp ht
    refine derives_handler hpermits takes_any (fun _ _ => .inl fun _ _ => trivial)
      (fun b hb => ?_) hcall
    cases c <;> cases hb

/-- **Clients that only talk to each other** send Hellos and GoAways, one in a
datagram, and no message is ever listed or shown by any of them. -/
theorem network_greets (hstart : ∀ k, ∃ junk, N₀ k = Threads.idle (State.init junk))
    (h : NetworkReach N₀ N) (k : κ) :
    (∀ d ∈ (N k).shared.sent, ∃ c : Control, c.isGreeting ∧ d.2 = c.datagram)
      ∧ dllistContents (N k).shared.msgList = [] ∧ (N k).shared.shown = [] := by
  have hgreets : ∀ k, Greets (N k) := by
    induction h with
    | refl =>
      intro k
      obtain ⟨junk, hk⟩ := hstart k
      rw [hk]
      exact Threads.disciplined_idle ⟨.init junk, [], rfl, fun _ => nofun⟩
    | @tail N₁ N₂ _ hstep ih =>
      obtain ⟨k', S, hstep, rfl⟩ := hstep
      intro k
      by_cases hk : k = k'
      · subst hk
        rw [Function.update_self]
        exact (ih k).step (fun _ => Threads.discipline_obeys _ _ fun _ => id)
          (fun _ _ _ => obeys_networkJob ih) hstep
      · rw [Function.update_of_ne hk]
        exact ih k
  obtain ⟨ds, hsent, hds⟩ := (hgreets k).1.sent
  obtain ⟨junk, hk⟩ := hstart k
  have hempty := nothing_shown rfl (hk ▸ h.client k)
  refine ⟨fun d hd => hds d (by rwa [hsent] at hd), ?_, hempty.2⟩
  rw [hempty.1]
  rfl

/-- A client goes on with what it has begun. -/
theorem networkReach_of_goAlong {k : κ} {ts : List ι} {S : Threads ι State Mutex Fault}
    (h : (N k).goAlong ts = some S) : NetworkReach N (Function.update N k S) := by
  induction ts generalizing N with
  | nil =>
    cases h
    rw [Function.update_eq_self]
    exact .refl
  | cons t ts ih =>
    obtain ⟨S₁, hstep, hrest⟩ := Option.bind_eq_some_iff.mp h
    have hafter := ih (N := Function.update N k S₁) (by rwa [Function.update_self])
    rw [Function.update_idem] at hafter
    exact .head ⟨k, S₁, Threads.defaultStep_of_goOn hstep, rfl⟩ hafter

/-- One client greets another and sends it away, and the other begins to handle the
GoAway. -/
theorem network_greets_goAway : ∃ N : Network Bool Party,
    (⟨shortIp 2, 1212⟩, Control.goAway.datagram) ∈ (N true).shared.sent
      ∧ (N false).code .server ≠ none
      ∧ ∀ d ∈ (N true).shared.sent, ∃ c : Control, c.isGreeting ∧ d.2 = c.datagram := by
  obtain ⟨S, hrun, hS, -⟩ := hostAndPass_sent
  have hgoAway : (⟨shortIp 2, 1212⟩, Control.goAway.datagram) ∈ S.shared.sent :=
    hS ▸ .tail _ (.head _)
  let s : State := State.init fun _ => (none, none)
  let N₀ : Network Bool Party := fun _ => Threads.idle s
  let S₁ := (N₀ true).begin .server (addNewNeighbour hostEnv [] [])
  let N₁ := Function.update N₀ true S₁
  let N₂ := Function.update N₁ true hostAndPass
  let N₃ := Function.update N₂ true S
  let N₄ := Function.update N₃ false ((N₃ false).begin .server
    (processDatagram (fun _ => quietEnv) Control.goAway.datagram ⟨shortIp 1, 1212⟩))
  have hreach : NetworkReach N₀ N₄ :=
    .head ⟨true, S₁, .start rfl (.host ..), rfl⟩ <|
      .head ⟨true, hostAndPass, .start rfl (.pass _), rfl⟩ <|
        (networkReach_of_goAlong (N := N₂) (k := true) hrun).tail
          ⟨false, _, .start rfl (.datagram _ _ (k := true) hgoAway), rfl⟩
  exact ⟨N₄, hgoAway, Option.some_ne_none _,
    (network_greets (fun _ => ⟨_, rfl⟩) hreach true).1⟩

end Network

end Miaouchat
