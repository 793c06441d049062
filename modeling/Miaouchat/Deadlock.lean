import Miaouchat.Reachable

/-!
# The server and the worker side by side

Two threads take the four mutexes. The worker takes all of them at the start of
a pass, current neighbours first, then potential ones, then the list of messages
and the map. The server takes what each TLV needs.

If every thread took them in the worker's order, no two could wait for each
other (`Threads.no_deadlock`). Two kinds of TLV break the order. `add_msg` of a
new message asks for the current neighbours when it holds the map of messages,
and for the list when it holds the map. `process_hello` of a new peer with
several addresses gives up the mutex of the current neighbours after the first
one and asks for it again for the second, the mutex of the potential neighbours
still held. Where neither happens there is no deadlock
(`reach_safe_not_deadlocked`).

What `send_ack` frees is left aside: it is no step on a mutex, and a thread that
it ends takes no more of them.
-/

namespace Miaouchat

/-- The two threads. -/
inductive Party
  | server
  | worker
  deriving DecidableEq, Repr

/-- **What the threads do**: the server handles TLVs, the worker makes passes. -/
inductive Job : Party → Code Unit → Prop
  | hello (env : Env) (b : HelloBody) (client : SockaddrIn6) :
      Job .server (processHello env b client)
  | neighbour (env : Env) (b : NeighbourBody) : Job .server (processNeighbour env b)
  | data (env : Env) (b : DataBody) (client : SockaddrIn6) :
      Job .server (processData env b client)
  | ack (env : Env) (b : AckBody) (pair : SockaddrIn6) : Job .server (processAck env b pair)
  | goAway (env : Env) (b : GoAwayBody) (pair : SockaddrIn6) :
      Job .server (processGoAway env b pair)
  | pass (env : Env) : Job .worker (workerPass env)

/-- **The peer has at least two addresses, and Hellos to the first two go
through.** The addresses of a peer that is a neighbour already are not asked
for; an environment that finds none for it will do. -/
def TwoSends (env : Env) (client : SockaddrIn6) : Prop :=
  ∃ p p' ps, env.getaddrinfo (env.inetNtop env.clientSlot) (portText client.port)
      = some (p :: p' :: ps)
    ∧ env.sendOk 0 = true ∧ env.sendOk 1 = true

/-- **Where `add_msg` takes no other mutex than that of the list**: the message
is in the list, or the search for it never returns. -/
def Settled (b : DataBody) (L : Dllist (List Char)) : Prop :=
  dataKey b ∈ dllistContents L ∨ ¬ NullTerminated L

/-- **The jobs that take the mutexes in order.** -/
inductive SafeJob : Party → State → Code Unit → Prop
  | hello {s : State} (env : Env) (b : HelloBody) (client : SockaddrIn6)
      (h : ¬ TwoSends env client) : SafeJob .server s (processHello env b client)
  | neighbour {s : State} (env : Env) (b : NeighbourBody) :
      SafeJob .server s (processNeighbour env b)
  | data {s : State} (env : Env) (b : DataBody) (client : SockaddrIn6) (h : Settled b s.msgList) :
      SafeJob .server s (processData env b client)
  | ack {s : State} (env : Env) (b : AckBody) (pair : SockaddrIn6) :
      SafeJob .server s (processAck env b pair)
  | goAway {s : State} (env : Env) (b : GoAwayBody) (pair : SockaddrIn6) :
      SafeJob .server s (processGoAway env b pair)
  | pass {s : State} (env : Env) : SafeJob .worker s (workerPass env)

/-! ## The order -/

/-- The order of the worker. -/
def Mutex.rank : Mutex → ℕ
  | .curNeighbours => 0
  | .potNeighbours => 1
  | .msgList => 2
  | .msgMap => 3

/-- **Code that takes the mutexes in the worker's order**, from those in `H`,
and leaves the list of messages as it is. -/
abbrev Ordered {α : Type} (L : Dllist (List Char)) (Q : α → Finset Mutex → Prop)
    (p : Code α) (H : Finset Mutex) : Prop :=
  p.Respects (fun s => s.msgList = L) (Prog.InOrder Mutex.rank) Q H

/-- The mutexes of the two maps. -/
def mapMutexes : Finset Mutex := {.curNeighbours, .potNeighbours}

/-- What is left of these is given up at the end of `process_hello`. -/
theorem erase_mapMutexes {H : Finset Mutex} (h : H ⊆ mapMutexes) :
    (H.erase .curNeighbours).erase .potNeighbours = ∅ := by
  refine Finset.eq_empty_of_forall_notMem fun m hm => ?_
  obtain ⟨hpot, hm⟩ := Finset.mem_erase.mp hm
  obtain ⟨hcur, hm⟩ := Finset.mem_erase.mp hm
  rcases Finset.mem_insert.mp (h hm) with rfl | hm
  · exact hcur rfl
  · exact hpot (Finset.mem_singleton.mp hm)

section Ordering

variable {L : Dllist (List Char)} {α β : Type} {Q : β → Finset Mutex → Prop}

/-- An action that leaves the messages alone. -/
theorem Ordered.call {x : M α} (hx : Moves SameStore x) {q : α → Code β} {H : Finset Mutex}
    (hq : ∀ s a s', x s = .ok (a, s') → Ordered L Q (q a) H) :
    Ordered L Q (Prog.call x >>= q) H :=
  Prog.Respects.call fun s hs a s' hrun =>
    ⟨(hx.rel s a s' hrun).msgList.trans hs, hq s a s' hrun⟩

/-! ## Adding neighbours -/

/-- **A round of `add_new_neighbour`** takes the mutex of one of the maps and
gives it up, whether or not it was held before. -/
theorem ordered_addAddress (env : Env) (hello : List UInt8) (i : ℕ) (p : SockaddrIn6)
    {H : Finset Mutex} (hH : H ⊆ mapMutexes)
    (hcur : env.sendOk i = true → Prog.InOrder Mutex.rank H .curNeighbours) :
    Ordered L (fun _ H' => H' = H.erase
        (if env.sendOk i = true then .curNeighbours else .potNeighbours))
      (addAddress env hello i p) H := by
  have hpot : Prog.InOrder Mutex.rank H .potNeighbours := by
    by_cases hmem : Mutex.potNeighbours ∈ H
    · exact .inl hmem
    · refine .inr fun m hm => ?_
      rcases Finset.mem_insert.mp (hH hm) with rfl | hm'
      · decide
      · exact absurd (Finset.mem_singleton.mp hm' ▸ hm) hmem
  have hnew := neighbourly_sameStore.newNeighbourEntry env p
  have hadd := neighbourly_sameStore.mapAddNeighbourEntry env
  unfold addAddress getCurNeighbours getPotNeighbours
  refine Ordered.call (neighbourly_sameStore.udpSend ..) fun s ok s' hrun => ?_
  obtain rfl : env.sendOk i = ok := congrArg Prod.fst (Except.ok.inj hrun)
  split
  · rename_i hok
    exact .take (hcur hok) <| Ordered.call hnew fun _ e _ _ =>
      Ordered.call (hadd .cur e) fun _ _ _ _ => .give_done (Finset.erase_insert_eq_erase _ _)
  · exact .take hpot <| Ordered.call hnew fun _ e _ _ =>
      Ordered.call (hadd .pot e) fun _ _ _ _ => .give_done (Finset.erase_insert_eq_erase _ _)

/-- **The loop keeps the order** where the mutex of the potential neighbours is
not held. -/
theorem ordered_addAddresses (env : Env) (hello : List UInt8) (i : ℕ)
    (ps : List SockaddrIn6) {H : Finset Mutex} (hH : H ⊆ mapMutexes)
    (hpot : .potNeighbours ∉ H) :
    Ordered L (fun _ H' => H' ⊆ H) (addAddresses env hello i ps) H := by
  induction ps generalizing i H with
  | nil => exact .done (Finset.Subset.refl H)
  | cons p ps ih =>
    have hcur : Prog.InOrder Mutex.rank H .curNeighbours := by
      by_cases hmem : Mutex.curNeighbours ∈ H
      · exact .inl hmem
      · refine .inr fun m hm => ?_
        rcases Finset.mem_insert.mp (hH hm) with rfl | hm'
        · exact absurd hm hmem
        · exact absurd (Finset.mem_singleton.mp hm' ▸ hm) hpot
    unfold addAddresses
    refine (ordered_addAddress env hello i p hH fun _ => hcur).bind fun _ H' hH' => ?_
    have hsub : H' ⊆ H := hH' ▸ Finset.erase_subset _ _
    exact (ih (i + 1) (hsub.trans hH) fun h => hpot (hsub h)).mono
      fun _ _ h => h.trans hsub

/-- **With both mutexes held, the loop keeps the order** if not both of the
first two Hellos go through. -/
theorem ordered_addAddresses_both (env : Env) (hello : List UInt8) {ps : List SockaddrIn6}
    (h : ∀ p p' ps', ps = p :: p' :: ps' → env.sendOk 0 = true → env.sendOk 1 = false) :
    Ordered L (fun _ H' => H' ⊆ mapMutexes) (addAddresses env hello 0 ps) mapMutexes := by
  cases ps with
  | nil => exact .done (Finset.Subset.refl _)
  | cons p ps =>
    unfold addAddresses
    refine (ordered_addAddress env hello 0 p (Finset.Subset.refl _)
      fun _ => .inl (by decide)).bind fun _ H' hH' => ?_
    subst hH'
    cases hok : env.sendOk 0 with
    | false =>
      exact (ordered_addAddresses env hello 1 ps (by decide) (by decide)).mono
        fun _ _ h => h.trans (by decide)
    | true =>
      cases ps with
      | nil => exact .done (by decide)
      | cons p' ps =>
        have hno : env.sendOk 1 = false := h p p' ps rfl hok
        unfold addAddresses
        refine (ordered_addAddress env hello 1 p' (by decide) fun hyes => ?_).bind
          fun _ H' hH' => ?_
        · rw [hno] at hyes
          cases hyes
        · rw [hno] at hH'
          subst hH'
          exact (ordered_addAddresses env hello 2 ps (by decide) (by decide)).mono
            fun _ _ h => h.trans (by decide)

theorem ordered_addNewNeighbour (env : Env) (host port : List Char) :
    Ordered L (fun _ H' => H' = ∅) (addNewNeighbour env host port) ∅ := by
  unfold addNewNeighbour
  cases env.getaddrinfo host port with
  | none => exact .done rfl
  | some ai =>
    refine Ordered.call (Moves.get.bind fun _ => Moves.pure _) fun _ hello _ _ => ?_
    exact (ordered_addAddresses env hello 0 ai (by decide) (by decide)).mono
      fun _ _ h => Finset.subset_empty.mp h

/-! ## The jobs -/

theorem ordered_admitPeer {env : Env} {client : SockaddrIn6} (h : ¬ TwoSends env client)
    (key : List Char) (s : State) :
    Ordered L (fun _ H' => H' ⊆ mapMutexes) (admitPeer env client key s) mapMutexes := by
  unfold admitPeer
  split
  · exact .done (Finset.Subset.refl _)
  · split
    · unfold addNewNeighbour
      cases hai : env.getaddrinfo (env.inetNtop env.clientSlot) (portText client.port) with
      | none => exact .done (Finset.Subset.refl _)
      | some ai =>
        refine Ordered.call (Moves.get.bind fun _ => Moves.pure _) fun _ hello _ _ => ?_
        refine ordered_addAddresses_both env hello fun p p' ps hps hok => ?_
        subst hps
        exact Bool.eq_false_iff.mpr fun hok' => h ⟨p, p', ps, hai, hok, hok'⟩
    · exact Ordered.call (neighbourly_sameStore.mapTransferNeighbour ..) fun _ _ _ _ =>
        .done (Finset.Subset.refl _)

theorem ordered_processHello {env : Env} {client : SockaddrIn6} (h : ¬ TwoSends env client)
    (b : HelloBody) : Ordered L (fun _ H' => H' = ∅) (processHello env b client) ∅ := by
  have hanswer : Ordered L (fun _ H' => H' = ∅) (answerHello env b client) ∅ := by
    unfold answerHello
    split
    · exact .done rfl
    · refine Prog.respects_call fun s hs a s' hrun => ⟨?_, rfl⟩
      exact ((neighbourly_sameStore.sendMsg ..).rel s a s' hrun).msgList.trans hs
  have hboth : insert .potNeighbours (insert .curNeighbours ∅) = mapMutexes := by decide
  unfold processHello getCurNeighbours getPotNeighbours
  refine hanswer.bind fun _ H' hH' => ?_
  subst hH'
  refine .take (by decide) <| .take (by decide) <| Ordered.call Moves.get fun _ s _ _ => ?_
  rw [hboth]
  exact (ordered_admitPeer h _ s).bind fun _ H' hH' =>
    .give (.give_done (erase_mapMutexes hH'))

/-- **A message that is settled takes the mutex of the list only.** -/
theorem ordered_isInMsgList {xs : List (ℕ × List Char)} {p q : Option ℕ}
    (hs : Shape L xs p q) {b : DataBody} (h : Settled b L) :
    Ordered L (fun found H' => found = true ∧ H' = ∅) (isInMsgList b) ∅ := by
  have hne : L.first ≠ none := by
    rw [Settled, hs.contents_eq, hs.nullTerminated_iff, not_or] at h
    refine hs.first_ne_none ?_
    rintro rfl
    exact h.elim (fun h => nomatch h) (fun h => absurd rfl h.1)
  unfold isInMsgList getMsgList
  refine .take (by decide) <| Prog.Respects.call fun s hL a s' hrun => ?_
  cases hrun
  refine ⟨hL, ?_⟩
  rw [if_neg (by rwa [hL])]
  refine Prog.Respects.call fun s hL found s' hrun => ?_
  have hexec : (isInMsgList b).exec s = .ok (found, s') := by
    rw [exec_isInMsgList, if_neg (by rwa [hL])]
    exact hrun
  have hs' : Shape s.msgList xs p q := hL.symm ▸ hs
  have hfound : found = true ∧ s' = s := by
    by_cases hmem : dataKey b ∈ xs.map Prod.snd
    · rw [isInMsgList_of_mem hs' hmem] at hexec
      cases hexec
      exact ⟨rfl, rfl⟩
    · have hend := h.resolve_left (hs.contents_eq ▸ hmem)
      obtain ⟨e, he⟩ := isInMsgList_runs_off hs' hmem (hL.symm ▸ hend)
      rw [he] at hexec
      cases hexec
  obtain ⟨rfl, rfl⟩ := hfound
  exact ⟨hL, .give (.done ⟨rfl, by decide⟩)⟩

theorem ordered_processData {xs : List (ℕ × List Char)} {p q : Option ℕ}
    (hs : Shape L xs p q) {b : DataBody} (h : Settled b L) (env : Env)
    (client : SockaddrIn6) : Ordered L (fun _ H' => H' = ∅) (processData env b client) ∅ := by
  have hadd : Ordered L (fun _ H' => H' = ∅) (addMsg env b) ∅ := by
    unfold addMsg
    refine (ordered_isInMsgList hs h).bind fun known H' hH' => ?_
    obtain ⟨rfl, rfl⟩ := hH'
    exact .done rfl
  exact Ordered.call (neighbourly_sameStore.sendMsg ..) fun _ _ _ _ =>
    hadd.bind fun _ _ hH' => .done hH'

theorem ordered_processAck (env : Env) (b : AckBody) (pair : SockaddrIn6) :
    Ordered L (fun _ H' => H' = ∅) (processAck env b pair) ∅ := by
  unfold processAck getCurNeighbours
  exact .take (by decide) <| Ordered.call Moves.get fun _ _ _ _ =>
    Ordered.call (moves_follow _) fun _ _ _ _ =>
      Ordered.call (neighbourly_sameStore.rmNbrMsg ..) fun _ _ _ _ => .give_done (by decide)

theorem ordered_processGoAway (env : Env) (b : GoAwayBody) (pair : SockaddrIn6) :
    Ordered L (fun _ H' => H' = ∅) (processGoAway env b pair) ∅ := by
  unfold processGoAway getCurNeighbours getPotNeighbours
  exact .take (by decide) <| .take (by decide) <| Ordered.call Moves.get fun _ _ _ _ =>
    Ordered.call (moves_follow _) fun _ _ _ _ =>
      Ordered.call (neighbourly_sameStore.emptyPending _) fun _ _ _ _ =>
        Ordered.call (neighbourly_sameStore.mapTransferNeighbour ..) fun _ _ _ _ =>
          .give (.give_done (by decide))

/-- The loop over the neighbours asks for no mutex. -/
theorem ordered_iterNbrLoop (env : Env) {H : Finset Mutex} (n : ℕ) (iter : MapIter) :
    Ordered L (fun _ H' => H' = H) (iterNbrLoop env n iter) H := by
  induction n generalizing iter with
  | zero => exact Ordered.call (q := pure) (Moves.throw _) fun _ _ _ _ => rfl
  | succ n ih =>
    refine Ordered.call Moves.get fun s _ _ _ => Ordered.call (Moves.lift _) fun _ r _ _ => ?_
    obtain ⟨key, iter'⟩ := r
    cases key with
    | none => exact .done rfl
    | some key =>
      dsimp only
      split
      · exact .done rfl
      · rename_i e _
        have hrest : Ordered L (fun _ H' => H' = H) (do
            let nbr ← Prog.call (entryAt e)
            Prog.call (sendGoAway env nbr.addr)
            let _ ← Prog.call (mapTransferNeighbour env .cur .pot key)
            iterNbrLoop env n iter' : Code Unit) H :=
          Ordered.call (moves_entryAt e) fun _ _ _ _ =>
            Ordered.call (neighbourly_sameStore.sendMsg ..) fun _ _ _ _ =>
              Ordered.call (neighbourly_sameStore.mapTransferNeighbour ..) fun _ _ _ _ =>
                ih iter'
        refine Ordered.call (neighbourly_sameStore.workerIterMsg env e) fun _ rc _ _ => ?_
        split
        · exact Ordered.call (neighbourly_sameStore.emptyPending e) fun _ _ _ _ => hrest
        · exact hrest

theorem ordered_workerPass (env : Env) :
    Ordered L (fun _ H' => H' = ∅) (workerPass env) ∅ := by
  unfold workerPass getCurNeighbours getPotNeighbours getMsgList getMsgMap
  refine .take (by decide) <| .take (by decide) <| .take (by decide) <| .take (by decide) ?_
  have hiter : Ordered L (fun _ H' => H' = insert Mutex.msgMap (insert .msgList
      (insert .potNeighbours (insert .curNeighbours ∅)))) (workerIterNbr env) _ :=
    Ordered.call Moves.get fun _ _ _ _ => ordered_iterNbrLoop env _ _
  refine hiter.bind fun _ H hH => ?_
  subst hH
  exact .give <| .give <| .give <| .give_done (by decide)

/-- Every safe job keeps the order. -/
theorem SafeJob.ordered {xs : List (ℕ × List Char)} {p q : Option ℕ} (hs : Shape L xs p q)
    {t : Party} {s : State} (hL : s.msgList = L) {code : Code Unit} (h : SafeJob t s code) :
    Ordered L (fun _ H' => H' = ∅) code ∅ := by
  cases h with
  | hello env b client h => exact ordered_processHello h b
  | neighbour env b => exact ordered_addNewNeighbour ..
  | data env b client h => exact ordered_processData hs (hL ▸ h) env client
  | ack env b pair => exact ordered_processAck env b pair
  | goAway env b pair => exact ordered_processGoAway env b pair
  | pass env => exact ordered_workerPass env

end Ordering

/-! ## No deadlock, and one -/

/-- **However the two threads are interleaved, as long as the jobs they start are
safe they never wait for each other.** -/
theorem reach_safe_not_deadlocked {s₀ : State} {xs : List (ℕ × List Char)} {p q : Option ℕ}
    (hs : Shape s₀.msgList xs p q) {S : Threads Party State Mutex Fault}
    (h : Threads.Reach SafeJob (Threads.idle s₀) S) : ¬ S.Deadlocked .server .worker :=
  Threads.no_deadlock (I := fun s => s.msgList = s₀.msgList)
    (fun _ _ _ hL hjob => hjob.ordered hs hL) rfl h .server .worker

/-- Both threads start on a job. -/
def bothStart (s₀ : State) (p q : Code Unit) : Threads Party State Mutex Fault :=
  ((Threads.idle s₀).begin .server p).begin .worker q

/-- What they reach by the steps of a schedule. -/
theorem reach_of_both {jobs : Party → State → Code Unit → Prop} {s₀ : State}
    {p q : Code Unit} (hserver : jobs .server s₀ p) (hworker : jobs .worker s₀ q)
    {ts : List Party} {S : Threads Party State Mutex Fault}
    (h : (bothStart s₀ p q).follow ts = some S) :
    Threads.Reach jobs (Threads.idle s₀) S :=
  .head (.start rfl hserver) (.head (.start rfl hworker) (Threads.reach_of_follow h))

/-- An Ack waits for a pass of the worker to end, and the worker does not wait
for the Ack. -/
theorem reach_safe_not_deadlocked_ack :
    ∃ S : Threads Party State Mutex Fault,
      S.Waits .server .worker ∧ ¬ S.Deadlocked .server .worker := by
  let s₀ : State := State.init fun _ => (none, none)
  let ack := processAck quietEnv ⟨7, 1⟩ ⟨Vector.replicate 16 1, 48132⟩
  obtain ⟨S, hfollow, hserver, hcur⟩ : ∃ S,
      (bothStart s₀ ack (workerPass quietEnv)).follow [.worker, .worker] = some S
        ∧ S.wants .server = some .curNeighbours ∧ S.holder .curNeighbours = some .worker :=
    ⟨_, rfl, rfl, rfl⟩
  have hs : Shape s₀.msgList [] none none := shape_newDllist ..
  refine ⟨S, ⟨_, hserver, hcur, by decide⟩, reach_safe_not_deadlocked hs ?_⟩
  exact reach_of_both (.ack ..) (.pass _) hfollow

/-- The server handles the first message of all while the worker begins a pass.
The worker has the mutexes of the maps of neighbours, and the server takes those
of the list and of the map of messages. -/
theorem deadlocked_firstMessage :
    ¬ ∀ (s₀ : State) (S : Threads Party State Mutex Fault),
      Threads.Reach (fun t _ code => Job t code) (Threads.idle s₀) S →
        ¬ S.Deadlocked .server .worker := by
  intro h
  let s₀ : State := State.init fun _ => (none, none)
  let data := processData quietEnv ⟨7, 1, 0, 0, []⟩ ⟨Vector.replicate 16 1, 48132⟩
  obtain ⟨S, hfollow, hcur, hlist, hserver, hworker⟩ : ∃ S,
      (bothStart s₀ data (workerPass quietEnv)).follow [.worker, .worker, .server, .server,
          .server, .server, .server, .server, .server] = some S
        ∧ S.holder .curNeighbours = some .worker ∧ S.holder .msgList = some .server
        ∧ S.wants .server = some .curNeighbours ∧ S.wants .worker = some .msgList :=
    ⟨_, rfl, rfl, rfl, rfl, rfl⟩
  refine h s₀ S (reach_of_both (.data ..) (.pass _) hfollow) ?_
  exact ⟨⟨_, hserver, hcur, by decide⟩, ⟨_, hworker, hlist, by decide⟩⟩

end Miaouchat
