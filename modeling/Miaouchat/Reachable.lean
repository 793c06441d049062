import Miaouchat.Lib.Moves
import Miaouchat.Worker

/-!
# The states the client reaches

The state starts empty, and changes as messages are added and removed, TLVs are
handled and the worker makes its passes, in any order and with any answers of
the network. `Reachable` are the states found between two such operations, and
`Good` is what holds in all of them.

Part of it is surprising, and follows from the tags of the lists: the lists of
pending messages are all empty.

The code that deals with neighbours touches neither the list nor the map of
messages (`SameStore`). What it does is said once, in `Neighbourly`, for any
relation that its primitive actions obey.
-/

namespace Miaouchat

/-! ## Reading -/

section Reading

variable {R : State → State → Prop} [Std.Refl R]

theorem moves_follow {β : Type} (v : Option β) : Moves R (follow v) := by
  cases v with
  | none => exact Moves.throw _
  | some v => exact Moves.pure v

variable [IsTrans State R]

theorem moves_entryAt (e : ℕ) : Moves R (entryAt e) := by
  refine Moves.get.bind fun s => ?_
  cases s.entries e with
  | none => exact Moves.throw _
  | some ent => exact Moves.pure ent

theorem moves_sendMsg (h : ∀ pair bytes ok, Moves R (udpSend pair bytes ok)) (env : Env)
    (pair : SockaddrIn6) (ts : List Tlv) : Moves R (sendMsg env pair ts) :=
  (Moves.get.bind fun _ => Moves.pure _).bind fun _ => (h ..).bind fun _ => Moves.pure ()

/-- A loop over the current neighbours does what its rounds do. -/
theorem moves_forCurNeighbours {body : ℕ → M Unit} (h : ∀ e, Moves R (body e)) :
    Moves R (forCurNeighbours body) := by
  have hloop : ∀ n iter, Moves R (forNeighbours body n iter) := by
    intro n
    induction n with
    | zero => exact fun _ => Moves.throw _
    | succ n ih =>
      intro iter
      refine Moves.get.bind fun s => (Moves.lift _).bind fun r => ?_
      obtain ⟨key, iter'⟩ := r
      cases key with
      | none => exact Moves.pure ()
      | some key => exact (moves_follow _).bind fun e => (h e).bind fun _ => ih iter'
  exact Moves.get.bind fun s => hloop _ _

/-! ### What is made of other parts -/

section Parts

variable {env : Env}

/-- A pass of the worker over the neighbours. -/
theorem moves_workerIterNbr (hmsg : ∀ e, Moves R (workerIterMsg env e))
    (hempty : ∀ e, Moves R (emptyPending e)) (hgoAway : ∀ pair, Moves R (sendGoAway env pair))
    (htransfer : ∀ key, Moves R (mapTransferNeighbour env .cur .pot key)) :
    Moves R (workerIterNbr env).exec := by
  have hloop : ∀ n iter, Moves R (iterNbrLoop env n iter).exec := by
    intro n
    induction n with
    | zero => exact fun _ => (Moves.throw _).call
    | succ n ih =>
      intro iter
      refine Moves.exec_bind Moves.get.call fun s =>
        Moves.exec_bind (Moves.lift _).call fun r => ?_
      obtain ⟨key, iter'⟩ := r
      cases key with
      | none => exact Moves.exec_pure ()
      | some key =>
        dsimp only
        cases mapGet s.cur key with
        | none => exact Moves.exec_pure ()
        | some e =>
          have hrest : Moves R (do
              let nbr ← Prog.call (entryAt e)
              Prog.call (sendGoAway env nbr.addr)
              let _ ← Prog.call (mapTransferNeighbour env .cur .pot key)
              iterNbrLoop env n iter' : Code Unit).exec :=
            Moves.exec_bind (moves_entryAt e).call fun _ =>
              Moves.exec_bind (hgoAway _).call fun _ =>
                Moves.exec_bind (htransfer key).call fun _ => ih iter'
          exact Moves.exec_bind (hmsg e).call fun _ =>
            Moves.exec_ite (Moves.exec_bind (hempty e).call fun _ => hrest) hrest
  exact Moves.exec_bind Moves.get.call fun s => hloop _ _

theorem moves_workerPass (hiter : Moves R (workerIterNbr env).exec) :
    Moves R (workerPass env).exec :=
  Moves.exec_bind (Moves.take _) fun _ => Moves.exec_bind (Moves.take _) fun _ =>
    Moves.exec_bind (Moves.take _) fun _ => Moves.exec_bind (Moves.take _) fun _ =>
      Moves.exec_bind hiter fun _ => Moves.exec_bind (Moves.give _) fun _ =>
        Moves.exec_bind (Moves.give _) fun _ => Moves.exec_bind (Moves.give _) fun _ =>
          Moves.give _

theorem moves_admitPeer (hadd : ∀ host port, Moves R (addNewNeighbour env host port).exec)
    (htransfer : ∀ key, Moves R (mapTransferNeighbour env .pot .cur key))
    (client : SockaddrIn6) (key : List Char) (s : State) :
    Moves R (admitPeer env client key s).exec :=
  Moves.exec_ite (Moves.exec_pure ()) (Moves.exec_ite (hadd ..)
    (Moves.exec_bind (htransfer key).call fun _ => Moves.exec_pure ()))

theorem moves_processAck (hrm : ∀ id nonce e, Moves R (rmNbrMsg id nonce e)) (env : Env)
    (b : AckBody) (pair : SockaddrIn6) : Moves R (processAck env b pair).exec :=
  Moves.exec_bind (Moves.take _) fun _ => Moves.exec_bind Moves.get.call fun _ =>
    Moves.exec_bind (moves_follow _).call fun _ =>
      Moves.exec_bind (hrm ..).call fun _ => Moves.give _

theorem moves_processGoAway (hempty : ∀ e, Moves R (emptyPending e))
    (htransfer : ∀ key, Moves R (mapTransferNeighbour env .cur .pot key)) (b : GoAwayBody)
    (pair : SockaddrIn6) : Moves R (processGoAway env b pair).exec :=
  Moves.exec_bind (Moves.take _) fun _ => Moves.exec_bind (Moves.take _) fun _ =>
    Moves.exec_bind Moves.get.call fun _ => Moves.exec_bind (moves_follow _).call fun _ =>
      Moves.exec_bind (hempty _).call fun _ => Moves.exec_bind (htransfer _).call fun _ =>
        Moves.exec_bind (Moves.give _) fun _ => Moves.give _

end Parts

end Reading

/-! ## The code that deals with neighbours -/

/-- **The primitive actions on neighbours obey `R`.** -/
structure Neighbourly (R : State → State → Prop) : Prop where
  udpSend : ∀ pair bytes ok, Moves R (udpSend pair bytes ok)
  newNeighbourEntry : ∀ env addr, Moves R (newNeighbourEntry env addr)
  mapAddNeighbourEntry : ∀ env w e, Moves R (mapAddNeighbourEntry env w e)
  mapPopNeighbour : ∀ w key, Moves R (mapPopNeighbour w key)
  rmNbrMsg : ∀ id nonce e, Moves R (rmNbrMsg id nonce e)
  emptyPending : ∀ e, Moves R (emptyPending e)
  workerIterMsg : ∀ env e, Moves R (workerIterMsg env e)

namespace Neighbourly

variable {R : State → State → Prop} [Std.Refl R] [IsTrans State R] (hR : Neighbourly R)

include hR

theorem sendMsg (env : Env) (pair : SockaddrIn6) (ts : List Tlv) :
    Moves R (sendMsg env pair ts) :=
  moves_sendMsg hR.udpSend env pair ts

omit [Std.Refl R] in
theorem mapTransferNeighbour (env : Env) (w w' : Nbrs) (key : List Char) :
    Moves R (mapTransferNeighbour env w w' key) :=
  (hR.mapPopNeighbour w key).bind fun e => hR.mapAddNeighbourEntry env w' e

/-- A pass of the worker over the neighbours. -/
theorem workerIterNbr (env : Env) : Moves R (workerIterNbr env).exec :=
  moves_workerIterNbr (hR.workerIterMsg env) hR.emptyPending (fun pair => hR.sendMsg env pair _)
    (hR.mapTransferNeighbour env .cur .pot)

/-- `add_new_neighbour`. -/
theorem addNewNeighbour (env : Env) (host port : List Char) :
    Moves R (addNewNeighbour env host port).exec := by
  have hadd : ∀ (p : SockaddrIn6) (w : Nbrs) (m : Mutex), Moves R (do
      Prog.take m
      let e ← Prog.call (Miaouchat.newNeighbourEntry env p)
      let _ ← Prog.call (Miaouchat.mapAddNeighbourEntry env w e)
      Prog.give m : Code Unit).exec := fun p w m =>
    Moves.exec_bind (Moves.take m) fun _ =>
      Moves.exec_bind (hR.newNeighbourEntry env p).call fun e =>
        Moves.exec_bind (hR.mapAddNeighbourEntry env w e).call fun _ => Moves.give m
  have hloop : ∀ hello i ps, Moves R (addAddresses env hello i ps).exec := by
    intro hello i ps
    induction ps generalizing i with
    | nil => exact Moves.exec_pure ()
    | cons p ps ih =>
      refine Moves.exec_bind (Moves.exec_bind (hR.udpSend ..).call fun ok => ?_) fun _ => ih _
      exact Moves.exec_ite (hadd p .cur .curNeighbours) (hadd p .pot .potNeighbours)
  unfold Miaouchat.addNewNeighbour
  cases env.getaddrinfo host port with
  | none => exact Moves.exec_pure ()
  | some ai =>
    refine Moves.exec_bind (Moves.call ?_) fun hello => hloop hello 0 ai
    exact Moves.get.bind fun _ => Moves.pure _

theorem admitPeer (env : Env) (client : SockaddrIn6) (key : List Char) (s : State) :
    Moves R (admitPeer env client key s).exec :=
  moves_admitPeer (hR.addNewNeighbour env) (hR.mapTransferNeighbour env .pot .cur) client key s

theorem processHello (env : Env) (b : HelloBody) (client : SockaddrIn6) :
    Moves R (processHello env b client).exec := by
  have hanswer : Moves R (answerHello env b client).exec :=
    Moves.exec_ite (Moves.exec_pure ()) (hR.sendMsg ..).call
  exact Moves.exec_bind hanswer fun _ => Moves.exec_bind (Moves.take _) fun _ =>
    Moves.exec_bind (Moves.take _) fun _ => Moves.exec_bind Moves.get.call fun s =>
      Moves.exec_bind (hR.admitPeer ..) fun _ => Moves.exec_bind (Moves.give _) fun _ =>
        Moves.give _

theorem processNeighbour (env : Env) (b : NeighbourBody) :
    Moves R (processNeighbour env b).exec :=
  hR.addNewNeighbour ..

theorem processAck (env : Env) (b : AckBody) (pair : SockaddrIn6) :
    Moves R (processAck env b pair).exec :=
  moves_processAck hR.rmNbrMsg env b pair

theorem processGoAway (env : Env) (b : GoAwayBody) (pair : SockaddrIn6) :
    Moves R (processGoAway env b pair).exec :=
  moves_processGoAway hR.emptyPending (hR.mapTransferNeighbour env .cur .pot) b pair

theorem workerPass (env : Env) : Moves R (workerPass env).exec :=
  moves_workerPass (hR.workerIterNbr env)

end Neighbourly

/-- **The relation allows whatever is done to neighbours**: datagrams are sent,
entries written and made, and either map is changed. -/
structure AllowsNeighbours (R : State → State → Prop) : Prop where
  sent : ∀ s pair bytes, R s (s.withSent pair bytes)
  entries : ∀ s entries count, R s { s with entries := entries, entryCount := count }
  nbrs : ∀ s w m, R s (s.setNbrs w m)

/-- Such a relation is obeyed by the code that deals with neighbours. -/
theorem AllowsNeighbours.neighbourly {R : State → State → Prop} [Std.Refl R]
    [IsTrans State R] (h : AllowsNeighbours R) : Neighbourly R := by
  have hsend : ∀ pair bytes ok, Moves R (udpSend pair bytes ok) := fun pair bytes ok =>
    (Moves.modify fun s => h.sent s pair bytes).bind fun _ => Moves.pure ok
  have hset : ∀ e ent, Moves R (setEntry e ent) := fun e ent =>
    Moves.modify fun s => h.entries s _ s.entryCount
  refine ⟨hsend, fun env addr => ⟨fun s e s' hrun => ?_⟩, fun env w e =>
    ⟨fun s r s' hrun => ?_⟩, fun w key => ⟨fun s e s' hrun => ?_⟩, fun id nonce e => ?_,
    fun e => ?_, fun env e => ?_⟩
  · rw [newNeighbourEntry_run] at hrun
    cases hrun
    exact h.entries ..
  · obtain ⟨ent, -, ⟨-, rfl⟩ | ⟨-, rfl⟩⟩ := mapAddNeighbourEntry_eq_ok hrun
    · exact h.nbrs ..
    · exact Std.Refl.refl s'
  · obtain ⟨-, rfl⟩ := mapPopNeighbour_eq_ok hrun
    exact h.nbrs ..
  · refine (moves_entryAt e).bind fun ent => Moves.ite (Moves.pure _) ?_
    refine (Moves.lift _).bind fun found => ?_
    cases found with
    | none => exact Moves.pure _
    | some index => exact (Moves.lift _).bind fun _ => (hset _ _).bind fun _ => Moves.pure _
  · exact (moves_entryAt e).bind fun _ => (Moves.lift _).bind fun _ => hset _ _
  · have hbatch : ∀ nbr b, Moves R (sendBatch env nbr b) := fun nbr b =>
      (moves_sendMsg hsend env nbr.addr b.tlvs).bind fun _ => Moves.throw _
    have hflush : ∀ nbr m b, Moves R (flushBatch env nbr m b) := fun nbr m b =>
      Moves.ite ((hbatch nbr b).bind fun _ => Moves.pure _) (Moves.pure b)
    have hput : ∀ n nbr c b, Moves R (putMessage e n nbr c b) := by
      intro n nbr c b
      unfold putMessage
      dsimp only
      split
      · exact Moves.throw _
      · exact (hset _ _).bind fun _ => Moves.pure _
    have hloop : ∀ n k b, Moves R (iterMsgLoop env e n k b) := by
      intro n k
      induction k with
      | zero => exact fun _ => Moves.throw _
      | succ k ih =>
        intro b
        refine (moves_entryAt e).bind fun nbr => (Moves.lift _).bind fun c => ?_
        refine Moves.ite ?_ (ih b)
        refine (hflush nbr c.data b).bind fun b => Moves.ite (Moves.pure _) ?_
        exact (hput n nbr c b).bind fun b => ih b
    refine (moves_entryAt e).bind fun nbr => Moves.ite (Moves.pure _) ?_
    exact (hloop _ _ _).bind fun r => (hbatch nbr r.2).bind fun _ => Moves.pure _

/-! ## The messages are left alone -/

/-- **The list and the map of messages, and what was shown, are the same.** -/
structure SameStore (s s' : State) : Prop where
  msgList : s'.msgList = s.msgList
  msgMap : s'.msgMap = s.msgMap
  shown : s'.shown = s.shown

instance : Std.Refl SameStore := ⟨fun _ => ⟨rfl, rfl, rfl⟩⟩

instance : IsTrans State SameStore :=
  ⟨fun _ _ _ h h' => ⟨h'.msgList.trans h.msgList, h'.msgMap.trans h.msgMap,
    h'.shown.trans h.shown⟩⟩

/-- The code that deals with neighbours leaves the messages alone. -/
theorem neighbourly_sameStore : Neighbourly SameStore :=
  AllowsNeighbours.neighbourly {
    sent := fun _ _ _ => ⟨rfl, rfl, rfl⟩
    entries := fun _ _ _ => ⟨rfl, rfl, rfl⟩
    nbrs := fun s w m => ⟨s.msgList_setNbrs w m, s.msgMap_setNbrs w m, s.shown_setNbrs w m⟩ }

/-! ## What has been sent -/

/-- **Datagrams have been sent after those sent before**, or none. -/
def SentAfter (s s' : State) : Prop := s.sent <+: s'.sent

instance : Std.Refl SentAfter := ⟨fun _ => List.prefix_refl _⟩

instance : IsTrans State SentAfter := ⟨fun _ _ _ h h' => h.trans h'⟩

/-- The code that deals with neighbours takes back no datagram. -/
theorem neighbourly_sentAfter : Neighbourly SentAfter :=
  AllowsNeighbours.neighbourly {
    sent := fun s pair bytes => List.prefix_append s.sent [(pair, bytes)]
    entries := fun _ _ _ => List.prefix_refl _
    nbrs := fun s w m => by
      unfold SentAfter
      rw [s.sent_setNbrs w m] }

/-! ## The neighbours -/

/-- **What the pointers to neighbours lead to**: every neighbour of either map
has an entry, and no entry has a pending message. -/
structure NbrsGood (s : State) : Prop where
  alive : ∀ w key e, mapGet (s.nbrs w) key = some e → s.entries e ≠ none
  empty : ∀ e ent, s.entries e = some ent →
    ent.msgToSend.type = .msg ∧ Shape ent.msgToSend [] none none

namespace NbrsGood

variable {s : State}

theorem init (junk : ℕ → Option ℕ × Option ℕ) : NbrsGood (State.init junk) where
  alive := fun w key e h => by
    cases w <;> cases (mapGet_mapInit key).symm.trans h
  empty := fun _ _ => nofun

/-- It depends on the maps and the entries only. -/
theorem congr (h : NbrsGood s) {s' : State} (hcur : s'.cur = s.cur) (hpot : s'.pot = s.pot)
    (hentries : s'.entries = s.entries) : NbrsGood s' where
  alive := fun w key e he => by
    rw [hentries]
    cases w with
    | cur => exact h.alive .cur key e ((congrArg (mapGet · key) hcur).symm.trans he)
    | pot => exact h.alive .pot key e ((congrArg (mapGet · key) hpot).symm.trans he)
  empty := fun e ent he => h.empty e ent (hentries ▸ he)

/-- The other map is as it was, and each binding of the new one is of an
entry. -/
theorem setNbrs (h : NbrsGood s) (w : Nbrs) {m : Map ℕ}
    (hm : ∀ key e, mapGet m key = some e → s.entries e ≠ none) :
    NbrsGood (s.setNbrs w m) where
  alive := fun w' key e he => by
    rw [State.entries_setNbrs]
    by_cases hw : w' = w
    · subst hw
      rw [State.nbrs_setNbrs_same] at he
      exact hm key e he
    · rw [State.nbrs_setNbrs_of_ne s hw] at he
      exact h.alive w' key e he
  empty := fun e ent he => h.empty e ent (s.entries_setNbrs w m ▸ he)

/-- No entry has a first pending message. -/
theorem first_eq (h : NbrsGood s) {e : ℕ} {ent : NeighbourEntry}
    (he : s.entries e = some ent) : ent.msgToSend.first = none :=
  (h.empty e ent he).2.first_eq

/-- There is no pending message to take away. -/
theorem emptyPending_run (h : NbrsGood s) {e : ℕ} {ent : NeighbourEntry}
    (he : s.entries e = some ent) : emptyPending e s = .ok ((), s) := by
  have hempty := dllistEmpty_of_isEmpty ((h.empty e ent he).2.isEmpty_iff.mpr rfl)
  unfold emptyPending
  rw [bind_ok (entryAt_ok he), bind_ok (lift_ok hempty s)]
  show Except.ok ((), { s with entries := Function.update s.entries e (some ent) }) = _
  rw [Function.update_eq_self_iff.mpr he.symm]

/-- The current neighbours have sound lists. -/
theorem nbrsSound (h : NbrsGood s) : NbrsSound s := by
  intro key e he
  obtain ⟨ent, hent⟩ := Option.ne_none_iff_exists'.mp (h.alive .cur key e he)
  obtain ⟨htype, hs⟩ := h.empty e ent hent
  exact ⟨ent, hent, htype, [], none, hs, by decide⟩

end NbrsGood

/-- An action that reads the entry `e` first, and does nothing to the state
where this entry has no pending message, keeps the neighbours good. -/
theorem keeps_nbrsGood_of_entryAt {α : Type} {e : ℕ} {f : NeighbourEntry → M α}
    (h : ∀ s ent, s.entries e = some ent → NbrsGood s → ∀ a s', f ent s = .ok (a, s') →
      s' = s) : Keeps NbrsGood (entryAt e >>= f) := by
  refine ⟨fun s a s' hrun hs => ?_⟩
  obtain ⟨ent, s₁, hent, hrest⟩ := bind_eq_ok hrun
  obtain ⟨he, rfl⟩ := entryAt_eq_ok hent
  rw [h s₁ ent he hs a s' hrest]
  exact hs

/-- **The code that deals with neighbours keeps them good.** -/
theorem neighbourly_nbrsGood : Neighbourly (Keep NbrsGood) where
  udpSend := fun pair bytes ok =>
    (Moves.modify fun _ hs => hs.congr rfl rfl rfl).bind fun _ => Moves.pure ok
  newNeighbourEntry := fun env addr => ⟨fun s e s' hrun hs => by
    rw [newNeighbourEntry_run] at hrun
    cases hrun
    refine ⟨fun w key e he => ?_, fun e ent he => ?_⟩
    · by_cases hee : e = s.entryCount
      · rw [hee]
        simp
      · have he' : mapGet (s.nbrs w) key = some e := by cases w <;> exact he
        simpa [hee] using hs.alive w key e he'
    · by_cases hee : e = s.entryCount
      · subst hee
        simp only [Function.update_self, Option.some.injEq] at he
        subst he
        exact ⟨rfl, shape_newDllist ..⟩
      · simp only [Function.update_of_ne hee] at he
        exact hs.empty e ent he⟩
  mapAddNeighbourEntry := fun env w e => ⟨fun s r s' hrun hs => by
    obtain ⟨ent, hent, ⟨-, rfl⟩ | ⟨-, rfl⟩⟩ := mapAddNeighbourEntry_eq_ok hrun
    · refine hs.setNbrs w fun key' e' he' => ?_
      rw [mapGet_mapSet] at he'
      split at he'
      · cases he'
        rw [hent]
        exact Option.some_ne_none _
      · exact hs.alive w key' e' he'
    · exact hs⟩
  mapPopNeighbour := fun w key => ⟨fun s e s' hrun hs => by
    obtain ⟨-, rfl⟩ := mapPopNeighbour_eq_ok hrun
    refine hs.setNbrs w fun key' e' he' => ?_
    rw [mapGet_mapRemove] at he'
    split at he'
    · cases he'
    · exact hs.alive w key' e' he'⟩
  rmNbrMsg := fun id nonce e => keeps_nbrsGood_of_entryAt fun s ent he hs a s' hrun => by
    rw [if_pos (hs.first_eq he)] at hrun
    cases hrun
    rfl
  emptyPending := fun e => keeps_nbrsGood_of_entryAt fun s ent he hs a s' hrun => by
    have hempty := dllistEmpty_of_isEmpty ((hs.empty e ent he).2.isEmpty_iff.mpr rfl)
    rw [bind_ok (lift_ok hempty s)] at hrun
    cases hrun
    show { s with entries := Function.update s.entries e (some ent) } = s
    rw [Function.update_eq_self_iff.mpr he.symm]
  workerIterMsg := fun env e => keeps_nbrsGood_of_entryAt fun s ent he hs a s' hrun => by
    rw [if_pos (hs.first_eq he)] at hrun
    cases hrun
    rfl

/-- So does forgetting a message. -/
theorem keeps_nbrsGood_rmMsg : Keeps NbrsGood rmMsg.exec := by
  have hpop : Keeps NbrsGood popKey :=
    Moves.get.bind fun s => (Moves.lift _).bind fun r =>
      (Moves.modify fun _ hs => hs.congr rfl rfl rfl).bind fun _ => Moves.pure _
  have hbody : ∀ key, Keeps NbrsGood (bodyOfKey key) := fun key =>
    Moves.get.bind fun _ => moves_follow _
  have hloop : ∀ b, Keeps NbrsGood (forCurNeighbours (unqueue b)) := fun b =>
    moves_forCurNeighbours fun e =>
      (neighbourly_nbrsGood.rmNbrMsg b.senderId b.nonce e).bind fun _ => Moves.pure ()
  refine Moves.exec_bind (Moves.take _) fun _ => Moves.exec_bind (Moves.take _) fun _ =>
    Moves.exec_bind hpop.call fun key => ?_
  cases key with
  | none =>
    exact Moves.exec_bind (Moves.give _) fun _ => Moves.exec_bind (Moves.give _) fun _ =>
      Moves.exec_pure _
  | some key =>
    exact Moves.exec_bind (hbody key).call fun b => Moves.exec_bind (Moves.take _) fun _ =>
      Moves.exec_bind (hloop b).call fun _ => Moves.exec_bind (Moves.give _) fun _ =>
        Moves.exec_bind (Moves.give _) fun _ => Moves.exec_bind (Moves.give _) fun _ =>
          Moves.exec_pure _

/-! ## The messages -/

/-- **What holds of the messages**: the keys in the list are those of messages
that were accepted, and are bound in the map. -/
structure Good (s : State) : Prop where
  shape : ∃ xs p q, Shape s.msgList xs p q
  type_eq : s.msgList.type = .string
  accepted : ∀ key ∈ dllistContents s.msgList, ∃ b ∈ s.shown, dataKey b = key
  bound : ∀ key ∈ dllistContents s.msgList, ∃ b, mapGet s.msgMap key = some b
  nbrs : NbrsGood s

namespace Good

variable {s : State}

theorem init (junk : ℕ → Option ℕ × Option ℕ) : Good (State.init junk) where
  shape := ⟨[], none, none, shape_newDllist ..⟩
  type_eq := rfl
  accepted := fun _ => nofun
  bound := fun _ => nofun
  nbrs := .init junk

/-- Whatever leaves the messages alone and keeps the neighbours good. -/
theorem of_sameStore (h : Good s) {s' : State} (hsame : SameStore s s')
    (hnbrs : NbrsGood s') : Good s' where
  shape := by rw [hsame.msgList]; exact h.shape
  type_eq := by rw [hsame.msgList]; exact h.type_eq
  accepted := by rw [hsame.msgList, hsame.shown]; exact h.accepted
  bound := by rw [hsame.msgList, hsame.msgMap]; exact h.bound
  nbrs := hnbrs

theorem storeSound (h : Good s) : StoreSound s := ⟨h.shape, h.bound, h.nbrs.nbrsSound⟩

end Good

theorem keeps_good_addMsg (env : Env) (b : DataBody) : Keeps Good (addMsg env b).exec := by
  refine ⟨fun s a s' hrun h => ?_⟩
  by_cases hmem : dataKey b ∈ dllistContents s.msgList
  · rw [h.storeSound.addMsg_known env hmem] at hrun
    cases hrun
    exact h
  · by_cases hend : NullTerminated s.msgList
    · obtain ⟨l, hadd, hsound, hcontents, -, htype, -⟩ :=
        h.storeSound.addMsg_new h.type_eq env hmem hend
      rw [hadd] at hrun
      cases hrun
      refine ⟨hsound.shape, htype, fun key hkey => ?_, hsound.bound, h.nbrs.congr rfl rfl rfl⟩
      replace hkey : key ∈ dataKey b :: dllistContents s.msgList := hcontents ▸ hkey
      rcases List.mem_cons.mp hkey with rfl | hkey
      · exact ⟨b, by simp, rfl⟩
      · obtain ⟨b', hb', heq⟩ := h.accepted key hkey
        exact ⟨b', List.mem_append_left _ hb', heq⟩
    · obtain ⟨e, he⟩ := h.storeSound.addMsg_runs_off env hmem hend
      rw [he] at hrun
      cases hrun

theorem keeps_good_rmMsg : Keeps Good rmMsg.exec := by
  refine ⟨fun s a s' hrun h => ?_⟩
  have hnbrs := keeps_nbrsGood_rmMsg.rel s a s' hrun h.nbrs
  rcases (dllistContents s.msgList).eq_nil_or_concat' with hks | ⟨ks, k, hks⟩
  · rw [h.storeSound.rmMsg_nil hks] at hrun
    cases hrun
    exact h
  · obtain ⟨l, entries, hrm, hsound, hl, -, htype, -⟩ := h.storeSound.rmMsg_concat hks
    rw [hrm] at hrun
    cases hrun
    refine ⟨hsound.shape, htype.trans h.type_eq, fun key hkey => ?_, hsound.bound, hnbrs⟩
    refine h.accepted key ?_
    rw [hks]
    exact List.mem_append_left _ (hl ▸ hkey)

theorem keeps_good_rmNMsg (n : ℕ) : Keeps Good (rmNMsg n).exec := by
  induction n with
  | zero => exact Moves.exec_pure ()
  | succ n ih => exact Moves.exec_bind keeps_good_rmMsg fun _ =>
      Moves.exec_ite ih (Moves.exec_pure ())

/-! ## Runs -/

/-- What the client does: the threads' operations on the shared state. -/
inductive Operation
  | addMsg (b : DataBody)
  | rmMsg
  | rmNMsg (n : ℕ)
  | addNewNeighbour (host port : List Char)
  | processHello (b : HelloBody) (client : SockaddrIn6)
  | processNeighbour (b : NeighbourBody)
  | processData (b : DataBody) (client : SockaddrIn6)
  | processAck (b : AckBody) (pair : SockaddrIn6)
  | processGoAway (b : GoAwayBody) (pair : SockaddrIn6)
  | workerPass

/-- The code of an operation. -/
def Operation.code (env : Env) : Operation → Code Unit
  | .addMsg b => do
    let _ ← Miaouchat.addMsg env b
  | .rmMsg => do
    let _ ← Miaouchat.rmMsg
  | .rmNMsg n => Miaouchat.rmNMsg n
  | .addNewNeighbour host port => Miaouchat.addNewNeighbour env host port
  | .processHello b client => Miaouchat.processHello env b client
  | .processNeighbour b => Miaouchat.processNeighbour env b
  | .processData b client => Miaouchat.processData env b client
  | .processAck b pair => Miaouchat.processAck env b pair
  | .processGoAway b pair => Miaouchat.processGoAway env b pair
  | .workerPass => Miaouchat.workerPass env

/-- **The states the client reaches** by operations that return, the mutexes
left aside. -/
inductive Reachable : State → Prop
  | init (junk : ℕ → Option ℕ × Option ℕ) : Reachable (State.init junk)
  | step {s s' : State} (env : Env) (op : Operation) (h : Reachable s)
      (hrun : (op.code env).exec s = .ok ((), s')) : Reachable s'

/-- One operation keeps `Good`. -/
theorem keeps_good (env : Env) (op : Operation) : Keeps Good (op.code env).exec := by
  have hnbrs : ∀ {p : Code Unit}, (∀ R [Std.Refl R] [IsTrans State R], Neighbourly R →
      Moves R p.exec) → Keeps Good p.exec := fun hp =>
    ⟨fun s a s' hrun h => h.of_sameStore ((hp _ neighbourly_sameStore).rel s a s' hrun)
      ((hp _ neighbourly_nbrsGood).rel s a s' hrun h.nbrs)⟩
  cases op with
  | addMsg b => exact Moves.exec_bind (keeps_good_addMsg env b) fun _ => Moves.exec_pure ()
  | rmMsg => exact Moves.exec_bind keeps_good_rmMsg fun _ => Moves.exec_pure ()
  | rmNMsg n => exact keeps_good_rmNMsg n
  | addNewNeighbour host port => exact hnbrs fun R _ _ hR => hR.addNewNeighbour env host port
  | processHello b client => exact hnbrs fun R _ _ hR => hR.processHello env b client
  | processNeighbour b => exact hnbrs fun R _ _ hR => hR.processNeighbour env b
  | processData b client =>
    have hack : Keeps Good (sendAck env client b.senderId b.nonce) :=
      ⟨fun s a s' hrun h => h.of_sameStore
        ((neighbourly_sameStore.sendMsg ..).rel s a s' hrun)
        ((neighbourly_nbrsGood.sendMsg ..).rel s a s' hrun h.nbrs)⟩
    exact Moves.exec_bind hack.call fun _ =>
      Moves.exec_bind (keeps_good_addMsg env b) fun _ => Moves.exec_pure ()
  | processAck b pair => exact hnbrs fun R _ _ hR => hR.processAck env b pair
  | processGoAway b pair => exact hnbrs fun R _ _ hR => hR.processGoAway env b pair
  | workerPass => exact hnbrs fun R _ _ hR => hR.workerPass env

/-- **Every state reached is good.** -/
theorem Reachable.good {s : State} (h : Reachable s) : Good s := by
  induction h with
  | init junk => exact .init junk
  | step env op _ hrun ih => exact (keeps_good env op).rel _ _ _ hrun ih

end Miaouchat
