import Miaouchat.Standstill

/-!
# Data races

Each of the four structures that the threads of a client share has a mutex. A
thread that is about to touch one of them holds its mutex, in every state that
is reached (`holder_of_touches`): so no two threads are about to touch the same
structure.

The entries of the neighbours are not among the four: they are made with the
mutex of either map held, and both maps lead to them.
-/

namespace Miaouchat

open Prog

/-! ## What the actions leave alone -/

/-- The action leaves alone the structures whose mutexes are not held. -/
abbrev SparesRest (H : Finset Mutex) {γ : Type} (x : M γ) : Prop :=
  ∀ m ∉ H, Spares stateGuards m x

section Spare

variable {m : Mutex}

/-! ### What is in no structure -/

theorem rest_entries {s s' : State} (h : stateGuards.rest m s s') : s.entries = s'.entries := by
  cases m <;> rw [show s' = _ from h]

theorem rest_sent {s s' : State} (h : stateGuards.rest m s s') : s.sent = s'.sent := by
  cases m <;> rw [show s' = _ from h]

theorem spares_entryAt (e : ℕ) : Spares stateGuards m (entryAt e) := by
  have hview : entryAt e
      = (get >>= fun s => StateT.lift ((s.entries e).elim (.error .wild) .ok)) := by
    refine funext fun s => (entryAt_run e s).trans ?_
    rw [get_bind]
    cases s.entries e <;> rfl
  rw [hview]
  exact .look (v := State.entries) (f := fun entries =>
    StateT.lift ((entries e).elim (.error Fault.wild) .ok)) (fun _ _ => rest_entries)
    fun _ => .lift _

theorem spares_setEntry (e : ℕ) (ent : NeighbourEntry) :
    Spares stateGuards m (setEntry e ent) := by
  refine .total (fun s => ?_) fun s s' hrest => ⟨?_, rfl⟩
  · cases m <;> rfl
  · cases m <;> (rw [show s' = _ from hrest]; rfl)

theorem spares_newNeighbourEntry (env : Env) (addr : SockaddrIn6) :
    Spares stateGuards m (newNeighbourEntry env addr) := by
  refine .total (fun s => ?_) fun s s' hrest => ⟨?_, ?_⟩
  · cases m <;> rfl
  · cases m <;> (rw [show s' = _ from hrest]; rfl)
  · cases m <;> rw [show s' = _ from hrest]

theorem spares_udpSend (pair : SockaddrIn6) (bytes : List UInt8) (ok : Bool) :
    Spares stateGuards m (udpSend pair bytes ok) := by
  refine .total (fun s => ?_) fun s s' hrest => ⟨?_, rfl⟩
  · cases m <;> rfl
  · cases m <;> (rw [show s' = _ from hrest]; rfl)

theorem spares_sendMsg (env : Env) (pair : SockaddrIn6) (ts : List Tlv) :
    Spares stateGuards m (sendMsg env pair ts) :=
  .look (v := State.sent) (f := fun sent => udpSend pair
      (serialMsg env.mc (env.frames sent.length) (newMsg ts) (newSbuff env.mc)).written
      (env.sendOk 0) >>= fun _ => pure ()) (fun _ _ => rest_sent)
    fun _ => (spares_udpSend ..).bind fun _ => .pure ()

theorem spares_rmNbrMsg (id : UInt64) (nonce : UInt32) (e : ℕ) :
    Spares stateGuards m (rmNbrMsg id nonce e) := by
  refine (spares_entryAt e).bind fun ent => .ite (.pure _) ((Spares.lift _).bind fun found => ?_)
  cases found with
  | none => exact .pure _
  | some index =>
    exact (Spares.lift _).bind fun _ => (spares_setEntry ..).bind fun _ => .pure _

theorem spares_emptyPending (e : ℕ) : Spares stateGuards m (emptyPending e) :=
  (spares_entryAt e).bind fun _ => (Spares.lift _).bind fun _ => spares_setEntry ..

theorem spares_enqueue (env : Env) (key : List Char) (b : DataBody) (e : ℕ) :
    Spares stateGuards m (enqueue env key b e) :=
  (spares_entryAt e).bind fun _ => (Spares.lift _).bind fun _ => spares_setEntry ..

theorem spares_printMessage (b : DataBody) : Spares stateGuards m (printMessage b) := by
  refine .total (fun s => ?_) fun s s' hrest => ⟨?_, rfl⟩
  · cases m <;> rfl
  · cases m <;> (rw [show s' = _ from hrest]; rfl)

/-! ### The maps of neighbours -/

section Maps

variable {w : Nbrs} (hw : m ≠ w.mutex)

include hw

theorem rest_nbrs {s s' : State} (h : stateGuards.rest m s s') : s.nbrs w = s'.nbrs w := by
  cases w <;> cases m <;> first | exact absurd rfl hw | (rw [show s' = _ from h]; rfl)

theorem same_setNbrs (s : State) (n : Map ℕ) : stateGuards.same m s (s.setNbrs w n) := by
  cases w <;> cases m <;> first | exact absurd rfl hw | rfl

theorem rest_setNbrs {s s' : State} (h : stateGuards.rest m s s') (n : Map ℕ) :
    stateGuards.rest m (s.setNbrs w n) (s'.setNbrs w n) := by
  cases w <;> cases m <;> first | exact absurd rfl hw | (rw [show s' = _ from h]; rfl)

theorem spares_mapAddNeighbourEntry (env : Env) (e : ℕ) :
    Spares stateGuards m (mapAddNeighbourEntry env w e) := by
  refine ⟨fun s a s' hrun => ?_, fun s s' hrest => ?_⟩
  · obtain ⟨_, -, ⟨-, rfl⟩ | ⟨-, rfl⟩⟩ := mapAddNeighbourEntry_eq_ok hrun
    · exact same_setNbrs hw s _
    · exact stateGuards.same_refl m _
  · rw [mapAddNeighbourEntry_run, mapAddNeighbourEntry_run, ← rest_entries hrest,
      ← rest_nbrs hw hrest]
    cases s.entries e with
    | none => exact ⟨fun _ _ => nofun, fun _ => id⟩
    | some ent =>
      dsimp only
      split
      · refine ⟨fun a t hrun => ?_, fun _ => nofun⟩
        cases hrun
        exact ⟨_, rfl, rest_setNbrs hw hrest _⟩
      · refine ⟨fun a t hrun => ?_, fun _ => nofun⟩
        cases hrun
        exact ⟨_, rfl, hrest⟩

theorem spares_mapPopNeighbour (key : List Char) :
    Spares stateGuards m (mapPopNeighbour w key) := by
  refine ⟨fun s a s' hrun => ?_, fun s s' hrest => ?_⟩
  · obtain ⟨-, rfl⟩ := mapPopNeighbour_eq_ok hrun
    exact same_setNbrs hw s _
  · rw [mapPopNeighbour_run, mapPopNeighbour_run, ← rest_nbrs hw hrest]
    cases mapGet (s.nbrs w) key with
    | none => exact ⟨fun _ _ => nofun, fun _ => id⟩
    | some e =>
      refine ⟨fun a t hrun => ?_, fun _ => nofun⟩
      cases hrun
      exact ⟨_, rfl, rest_setNbrs hw hrest _⟩

end Maps

/-! ### The loop over the current neighbours -/

/-- What a round of the loop over the current neighbours does once it has read them. -/
def neighboursRound (body : ℕ → M Unit) (n : ℕ) (iter : MapIter) (cur : Map ℕ) : M Unit := do
  let (key, iter) ← StateT.lift (mapNext cur iter)
  match key with
  | none => return ()
  | some key => do
    let e ← follow (mapGet cur key)
    body e
    forNeighbours body n iter

theorem spares_forNeighbours (hm : m ≠ .curNeighbours) {body : ℕ → M Unit}
    (hbody : ∀ e, Spares stateGuards m (body e)) (n : ℕ) (iter : MapIter) :
    Spares stateGuards m (forNeighbours body n iter) := by
  induction n generalizing iter with
  | zero => exact .throw _
  | succ n ih =>
    refine .look (v := State.cur) (f := neighboursRound body n iter)
      (fun _ _ => rest_nbrs (w := .cur) hm) fun cur => ?_
    refine (Spares.lift _).bind fun r => ?_
    obtain ⟨key, iter'⟩ := r
    cases key with
    | none => exact .pure ()
    | some key =>
      refine Spares.bind ?_ fun e => (hbody e).bind fun _ => ih iter'
      cases mapGet cur key with
      | none => exact .throw _
      | some e => exact .pure e

theorem spares_forCurNeighbours (hm : m ≠ .curNeighbours) {body : ℕ → M Unit}
    (hbody : ∀ e, Spares stateGuards m (body e)) :
    Spares stateGuards m (forCurNeighbours body) :=
  .look (v := State.cur) (f := fun cur => forNeighbours body (cur.keys.length + 1) mapIter)
    (fun _ _ => rest_nbrs (w := .cur) hm) fun _ => spares_forNeighbours hm hbody _ _

/-! ### The messages -/

theorem spares_searchKey (hm : m ≠ .msgList) (key : List Char) :
    Spares stateGuards m (searchKey key) := by
  refine .look (v := State.msgList) (f := fun l => do
    let found ← StateT.lift (dllistSearch l (· = key))
    return found.isSome) (fun s s' hrest => ?_) fun l => (Spares.lift _).bind fun _ => .pure _
  cases m <;> first | exact absurd rfl hm | rw [show s' = _ from hrest]

theorem spares_bindMsg (hm : m ≠ .msgMap) (key : List Char) (b : DataBody) :
    Spares stateGuards m (bindMsg key b) := by
  refine .total (fun s => ?_) fun s s' hrest => ⟨?_, rfl⟩
  · cases m <;> first | exact absurd rfl hm | rfl
  · cases m <;> first | exact absurd rfl hm | (rw [show s' = _ from hrest]; rfl)

/-- What `add_msg` does to the list of messages once it has read it. -/
def listKey (key : List Char) (l : Dllist (List Char)) : M Unit := do
  let (_, l) ← StateT.lift (dllistPushFront l .string (some key))
  modify fun s => { s with msgList := l }

theorem spares_listMsg (hm : m ≠ .msgList) (key : List Char) :
    Spares stateGuards m (listMsg key) := by
  refine .look (v := State.msgList) (f := listKey key) (fun s s' hrest => ?_) fun l =>
    (Spares.lift _).bind fun r => .total (fun s => ?_) fun s s' hrest => ⟨?_, rfl⟩
  · cases m <;> first | exact absurd rfl hm | rw [show s' = _ from hrest]
  · cases m <;> first | exact absurd rfl hm | rfl
  · cases m <;> first | exact absurd rfl hm | (rw [show s' = _ from hrest]; rfl)

end Spare

/-- A mutex that is held is not one of the others. -/
theorem ne_of_notMem {H : Finset Mutex} {m m' : Mutex} (hm : m ∉ H) (hm' : m' ∈ H) : m ≠ m' :=
  fun h => hm (h ▸ hm')

/-- **Every action is made with the mutexes held of what it touches.** -/
theorem permits_sparesRest : Permits (fun _ => True) SparesRest where
  shortHello := fun _ => trivial
  longHello := fun _ _ => trivial
  look := fun _ _ hv m hm => .total (stateGuards.same_refl m) fun s s' hrest =>
    ⟨hrest, hv m hm s s' hrest⟩
  lift := fun _ x _ _ => .lift x
  udpSend := fun _ pair c ok _ _ _ => spares_udpSend pair c.datagram ok
  sendMsg := fun _ env pair c _ _ _ => spares_sendMsg env pair [c.tlv]
  newNeighbourEntry := fun _ env addr _ _ => spares_newNeighbourEntry env addr
  mapAddNeighbourEntry := fun _ env _ e hw _ hm =>
    spares_mapAddNeighbourEntry (ne_of_notMem hm hw) env e
  mapTransferNeighbour := fun _ env _ _ key hw hw' _ hm =>
    (spares_mapPopNeighbour (ne_of_notMem hm hw) key).bind fun e =>
      spares_mapAddNeighbourEntry (ne_of_notMem hm hw') env e
  rmNbrMsg := fun _ id nonce e _ _ _ => spares_rmNbrMsg id nonce e
  emptyPending := fun _ e _ _ _ => spares_emptyPending e
  entryAt := fun _ e _ _ => spares_entryAt e
  workerIterMsg := fun _ _ _ hall m hm => absurd (hall m) hm
  goAway := trivial
  searchKey := fun _ key h _ hm => spares_searchKey (ne_of_notMem hm h) key
  bindMsg := fun _ key b h _ hm => spares_bindMsg (ne_of_notMem hm h) key b

theorem permitsListing_sparesRest : PermitsListing SparesRest where
  listMsg := fun _ key h _ hm => spares_listMsg (ne_of_notMem hm h) key
  enqueue := fun _ env key b h _ hm =>
    spares_forCurNeighbours (ne_of_notMem hm h) fun e => spares_enqueue env key b e
  printMessage := fun _ b _ _ => spares_printMessage b

/-! ## The threads -/

/-- **The code of every job is guarded.** -/
theorem guarded_clientJob {p : Code Unit} (h : ClientJob p) :
    p.Guarded (fun _ => True) stateGuards (fun _ H => H = ∅) ∅ := by
  refine Derives.guarded (T := fun _ _ => True) (fun _ _ _ hx => hx) ?_
  cases h with
  | pass env => exact derives_workerPass takes_any fun _ => permitsPass permits_sparesRest env
  | host env host port => exact derives_addNewNeighbour permits_sparesRest takes_any env host port
  | datagram env input client =>
    refine derives_processDatagram permits_sparesRest fun m _ => derives_processMsg ?_
    intro k t _ call hcall
    refine derives_handler permits_sparesRest takes_any (fun _ _ => .inl fun _ _ => trivial)
      (fun b _ => ?_) hcall
    exact derives_processData permits_sparesRest trivial
      (derives_addMsg permits_sparesRest permitsListing_sparesRest (fun _ _ => trivial) _ b)
      client

variable {ι : Type} [DecidableEq ι] {S : Threads ι State Mutex Fault} {s : State}

/-- Threads keep to the mutexes they hold, and touch nothing else. -/
theorem disciplined_guarded (h : ClientReach (Threads.idle s) S) :
    Threads.Disciplined (fun _ => True) (fun _ p H =>
      p.Guarded (fun _ => True) stateGuards (fun _ H => H = ∅) H) S :=
  (Threads.disciplined_idle trivial).reach (fun _ => Threads.discipline_guarded _ fun _ => id)
    (fun _ _ _ _ => guarded_clientJob) h

/-- **A thread that is about to touch one of the four structures holds its
mutex**, in every state that the threads of a client reach, from any. -/
theorem holder_of_touches (h : ClientReach (Threads.idle s) S) {t : ι} {m : Mutex}
    (ht : S.Touches stateGuards t m) : S.holder m = some t :=
  (disciplined_guarded h).touches_holds ht

/-- The server is about to bind the body of the first Data. -/
theorem holder_of_touches_data : ∃ S : Threads Party State Mutex Fault,
    S.Touches stateGuards .server .msgMap ∧ S.holder .msgMap = some .server := by
  obtain ⟨S, hrun, f, k, hcode, hnew, hold⟩ : ∃ S, dataSteps 5 = some S
      ∧ ∃ f k, S.code .server = some (.act f k)
        ∧ (f S.shared).msgMap.nnodes = 1 ∧ S.shared.msgMap.nnodes = 0 :=
    ⟨_, rfl, _, _, rfl, rfl, rfl⟩
  have htouches : S.Touches stateGuards .server .msgMap := by
    refine ⟨f, k, hcode, fun halone => ?_⟩
    have hsame := congrArg Map.nnodes (halone.writes S.shared)
    rw [hnew, hold] at hsame
    cases hsame
  exact ⟨S, htouches, holder_of_touches (clientReach_of_goAlong (.datagram ..) hrun) htouches⟩

end Miaouchat
