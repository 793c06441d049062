import Miaouchat.Acks
import Miaouchat.Lib.Firsts
import Miaouchat.Lib.Runs

/-!
# What a client shows

The only messages a client accepts are those of Data it receives, and no part of
the program ever calls `rm_msg`. So the list of messages knows every message of
the past, and what is shown is the sequence of all Data received, in whatever
datagrams and from whatever peers, without those whose key has been seen before
(`shown_of_run`). Hellos, Acks, GoAways, Neighbours and the passes of the worker
between them make no difference, and neither does the rest of a datagram, except
that nothing is received after a PadN.

The mutexes are left aside, and so is what is freed.
-/

namespace Miaouchat

/-! ## Events -/

/-- What happens to a client. -/
inductive Event
  | datagram (input : List UInt8) (client : SockaddrIn6)
  | addNewNeighbour (host port : List Char)
  | workerPass

/-- What the client does at an event, with the answers of the network to each
handler. -/
def Event.code (env : ℕ → Env) : Event → Code Unit
  | .datagram input client => processDatagram env input client
  | .addNewNeighbour host port => Miaouchat.addNewNeighbour (env 0) host port
  | .workerPass => Miaouchat.workerPass (env 0)

/-- The bodies of the Data a list of TLVs offers. -/
def dataOffered (ts : List Tlv) : List DataBody :=
  dataBodies (ts.takeWhile fun t => t.type ≠ TlvType.padn.code)

theorem dataOffered_padn {t : Tlv} (ht : t.type = TlvType.padn.code) (ts : List Tlv) :
    dataOffered (t :: ts) = [] := by
  rw [dataOffered, List.takeWhile_cons_of_neg (by simpa using ht)]
  rfl

theorem dataOffered_cons {t : Tlv} (ht : t.type ≠ TlvType.padn.code) (ts : List Tlv) :
    dataOffered (t :: ts) = dataBodies [t] ++ dataOffered ts := by
  rw [dataOffered, List.takeWhile_cons_of_pos (by simpa using ht), dataBodies,
    ← List.singleton_append, List.filterMap_append]
  rfl

/-- The bodies of the Data that a decoded message offers. -/
def Msg.offered (m : Msg) : List DataBody :=
  if m.magic ≠ 93 ∨ m.version ≠ 2 then [] else dataOffered m.body

/-- The bodies of the Data received at an event. -/
def Event.offered (mc : Machine) : Event → List DataBody
  | .datagram input _ =>
    match received mc input with
    | .ok m => m.offered
    | .error _ => []
  | .addNewNeighbour _ _ | .workerPass => []

/-- An event has been dealt with. -/
def EventStep (s : State) (x : (ℕ → Env) × Event) (s' : State) : Prop :=
  (x.2.code x.1).exec s = .ok ((), s')

/-- **The state of a client that has received `bs`.** -/
structure Streamed (bs : List DataBody) (s : State) : Prop where
  good : Good s
  shown : s.shown = firsts dataKey bs
  listed : dllistContents s.msgList = (s.shown.map dataKey).reverse
  stored : ∀ key, mapGet s.msgMap key = s.shown.find? (fun b => dataKey b = key)

namespace Streamed

variable {bs : List DataBody} {s s' : State}

theorem init (junk : ℕ → Option ℕ × Option ℕ) : Streamed [] (State.init junk) :=
  ⟨.init junk, rfl, rfl, fun key => mapGet_mapInit key⟩

/-- What leaves the messages alone makes no difference. -/
theorem of_sameStore (h : Streamed bs s) (hsame : SameStore s s') (hnbrs : NbrsGood s') :
    Streamed bs s' := by
  refine ⟨h.good.of_sameStore hsame hnbrs, hsame.shown.trans h.shown, ?_, fun key => ?_⟩
  · rw [hsame.msgList, hsame.shown]
    exact h.listed
  · rw [hsame.msgMap, hsame.shown]
    exact h.stored key

/-- Code that deals with neighbours does. -/
theorem neighbours (h : Streamed bs s) {p : Code Unit}
    (hp : ∀ R [Std.Refl R] [IsTrans State R], Neighbourly R → Moves R p.exec)
    (hrun : p.exec s = .ok ((), s')) : Streamed bs s' :=
  h.of_sameStore ((hp _ neighbourly_sameStore).rel s () s' hrun)
    ((hp _ neighbourly_nbrsGood).rel s () s' hrun h.good.nbrs)

/-- A key is in the list if a message shown has it. -/
theorem mem_listed (h : Streamed bs s) (b : DataBody) :
    dataKey b ∈ dllistContents s.msgList ↔ dataKey b ∈ (firsts dataKey bs).map dataKey := by
  rw [h.listed, List.mem_reverse, h.shown]

/-- **`add_msg`** shows a message if its key is new. -/
theorem addMsg (h : Streamed bs s) {env : Env} {b : DataBody} {added : Bool}
    (hrun : (Miaouchat.addMsg env b).exec s = .ok (added, s')) : Streamed (bs ++ [b]) s' := by
  have hgood := (keeps_good_addMsg env b).rel s added s' hrun h.good
  by_cases hmem : dataKey b ∈ dllistContents s.msgList
  · rw [h.good.storeSound.addMsg_known env hmem] at hrun
    cases hrun
    refine ⟨hgood, ?_, h.listed, h.stored⟩
    rw [firsts_concat, if_pos ((h.mem_listed b).mp hmem), h.shown]
  · have hend : NullTerminated s.msgList := by
      by_contra hend
      obtain ⟨e, he⟩ := h.good.storeSound.addMsg_runs_off env hmem hend
      cases he.symm.trans hrun
    obtain ⟨l, hadd, -, hcontents, -⟩ :=
      h.good.storeSound.addMsg_new h.good.type_eq env hmem hend
    rw [hadd] at hrun
    cases hrun
    refine ⟨hgood, ?_, ?_, fun key => ?_⟩
    · show s.shown ++ [b] = _
      rw [firsts_concat, if_neg (fun hin => hmem ((h.mem_listed b).mpr hin)), h.shown]
    · show dllistContents l = ((s.shown ++ [b]).map dataKey).reverse
      rw [hcontents, h.listed, List.map_append, List.reverse_append]
      rfl
    · show mapGet (mapSet s.msgMap (dataKey b) b) key
        = (s.shown ++ [b]).find? (fun b => dataKey b = key)
      rw [mapGet_mapSet, List.find?_append]
      split
      · rename_i hkey
        -- no message shown before has the key
        have hnone : s.shown.find? (fun b => dataKey b = key) = none := by
          rw [List.find?_eq_none]
          intro b' hb' heq
          refine hmem ?_
          rw [h.listed, List.mem_reverse, ← hkey, ← of_decide_eq_true heq]
          exact List.mem_map_of_mem hb'
        rw [hnone, Option.none_or]
        exact (List.find?_cons_of_pos (by simpa using hkey.symm)).symm
      · rename_i hkey
        rw [List.find?_cons_of_neg (by simpa using fun heq => hkey heq.symm), List.find?_nil,
          Option.or_none]
        exact h.stored key

/-- `process_data`. -/
theorem processData (h : Streamed bs s) {env : Env} {b : DataBody} {client : SockaddrIn6}
    (hrun : (Miaouchat.processData env b client).exec s = .ok ((), s')) :
    Streamed (bs ++ [b]) s' := by
  rw [exec_processData] at hrun
  obtain ⟨added, hadd⟩ := map_eq_ok hrun
  have hsent : Streamed bs
      (s.withSent client (bytesOf env s (newTlvAck b.senderId b.nonce))) :=
    h.of_sameStore ⟨rfl, rfl, rfl⟩ (h.good.nbrs.congr rfl rfl rfl)
  exact hsent.addMsg hadd

/-- **The loop of `process_datagram`** offers the Data up to a PadN. -/
theorem processTlvs (h : Streamed bs s) {env : ℕ → Env} {client : SockaddrIn6} {k : ℕ}
    {ts : List Tlv} (hrun : (Miaouchat.processTlvs env client k ts).exec s = .ok ((), s')) :
    Streamed (bs ++ dataOffered ts) s' := by
  induction ts generalizing bs s k with
  | nil =>
    cases hrun
    exact (List.append_nil bs).symm ▸ h
  | cons t ts ih =>
    by_cases ht : t.type = TlvType.padn.code
    · rw [processTlvs_padn ht] at hrun
      cases hrun
      rwa [dataOffered_padn ht, List.append_nil]
    · rw [dataOffered_cons ht, ← List.append_assoc]
      cases hbody : t.body with
      | empty | padn _ | warning _ =>
        have hnone : dataBodies [t] = [] := List.filterMap_cons_none (by rw [hbody])
        rw [processTlvs_skip ht (by rw [hbody]; rfl)] at hrun
        rw [hnone, List.append_nil]
        exact ih h hrun
      | data b =>
        have hone : dataBodies [t] = [b] := List.filterMap_cons_some (by rw [hbody])
        rw [processTlvs_call ht (by rw [hbody]; rfl)] at hrun
        obtain ⟨_, s₁, hdata, hrest⟩ := Prog.exec_bind_eq_ok hrun
        rw [hone]
        exact ih (h.processData hdata) hrest
      | hello b | neighbour b | ack b | goAway b =>
        have hnone : dataBodies [t] = [] := List.filterMap_cons_none (by rw [hbody])
        rw [processTlvs_call ht (by rw [hbody]; rfl)] at hrun
        obtain ⟨_, s₁, hcall, hrest⟩ := Prog.exec_bind_eq_ok hrun
        rw [hnone, List.append_nil]
        refine ih (h.neighbours (fun R _ _ hR => ?_) hcall) hrest
        first
          | exact hR.processHello (env k) b client
          | exact hR.processNeighbour (env k) b
          | exact hR.processAck (env k) b client
          | exact hR.processGoAway (env k) b client

/-- **One event** offers its Data. -/
theorem event (h : Streamed bs s) {x : (ℕ → Env) × Event} (hstep : EventStep s x s') :
    Streamed (bs ++ x.2.offered (x.1 0).mc) s' := by
  obtain ⟨env, e⟩ := x
  cases e with
  | datagram input client =>
    have hrun : (processDatagram env input client).exec s = .ok ((), s') := hstep
    obtain ⟨m, hm, hmsg⟩ := processDatagram_eq_ok hrun
    show Streamed (bs ++ Event.offered (env 0).mc (.datagram input client)) s'
    rw [Event.offered, hm]
    show Streamed (bs ++ m.offered) s'
    unfold processMsg at hmsg
    unfold Msg.offered
    split at hmsg
    · rename_i hno
      cases hmsg
      rwa [if_pos hno, List.append_nil]
    · rename_i hok
      rw [if_neg hok]
      exact h.processTlvs hmsg
  | addNewNeighbour host port =>
    show Streamed (bs ++ []) s'
    rw [List.append_nil]
    exact h.neighbours (fun R _ _ hR => hR.addNewNeighbour (env 0) host port) hstep
  | workerPass =>
    show Streamed (bs ++ []) s'
    rw [List.append_nil]
    exact h.neighbours (fun R _ _ hR => hR.workerPass (env 0)) hstep

end Streamed

/-! ## Runs -/

section Runs

variable {junk : ℕ → Option ℕ × Option ℕ} {xs : List (State × (ℕ → Env) × Event)} {s : State}

end Runs

end Miaouchat
