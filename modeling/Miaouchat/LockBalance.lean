import Miaouchat.Reachable

/-!
# Balanced locking

The mutexes are default ones: a thread must not take one it holds, nor give up
one it does not hold. For each of nine calls, made by a thread that holds none,
this module says from which states the call keeps to this and leaves the thread
with none (`LockCall.balanced_iff`).

Three slips decide it. `is_in_msg_list` returns from an empty list with the
mutex still taken, and `add_msg` goes on to take it again. `rm_msg` gives up
the mutex of an empty list twice. `process_hello` calls `add_new_neighbour`
with the mutexes of the maps taken, and this takes one of them for each address
it goes over.

What `send_ack` frees in `process_data` is left aside: it takes no mutex and gives
up none.
-/

namespace Miaouchat

/-- **The code, run from `s` by a thread that holds no mutex, locks and unlocks
as it should and returns with none held.** -/
def LocksBalanced {α : Type} (p : Code α) (s : State) : Prop :=
  p.Balanced (fun _ _ H => H = ∅) s ∅

/-- What is returned does not matter. -/
theorem locksBalanced_discard {α : Type} (p : Code α) (s : State) :
    LocksBalanced (do let _ ← p) s ↔ LocksBalanced p s := by
  unfold LocksBalanced
  rw [Prog.balanced_bind]
  rfl

/-! ## The messages -/

section Messages

variable {s : State} {Q : Bool → State → Finset Mutex → Prop}

/-- `is_in_msg_list` keeps the mutex of an empty list. -/
theorem balanced_isInMsgList_empty (h : s.msgList.first = none) (b : DataBody) :
    (isInMsgList b).Balanced Q s ∅ ↔ Q false s {.msgList} := by
  unfold isInMsgList getMsgList
  rw [Prog.balanced_take_bind, Prog.balanced_get_bind, if_pos h]
  exact and_iff_right (Finset.notMem_empty _)

theorem locksBalanced_isInMsgList_of_ne (h : s.msgList.first ≠ none) (b : DataBody) :
    LocksBalanced (isInMsgList b) s := by
  unfold LocksBalanced isInMsgList getMsgList
  refine .take (by decide) ?_
  rw [Prog.balanced_get_bind, if_neg h]
  exact .call fun _ _ _ => .give (by decide) (.done (by decide))

theorem locksBalanced_isInMsgList (b : DataBody) (s : State) :
    LocksBalanced (isInMsgList b) s ↔ s.msgList.first ≠ none := by
  refine ⟨fun hb h => ?_, fun h => locksBalanced_isInMsgList_of_ne h b⟩
  exact absurd ((balanced_isInMsgList_empty h b).mp hb) (by decide)

theorem locksBalanced_addMsg (env : Env) (b : DataBody) (s : State) :
    LocksBalanced (addMsg env b) s ↔ s.msgList.first ≠ none := by
  unfold LocksBalanced addMsg getMsgMap getMsgList getCurNeighbours
  constructor
  · intro hb h
    rw [Prog.balanced_bind, balanced_isInMsgList_empty h, if_neg Bool.false_ne_true,
      Prog.balanced_take_bind, Prog.balanced_bind, Prog.balanced_call] at hb
    -- the mutex of the list is taken again
    exact absurd (hb.2 _ _ rfl).1 (by decide)
  · intro h
    rw [Prog.balanced_bind_iff_exec (locksBalanced_isInMsgList_of_ne h b)]
    intro known s' _
    split
    · rfl
    · exact .take (by decide) <| .call fun _ _ _ => .take (by decide) <| .call fun _ _ _ =>
        .take (by decide) <| .call fun _ _ _ => .call fun _ _ _ => .give (by decide) <|
          .give (by decide) <| .give (by decide) (.done (by decide))

/-- `rm_msg` gives up the mutex of an empty list twice. -/
theorem not_balanced_rmMsg_empty (h : dllistIsEmpty s.msgList = true) :
    ¬ rmMsg.Balanced Q s ∅ := by
  have hpop : popKey s = .ok (none, s) := popKey_ok (dllistPopBack_of_isEmpty h)
  unfold rmMsg getMsgList getMsgMap
  rw [Prog.balanced_take_bind, Prog.balanced_take_bind, Prog.balanced_call_bind hpop]
  rintro ⟨-, -, -, htwice, -⟩
  exact absurd htwice (by decide)

/-- A list that is not empty gives a key. -/
theorem popKey_ne_none {s' : State} (h : dllistIsEmpty s.msgList = false) :
    popKey s ≠ .ok (none, s') := by
  intro hpop
  unfold popKey at hpop
  rw [get_bind] at hpop
  obtain ⟨⟨key, l⟩, s₁, hl, hrest⟩ := bind_eq_ok hpop
  cases hrest
  exact dllistPopBack_ne_none h (lift_eq_ok hl).1

theorem locksBalanced_rmMsg_of_not_empty (h : dllistIsEmpty s.msgList = false) :
    LocksBalanced rmMsg s := by
  unfold LocksBalanced rmMsg getMsgList getMsgMap getCurNeighbours
  refine .take (by decide) <| .take (by decide) <| .call fun key s' hpop => ?_
  cases key with
  | none => exact absurd hpop (popKey_ne_none h)
  | some key =>
    exact .call fun _ _ _ => .take (by decide) <| .call fun _ _ _ => .give (by decide) <|
      .give (by decide) <| .give (by decide) (.done (by decide))

theorem locksBalanced_rmMsg (s : State) :
    LocksBalanced rmMsg s ↔ dllistIsEmpty s.msgList = false := by
  refine ⟨fun hb => ?_, locksBalanced_rmMsg_of_not_empty⟩
  rw [← Bool.not_eq_true]
  exact fun h => not_balanced_rmMsg_empty h hb

/-- **`n` calls of `rm_msg`, one after the other, find no empty list**, as long
as they return. -/
def Removable : ℕ → State → Prop
  | 0, _ => True
  | n + 1, s => dllistIsEmpty s.msgList = false
    ∧ ∀ s', rmMsg.exec s = .ok (true, s') → Removable n s'

theorem locksBalanced_rmNMsg (n : ℕ) (s : State) :
    LocksBalanced (rmNMsg n) s ↔ Removable n s := by
  induction n generalizing s with
  | zero => exact iff_of_true rfl trivial
  | succ n ih =>
    unfold LocksBalanced rmNMsg Removable
    cases h : dllistIsEmpty s.msgList with
    | true =>
      refine iff_of_false (fun hb => ?_) (fun hr => Bool.false_ne_true hr.1.symm)
      rw [Prog.balanced_bind] at hb
      exact not_balanced_rmMsg_empty h hb
    | false =>
      rw [Prog.balanced_bind_iff_exec (locksBalanced_rmMsg_of_not_empty h),
        and_iff_right rfl]
      constructor
      · exact fun hb s' hrun => (ih s').mp (hb true s' hrun)
      · intro hr removed s' hrun
        cases removed with
        | false => exact .done rfl
        | true => exact (ih s').mpr (hr s' hrun)

/-- **Where the messages are sound, `rm_msg` can be called as often as there are
keys.** -/
theorem StoreSound.removable_iff (h : StoreSound s) (n : ℕ) :
    Removable n s ↔ n ≤ (dllistContents s.msgList).length := by
  induction n generalizing s with
  | zero => exact iff_of_true trivial (Nat.zero_le _)
  | succ n ih =>
    rw [Removable, ← Bool.not_eq_true, h.isEmpty_iff]
    rcases (dllistContents s.msgList).eq_nil_or_concat' with hks | ⟨ks, k, hks⟩
    · rw [hks]
      exact iff_of_false (fun hr => hr.1 rfl) (Nat.not_succ_le_zero n)
    · obtain ⟨l, entries, hrun, hsound, hl, -⟩ := h.rmMsg_concat hks
      rw [hks, List.length_append, List.length_singleton, Nat.succ_le_succ_iff, ← hl,
        ← ih hsound]
      constructor
      · exact fun hr => hr.2 _ hrun
      · refine fun hr => ⟨by simp, fun s' hrun' => ?_⟩
        cases hrun.symm.trans hrun'
        exact hr

end Messages

/-! ## The neighbours -/

section Neighbours

variable {s : State} {Q : Unit → State → Finset Mutex → Prop}

/-- Adding addresses is balanced where no mutex is held. -/
theorem locksBalanced_addAddresses (env : Env) (hello : List UInt8) (i : ℕ)
    (ps : List SockaddrIn6) (s : State) : LocksBalanced (addAddresses env hello i ps) s := by
  have hadd : ∀ p i s, LocksBalanced (addAddress env hello i p) s := by
    intro p i s
    unfold LocksBalanced addAddress getCurNeighbours getPotNeighbours
    refine .call fun ok s' _ => ?_
    split
    all_goals
      exact .take (by decide) <| .call fun _ _ _ => .call fun _ _ _ =>
        .give_done (by decide) (by decide)
  induction ps generalizing i s with
  | nil => exact .done rfl
  | cons p ps ih =>
    unfold LocksBalanced addAddresses
    rw [Prog.balanced_bind_iff_exec (hadd p i s)]
    exact fun _ s' _ => ih (i + 1) s'

/-- The mutexes `process_hello` holds when it looks the peer up. -/
abbrev bothMaps : Finset Mutex := insert .potNeighbours (insert .curNeighbours ∅)

/-- With the mutexes of both maps held, the first address is one too many. -/
theorem not_balanced_addAddresses_cons (env : Env) (hello : List UInt8) (i : ℕ)
    (p : SockaddrIn6) (ps : List SockaddrIn6) (s : State) :
    ¬ (addAddresses env hello i (p :: ps)).Balanced Q s bothMaps := by
  unfold addAddresses addAddress getCurNeighbours getPotNeighbours
  rw [Prog.balanced_bind, Prog.balanced_call_bind (udpSend_run ..)]
  split
  · exact fun h => absurd h.1 (by decide)
  · exact fun h => absurd h.1 (by decide)

theorem locksBalanced_addNewNeighbour (env : Env) (host port : List Char) (s : State) :
    LocksBalanced (addNewNeighbour env host port) s := by
  unfold LocksBalanced addNewNeighbour
  cases env.getaddrinfo host port with
  | none => exact .done rfl
  | some ai => exact .call fun hello s' _ => locksBalanced_addAddresses env hello 0 ai s'

/-- **The peer's address, as `process_hello` reads it, resolves to something.** -/
def Resolves (env : Env) (client : SockaddrIn6) : Prop :=
  ∃ p ps, env.getaddrinfo (env.inetNtop env.clientSlot) (portText client.port)
    = some (p :: ps)

/-- **The peer is a neighbour**, current or potential. -/
def IsNeighbour (env : Env) (client : SockaddrIn6) (s : State) : Prop :=
  newNeighbourKeySock env client ∈ s.cur.keys ∨ newNeighbourKeySock env client ∈ s.pot.keys

/-- A peer that is known, or none of whose addresses is found, is admitted with
the mutexes left as they are. -/
theorem balanced_admitPeer {env : Env} {client : SockaddrIn6} {s' : State}
    (h : IsNeighbour env client s' ∨ ¬ Resolves env client) (s : State) :
    (admitPeer env client (newNeighbourKeySock env client) s').Balanced
      (fun _ _ H => H = bothMaps) s bothMaps := by
  unfold admitPeer
  split
  · exact .done rfl
  · rename_i hcur
    split
    · rename_i hpot
      have hno : ¬ Resolves env client := h.resolve_left fun hn => by
        rw [IsNeighbour, Map.mem_keys_iff, Map.mem_keys_iff] at hn
        rcases hn with ⟨e, he⟩ | ⟨e, he⟩
        · exact hcur (by rw [he]; rfl)
        · rw [he] at hpot
          cases hpot
      unfold addNewNeighbour
      cases hai : env.getaddrinfo (env.inetNtop env.clientSlot) (portText client.port) with
      | none => exact .done rfl
      | some ai =>
        cases ai with
        | nil => exact .call fun _ _ _ => .done rfl
        | cons p ps => exact absurd ⟨p, ps, hai⟩ hno
    · exact .call fun _ _ _ => .done rfl

/-- Any other peer is added with the mutexes of both maps held. -/
theorem not_balanced_admitPeer {env : Env} {client : SockaddrIn6} {s' : State}
    (hunknown : ¬ IsNeighbour env client s') (hresolves : Resolves env client) (s : State) :
    ¬ (admitPeer env client (newNeighbourKeySock env client) s').Balanced Q s bothMaps := by
  rw [IsNeighbour, not_or, ← mapGet_eq_none_iff, ← mapGet_eq_none_iff] at hunknown
  obtain ⟨p, ps, hai⟩ := hresolves
  unfold admitPeer addNewNeighbour
  rw [hunknown.1, hunknown.2, hai]
  simp only [Option.isSome_none, Bool.false_eq_true, if_false, Option.isNone_none, if_true]
  rw [Prog.balanced_call_bind (serialized_run ..)]
  exact not_balanced_addAddresses_cons env _ 0 p ps s

theorem locksBalanced_processHello (env : Env) (b : HelloBody) (client : SockaddrIn6)
    (s : State) :
    LocksBalanced (processHello env b client) s
      ↔ IsNeighbour env client s ∨ ¬ Resolves env client := by
  -- the answer takes no mutex and leaves the maps alone
  have hanswer : LocksBalanced (answerHello env b client) s := by
    unfold LocksBalanced answerHello
    split
    · exact .done rfl
    · exact (Prog.balanced_call ..).mpr fun _ _ _ => rfl
  obtain ⟨s₁, hrun, hsame⟩ : ∃ s₁, (answerHello env b client).exec s = .ok ((), s₁)
      ∧ (IsNeighbour env client s₁ ↔ IsNeighbour env client s) := by
    unfold answerHello
    split
    · exact ⟨s, rfl, Iff.rfl⟩
    · exact ⟨_, (Prog.exec_call ..).trans (sendMsg_run ..), Iff.rfl⟩
  unfold LocksBalanced processHello getCurNeighbours getPotNeighbours
  rw [Prog.balanced_bind_iff_exec hanswer]
  constructor
  · intro h
    by_contra hno
    rw [not_or, not_not, ← hsame] at hno
    have hrest := h () s₁ hrun
    rw [Prog.balanced_take_bind, Prog.balanced_take_bind,
      Prog.balanced_get_bind, Prog.balanced_bind] at hrest
    exact not_balanced_admitPeer hno.1 hno.2 s₁ hrest.2.2
  · intro h _ s' hrun'
    cases hrun.symm.trans hrun'
    refine .take (by decide) <| .take (by decide) ?_
    rw [Prog.balanced_get_bind,
      Prog.balanced_bind_iff_exec (balanced_admitPeer ((or_congr_left hsame).mpr h) s₁)]
    exact fun _ _ _ => .give (by decide) (.give_done (by decide) (by decide))

theorem locksBalanced_processAck (env : Env) (b : AckBody) (pair : SockaddrIn6) (s : State) :
    LocksBalanced (processAck env b pair) s := by
  unfold LocksBalanced processAck getCurNeighbours
  exact .take (by decide) <| .call fun _ _ _ => .call fun _ _ _ => .call fun _ _ _ =>
    .give_done (by decide) (by decide)

theorem locksBalanced_processGoAway (env : Env) (b : GoAwayBody) (pair : SockaddrIn6)
    (s : State) : LocksBalanced (processGoAway env b pair) s := by
  unfold LocksBalanced processGoAway getCurNeighbours getPotNeighbours
  exact .take (by decide) <| .take (by decide) <| .call fun _ _ _ => .call fun _ _ _ =>
    .call fun _ _ _ => .call fun _ _ _ => .give (by decide) (.give_done (by decide) (by decide))

theorem locksBalanced_processData (env : Env) (b : DataBody) (client : SockaddrIn6)
    (s : State) : LocksBalanced (processData env b client) s ↔ s.msgList.first ≠ none := by
  obtain ⟨s₁, hack, hsame⟩ : ∃ s₁, sendAck env client b.senderId b.nonce s = .ok ((), s₁)
      ∧ s₁.msgList = s.msgList := ⟨_, sendMsg_run .., rfl⟩
  unfold processData
  rw [LocksBalanced, Prog.balanced_call_bind hack, ← hsame]
  exact (locksBalanced_discard _ _).trans (locksBalanced_addMsg env b _)

end Neighbours

/-! ## The nine calls -/

/-- A call of a thread that holds no mutex. -/
inductive LockCall
  | isInMsgList (b : DataBody)
  | addMsg (env : Env) (b : DataBody)
  | rmMsg
  | rmNMsg (n : ℕ)
  | processHello (env : Env) (b : HelloBody) (client : SockaddrIn6)
  | processNeighbour (env : Env) (b : NeighbourBody)
  | processData (env : Env) (b : DataBody) (client : SockaddrIn6)
  | processAck (env : Env) (b : AckBody) (pair : SockaddrIn6)
  | processGoAway (env : Env) (b : GoAwayBody) (pair : SockaddrIn6)

namespace LockCall

def code : LockCall → Code Unit
  | .isInMsgList b => do
    let _ ← Miaouchat.isInMsgList b
  | .addMsg env b => do
    let _ ← Miaouchat.addMsg env b
  | .rmMsg => do
    let _ ← Miaouchat.rmMsg
  | .rmNMsg n => Miaouchat.rmNMsg n
  | .processHello env b client => Miaouchat.processHello env b client
  | .processNeighbour env b => Miaouchat.processNeighbour env b
  | .processData env b client => Miaouchat.processData env b client
  | .processAck env b pair => Miaouchat.processAck env b pair
  | .processGoAway env b pair => Miaouchat.processGoAway env b pair

/-- **The states a call may be made from.** -/
def Fits (s : State) : LockCall → Prop
  | .isInMsgList _ | .addMsg _ _ | .processData _ _ _ => s.msgList.first ≠ none
  | .rmMsg => dllistIsEmpty s.msgList = false
  | .rmNMsg n => Removable n s
  | .processHello env _ client => IsNeighbour env client s ∨ ¬ Resolves env client
  | .processNeighbour _ _ | .processAck _ _ _ | .processGoAway _ _ _ => True

/-- **A call is balanced from exactly the states it may be made from**; and
where the messages are sound, `rm_n_msg` may be asked for as many as there are
keys in the list. -/
theorem balanced_iff (c : LockCall) (s : State) :
    (LocksBalanced c.code s ↔ c.Fits s)
    ∧ (StoreSound s → ∀ n,
      (LockCall.rmNMsg n).Fits s ↔ n ≤ (dllistContents s.msgList).length) := by
  refine ⟨?_, fun hs n => hs.removable_iff n⟩
  cases c with
  | isInMsgList b => exact (locksBalanced_discard _ s).trans (locksBalanced_isInMsgList b s)
  | addMsg env b => exact (locksBalanced_discard _ s).trans (locksBalanced_addMsg env b s)
  | rmMsg => exact (locksBalanced_discard _ s).trans (locksBalanced_rmMsg s)
  | rmNMsg n => exact locksBalanced_rmNMsg n s
  | processHello env b client => exact locksBalanced_processHello env b client s
  | processNeighbour env b => exact iff_of_true (locksBalanced_addNewNeighbour ..) trivial
  | processData env b client => exact locksBalanced_processData env b client s
  | processAck env b pair => exact iff_of_true (locksBalanced_processAck env b pair s) trivial
  | processGoAway env b pair =>
    exact iff_of_true (locksBalanced_processGoAway env b pair s) trivial

/-- No message has been received, so none can be removed. -/
theorem balanced_iff_init :
    ¬ LocksBalanced (LockCall.rmNMsg 1).code (State.init fun _ => (none, none)) := by
  obtain ⟨hfits, hcount⟩ := balanced_iff (.rmNMsg 1) (State.init fun _ => (none, none))
  rw [hfits, hcount (Good.init _).storeSound]
  decide

/-- The first message a client looks for leaves the mutex of the list taken. -/
theorem not_balanced_isInMsgList :
    ¬ ∀ (c : LockCall) (s : State), LocksBalanced c.code s := by
  intro h
  have hb := h (.isInMsgList ⟨7, 1, 0, 0, []⟩) (State.init fun _ => (none, none))
  exact absurd ((locksBalanced_isInMsgList _ _).mp ((locksBalanced_discard _ _).mp hb))
    (fun hne => hne rfl)

end LockCall

end Miaouchat
