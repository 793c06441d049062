import Miaouchat.Retries

/-!
# One pass

A pass of `worker_iter_msg` is to handle each pending message once: those that
are due are sent in the order of the list, each in one datagram, and count one
try more, and the others are left alone.

No pass over a list that is not empty does. On a first message that is not due the
loop goes on for ever, since it never goes on to the next node; and a pass that
sends anything frees `tab` and does not return.
-/

namespace Miaouchat

/-! ## What a pass is to do -/

/-- The message is due. -/
def DllistMsg.due (env : Env) (m : DllistMsg) : Bool := m.timeSend < env.time

/-- **What a pass is to make of a message**: one that is due counts one try more,
and keeps its body, and any other is left as it is. -/
def Handled (env : Env) (m m' : DllistMsg) : Prop :=
  if m.due env then m'.tries = m.tries + 1 ∧ m'.body = m.body else m' = m

/-- **A pass handles every pending message once**: it returns; and unless a message
that is due has been tried five times, the messages that are due are in the
datagrams of the pass, once each and in order, and each message is handled. -/
def HandlesOnce (env : Env) (e : ℕ) (s : State) : Prop :=
  ∃ status s' nbr nbr', workerIterMsg env e s = .ok (status, s')
    ∧ s.entries e = some nbr ∧ s'.entries e = some nbr'
    ∧ ((∀ m ∈ dllistContents nbr.msgToSend, m.due env → ¬ 5 ≤ m.tries) →
      List.Forall₂ (Handled env) (dllistContents nbr.msgToSend)
          (dllistContents nbr'.msgToSend)
        ∧ ∃ batches, s'.sent = s.sent ++ datagrams env nbr.addr s.sent.length batches
          ∧ batches.flatten = ((dllistContents nbr.msgToSend).filter (·.due env)).map
              fun m => newTlvDataB m.body)

/-! ## The pass -/

section HandlesOnce

variable {env : Env} {e : ℕ} {s : State} {nbr : NeighbourEntry} {xs : List (ℕ × DllistMsg)}
  {p q : Option ℕ}

/-- With nothing pending there is nothing to do. -/
theorem handlesOnce_nil (hnbr : s.entries e = some nbr) (hs : Shape nbr.msgToSend [] p q) :
    HandlesOnce env e s := by
  refine ⟨0, s, nbr, nbr, workerIterMsg_of_none env hnbr hs.first_eq, hnbr, hnbr, fun _ => ?_⟩
  rw [hs.contents_eq]
  exact ⟨.nil, [], (List.append_nil _).symm, rfl⟩

/-- **A pass that finds a message does not return.** -/
theorem workerIterMsg_fails (env : Env) {x : ℕ × DllistMsg} (hnbr : s.entries e = some nbr)
    (hs : Shape nbr.msgToSend (x :: xs) p q) : ∃ f, workerIterMsg env e s = .error f := by
  by_cases hdue : x.2.timeSend < env.time
  · exact ⟨.wild, workerIterMsg_due hnbr hs hdue⟩
  · exact ⟨.loop, workerIterMsg_forever hnbr hs hdue⟩

/-- **A pass handles every pending message once exactly where there is none.** -/
theorem handlesOnce_iff (env : Env) (hnbr : s.entries e = some nbr)
    (hs : Shape nbr.msgToSend xs p q) :
    HandlesOnce env e s ↔ dllistContents nbr.msgToSend = [] := by
  rw [hs.contents_eq]
  cases xs with
  | nil => exact iff_of_true (handlesOnce_nil hnbr hs) rfl
  | cons x xs =>
    refine iff_of_false ?_ (List.cons_ne_nil _ _)
    rintro ⟨status, s', nbr₁, nbr₁', hrun, -⟩
    obtain ⟨f, hf⟩ := workerIterMsg_fails env hnbr hs
    cases hf.symm.trans hrun

end HandlesOnce

/-- An entry as it is made, with nothing pending. -/
def newEntryState : State :=
  { State.init fun _ => (none, none) with
    entries := fun _ => some ⟨⟨shortIp 1, 257⟩, 1024, newDllist .msg fun _ => (none, none)⟩
    entryCount := 1 }

/-- A pass over a new neighbour. -/
theorem handlesOnce_iff_newEntry : HandlesOnce passEnv 0 newEntryState := by
  have hs := shape_newDllist (α := DllistMsg) .msg (fun _ => (none, none)) none none
  exact (handlesOnce_iff passEnv rfl hs).mpr hs.contents_eq

/-- Before its date a message keeps the pass going for ever. -/
theorem not_handlesOnce :
    ¬ ∀ (env : Env) (e : ℕ) (s : State) (nbr : NeighbourEntry) (xs : List (ℕ × DllistMsg))
        (p : Option ℕ), s.entries e = some nbr → Shape nbr.msgToSend xs p none →
        HandlesOnce env e s := by
  intro hall
  obtain ⟨status, s', nbr, nbr', hrun, -⟩ := hall shortEnv 0 (pendingState 0) _ _ none rfl
    (shape_onePending _)
  have hforever : workerIterMsg shortEnv 0 (pendingState 0) = .error .loop :=
    workerIterMsg_forever rfl (shape_onePending _) (by decide)
  cases hforever.symm.trans hrun

end Miaouchat
