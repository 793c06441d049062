import Miaouchat.MsgList

/-!
# The history of messages

The list of keys, taken with the calls that change it, is a queue without
duplicates: `add_msg` puts a key in front, `rm_msg` and `rm_n_msg` take the
oldest away. The keys it holds are bound in the map of messages, which is why
`rm_msg` always finds the body of the key it has taken off.

The mutexes are left aside here, and the node at the end of the list is taken
to have no link after it.
-/

namespace Miaouchat

/-! ## Calls on the store -/

/-- A call that changes the store. -/
inductive StoreCall
  | addMsg (env : Env) (b : DataBody)
  | rmMsg
  | rmNMsg (n : ℕ)

/-- What a call does, with the bodies it has accepted: `add_msg` returns
whether it took its own. -/
def StoreCall.run : StoreCall → M (List DataBody)
  | .addMsg env b => do
    let added ← (Miaouchat.addMsg env b).exec
    return if added then [b] else []
  | .rmMsg => do
    let _ ← Miaouchat.rmMsg.exec
    return []
  | .rmNMsg n => do
    (Miaouchat.rmNMsg n).exec
    return []

/-- Calls one after the other, with all the bodies they accepted, in order. -/
def runCalls : List StoreCall → M (List DataBody)
  | [] => return []
  | c :: cs => do
    let accepted ← c.run
    let more ← runCalls cs
    return accepted ++ more

/-! ## The invariant -/

/-- **The state of a store that has accepted `accepted`.** Read from the last
node, the list is the end of the sequence of their keys. -/
structure Recorded (accepted : List DataBody) (s : State) : Prop where
  sound : StoreSound s
  nodup : (dllistContents s.msgList).Nodup
  order : (dllistContents s.msgList).reverse <:+ accepted.map dataKey
  type_eq : s.msgList.type = .string
  /-- Nothing comes after the last node, nor after one that `malloc` has just
  returned. -/
  ends : NullTerminated s.msgList
  null : ∀ i, (s.msgList.junk i).1 = none

namespace Recorded

variable {accepted : List DataBody} {s : State}

theorem start {junk : ℕ → Option ℕ × Option ℕ} (hlist : s.msgList = newDllist .string junk)
    (hnull : ∀ i, (junk i).1 = none) (hnbrs : NbrsSound s) : Recorded [] s := by
  have hs : Shape s.msgList [] none none := hlist ▸ shape_newDllist .string junk none none
  have hcontents : dllistContents s.msgList = [] := hs.contents_eq
  refine ⟨⟨⟨_, _, _, hs⟩, ?_, hnbrs⟩, ?_, ?_, hlist ▸ rfl,
    hs.nullTerminated_iff.mpr (.inl rfl), hlist ▸ hnull⟩
  · rw [hcontents]
    exact fun _ => nofun
  · rw [hcontents]
    exact List.nodup_nil
  · rw [hcontents]
    exact List.suffix_refl _

/-- **`add_msg` of a key that is not in the list** accepts the message, and its
key comes first. -/
theorem addMsg_new (h : Recorded accepted s) (env : Env) {b : DataBody}
    (hnotMem : dataKey b ∉ dllistContents s.msgList) :
    ∃ s', (addMsg env b).exec s = .ok (true, s') ∧ Recorded (accepted ++ [b]) s'
      ∧ dllistContents s'.msgList = dataKey b :: dllistContents s.msgList := by
  obtain ⟨l, hrun, hsound, hcontents, hend, htype, hjunk⟩ :=
    h.sound.addMsg_new h.type_eq env hnotMem h.ends
  refine ⟨_, hrun, ⟨hsound, ?_, ?_, htype, hend (h.null _),
    fun i => (congrFun hjunk i).symm ▸ h.null i⟩, hcontents⟩
  · show (dllistContents l).Nodup
    rw [hcontents]
    exact List.nodup_cons.mpr ⟨hnotMem, h.nodup⟩
  · show (dllistContents l).reverse <:+ _
    obtain ⟨old, hold⟩ := h.order
    refine ⟨old, ?_⟩
    rw [hcontents, List.reverse_cons, ← List.append_assoc, hold, List.map_append]
    rfl

/-- **`rm_msg`** on a list that is not empty takes the oldest key away. -/
theorem rmMsg_concat (h : Recorded accepted s) {ks : List (List Char)} {k : List Char}
    (hks : dllistContents s.msgList = ks ++ [k]) :
    ∃ s', rmMsg.exec s = .ok (true, s') ∧ Recorded accepted s'
      ∧ dllistContents s'.msgList = ks := by
  obtain ⟨l, entries, hrun, hsound, hl, hends, htype, hjunk⟩ := h.sound.rmMsg_concat hks
  have hnodup := h.nodup
  have horder := h.order
  rw [hks] at hnodup horder
  refine ⟨_, hrun, ⟨hsound, ?_, ?_, htype.trans h.type_eq, hends,
    fun i => (congrFun hjunk i).symm ▸ h.null i⟩, hl⟩
  · show (dllistContents l).Nodup
    rw [hl]
    exact (List.nodup_append.mp hnodup).1
  · show (dllistContents l).reverse <:+ _
    rw [hl]
    rw [List.reverse_append] at horder
    exact (List.suffix_append _ _).trans horder

/-- **`rm_n_msg`** takes away the `n` oldest keys, or all of them. -/
theorem rmNMsg (h : Recorded accepted s) (n : ℕ) :
    ∃ s' old, (rmNMsg n).exec s = .ok ((), s') ∧ Recorded accepted s'
      ∧ dllistContents s.msgList = dllistContents s'.msgList ++ old
      ∧ old.length = min n (dllistContents s.msgList).length := by
  obtain ⟨s', old, hrun, hsound, hold, hlen, -, hends, htype, hjunk⟩ := h.sound.rmNMsg n
  have hnodup := h.nodup
  have horder := h.order
  rw [hold] at hnodup horder
  rw [List.reverse_append] at horder
  exact ⟨s', old, hrun, ⟨hsound, (List.nodup_append.mp hnodup).1,
    (List.suffix_append _ _).trans horder, htype.trans h.type_eq, hends h.ends,
    fun i => (congrFun hjunk i).symm ▸ h.null i⟩, hold, hlen⟩

end Recorded

/-! ## Runs -/

/-- One call keeps the invariant. -/
theorem StoreCall.run_recorded {accepted : List DataBody} {s : State}
    (h : Recorded accepted s) (c : StoreCall) :
    ∃ more s', c.run s = .ok (more, s') ∧ Recorded (accepted ++ more) s' := by
  cases c with
  | addMsg env b =>
    by_cases hmem : dataKey b ∈ dllistContents s.msgList
    · refine ⟨[], s, bind_ok (h.sound.addMsg_known env hmem), ?_⟩
      rwa [List.append_nil]
    · obtain ⟨s', hrun, h', -⟩ := h.addMsg_new env hmem
      exact ⟨[b], s', bind_ok hrun, h'⟩
  | rmMsg =>
    rcases (dllistContents s.msgList).eq_nil_or_concat' with hks | ⟨ks, k, hks⟩
    · refine ⟨[], s, bind_ok (h.sound.rmMsg_nil hks), ?_⟩
      rwa [List.append_nil]
    · obtain ⟨s', hrun, h', -⟩ := h.rmMsg_concat hks
      refine ⟨[], s', bind_ok hrun, ?_⟩
      rwa [List.append_nil]
  | rmNMsg n =>
    obtain ⟨s', old, hrun, h', -⟩ := h.rmNMsg n
    refine ⟨[], s', bind_ok hrun, ?_⟩
    rwa [List.append_nil]

/-- **No call fails, and the invariant holds after all of them.** -/
theorem runCalls_recorded {accepted : List DataBody} {s : State} (h : Recorded accepted s)
    (cs : List StoreCall) :
    ∃ more s', runCalls cs s = .ok (more, s') ∧ Recorded (accepted ++ more) s' := by
  induction cs generalizing accepted s with
  | nil =>
    refine ⟨[], s, rfl, ?_⟩
    rwa [List.append_nil]
  | cons c cs ih =>
    obtain ⟨now, s₁, hrun, h₁⟩ := c.run_recorded h
    obtain ⟨more, s', hruns, h'⟩ := ih h₁
    refine ⟨now ++ more, s', ?_, ?_⟩
    · unfold runCalls
      rw [bind_ok hrun, bind_ok hruns]
      rfl
    · rwa [← List.append_assoc]

/-! ## The queue -/

/-- **The list is a queue of the keys of `accepted`, without duplicates.** -/
structure IsHistory (accepted : List DataBody) (s : State) : Prop where
  nodup : (dllistContents s.msgList).Nodup
  /-- Newest first, it is what is left of the keys accepted, once the oldest of
  them have been taken away. -/
  order : (dllistContents s.msgList).reverse <:+ accepted.map dataKey
  bound : ∀ key ∈ dllistContents s.msgList, ∃ b, mapGet s.msgMap key = some b
  /-- A message with a new key is taken, and its key comes first. -/
  added : ∀ env b, dataKey b ∉ dllistContents s.msgList →
    ∃ s', (addMsg env b).exec s = .ok (true, s')
      ∧ dllistContents s'.msgList = dataKey b :: dllistContents s.msgList
  again : ∀ env b, dataKey b ∈ dllistContents s.msgList →
    (addMsg env b).exec s = .ok (false, s)
  /-- The lookup of `rm_msg` finds the body of the key it has taken off. -/
  removed : ∀ keys key, dllistContents s.msgList = keys ++ [key] →
    ∃ s', rmMsg.exec s = .ok (true, s') ∧ dllistContents s'.msgList = keys
  oldest : ∀ n, ∃ s' old, (rmNMsg n).exec s = .ok ((), s')
    ∧ dllistContents s.msgList = dllistContents s'.msgList ++ old
    ∧ old.length = min n (dllistContents s.msgList).length

theorem Recorded.isHistory {accepted : List DataBody} {s : State} (h : Recorded accepted s) :
    IsHistory accepted s where
  nodup := h.nodup
  order := h.order
  bound := h.sound.bound
  added := fun env _ hnotMem => by
    obtain ⟨s', hrun, -, hcontents⟩ := h.addMsg_new env hnotMem
    exact ⟨s', hrun, hcontents⟩
  again := fun env _ hmem => h.sound.addMsg_known env hmem
  removed := fun _ _ hkeys => by
    obtain ⟨s', hrun, -, hrest⟩ := h.rmMsg_concat hkeys
    exact ⟨s', hrun, hrest⟩
  oldest := fun n => by
    obtain ⟨s', old, hrun, -, hrest⟩ := h.rmNMsg n
    exact ⟨s', old, hrun, hrest⟩

/-- **Whatever calls are made from the empty store, in whatever order, they all
return, and the list is such a queue after them.** -/
theorem runCalls_isHistory {s : State} {junk : ℕ → Option ℕ × Option ℕ}
    (hlist : s.msgList = newDllist .string junk) (hnull : ∀ i, (junk i).1 = none)
    (hnbrs : NbrsSound s) (cs : List StoreCall) :
    ∃ accepted s', runCalls cs s = .ok (accepted, s') ∧ IsHistory accepted s' := by
  obtain ⟨accepted, s', hrun, h'⟩ := runCalls_recorded (.start hlist hnull hnbrs) cs
  exact ⟨accepted, s', hrun, h'.isHistory⟩

/-- From the state nothing has happened in: two messages come in, and more are
removed than there are. -/
theorem runCalls_isHistory_init :
    ∃ accepted s', runCalls [.addMsg quietEnv ⟨1, 23, 0, 0, []⟩,
        .addMsg quietEnv ⟨2, 4, 0, 0, []⟩, .rmMsg, .rmNMsg 3]
        (State.init fun _ => (none, none)) = .ok (accepted, s')
      ∧ IsHistory accepted s' :=
  runCalls_isHistory rfl (fun _ => rfl) (nbrsSound_init _) _

end Miaouchat
