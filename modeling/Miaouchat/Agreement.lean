import Miaouchat.History
import Miaouchat.Lib.Runs
import Miaouchat.Reachable

/-!
# The list and the map of messages

A message received is in two structures, its key in the list and its body in
the map, and `add_msg` puts it in both. `rm_msg` takes the key off the list and
the message off the pending lists, and never touches the map: the body stays
bound for good. The two agree all along a run exactly when no call has a
message to remove (`storeAgrees_iff_removesNothing`). What is removed is
pending nowhere in any run.

The mutexes are left aside: with them `add_msg` does not return from the empty store
(`LockBalance`), where it has put the message in the map and waits for the list.
-/

namespace Miaouchat

/-- **The keys in the list are those bound in the map.** -/
def StoreAgrees (s : State) : Prop :=
  ∀ key, key ∈ dllistContents s.msgList ↔ key ∈ s.msgMap.keys

/-- **What has left the list is not pending** for any current neighbour. -/
def Forgets (s s' : State) : Prop :=
  ∀ key ∈ dllistContents s.msgList, key ∉ dllistContents s'.msgList →
    ∀ nbr e ent, mapGet s'.cur nbr = some e → s'.entries e = some ent →
      ∀ d ∈ dllistContents ent.msgToSend, dataKey d.body ≠ key

/-- A store that nothing has been put in. There may be neighbours. -/
structure EmptyStore (s : State) : Prop where
  msgList : ∃ junk, s.msgList = newDllist .string junk
  msgMap : s.msgMap = mapInit
  nbrs : NbrsGood s

/-- A call on the store that returns. -/
def StoreStep (s : State) (call : StoreCall) (s' : State) : Prop :=
  ∃ accepted, call.run s = .ok (accepted, s')

/-- **The condition on a call**: it finds nothing to remove. -/
def StoreCall.RemovesNothing (s : State) : StoreCall → Prop
  | addMsg _ _ => True
  | rmMsg => dllistContents s.msgList = []
  | rmNMsg n => n = 0 ∨ dllistContents s.msgList = []

/-! ## One call -/

/-- What the calls keep: the messages are good, and no key is in the list twice. -/
structure Stored (s : State) : Prop where
  good : Good s
  nodup : (dllistContents s.msgList).Nodup

theorem EmptyStore.contents_eq {s : State} (h : EmptyStore s) :
    dllistContents s.msgList = [] := by
  obtain ⟨junk, hlist⟩ := h.msgList
  rw [hlist]
  exact (shape_newDllist .string junk none none).contents_eq

theorem EmptyStore.stored {s : State} (h : EmptyStore s) : Stored s := by
  obtain ⟨junk, hlist⟩ := h.msgList
  have hcontents := h.contents_eq
  refine ⟨⟨⟨[], none, none, hlist ▸ shape_newDllist ..⟩, hlist ▸ rfl, ?_, ?_, h.nbrs⟩, ?_⟩
  · rw [hcontents]
    exact fun _ => nofun
  · rw [hcontents]
    exact fun _ => nofun
  · rw [hcontents]
    exact List.nodup_nil

theorem EmptyStore.storeAgrees {s : State} (h : EmptyStore s) : StoreAgrees s := by
  intro key
  rw [h.contents_eq, h.msgMap, keys_mapInit]

/-- **What a call does to the two**: nothing; or a new message goes to both; or
the oldest keys leave the list, and stay in the map. -/
theorem StoreStep.cases {s s' : State} {call : StoreCall} (h : StoreStep s call s')
    (hs : Stored s) :
    (s' = s ∧ call.RemovesNothing s)
      ∨ (call.RemovesNothing s ∧ ∃ b, dataKey b ∉ dllistContents s.msgList
          ∧ dllistContents s'.msgList = dataKey b :: dllistContents s.msgList
          ∧ s'.msgMap = mapSet s.msgMap (dataKey b) b)
      ∨ (¬ call.RemovesNothing s ∧ s'.msgMap = s.msgMap ∧ ∃ old, old ≠ []
          ∧ dllistContents s.msgList = dllistContents s'.msgList ++ old) := by
  obtain ⟨accepted, hrun⟩ := h
  have hsound := hs.good.storeSound
  cases call with
  | addMsg env b =>
    obtain ⟨added, s₁, hadd, hret⟩ := bind_eq_ok hrun
    cases hret
    by_cases hmem : dataKey b ∈ dllistContents s.msgList
    · cases (hsound.addMsg_known env hmem).symm.trans hadd
      exact .inl ⟨rfl, trivial⟩
    · by_cases hend : NullTerminated s.msgList
      · obtain ⟨l, hnew, -, hcontents, -⟩ := hsound.addMsg_new hs.good.type_eq env hmem hend
        cases hnew.symm.trans hadd
        exact .inr (.inl ⟨trivial, b, hmem, hcontents, rfl⟩)
      · obtain ⟨f, hf⟩ := hsound.addMsg_runs_off env hmem hend
        cases hf.symm.trans hadd
  | rmMsg =>
    obtain ⟨removed, s₁, hrm, hret⟩ := bind_eq_ok hrun
    cases hret
    rcases (dllistContents s.msgList).eq_nil_or_concat' with hks | ⟨ks, k, hks⟩
    · cases (hsound.rmMsg_nil hks).symm.trans hrm
      exact .inl ⟨rfl, hks⟩
    · obtain ⟨l, entries, hrm', -, hl, -⟩ := hsound.rmMsg_concat hks
      cases hrm'.symm.trans hrm
      refine .inr (.inr ⟨fun h => ?_, rfl, [k], List.cons_ne_nil _ _, ?_⟩)
      · exact absurd (hks.symm.trans h) (by simp)
      · exact hks.trans (congrArg (· ++ [k]) hl.symm)
  | rmNMsg n =>
    obtain ⟨_, s₁, hrm, hret⟩ := bind_eq_ok hrun
    cases hret
    by_cases hnone : n = 0 ∨ dllistContents s.msgList = []
    · have hsame : (Miaouchat.rmNMsg n).exec s = .ok ((), s) := by
        cases n with
        | zero => rfl
        | succ n =>
          have hks := hnone.resolve_left (Nat.succ_ne_zero n)
          unfold Miaouchat.rmNMsg
          rw [Prog.exec_bind_ok (hsound.rmMsg_nil hks)]
          rfl
      cases hsame.symm.trans hrm
      exact .inl ⟨rfl, hnone⟩
    · obtain ⟨s₂, old, hrm', -, hold, hlen, hmap, -⟩ := hsound.rmNMsg n
      cases hrm'.symm.trans hrm
      refine .inr (.inr ⟨hnone, hmap, old, ?_, hold⟩)
      rintro rfl
      rw [not_or, ← List.length_eq_zero_iff] at hnone
      rw [List.length_nil] at hlen
      omega

/-- The calls keep the messages good. -/
theorem StoreStep.stored {s s' : State} {call : StoreCall} (h : StoreStep s call s')
    (hs : Stored s) : Stored s' := by
  have hnodup : (dllistContents s'.msgList).Nodup := by
    rcases h.cases hs with ⟨rfl, -⟩ | ⟨-, b, hnew, hcontents, -⟩ | ⟨-, -, old, -, hold⟩
    · exact hs.nodup
    · rw [hcontents]
      exact List.nodup_cons.mpr ⟨hnew, hs.nodup⟩
    · have hboth := hs.nodup
      rw [hold] at hboth
      exact (List.nodup_append.mp hboth).1
  refine ⟨?_, hnodup⟩
  obtain ⟨accepted, hrun⟩ := h
  have hkeeps : Keeps Good call.run := by
    cases call with
    | addMsg env b => exact (keeps_good_addMsg env b).bind fun _ => Moves.pure _
    | rmMsg => exact keeps_good_rmMsg.bind fun _ => Moves.pure _
    | rmNMsg n => exact (keeps_good_rmNMsg n).bind fun _ => Moves.pure _
  exact hkeeps.rel s accepted s' hrun hs.good

/-- Nothing is pending for any neighbour. -/
theorem StoreStep.forgets {s s' : State} {call : StoreCall} (h : StoreStep s call s')
    (hs : Stored s) : Forgets s s' := by
  intro key _ _ nbr e ent _ hent d hd
  have hshape := ((h.stored hs).good.nbrs.empty e ent hent).2
  rw [hshape.contents_eq] at hd
  cases hd

/-- **A call keeps the agreement exactly under its condition.** -/
theorem StoreStep.storeAgrees_iff {s s' : State} {call : StoreCall} (h : StoreStep s call s')
    (hs : Stored s) (hagrees : StoreAgrees s) :
    StoreAgrees s' ↔ call.RemovesNothing s := by
  rcases h.cases hs with ⟨rfl, hnone⟩ | ⟨hnone, b, -, hcontents, hmap⟩ |
    ⟨hsome, hmap, old, hne, hold⟩
  · exact iff_of_true hagrees hnone
  · refine iff_of_true (fun key => ?_) hnone
    rw [hcontents, hmap, mem_keys_mapSet, List.mem_cons, hagrees key]
  · refine iff_of_false (fun hagrees' => ?_) hsome
    obtain ⟨key, hkey⟩ := List.exists_mem_of_ne_nil old hne
    have hbound : key ∈ s'.msgMap.keys := by
      rw [hmap, ← hagrees key, hold]
      exact List.mem_append_right _ hkey
    have hnodup := hs.nodup
    rw [hold] at hnodup
    exact (List.nodup_append.mp hnodup).2.2 key ((hagrees' key).mpr hbound) key hkey rfl

/-! ## Runs -/

/-- **In a run of calls from an empty store the list and the map agree in all
states exactly when no call has a message to remove**, and in every run what is
removed is no longer pending. -/
theorem storeAgrees_iff_removesNothing {s s' : State} {calls : List (State × StoreCall)}
    (hs : EmptyStore s) (h : Run StoreStep s calls s') :
    (((∀ x ∈ calls, StoreAgrees x.1) ∧ StoreAgrees s')
        ↔ ∀ x ∈ calls, x.2.RemovesNothing x.1)
      ∧ ∀ call s'', StoreStep s' call s'' → Forgets s' s'' := by
  have hstored : Stored s' :=
    h.invariant (P := fun _ => True) (fun _ _ _ hstep _ hs => hstep.stored hs)
      (fun _ _ => trivial) hs.stored
  refine ⟨?_, fun call s'' hstep => hstep.forgets hstored⟩
  exact h.forall_iff (fun _ _ _ hstep _ hs => hstep.stored hs)
    (fun _ _ _ hstep hs hagrees => hstep.storeAgrees_iff hs hagrees) hs.stored hs.storeAgrees

theorem emptyStore_init (junk : ℕ → Option ℕ × Option ℕ) : EmptyStore (State.init junk) :=
  ⟨⟨junk, rfl⟩, rfl, .init junk⟩

/-- Two messages come in, and `rm_n_msg` is asked for none of them. -/
theorem storeAgrees_iff_removesNothing_twice : ∃ s₁ s₂ s₃,
    StoreStep (State.init fun _ => (none, none)) (.addMsg quietEnv ⟨7, 1, 0, 0, []⟩) s₁
      ∧ StoreStep s₁ (.addMsg quietEnv ⟨2, 4, 0, 0, []⟩) s₂ ∧ StoreStep s₂ (.rmNMsg 0) s₃
      ∧ dllistContents s₃.msgList = [['2', '4'], ['7', '1']] ∧ StoreAgrees s₃ := by
  obtain ⟨s₁, s₂, s₃, hfirst, hsecond, hnone, hlist⟩ : ∃ s₁ s₂ s₃,
      StoreStep (State.init fun _ => (none, none)) (.addMsg quietEnv ⟨7, 1, 0, 0, []⟩) s₁
        ∧ StoreStep s₁ (.addMsg quietEnv ⟨2, 4, 0, 0, []⟩) s₂ ∧ StoreStep s₂ (.rmNMsg 0) s₃
        ∧ dllistContents s₃.msgList = [['2', '4'], ['7', '1']] :=
    ⟨_, _, _, ⟨_, rfl⟩, ⟨_, rfl⟩, ⟨_, rfl⟩, by decide⟩
  have hrun := ((Run.nil.snoc hfirst).snoc hsecond).snoc hnone
  refine ⟨s₁, s₂, s₃, hfirst, hsecond, hnone, hlist,
    ((storeAgrees_iff_removesNothing (emptyStore_init _) hrun).1.mpr ?_).2⟩
  intro x hx
  simp only [List.nil_append, List.cons_append, List.mem_cons, List.not_mem_nil, or_false] at hx
  rcases hx with rfl | rfl | rfl
  · trivial
  · trivial
  · exact .inl rfl

/-- A message is added and removed, and stays in the map. -/
theorem not_storeAgrees_removed :
    ¬ ∀ (s s' : State) (calls : List (State × StoreCall)), EmptyStore s →
        Run StoreStep s calls s' → StoreAgrees s' := by
  intro hall
  obtain ⟨s₁, s₂, hadd, hrm, hlist, hmap⟩ : ∃ s₁ s₂,
      StoreStep (State.init fun _ => (none, none)) (.addMsg quietEnv ⟨7, 1, 0, 0, []⟩) s₁
        ∧ StoreStep s₁ .rmMsg s₂ ∧ dllistContents s₂.msgList = []
        ∧ s₂.msgMap.keys = [['7', '1']] :=
    ⟨_, _, ⟨_, rfl⟩, ⟨_, rfl⟩, by decide, by decide⟩
  have hagrees := hall _ s₂ _ (emptyStore_init _) (.snoc (.snoc .nil hadd) hrm) ['7', '1']
  rw [hlist, hmap] at hagrees
  cases hagrees.mpr (List.mem_singleton_self _)

end Miaouchat
