import Miaouchat.Reachable

/-!
# Keys of messages

`new_data_key` prints the sender's id and the nonce one after the other, with
nothing between them, in a buffer of twenty bytes. Both are read as signed
numbers. Different messages then have the same key in three ways: a nonce is
cut off, the id of one goes on where the nonce of the other begins, or the ids
fill the buffer and differ in their last digit (`Confusable`).

The list of messages is searched by key, so a message is found in it when one
with the same key was accepted and has not been removed since.
-/

namespace Miaouchat

/-- The sender's id in a key. -/
def idText (id : UInt64) : List Char := decimalInt id.toBitVec.toInt

/-- The nonce in a key. -/
def nonceText (nonce : UInt32) : List Char := decimalInt nonce.toBitVec.toInt

/-- What is left of the nonce in a key, after the id. -/
def keptNonce (id : UInt64) (nonce : UInt32) : List Char :=
  (nonceText nonce).take (19 - (idText id).length)

/-- **When two messages have the same key.** They have the same id, and their
nonces read the same as far as they are kept; or the id of one begins with that
of the other, and goes on as the other's nonce; or both ids are at most −10¹⁸
and are the same but for the last digit. -/
def Confusable (id : UInt64) (nonce : UInt32) (id' : UInt64) (nonce' : UInt32) : Prop :=
  id = id' ∧ keptNonce id nonce = keptNonce id nonce'
  ∨ id ≠ id' ∧ (GoesOn 19 (idText id) (nonceText nonce) (idText id') (nonceText nonce')
    ∨ GoesOn 19 (idText id') (nonceText nonce') (idText id) (nonceText nonce)
    ∨ id.toBitVec.toInt ≤ -10 ^ 18 ∧ id'.toBitVec.toInt ≤ -10 ^ 18
      ∧ id.toBitVec.toInt.natAbs / 10 = id'.toBitVec.toInt.natAbs / 10)

/-! ## Long ids -/

theorem natAbs_toInt_le (id : UInt64) : id.toBitVec.toInt.natAbs ≤ 2 ^ 63 := by
  have hlow := BitVec.le_toInt id.toBitVec
  have hhigh := BitVec.toInt_lt (x := id.toBitVec)
  omega

/-- **The ids whose text fills the buffer** are those with a sign and nineteen
digits. -/
theorem nineteen_lt_length_idText (id : UInt64) :
    19 < (idText id).length ↔ id.toBitVec.toInt ≤ -10 ^ 18 := by
  have habs := natAbs_toInt_le id
  have hlong : (decimal id.toBitVec.toInt.natAbs).length ≤ 19 :=
    length_decimal_le (by decide) (by omega)
  have hshort : (decimal id.toBitVec.toInt.natAbs).length ≤ 18
      ↔ id.toBitVec.toInt.natAbs < 10 ^ 18 := Nat.length_toDigits_le_iff (by decide) (by decide)
  unfold idText decimalInt
  split
  · rw [List.length_cons]
    omega
  · omega

/-- In such a text, all but the last digit are kept. -/
theorem take_idText {id : UInt64} (h : id.toBitVec.toInt ≤ -10 ^ 18) :
    (idText id).take 19 = '-' :: decimal (id.toBitVec.toInt.natAbs / 10) := by
  have habs := natAbs_toInt_le id
  set n := id.toBitVec.toInt.natAbs with hn
  have hsplit : decimal n = decimal (n / 10) ++ [Nat.digitChar (n % 10)] :=
    Nat.toDigits_of_base_le (by decide) (by omega)
  have hlen : (decimal (n / 10)).length = 18 := by
    have hle : (decimal (n / 10)).length ≤ 18 := length_decimal_le (by decide) (by omega)
    have hlt : ¬ (decimal (n / 10)).length ≤ 17 := by
      rw [decimal, Nat.length_toDigits_le_iff (by decide) (by decide)]
      omega
    omega
  have htext : idText id = '-' :: decimal n := if_pos (by omega)
  rw [htext, List.take_succ_cons, hsplit, ← hlen, List.take_left]

/-- **The key of two messages is the same exactly when they are confusable.** -/
theorem newDataKey_eq_iff (id : UInt64) (nonce : UInt32) (id' : UInt64) (nonce' : UInt32) :
    newDataKey id nonce = newDataKey id' nonce' ↔ Confusable id nonce id' nonce' := by
  show (idText id ++ nonceText nonce).take 19 = (idText id' ++ nonceText nonce').take 19 ↔ _
  unfold Confusable
  by_cases hid : id = id'
  · subst hid
    rw [List.take_append, List.take_append, List.append_cancel_left_eq]
    simp [keptNonce]
  · simp only [hid, false_and, false_or, ne_eq, not_false_eq_true, true_and]
    rw [take_append_eq_iff]
    refine or_congr_right (or_congr_right ?_)
    rw [nineteen_lt_length_idText, nineteen_lt_length_idText]
    refine and_congr_right fun h => and_congr_right fun h' => ?_
    rw [take_idText h, take_idText h', List.cons_inj_right, decimal_injective.eq_iff]

/-! ## Messages found in the list -/

/-- **`b` was accepted before**: a body with its sender's id and its nonce was. -/
def Accepted (s : State) (b : DataBody) : Prop :=
  ∃ b' ∈ s.shown, b'.senderId = b.senderId ∧ b'.nonce = b.nonce

/-- **A message that is found in the list has its key there.** -/
theorem Good.mem_of_isInMsgList {s s' : State} (h : Good s) {b : DataBody}
    (hfound : (isInMsgList b).exec s = .ok (true, s')) :
    dataKey b ∈ dllistContents s.msgList := by
  obtain ⟨xs, p, q, hs⟩ := h.shape
  rw [hs.contents_eq]
  by_contra hnotMem
  by_cases hend : NullTerminated s.msgList
  · rw [isInMsgList_of_notMem hs hnotMem hend] at hfound
    cases hfound
  · obtain ⟨e, he⟩ := isInMsgList_runs_off hs hnotMem hend
    rw [he] at hfound
    cases hfound

/-- A client that has received one message, from the sender 1 with the nonce
23. -/
theorem exists_reachable_one : ∃ s, Reachable s ∧ s.shown = [⟨1, 23, 0, 0, []⟩]
    ∧ dllistContents s.msgList = [newDataKey 1 23] := by
  obtain ⟨s, hrun, hshown, hcontents⟩ : ∃ s,
      ((Operation.addMsg ⟨1, 23, 0, 0, []⟩).code quietEnv).exec
          (State.init fun _ => (none, none)) = .ok ((), s)
        ∧ s.shown = [⟨1, 23, 0, 0, []⟩] ∧ dllistContents s.msgList = [newDataKey 1 23] :=
    ⟨_, rfl, rfl, rfl⟩
  exact ⟨s, .step quietEnv _ (.init _) hrun, hshown, hcontents⟩

/-- **Different messages have different keys exactly when they are not
confusable; and `b` is found only where it was accepted exactly when it was, or
when it is confusable with no message that is still listed.** -/
theorem newDataKey_ne_iff_and_isInMsgList (id id' : UInt64) (nonce nonce' : UInt32)
    {s : State} (hs : Reachable s) (b : DataBody) :
    (newDataKey id nonce ≠ newDataKey id' nonce' ↔ ¬ Confusable id nonce id' nonce')
    ∧ ((∀ s', (isInMsgList b).exec s = .ok (true, s') → Accepted s b)
      ↔ Accepted s b ∨ ∀ b' ∈ s.shown, dataKey b' ∈ dllistContents s.msgList →
          ¬ Confusable b'.senderId b'.nonce b.senderId b.nonce) := by
  refine ⟨(newDataKey_eq_iff id nonce id' nonce').not, fun hfound => ?_, ?_⟩
  · -- a listed message that `b` is confusable with makes `b` found
    by_contra hnone
    push Not at hnone
    obtain ⟨hnew, b', -, hlisted, hconf⟩ := hnone
    have hkey : dataKey b' = dataKey b := (newDataKey_eq_iff ..).mpr hconf
    rw [hkey] at hlisted
    exact hnew (hfound s (hs.good.storeSound.isInMsgList_of_mem hlisted))
  · rintro (haccepted | hclear) s' hfound
    · exact haccepted
    · -- the key that is found is that of a message accepted, which is still listed
      have hmem := hs.good.mem_of_isInMsgList hfound
      obtain ⟨b', hb', hkey⟩ := hs.good.accepted (dataKey b) hmem
      refine absurd ((newDataKey_eq_iff ..).mp hkey) (hclear b' hb' ?_)
      rwa [hkey]

/-- The sender 1 with the nonce 23 has been forgotten when the sender 12 with
the nonce 3 comes. The two have the same key, and the second is found because it
was accepted. -/
theorem newDataKey_ne_iff_and_isInMsgList_again :
    newDataKey 1 23 ≠ newDataKey 2 4 ∧ ∃ s, Reachable s
      ∧ s.shown = [⟨1, 23, 0, 0, []⟩, ⟨12, 3, 0, 0, []⟩]
      ∧ (isInMsgList ⟨12, 3, 0, 0, []⟩).exec s = .ok (true, s)
      ∧ ∀ s', (isInMsgList ⟨12, 3, 0, 0, []⟩).exec s = .ok (true, s') →
        Accepted s ⟨12, 3, 0, 0, []⟩ := by
  obtain ⟨s₁, s₂, s₃, hadd, hrm, hadd', hshown, hcontents⟩ : ∃ s₁ s₂ s₃,
      ((Operation.addMsg ⟨1, 23, 0, 0, []⟩).code quietEnv).exec
          (State.init fun _ => (none, none)) = .ok ((), s₁)
        ∧ (Operation.rmMsg.code quietEnv).exec s₁ = .ok ((), s₂)
        ∧ ((Operation.addMsg ⟨12, 3, 0, 0, []⟩).code quietEnv).exec s₂ = .ok ((), s₃)
        ∧ s₃.shown = [⟨1, 23, 0, 0, []⟩, ⟨12, 3, 0, 0, []⟩]
        ∧ dllistContents s₃.msgList = [newDataKey 12 3] :=
    ⟨_, _, _, rfl, rfl, rfl, by decide, by decide⟩
  have hs : Reachable s₃ :=
    .step quietEnv _ (.step quietEnv _ (.step quietEnv _ (.init _) hadd) hrm) hadd'
  have hfound : (isInMsgList ⟨12, 3, 0, 0, []⟩).exec s₃ = .ok (true, s₃) := by
    refine hs.good.storeSound.isInMsgList_of_mem ?_
    rw [hcontents]
    exact List.mem_singleton_self _
  have haccepted : Accepted s₃ ⟨12, 3, 0, 0, []⟩ := by
    refine ⟨⟨12, 3, 0, 0, []⟩, ?_, rfl, rfl⟩
    rw [hshown]
    exact List.mem_of_mem_tail (List.mem_singleton_self _)
  obtain ⟨hkeys, hiff⟩ := newDataKey_ne_iff_and_isInMsgList 1 2 23 4 hs ⟨12, 3, 0, 0, []⟩
  refine ⟨hkeys.mpr ?_, s₃, hs, hshown, hfound, hiff.mpr (.inl haccepted)⟩
  unfold Confusable GoesOn
  decide

/-- The sender 12 with the nonce 3 has the same key, and is taken for it. -/
theorem not_newDataKey_ne :
    ¬ (∀ id nonce id' nonce', (id, nonce) ≠ (id', nonce') →
        newDataKey id nonce ≠ newDataKey id' nonce')
      ∧ ¬ ∀ s b s', Reachable s → (isInMsgList b).exec s = .ok (true, s') →
        ∃ b' ∈ s.shown, b'.senderId = b.senderId ∧ b'.nonce = b.nonce := by
  refine ⟨fun h => h 1 23 12 3 (by decide) (by decide), fun h => ?_⟩
  obtain ⟨s, hs, hshown, hcontents⟩ := exists_reachable_one
  have hfound : (isInMsgList ⟨12, 3, 0, 0, []⟩).exec s = .ok (true, s) := by
    refine hs.good.storeSound.isInMsgList_of_mem ?_
    rw [hcontents]
    decide
  obtain ⟨b', hb', hid, -⟩ := h s _ s hs hfound
  rw [hshown, List.mem_singleton] at hb'
  subst hb'
  exact absurd hid (by decide)

end Miaouchat
