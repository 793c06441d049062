import Miaouchat.Framing

/-!
# The slots of a message

`dserial_msg` allocates sixty-four slots for the TLVs of a message, and its loop
goes on while there are bytes left. A TLV can be of two bytes, and a datagram can
be of four thousand, so the slots run out: each TLV that begins in the datagram is
stored, and the stores keep to the slots exactly where at most sixty-four begin
(`storesInSlots_iff`). They always do in a datagram of fewer than 133 bytes
(`storesInSlots_of_length`).

The stores of the loop are written out with their indices (`dserialStores`). A
reader of the last TLV may go on past the datagram, and reads what the memory has
there: the datagram is the beginning of what can be read, and `real_size` is its
length only. Where the decoder stays inside it, the stores are the TLVs of the
message, in order (`dserialMsgStores_of_dserialMsg`).
-/

namespace Miaouchat

open Reader

/-- The loop of `dserial_msg` on memory that goes on past `real_size`, with a bound
on its rounds: the stores `m->body[i] = dserial_tlv(b)`, each TLV with its index,
and `count`, unless a read has left the memory. -/
def dserialStores (mc : Machine) (size : ℕ) : ℕ → ℕ → Dsbuff → List (Tlv × ℕ) × Option ℕ
  | 0, _, _ => ([], some 0)
  | n + 1, i, b =>
    if b.next < size then
      match dserialTlv mc b with
      | none => ([], none)
      | some (t, b') =>
        let more := dserialStores mc size n (i + 1) b'
        ((t, i) :: more.1, more.2.map (· + 1))
    else ([], some 0)

/-- What `dserial_msg` reads before its loop. -/
def dserialHeader (mc : Machine) : Reader UInt8 Unit := do
  let _ ← dserialChar
  let _ ← dserialChar
  let _ ← dserialShort mc

/-- The stores of `dserial_msg` and `m->tlv_nb`, on the datagram `d` with `more`
after it in memory. -/
def dserialMsgStores (mc : Machine) (d more : List UInt8) : List (Tlv × ℕ) × Option ℕ :=
  match dserialHeader mc (newDsbuff (d ++ more)) with
  | none => ([], none)
  | some (_, b) => dserialStores mc d.length d.length 0 b

/-- **The decoder stores in its slots only**, whatever it reads past the datagram:
each of its stores is in a slot that it has allocated, and `tlv_nb`, where it
returns, is the number of stores. -/
def StoresInSlots (mc : Machine) (d more : List UInt8) : Prop :=
  (∀ st ∈ (dserialMsgStores mc d more).1, st.2 < msgTlvNbDef)
    ∧ ∀ n ∈ (dserialMsgStores mc d more).2, n = (dserialMsgStores mc d more).1.length

/-- **The TLVs that begin in the first `n` of the bytes `bs`**: a type and a length
byte, and the bytes the reader of the type goes over, which the memory has. -/
def begun : ℕ → List UInt8 → ℕ
  | n + 1, type :: length :: rest =>
    if valueLen type length ≤ rest.length then
      begun (n - 1 - valueLen type length) (rest.drop (valueLen type length)) + 1
    else 0
  | _, _ => 0
termination_by n => n

theorem begun_zero (bs : List UInt8) : begun 0 bs = 0 := by
  rw [begun]
  nofun

/-- No TLV begins without a length byte. -/
theorem begun_short {bs : List UInt8} (h : bs.length < 2) (n : ℕ) : begun n bs = 0 := by
  rw [begun]
  rintro _ type length rest - rfl
  simp at h

/-! ## The stores of the loop -/

theorem dserialStores_done (mc : Machine) {size : ℕ} (n i : ℕ) {b : Dsbuff}
    (hb : ¬ b.next < size) : dserialStores mc size n i b = ([], some 0) := by
  cases n with
  | zero => rfl
  | succ n => exact if_neg hb

/-- A round whose reader leaves the memory. -/
theorem dserialStores_cut (mc : Machine) {size : ℕ} (n i : ℕ) {b : Dsbuff}
    (hb : b.next < size) (ht : dserialTlv mc b = none) :
    dserialStores mc size (n + 1) i b = ([], none) := by
  rw [dserialStores, if_pos hb, ht]

theorem dserialStores_succ (mc : Machine) {size : ℕ} (n i : ℕ) {b b' : Dsbuff} {t : Tlv}
    (hb : b.next < size) (ht : dserialTlv mc b = some (t, b')) :
    dserialStores mc size (n + 1) i b
      = ((t, i) :: (dserialStores mc size n (i + 1) b').1,
          (dserialStores mc size n (i + 1) b').2.map (· + 1)) := by
  rw [dserialStores, if_pos hb, ht]

/-- **The indices are consecutive**, from the one the loop starts at. -/
theorem map_snd_dserialStores (mc : Machine) (size n i : ℕ) (b : Dsbuff) :
    (dserialStores mc size n i b).1.map Prod.snd
      = List.range' i (dserialStores mc size n i b).1.length := by
  induction n generalizing i b with
  | zero => rfl
  | succ n ih =>
    by_cases hb : b.next < size
    · cases ht : dserialTlv mc b with
      | none =>
        rw [dserialStores_cut mc n i hb ht]
        rfl
      | some p =>
        rw [dserialStores_succ mc n i hb ht, List.map_cons, ih, List.length_cons,
          List.range'_succ]
    · rw [dserialStores_done mc _ i hb]
      rfl

/-- **`count` is the number of stores**, where the loop ends. -/
theorem count_dserialStores (mc : Machine) (size n i : ℕ) (b : Dsbuff) :
    ∀ k ∈ (dserialStores mc size n i b).2, k = (dserialStores mc size n i b).1.length := by
  induction n generalizing i b with
  | zero =>
    rintro k ⟨⟩
    rfl
  | succ n ih =>
    by_cases hb : b.next < size
    · cases ht : dserialTlv mc b with
      | none =>
        rw [dserialStores_cut mc n i hb ht]
        rintro k ⟨⟩
      | some p =>
        rw [dserialStores_succ mc n i hb ht]
        rintro k hk
        obtain ⟨j, hj, rfl⟩ := Option.map_eq_some_iff.mp hk
        rw [List.length_cons, ih _ _ j hj]
    · rw [dserialStores_done mc _ i hb]
      rintro k ⟨⟩
      rfl

/-- **Every TLV that begins is stored.** The bound on the rounds is not felt. -/
theorem length_dserialStores (mc : Machine) {size : ℕ} (n i : ℕ) {b : Dsbuff}
    (hn : size - b.next ≤ n) :
    (dserialStores mc size n i b).1.length = begun (size - b.next) b.rest := by
  induction n generalizing i b with
  | zero =>
    rw [Nat.le_zero.mp hn, begun_zero]
    rfl
  | succ n ih =>
    by_cases hb : b.next < size
    · obtain ⟨left, hleft⟩ : ∃ left, size - b.next = left + 1 :=
        Nat.exists_eq_succ_of_ne_zero (Nat.sub_ne_zero_of_lt hb)
      by_cases hshort : b.rest.length < 2
      · rw [dserialStores_cut mc n i hb (dserialTlv_short mc hshort), begun_short hshort]
        rfl
      · obtain ⟨type, bs, hbs⟩ := List.exists_cons_of_length_pos (by omega : 0 < b.rest.length)
        rw [hbs, List.length_cons] at hshort
        obtain ⟨length, rest, rfl⟩ := List.exists_cons_of_length_pos (by omega : 0 < bs.length)
        have ht := dserialTlv_eq mc hbs
        rw [hleft, hbs, begun]
        by_cases hv : valueLen type length ≤ rest.length
        · rw [if_pos hv] at ht ⊢
          rw [dserialStores_succ mc n i hb ht, List.length_cons,
            ih _ (by rw [Cursor.next_skip]; omega), Cursor.rest_skip, hbs, Nat.add_comm 2,
            List.drop_succ_cons, List.drop_succ_cons, Cursor.next_skip]
          congr 2
          omega
        · rw [if_neg hv] at ht ⊢
          rw [dserialStores_cut mc n i hb ht]
          rfl
    · rw [dserialStores_done mc _ i hb, Nat.sub_eq_zero_of_le (Nat.le_of_not_lt hb), begun_zero]
      rfl

/-! ## The stores of the decoder -/

theorem takes_dserialHeader (mc : Machine) : Takes (dserialHeader mc) 4 fun _ => () :=
  takes_dserialChar.bind (w := fun _ _ => ()) fun _ =>
    takes_dserialChar.bind (w := fun _ _ => ()) fun _ => (takes_dserialShort mc).map fun _ => ()

/-- The stores are those of the loop, from the end of the header. -/
theorem dserialMsgStores_eq (mc : Machine) (d more : List UInt8) :
    dserialMsgStores mc d more
      = if 4 ≤ (d ++ more).length then
          dserialStores mc d.length d.length 0 ((newDsbuff (d ++ more)).skip 4)
        else ([], none) := by
  rw [dserialMsgStores, takes_dserialHeader mc, rest_newDsbuff]
  split
  · rename_i h
    split at h <;> cases h
    exact (if_neg ‹_›).symm
  · rename_i h
    split at h <;> cases h
    exact (if_pos ‹_›).symm

theorem length_dserialMsgStores (mc : Machine) (d more : List UInt8) :
    (dserialMsgStores mc d more).1.length = begun (d.length - 4) ((d ++ more).drop 4) := by
  rw [dserialMsgStores_eq]
  split
  · rw [length_dserialStores mc _ _ (Nat.sub_le ..), Cursor.next_skip, Cursor.rest_skip,
      rest_newDsbuff, show (newDsbuff (d ++ more)).next = 0 from rfl, Nat.zero_add]
  · rename_i hshort
    rw [List.length_append] at hshort
    rw [Nat.sub_eq_zero_of_le (by omega), begun_zero]
    rfl

/-- **The decoder stores in its slots where it makes sixty-four stores at most.** -/
theorem storesInSlots_iff_length (mc : Machine) (d more : List UInt8) :
    StoresInSlots mc d more ↔ (dserialMsgStores mc d more).1.length ≤ msgTlvNbDef := by
  have hcount : ∀ n ∈ (dserialMsgStores mc d more).2,
      n = (dserialMsgStores mc d more).1.length := by
    rw [dserialMsgStores_eq]
    split
    · exact count_dserialStores mc _ _ _ _
    · rintro n ⟨⟩
  have hindices : (dserialMsgStores mc d more).1.map Prod.snd
      = List.range' 0 (dserialMsgStores mc d more).1.length := by
    rw [dserialMsgStores_eq]
    split
    · exact map_snd_dserialStores mc _ _ _ _
    · rfl
  unfold StoresInSlots
  rw [and_iff_left hcount, ← List.forall_mem_map (f := Prod.snd) (P := (· < msgTlvNbDef)),
    hindices]
  simp only [List.mem_range'_1]
  constructor
  · intro h
    by_contra hmore
    exact lt_irrefl _ (h msgTlvNbDef ⟨Nat.zero_le _, by omega⟩)
  · intro h i hi
    omega

/-- **The decoder stores in its slots exactly where at most sixty-four TLVs begin**
between the header and the end of the datagram. -/
theorem storesInSlots_iff (mc : Machine) (d more : List UInt8) :
    StoresInSlots mc d more
      ↔ begun (d.length - 4) ((d ++ more).drop 4) ≤ msgTlvNbDef := by
  rw [storesInSlots_iff_length, length_dserialMsgStores]

/-! ## Datagrams that are short, or complete -/

/-- A TLV has two bytes, and begins with one of them at least. -/
theorem two_mul_begun_le (n : ℕ) (bs : List UInt8) : 2 * begun n bs ≤ n + 1 := by
  induction n, bs using begun.induct with
  | case1 n type length rest hv ih =>
    rw [begun, if_pos hv]
    omega
  | case2 n type length rest hv =>
    rw [begun, if_neg hv]
    omega
  | case3 n bs hshort =>
    rw [begun]
    · omega
    · exact hshort

/-- **A datagram of fewer than 133 bytes keeps to the slots**, whatever is in it and
after it. -/
theorem storesInSlots_of_length (mc : Machine) {d : List UInt8} (more : List UInt8)
    (hshort : d.length < 133) : StoresInSlots mc d more := by
  rw [storesInSlots_iff_length, length_dserialMsgStores]
  have hle := two_mul_begun_le (d.length - 4) ((d ++ more).drop 4)
  show _ ≤ 64
  omega

/-- **Where the bytes divide into TLVs**, the loop stores these, in order. -/
theorem dserialStores_of_framing (mc : Machine) {size : ℕ} {bs more : List UInt8} {ts : List Tlv}
    (h : Framing bs ts) (n i : ℕ) {b : Dsbuff} (hrest : b.rest = bs ++ more)
    (hsize : size = b.next + bs.length) (hn : bs.length ≤ n) :
    dserialStores mc size n i b = (ts.zipIdx i, some ts.length) := by
  induction h generalizing n i b with
  | nil => exact dserialStores_done mc n i (by rw [hsize]; exact lt_irrefl _)
  | @cons type length vs rest ts hvs _ ih =>
    rw [List.length_cons, List.length_cons, List.length_append] at hsize hn
    obtain ⟨n, rfl⟩ : ∃ k, n = k + 1 := Nat.exists_eq_succ_of_ne_zero (by omega)
    rw [List.cons_append, List.cons_append, List.append_assoc] at hrest
    have ht := dserialTlv_eq mc hrest
    rw [if_pos (by rw [← hvs, List.length_append]; omega), ← hvs, List.take_left] at ht
    have hmore := ih n (i + 1) (b := b.skip (2 + vs.length))
      (by rw [Cursor.rest_skip, hrest, Nat.add_comm, List.drop_succ_cons, List.drop_succ_cons,
        List.drop_left])
      (by rw [Cursor.next_skip]; omega) (by omega)
    rw [dserialStores_succ mc n i (by omega) ht, hmore]
    rfl

/-- **Where the decoder stays inside the datagram**, its stores are the TLVs of the
message, whatever comes after. -/
theorem dserialMsgStores_of_dserialMsg {mc : Machine} {d : List UInt8} {m : Msg} {b : Dsbuff}
    (hm : dserialMsg mc (newDsbuff d) = some (m, b)) (more : List UInt8) :
    dserialMsgStores mc d more = (m.body.zipIdx, some m.tlvNb) := by
  obtain ⟨magic, version, hi, lo, rest, ts, rfl, hf, -, rfl⟩ := (dserialMsg_iff mc d m b).mp hm
  rw [dserialMsgStores_eq, if_pos (by simp)]
  exact dserialStores_of_framing mc hf _ 0 (rfl : _ = rest ++ more)
    (by simp only [List.length_cons, Cursor.next_skip, newDsbuff]; omega)
    (by simp only [List.length_cons]; omega)

/-- Pairs of zeroes are as many Pad1. -/
theorem framing_pad1s (n : ℕ) :
    Framing (List.replicate (2 * n) 0) (List.replicate n (tlvOf 0 0 [])) := by
  induction n with
  | zero => exact .nil
  | succ n ih => exact @Framing.cons 0 0 [] _ _ rfl ih

/-- A datagram of sixty-five Pad1 has one too many. -/
theorem not_storesInSlots :
    ¬ ∀ (mc : Machine) (d more : List UInt8), d.length ≤ 4096 → 4 ≤ d.length →
        Framed (d.drop 4) → StoresInSlots mc d more := by
  intro hall
  have hpads := framing_pad1s 65
  set d : List UInt8 := 93 :: 2 :: 0 :: 130 :: List.replicate (2 * 65) 0
  have hin := hall ⟨.little, fun _ => 0⟩ d [] (by simp [d]) (by simp [d])
    ((framed_iff_framing _).mpr ⟨_, hpads⟩)
  obtain ⟨m, b, hm, hts⟩ := (dserialMsg_body_iff ⟨.little, fun _ => 0⟩ d _).mpr
    ⟨by simp [d], hpads⟩
  rw [storesInSlots_iff_length, dserialMsgStores_of_dserialMsg hm, List.length_zipIdx, hts,
    List.length_replicate] at hin
  exact absurd hin (by decide)

end Miaouchat
