import Miaouchat.Deserialization
import Miaouchat.Lib.CString

/-!
# Displaying a message

`print_message` of `gui.c` shows a Data as a nickname and a message. It takes
both out of the payload, which is the bytes of the datagram and no more:
`dserial_str` adds no NUL. `nick_len` looks at a byte before it looks at how
many it has seen, and the message is printed with `%s`. So either reads past a
payload that has no NUL, and with a NUL before the first `:` what comes before
it is taken for a nickname (`staysInside_iff`).

`HIDE_EMPTY_MESSAGES` is `FALSE`, so every payload is shown. The time of day that
stands before the two texts is left out, and so is the window they go to.
-/

namespace Miaouchat.Gui

open Memory Reader

/-- **A decoded Data has as many bytes as it says.** -/
theorem dataLen_eq_length {mc : Machine} {n : ℕ} {c c' : Dsbuff} {b : DataBody}
    (h : dserialDataBody mc n c = some (b, c')) : b.dataLen = b.data.length := by
  rw [takes_dserialDataBody mc n c] at h
  split at h
  · next hle =>
    obtain ⟨rfl, -⟩ := Prod.mk.inj (Option.some.inj h)
    simp only [newDataBody]
    rw [List.length_drop, List.length_take, min_eq_left hle, Nat.add_sub_cancel_left]
  · exact absurd h (Option.some_ne_none _).symm

def colon : UInt8 := 58
def lessThan : UInt8 := 60
def greaterThan : UInt8 := 62
def space : UInt8 := 32
def newline : UInt8 := 10

/-- The loop of `nick_len` once `nlen` is `n`, with a bound on its rounds: the
offsets it reads, and the `nlen` it ends with. -/
def nickLoop (data : Memory) (dataLen : ℕ) : ℕ → ℕ → List ℕ × ℕ
  | 0, n => ([], n)
  | k + 1, n =>
    if data n ≠ 0 ∧ n ≤ dataLen ∧ data n ≠ colon then
      let rest := nickLoop data dataLen k (n + 1)
      (n :: rest.1, rest.2)
    else ([n], n)

/-- The offsets that `nick_len` reads. Its loop ends at the latest when `nlen` is
past `data_len`. -/
def nickReads (data : Memory) (dataLen : ℕ) : List ℕ := (nickLoop data dataLen (dataLen + 2) 0).1

/-- `nick_len`. -/
def nickLen (data : Memory) (dataLen : ℕ) : ℕ :=
  let nlen := (nickLoop data dataLen (dataLen + 2) 0).2
  if nlen = dataLen then 0 else nlen

/-- The two texts that `print_message` inserts. -/
structure Shown where
  nick : List UInt8
  message : List UInt8
  deriving DecidableEq, Repr

/-- The text with the nickname. A text is inserted up to its first NUL. -/
def nickText (data : Memory) (nlen : ℕ) : List UInt8 :=
  (lessThan :: data.read 0 nlen ++ [greaterThan, space]).takeWhile (· ≠ 0)

/-- The text with the message, printed in a buffer of `len + 1 + 1 - nlen`
bytes. -/
def messageText (data : Memory) (len nlen : ℕ) : List UInt8 :=
  data.print [newline] (len + 1 - nlen) (nlen + if nlen = 0 then 0 else 1)

/-- `print_message`. -/
def printMessage (data : Memory) (len : ℕ) : Shown :=
  ⟨nickText data (nickLen data len), messageText data len (nickLen data len)⟩

/-- The texts for a nickname and a message. -/
def Shown.of (nick msg : List UInt8) : Shown :=
  ⟨lessThan :: nick ++ [greaterThan, space], msg ++ [newline]⟩

/-- The position of the first `:` if it comes before any NUL, and 0 otherwise. -/
def colonPos (data : List UInt8) : ℕ :=
  let i := data.findIdx fun b => b = 0 ∨ b = colon
  if data[i]? = some colon then i else 0

/-- **Displaying the payload stays inside it**, whatever comes after it in
memory: `nick_len` reads only bytes of the payload and returns the position of
its `:`, and the nickname and the message are parts of the payload that do not
depend on what comes after. -/
structure StaysInside (data : List UInt8) : Prop where
  inside : ∀ rest, ∀ i ∈ nickReads (block data rest) data.length, i < data.length
  position : ∀ rest, nickLen (block data rest) data.length = colonPos data
  texts : ∃ nick msg, nick <:+: data ∧ msg <:+: data ∧
    ∀ rest, printMessage (block data rest) data.length = .of nick msg

/-! ## The scan -/

section Scan

variable {mem : Memory} {len k n : ℕ} {bs nick tail data : List UInt8} {stop : UInt8}

/-- A byte that the scan goes past. -/
def Plain (b : UInt8) : Prop := b ≠ 0 ∧ b ≠ colon

theorem not_mem_of_plain (h : ∀ b ∈ bs, Plain b) : 0 ∉ bs := fun hmem => (h 0 hmem).1 rfl

/-- **The scan goes along plain bytes.** -/
theorem nickLoop_plain (h : Holds mem n bs) (hplain : ∀ b ∈ bs, Plain b)
    (hlen : n + bs.length ≤ len + 1) :
    nickLoop mem len (bs.length + k) n
      = (List.range' n bs.length ++ (nickLoop mem len k (n + bs.length)).1,
          (nickLoop mem len k (n + bs.length)).2) := by
  induction bs generalizing n with
  | nil => simp
  | cons b bs ih =>
    rw [List.length_cons] at hlen
    have hb := hplain b List.mem_cons_self
    have hfuel : (b :: bs).length + k = bs.length + k + 1 := by
      rw [List.length_cons]
      omega
    have hnext : n + (b :: bs).length = n + 1 + bs.length := by
      rw [List.length_cons]
      omega
    rw [hfuel, nickLoop, h.1, if_pos ⟨hb.1, by omega, hb.2⟩,
      ih h.2 (fun b' hb' => hplain b' (List.mem_cons_of_mem _ hb')) (by omega), hnext,
      List.length_cons, List.range'_succ]
    rfl

/-- The scan stops at a NUL or a `:`, and past the length. -/
theorem nickLoop_stop (h : mem n = 0 ∨ mem n = colon ∨ len < n) :
    nickLoop mem len (k + 1) n = ([n], n) := by
  rw [nickLoop, if_neg]
  rintro ⟨h₀, hle, hcolon⟩
  exact h.elim h₀ fun h => h.elim hcolon hle.not_gt

/-- **A scan of plain bytes up to a stop** reads these and the stop. -/
theorem nickLoop_eq (h : Holds mem 0 nick) (hplain : ∀ b ∈ nick, Plain b)
    (hle : nick.length ≤ len) (hstop : mem nick.length = 0 ∨ mem nick.length = colon) :
    nickLoop mem len (len + 2) 0 = (List.range' 0 (nick.length + 1), nick.length) := by
  have hfuel : len + 2 = nick.length + (len - nick.length + 1 + 1) := by omega
  rw [hfuel, nickLoop_plain h hplain (by omega), Nat.zero_add,
    nickLoop_stop (hstop.imp_right .inl), List.range'_concat]
  simp

/-- A payload has a first stop, or is all plain. -/
theorem plain_or_stop (data : List UInt8) :
    (∀ b ∈ data, Plain b) ∨ ∃ nick stop tail, data = nick ++ stop :: tail
      ∧ (∀ b ∈ nick, Plain b) ∧ (stop = 0 ∨ stop = colon) := by
  induction data with
  | nil => exact .inl fun _ => nofun
  | cons b bs ih =>
    by_cases hb : b = 0 ∨ b = colon
    · exact .inr ⟨[], b, bs, rfl, fun _ => nofun, hb⟩
    · have hplain : Plain b := not_or.mp hb
      rcases ih with hall | ⟨nick, stop, tail, rfl, hnick, hstop⟩
      · exact .inl (List.forall_mem_cons.mpr ⟨hplain, hall⟩)
      · exact .inr ⟨b :: nick, stop, tail, rfl, List.forall_mem_cons.mpr ⟨hplain, hnick⟩, hstop⟩

/-- The parts of a payload with a stop, where they stand in memory. -/
theorem holds_parts (nick tail : List UInt8) (stop : UInt8) (rest : Memory) :
    Holds (block (nick ++ stop :: tail) rest) 0 nick
      ∧ block (nick ++ stop :: tail) rest nick.length = stop
      ∧ Holds (block (nick ++ stop :: tail) rest) (nick.length + 1) tail := by
  obtain ⟨hnick, hstop, htail⟩ := holds_append.mp (holds_block (nick ++ stop :: tail) rest)
  rw [Nat.zero_add] at hstop htail
  exact ⟨hnick, hstop, htail⟩

/-- **`nick_len` on a payload with a stop** reads up to it and returns its
position. -/
theorem nickLen_block (hplain : ∀ b ∈ nick, Plain b) (hstop : stop = 0 ∨ stop = colon)
    (rest : Memory) :
    nickReads (block (nick ++ stop :: tail) rest) (nick ++ stop :: tail).length
        = List.range' 0 (nick.length + 1)
      ∧ nickLen (block (nick ++ stop :: tail) rest) (nick ++ stop :: tail).length
        = nick.length := by
  obtain ⟨hnick, hat, -⟩ := holds_parts nick tail stop rest
  have hlt : nick.length < (nick ++ stop :: tail).length := by simp
  have hloop := nickLoop_eq hnick hplain hlt.le (by rwa [hat])
  unfold nickReads nickLen
  rw [hloop]
  exact ⟨rfl, if_neg hlt.ne⟩

theorem find?_stop (hplain : ∀ b ∈ nick, Plain b) (hstop : stop = 0 ∨ stop = colon) :
    (nick ++ stop :: tail).find? (fun b => b = 0 ∨ b = colon) = some stop := by
  have hnone : nick.find? (fun b => b = 0 ∨ b = colon) = none :=
    List.find?_eq_none.mpr fun b hb => by simpa [Plain] using hplain b hb
  rw [List.find?_append, hnone, Option.none_or, List.find?_cons_of_pos (by simpa using hstop)]

theorem colonPos_eq (hplain : ∀ b ∈ nick, Plain b) (hstop : stop = 0 ∨ stop = colon) :
    colonPos (nick ++ stop :: tail) = if stop = colon then nick.length else 0 := by
  have hfind : (nick ++ stop :: tail).findIdx (fun b => b = 0 ∨ b = colon) = nick.length := by
    refine (List.findIdx_eq (by simp)).mpr ⟨by simpa using hstop, fun j hj => ?_⟩
    rw [List.getElem_append_left hj]
    simpa [Plain] using hplain _ (List.getElem_mem hj)
  unfold colonPos
  rw [hfind]
  simp

/-- The text with a nickname of plain bytes. -/
theorem nickText_holds (h : Holds mem 0 nick) (hplain : ∀ b ∈ nick, Plain b) :
    nickText mem nick.length = lessThan :: nick ++ [greaterThan, space] := by
  have hends : lessThan ≠ 0 ∧ greaterThan ≠ 0 ∧ space ≠ 0 := by decide
  rw [nickText, read_holds h, List.takeWhile_eq_self_iff]
  intro b hb
  refine decide_eq_true ?_
  rcases List.mem_append.mp hb with hb | hb
  · rcases List.mem_cons.mp hb with rfl | hb
    · exact hends.1
    · exact (hplain b hb).1
  · rcases List.mem_pair.mp hb with rfl | rfl
    · exact hends.2.1
    · exact hends.2.2

/-- Where the message starts: after the `:`, unless the nickname is empty. -/
def messageStart (nick : List UInt8) : ℕ := nick.length + if nick.length = 0 then 0 else 1

/-- What is printed from there on: without a nickname, the `:` as well. -/
def afterNick (nick tail : List UInt8) : List UInt8 :=
  if nick.length = 0 then colon :: tail else tail

theorem holds_afterNick (h : Holds mem 0 (nick ++ colon :: tail)) :
    Holds mem (messageStart nick) (afterNick nick tail) := by
  obtain ⟨-, htail⟩ := holds_append.mp h
  rw [Nat.zero_add] at htail
  unfold messageStart afterNick
  split
  · exact htail
  · exact htail.2

theorem length_afterNick (nick tail : List UInt8) :
    messageStart nick + (afterNick nick tail).length = (nick ++ colon :: tail).length := by
  unfold messageStart afterNick
  split
  · next h =>
    simp [h]
  · simp
    omega

theorem afterNick_append (nick tail bs : List UInt8) :
    afterNick nick (tail ++ bs) = afterNick nick tail ++ bs := by
  unfold afterNick
  split <;> rfl

theorem mem_afterNick (nick tail : List UInt8) : 0 ∈ afterNick nick tail ↔ 0 ∈ tail := by
  unfold afterNick
  split
  · exact List.mem_cons.trans (or_iff_right (by decide))
  · exact Iff.rfl

/-- The buffer holds the message and at least one byte more. -/
theorem room_afterNick (hlen : (nick ++ colon :: tail).length ≤ len) :
    ∃ n, len + 1 - nick.length = (afterNick nick tail).length + (n + 1) := by
  have hsum := length_afterNick nick tail
  have hle : nick.length ≤ messageStart nick := Nat.le_add_right ..
  exact ⟨len - nick.length - (afterNick nick tail).length, by omega⟩

/-- **A message with no NUL** is followed by whatever comes next in memory. -/
theorem messageText_holds (h : Holds mem 0 (nick ++ colon :: tail)) (hnul : 0 ∉ tail)
    (hn : len + 1 - nick.length = (afterNick nick tail).length + n) :
    messageText mem len nick.length
      = afterNick nick tail ++ mem.print [newline] n (nick ++ colon :: tail).length := by
  have hstart := holds_afterNick h
  rw [← length_afterNick, ← print_holds [newline] hstart ((mem_afterNick nick tail).not.mpr hnul),
    ← hn]
  rfl

/-- **A nickname, a `:` and a string** are shown as such, but for the `:` after
an empty nickname. -/
theorem printMessage_string (h : Holds mem 0 (nick ++ colon :: (bs ++ [0])))
    (hplain : ∀ b ∈ nick, Plain b) (hnul : 0 ∉ bs)
    (hlen : (nick ++ colon :: bs).length ≤ len) :
    printMessage mem len = .of nick (afterNick nick bs) := by
  obtain ⟨hnick, hcolon, -⟩ := holds_append.mp h
  rw [Nat.zero_add] at hcolon
  have hlt : nick.length < len := by
    rw [List.length_append, List.length_cons] at hlen
    omega
  have hnlen : nickLen mem len = nick.length := by
    rw [nickLen, nickLoop_eq hnick hplain hlt.le (.inr hcolon)]
    exact if_neg hlt.ne
  obtain ⟨n, hn⟩ := room_afterNick hlen
  have htext : messageText mem len nick.length = afterNick nick bs ++ [newline] := by
    have hheld := holds_afterNick h
    rw [afterNick_append] at hheld
    have hprint := print_string (n := n + 1) [newline] hheld ((mem_afterNick nick bs).not.mpr hnul)
    rwa [← hn, List.take_succ_cons, List.take_nil] at hprint
  rw [printMessage, hnlen, nickText_holds hnick hplain, htext]
  rfl

end Scan

/-! ## When the payload has an end -/

/-- **The payload has an end of its own**: it holds a NUL, and the first one is
its first byte or comes after a `:`. -/
def EndsInside (data : List UInt8) : Prop :=
  0 ∈ data ∧ (data.head? = some 0
    ∨ data.find? (fun b => b = 0 ∨ b = colon) = some colon)

section Payload

variable {nick tail data : List UInt8}

/-- **A payload of plain bytes** has the byte after it read. -/
theorem not_staysInside_of_plain (hplain : ∀ b ∈ data, Plain b) : ¬ StaysInside data := by
  intro h
  have hloop := nickLoop_eq (holds_block data fun _ => 0) hplain le_rfl
    (.inl (block_length data fun _ => 0))
  have hread := h.inside (fun _ => 0) data.length (by
    rw [nickReads, hloop]
    simp)
  exact absurd hread (lt_irrefl _)

/-- **A payload whose NUL comes first** has it taken for the end of the
nickname. -/
theorem staysInside_nul_iff (hplain : ∀ b ∈ nick, Plain b) :
    StaysInside (nick ++ 0 :: tail) ↔ nick = [] := by
  constructor
  · intro h
    have hlen := h.position fun _ => 0
    rw [(nickLen_block hplain (.inl rfl) _).2, colonPos_eq hplain (.inl rfl),
      if_neg (by decide)] at hlen
    exact List.length_eq_zero_iff.mp hlen
  · rintro rfl
    rw [List.nil_append]
    have hblock : ∀ rest, nickReads (block (0 :: tail) rest) (0 :: tail).length = [0]
        ∧ nickLen (block (0 :: tail) rest) (0 :: tail).length = 0 := fun rest =>
      nickLen_block hplain (.inl rfl) rest
    refine ⟨fun rest i hi => ?_, fun rest => (hblock rest).2.trans rfl, [], [],
      List.nil_infix, List.nil_infix, fun rest => ?_⟩
    · rw [(hblock rest).1, List.mem_singleton] at hi
      rw [hi]
      exact Nat.succ_pos _
    · rw [printMessage, (hblock rest).2]
      rfl

/-- **A payload with a `:` before any NUL** needs a NUL after it. -/
theorem staysInside_colon_iff (hplain : ∀ b ∈ nick, Plain b) :
    StaysInside (nick ++ colon :: tail) ↔ 0 ∈ tail := by
  constructor
  · intro h
    by_contra hnul
    obtain ⟨_, msg, -, -, htexts⟩ := h.texts
    obtain ⟨n, hn⟩ := room_afterNick (le_refl (nick ++ colon :: tail).length)
    -- The byte after the payload is printed, or ends the message.
    have hrest : ∀ b : UInt8, msg ++ [newline] = afterNick nick tail
        ++ (block (nick ++ colon :: tail) fun _ => b).print [newline] (n + 1)
          (nick ++ colon :: tail).length := by
      intro b
      have htext := congrArg Shown.message (htexts fun _ => b)
      rw [printMessage, (nickLen_block hplain (.inr rfl) _).2,
        messageText_holds (holds_block _ _) hnul hn] at htext
      exact htext.symm
    have hzero := hrest 0
    have hone := hrest 1
    rw [print, block_length, if_pos rfl] at hzero
    rw [print, block_length, if_neg (by decide)] at hone
    have hhead := List.append_cancel_left (hzero.symm.trans hone)
    exact absurd (List.cons.inj hhead).1 (by decide)
  · intro hnul
    obtain ⟨bs, more, rfl, hbs⟩ := List.eq_append_cons_of_mem hnul
    have hdata : nick ++ colon :: (bs ++ 0 :: more) = (nick ++ colon :: (bs ++ [0])) ++ more := by
      simp
    have hblock : ∀ rest,
        nickReads (block (nick ++ colon :: (bs ++ 0 :: more)) rest)
            (nick ++ colon :: (bs ++ 0 :: more)).length = List.range' 0 (nick.length + 1)
          ∧ nickLen (block (nick ++ colon :: (bs ++ 0 :: more)) rest)
            (nick ++ colon :: (bs ++ 0 :: more)).length = nick.length := fun rest =>
      nickLen_block hplain (.inr rfl) rest
    refine ⟨fun rest i hi => ?_, fun rest => ?_, nick, afterNick nick bs, ?_, ?_, fun rest => ?_⟩
    · rw [(hblock rest).1, List.mem_range'_1] at hi
      rw [List.length_append, List.length_cons]
      omega
    · rw [(hblock rest).2, colonPos_eq hplain (.inr rfl), if_pos rfl]
    · exact (List.prefix_append ..).isInfix
    · unfold afterNick
      split
      · exact ⟨nick, 0 :: more, by simp⟩
      · exact ⟨nick ++ [colon], 0 :: more, by simp⟩
    · have hheld := holds_block (nick ++ colon :: (bs ++ 0 :: more)) rest
      rw [hdata] at hheld ⊢
      refine printMessage_string (holds_append.mp hheld).1 hplain hbs ?_
      simp

/-- **When displaying a payload stays inside it.** -/
theorem staysInside_iff (data : List UInt8) : StaysInside data ↔ EndsInside data := by
  rcases plain_or_stop data with hplain | ⟨nick, stop, tail, rfl, hplain, hstop⟩
  · exact iff_of_false (not_staysInside_of_plain hplain) fun h => not_mem_of_plain hplain h.1
  · unfold EndsInside
    rw [find?_stop hplain hstop]
    rcases hstop with rfl | rfl
    · rw [staysInside_nul_iff hplain]
      cases nick with
      | nil => simp
      | cons b bs =>
        have hb : b ≠ 0 := (hplain b List.mem_cons_self).1
        simp [hb, show (0 : UInt8) ≠ colon by decide]
    · rw [staysInside_colon_iff hplain]
      have hmem : 0 ∈ nick ++ colon :: tail ↔ 0 ∈ tail := by
        rw [List.mem_append, or_iff_right (not_mem_of_plain hplain), List.mem_cons,
          or_iff_right (by decide)]
      rw [hmem]
      exact ⟨fun h => ⟨h, .inr rfl⟩, And.left⟩

end Payload

/-- The payload `a:hi`, as a client that was given a name sends it. -/
theorem not_staysInside : ¬ ∀ data : List UInt8, StaysInside data := by
  intro hall
  have hplain : ∀ b ∈ [(97 : UInt8)], Plain b := by simp [Plain, colon]
  have h : StaysInside ([97] ++ colon :: [104, 105]) := hall _
  exact absurd ((staysInside_colon_iff hplain).mp h) (by decide)

end Miaouchat.Gui
