import Mathlib

/-!
# Texts of numbers

What `%u`, `%d` and `%ld` print, and what is left of a text in a buffer.

Different numbers have different texts (`decimal_injective`). Two texts printed
one after the other can be told apart from two others only as far as
`take_append_eq_iff` says: the first text may go on where the other pair's
second text begins.
-/

variable {α : Type}

/-- The text of `%u`. -/
def decimal (n : ℕ) : List Char := Nat.toDigits 10 n

/-- The text of `%d` and `%ld`. -/
def decimalInt (z : ℤ) : List Char :=
  if z < 0 then '-' :: decimal z.natAbs else decimal z.natAbs

/-- What `snprintf` leaves in a buffer of `n` bytes, its NUL left out. -/
def snprintf (n : ℕ) (text : List Char) : List Char := text.take (n - 1)

/-! ## Numbers from their texts -/

/-- **Different numbers have different texts.** -/
theorem decimal_injective : Function.Injective decimal := by
  intro m n h
  have hread : Nat.ofDigitChars 10 (decimal m) 0 = Nat.ofDigitChars 10 (decimal n) 0 :=
    congrArg (fun cs => Nat.ofDigitChars 10 cs 0) h
  unfold decimal at hread
  rwa [Nat.ofDigitChars_ten_toDigits, Nat.ofDigitChars_ten_toDigits] at hread

theorem length_decimal_le {n k : ℕ} (hk : 0 < k) (h : n < 10 ^ k) : (decimal n).length ≤ k :=
  (Nat.length_toDigits_le_iff (by decide) hk).mpr h

/-! ## Two texts in one buffer -/

/-- **The first `k` of `as` and `bs` are those of `as'` and `bs'`, where `as'`
goes on after `as`.** -/
def GoesOn (k : ℕ) (as bs as' bs' : List α) : Prop :=
  as <+: as' ∧ bs.take (k - as.length) = (as'.drop as.length ++ bs').take (k - as.length)

/-- What follows does not matter where the first text fills the buffer. -/
theorem GoesOn.take_eq {k : ℕ} {as bs as' bs' : List α} (h : GoesOn k as bs as' bs') :
    (as ++ bs).take k = (as' ++ bs').take k := by
  obtain ⟨⟨us, rfl⟩, h⟩ := h
  rw [List.drop_left] at h
  rw [List.append_assoc, List.take_append, List.take_append, h]

theorem goesOn_of_take_eq {k : ℕ} {as bs as' bs' : List α} (hk : as.length ≤ k)
    (hle : as.length ≤ as'.length) (h : (as ++ bs).take k = (as' ++ bs').take k) :
    GoesOn k as bs as' bs' := by
  have hprefix : as = as'.take as.length := by
    have h' := congrArg (List.take as.length) h
    rw [List.take_take, List.take_take, min_eq_left hk, List.take_left,
      List.take_append_of_le_length hle] at h'
    exact h'
  obtain ⟨us, hus⟩ : as <+: as' := hprefix ▸ List.take_prefix ..
  subst hus
  refine ⟨List.prefix_append .., ?_⟩
  rw [List.append_assoc, List.take_append, List.take_append] at h
  rw [List.drop_left]
  exact List.append_cancel_left h

/-- Where neither pair is cut, the first text goes on with what is left of its own
second text. -/
theorem goesOn_iff_of_le {k : ℕ} {as bs as' bs' : List α} (h : as.length + bs.length ≤ k)
    (h' : as'.length + bs'.length ≤ k) :
    GoesOn k as bs as' bs' ↔ ∃ us, as' = as ++ us ∧ bs = us ++ bs' := by
  have hwhole : ∀ us, as' = as ++ us →
      bs.take (k - as.length) = bs ∧ (us ++ bs').take (k - as.length) = us ++ bs' := by
    rintro us rfl
    rw [List.length_append] at h'
    constructor <;> refine List.take_of_length_le ?_
    · omega
    · rw [List.length_append]
      omega
  constructor
  · rintro ⟨⟨us, rfl⟩, hread⟩
    rw [List.drop_left, (hwhole us rfl).1, (hwhole us rfl).2] at hread
    exact ⟨us, rfl, hread⟩
  · rintro ⟨us, rfl, hread⟩
    refine ⟨List.prefix_append .., ?_⟩
    rw [List.drop_left, hread]

/-- **When two texts one after the other read like two others**, as far as
`k` characters: the first text of one pair goes on in the other, or the first
texts do not end before the characters do. -/
theorem take_append_eq_iff {k : ℕ} {as bs as' bs' : List α} :
    (as ++ bs).take k = (as' ++ bs').take k
      ↔ GoesOn k as bs as' bs' ∨ GoesOn k as' bs' as bs
        ∨ k < as.length ∧ k < as'.length ∧ as.take k = as'.take k := by
  constructor
  · intro h
    rcases Nat.le_total as.length as'.length with hle | hle
    · rcases Nat.lt_or_ge k as.length with hk | hk
      · rw [List.take_append_of_le_length hk.le,
          List.take_append_of_le_length (hk.le.trans hle)] at h
        exact .inr (.inr ⟨hk, hk.trans_le hle, h⟩)
      · exact .inl (goesOn_of_take_eq hk hle h)
    · rcases Nat.lt_or_ge k as'.length with hk | hk
      · rw [List.take_append_of_le_length hk.le,
          List.take_append_of_le_length (hk.le.trans hle)] at h
        exact .inr (.inr ⟨hk.trans_le hle, hk, h⟩)
      · exact .inr (.inl (goesOn_of_take_eq hk hle h.symm))
  · rintro (h | h | ⟨hk, hk', h⟩)
    · exact h.take_eq
    · exact h.take_eq.symm
    · rwa [List.take_append_of_le_length hk.le, List.take_append_of_le_length hk'.le]
