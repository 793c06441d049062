import Miaouchat.Lib.Cells

/-!
# Singly linked nodes

Memory that holds nodes with one link, and chains of such nodes. Pointers and
faults are those of `Lib.Cells`.

`Chained h xs q` says that the nodes of `xs`, a list of addresses and data, are
chained in this order in the memory `h`, and that the link of the last is `q`.
The pointer to such a chain is `headAddr q xs`.

`whileNode` is the loop that goes through a chain and reads the link of each
node before it does something to it. One rule is enough for all such loops
(`whileNode_chained`): what is done to a node must leave the rest of the chain
alone.
-/

variable {α σ : Type}

/-- A node with its link. -/
structure Link (α : Type) where
  next : Option ℕ
  data : α
  deriving DecidableEq, Repr

/-- The nodes in memory, by address. -/
abbrev Links (α : Type) : Type := ℕ → Option (Link α)

namespace Links

/-- Follow a pointer. -/
def deref (h : Links α) : Option ℕ → Except Fault (Link α)
  | none => .error .null
  | some a =>
    match h a with
    | none => .error .wild
    | some c => .ok c

/-- Put a node, or no node, at an address. -/
def set (h : Links α) (a : ℕ) (c : Option (Link α)) : Links α := Function.update h a c

@[simp] theorem set_same (h : Links α) (a : ℕ) (c : Option (Link α)) : h.set a c a = c :=
  Function.update_self ..

theorem set_of_ne {h : Links α} {a b : ℕ} {c : Option (Link α)} (hab : b ≠ a) :
    h.set a c b = h b :=
  Function.update_of_ne hab ..

/-- Write over the node a pointer points to. -/
def write (h : Links α) (p : Option ℕ) (f : Link α → Link α) : Except Fault (Links α) :=
  match p with
  | none => .error .null
  | some a =>
    match h a with
    | none => .error .wild
    | some c => .ok (h.set a (some (f c)))

/-- Write the link of the node a pointer points to. -/
def setNext (h : Links α) (p q : Option ℕ) : Except Fault (Links α) :=
  h.write p fun c => { c with next := q }

/-- Free the node a pointer points to. -/
def free (h : Links α) (p : Option ℕ) : Except Fault (Links α) :=
  match p with
  | none => .error .null
  | some a =>
    match h a with
    | none => .error .wild
    | some _ => .ok (h.set a none)

theorem deref_some {h : Links α} {a : ℕ} {c : Link α} (hc : h a = some c) :
    h.deref (some a) = .ok c := by
  simp only [deref, hc]

theorem write_some {h : Links α} {a : ℕ} {c : Link α} (hc : h a = some c)
    (f : Link α → Link α) : h.write (some a) f = .ok (h.set a (some (f c))) := by
  simp only [write, hc]

theorem setNext_some {h : Links α} {a : ℕ} {c : Link α} (hc : h a = some c) (q : Option ℕ) :
    h.setNext (some a) q = .ok (h.set a (some { c with next := q })) :=
  write_some hc _

theorem free_some {h : Links α} {a : ℕ} {c : Link α} (hc : h a = some c) :
    h.free (some a) = .ok (h.set a none) := by
  simp only [free, hc]

end Links

/-! ## Chains -/

/-- **The nodes of `xs` are chained in this order**, up to the link `q`. -/
def Chained (h : Links α) : List (ℕ × α) → Option ℕ → Prop
  | [], _ => True
  | x :: xs, q => h x.1 = some ⟨headAddr q xs, x.2⟩ ∧ Chained h xs q

theorem chained_cons {h : Links α} {x : ℕ × α} {xs : List (ℕ × α)} {q : Option ℕ} :
    Chained h (x :: xs) q ↔ h x.1 = some ⟨headAddr q xs, x.2⟩ ∧ Chained h xs q :=
  Iff.rfl

/-- **A chain can be cut anywhere.** -/
theorem chained_append {h : Links α} {xs ys : List (ℕ × α)} {q : Option ℕ} :
    Chained h (xs ++ ys) q ↔ Chained h xs (headAddr q ys) ∧ Chained h ys q := by
  induction xs with
  | nil => exact ⟨fun hys => ⟨trivial, hys⟩, And.right⟩
  | cons x xs ih =>
    rw [List.cons_append, chained_cons, ih, headAddr_append, chained_cons, and_assoc]

namespace Chained

variable {h h' : Links α} {xs : List (ℕ × α)} {q : Option ℕ}

/-- A chain stays where memory does not change. -/
theorem frame (hs : Chained h xs q) (hsame : ∀ a ∈ xs.map Prod.fst, h' a = h a) :
    Chained h' xs q := by
  induction xs with
  | nil => trivial
  | cons x xs ih =>
    rw [List.map_cons] at hsame
    exact ⟨(hsame x.1 List.mem_cons_self).trans hs.1,
      ih hs.2 fun a ha => hsame a (List.mem_cons_of_mem _ ha)⟩

/-- A write beside a chain does not touch it. -/
theorem set (hs : Chained h xs q) {a : ℕ} (ha : a ∉ xs.map Prod.fst) (c : Option (Link α)) :
    Chained (h.set a c) xs q :=
  hs.frame fun _ hb => Links.set_of_ne fun hba => ha (hba ▸ hb)

/-- The node of a member of a chain. -/
theorem get (hs : Chained h xs q) {x : ℕ × α} (hx : x ∈ xs) :
    ∃ c, h x.1 = some c ∧ c.data = x.2 := by
  induction xs with
  | nil => cases hx
  | cons y xs ih =>
    rcases List.mem_cons.mp hx with rfl | hx
    · exact ⟨_, hs.1, rfl⟩
    · exact ih hs.2 hx

/-- **A node put before a chain.** -/
theorem push (hs : Chained h xs q) {a : ℕ} (ha : a ∉ xs.map Prod.fst) (d : α) :
    Chained (h.set a (some ⟨headAddr q xs, d⟩)) ((a, d) :: xs) q :=
  ⟨Links.set_same .., hs.set ha _⟩

end Chained

/-! ## Changes of links -/

/-- **Only the nodes at `as` are written to**, and none comes or goes. -/
structure Relinked (h h' : Links α) (as : List ℕ) : Prop where
  same : ∀ a, a ∉ as → h' a = h a
  live : ∀ a, h' a = none ↔ h a = none

namespace Relinked

variable {h h' h'' : Links α} {as bs : List ℕ}

theorem refl (h : Links α) (as : List ℕ) : Relinked h h as := ⟨fun _ _ => rfl, fun _ => Iff.rfl⟩

theorem trans (hab : Relinked h h' as) (hbc : Relinked h' h'' bs) :
    Relinked h h'' (as ++ bs) :=
  ⟨fun a ha => (hbc.same a fun hb => ha (List.mem_append_right _ hb)).trans
      (hab.same a fun hb => ha (List.mem_append_left _ hb)),
    fun a => (hbc.live a).trans (hab.live a)⟩

theorem mono (hab : Relinked h h' as) (hsub : as ⊆ bs) : Relinked h h' bs :=
  ⟨fun a ha => hab.same a fun hb => ha (hsub hb), hab.live⟩

/-- Writing to a node that is there. -/
theorem set {a : ℕ} {c : Link α} (ha : h a = some c) (c' : Link α) :
    Relinked h (h.set a (some c')) [a] := by
  refine ⟨fun b hb => Links.set_of_ne fun heq => hb (heq ▸ List.mem_singleton_self a),
    fun b => ?_⟩
  by_cases hba : b = a
  · subst hba
    rw [Links.set_same, ha]
    exact ⟨nofun, nofun⟩
  · rw [Links.set_of_ne hba]

end Relinked

/-- **Only the nodes at `as` are freed**, and nothing is written. -/
structure Freed (h h' : Links α) (as : List ℕ) : Prop where
  same : ∀ a, a ∉ as → h' a = h a
  gone : ∀ a ∈ as, h' a = none

namespace Freed

variable {h h' h'' : Links α} {as bs : List ℕ}

theorem nil (h : Links α) : Freed h h [] := ⟨fun _ _ => rfl, fun _ => nofun⟩

theorem append (hab : Freed h h' as) (hbc : Freed h' h'' bs) : Freed h h'' (as ++ bs) := by
  refine ⟨fun a ha => ?_, fun a ha => ?_⟩
  · exact (hbc.same a fun hb => ha (List.mem_append_right _ hb)).trans
      (hab.same a fun hb => ha (List.mem_append_left _ hb))
  · by_cases hb : a ∈ bs
    · exact hbc.gone a hb
    · exact (hbc.same a hb).trans (hab.gone a ((List.mem_append.mp ha).resolve_right hb))

theorem single (h : Links α) (a : ℕ) : Freed h (h.set a none) [a] :=
  ⟨fun _ hb => Links.set_of_ne fun heq => hb (heq ▸ List.mem_singleton_self _), fun b hb => by
    rw [List.mem_singleton.mp hb, Links.set_same]⟩

end Freed

/-! ## Loops -/

/-- `while (node) { next = node->next; …; node = next; }`, with a bound on its
rounds. -/
def whileNode (heap : σ → Links α) (body : ℕ → σ → Except Fault σ) :
    ℕ → Option ℕ → σ → Except Fault σ
  | _, none, s => .ok s
  | 0, some _, _ => .error .loop
  | n + 1, some a, s => do
    let c ← (heap s).deref (some a)
    let s ← body a s
    whileNode heap body n c.next s

/-- **The loop goes through a chain**, if what it does to a node leaves the rest
of the chain alone. -/
theorem whileNode_chained {heap : σ → Links α} {body : ℕ → σ → Except Fault σ}
    {P : List (ℕ × α) → σ → Prop} {xs : List (ℕ × α)}
    (hbody : ∀ ys x zs s, xs = ys ++ x :: zs → Chained (heap s) (x :: zs) none → P ys s →
      ∃ s', body x.1 s = .ok s' ∧ Chained (heap s') zs none ∧ P (ys ++ [x]) s')
    {n : ℕ} (hn : xs.length ≤ n) {s : σ} (hs : Chained (heap s) xs none) (hP : P [] s) :
    ∃ s', whileNode heap body n (headAddr none xs) s = .ok s' ∧ P xs s' := by
  have hrest : ∀ zs ys n s, xs = ys ++ zs → zs.length ≤ n → Chained (heap s) zs none → P ys s →
      ∃ s', whileNode heap body n (headAddr none zs) s = .ok s' ∧ P xs s' := by
    intro zs
    induction zs with
    | nil =>
      rintro ys n s rfl - - hP
      refine ⟨s, ?_, by rwa [List.append_nil]⟩
      cases n <;> rfl
    | cons x zs ih =>
      intro ys n s hxs hn hs hP
      obtain ⟨s₁, hs₁, hzs, hP₁⟩ := hbody ys x zs s hxs hs hP
      cases n with
      | zero => cases hn
      | succ n =>
        obtain ⟨s', hrun, hP'⟩ := ih (ys ++ [x]) n s₁ (by rw [hxs, List.append_assoc]; rfl)
          (Nat.le_of_succ_le_succ hn) hzs hP₁
        refine ⟨s', ?_, hP'⟩
        rw [headAddr_cons, whileNode, Links.deref_some hs.1]
        show (body x.1 s).bind _ = _
        rw [hs₁]
        exact hrun
  exact hrest xs [] n s rfl hn hs hP
