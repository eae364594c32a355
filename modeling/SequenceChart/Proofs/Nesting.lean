namespace SequenceChart

/-- What one member of a sequence does to what is open. -/
inductive Nesting where
  | opening
  | closing
  | neutral
  deriving DecidableEq

namespace Nesting

variable {A B : Type} (nesting : A → Nesting)

/-- What was opened in front of a sequence stays open: at no point of the sequence has more been
    closed than opened since. -/
def StaysOpen (sequence : List A) : Prop :=
  ∀ front, front <+: sequence →
    front.countP (nesting · = .closing) ≤ front.countP (nesting · = .opening)

/-- Something that a sequence opened is open at its end. -/
def OpenAfter (sequence : List A) : Prop :=
  ∃ front x back, sequence = front ++ x :: back ∧ nesting x = .opening ∧ StaysOpen nesting back

/-- How many of the things that are open in front of a sequence it closes. -/
def surplus : List A → Nat
  | [] => 0
  | x :: rest =>
    match nesting x with
    | .opening => surplus rest - 1
    | .closing => surplus rest + 1
    | .neutral => surplus rest

/-- The members that open something which is open at the end of the sequence, in its order. -/
def leftOpen : List A → List A
  | [] => []
  | x :: rest =>
    if nesting x = .opening ∧ surplus nesting rest = 0 then x :: leftOpen rest else leftOpen rest

/-- What is open after one more member, the last opened thing first. Closing does nothing when
    nothing is open. -/
def step (make : A → B) (stack : List B) (x : A) : List B :=
  match nesting x with
  | .opening => make x :: stack
  | .closing => stack.tail
  | .neutral => stack

/-- A run over a sequence closes its surplus and leaves its own open things on top. -/
theorem foldl_step (make : A → B) (sequence : List A) (stack : List B) :
    sequence.foldl (step nesting make) stack =
      ((leftOpen nesting sequence).map make).reverse ++ stack.drop (surplus nesting sequence) := by
  -- The induction is from the front, over any stack: the rest of the sequence also closes what its
  -- first member opened.
  induction sequence generalizing stack with
  | nil => simp [leftOpen, surplus]
  | cons x rest ih =>
    rw [List.foldl_cons, ih]
    cases hx : nesting x with
    | opening =>
      cases hsurplus : surplus nesting rest <;> simp [step, leftOpen, surplus, hx, hsurplus]
    | closing => simp [step, leftOpen, surplus, hx]
    | neutral => simp [step, leftOpen, surplus, hx]

theorem surplus_le_iff (sequence : List A) (spare : Nat) :
    surplus nesting sequence ≤ spare ↔ ∀ front, front <+: sequence →
      front.countP (nesting · = .closing) ≤ front.countP (nesting · = .opening) + spare := by
  induction sequence generalizing spare with
  | nil => simp [surplus]
  | cons x rest ih =>
    -- A front is empty or starts with the first member, which changes what is to spare for the rest.
    have hfronts (P : List A → Prop) :
        (∀ front, front <+: x :: rest → P front) ↔ P [] ∧ ∀ front, front <+: rest → P (x :: front) := by
      constructor
      · intro h
        exact ⟨h [] (List.nil_prefix), fun front hfront => h _ (List.cons_prefix_cons.2 ⟨rfl, hfront⟩)⟩
      · rintro ⟨hnil, hcons⟩ front hfront
        obtain rfl | ⟨back, rfl, hback⟩ := List.prefix_cons_iff.1 hfront
        · exact hnil
        · exact hcons back hback
    rw [hfronts]
    cases hx : nesting x with
    | opening =>
      simp only [surplus, hx, List.countP_nil, List.countP_cons, Nat.zero_le, true_and, decide_true,
        reduceCtorEq, decide_false, Bool.false_eq_true, if_false, if_true, Nat.add_zero]
      rw [Nat.sub_le_iff_le_add, ih (spare + 1)]
      constructor
      · intro h front hfront
        have hcounts := h front hfront
        omega
      · intro h front hfront
        have hcounts := h front hfront
        omega
    | closing =>
      simp only [surplus, hx, List.countP_nil, List.countP_cons, Nat.zero_le, true_and, decide_true,
        reduceCtorEq, decide_false, Bool.false_eq_true, if_false, if_true, Nat.add_zero]
      cases spare with
      | zero =>
        constructor
        · intro h
          omega
        · intro h
          have hnil := h [] List.nil_prefix
          simp at hnil
      | succ spare =>
        rw [Nat.add_le_add_iff_right, ih spare]
        constructor
        · intro h front hfront
          have hcounts := h front hfront
          omega
        · intro h front hfront
          have hcounts := h front hfront
          omega
    | neutral =>
      simpa [surplus, hx, List.countP_cons] using ih spare

theorem staysOpen_iff (sequence : List A) :
    StaysOpen nesting sequence ↔ surplus nesting sequence = 0 := by
  rw [← Nat.le_zero, surplus_le_iff]
  simp [StaysOpen]

theorem openAfter_iff (sequence : List A) :
    OpenAfter nesting sequence ↔ leftOpen nesting sequence ≠ [] := by
  induction sequence with
  | nil => simp [OpenAfter, leftOpen]
  | cons x rest ih =>
    have hcases : OpenAfter nesting (x :: rest) ↔
        nesting x = .opening ∧ StaysOpen nesting rest ∨ OpenAfter nesting rest := by
      constructor
      · rintro ⟨front, y, back, hsequence, hopening, hstays⟩
        cases front with
        | nil =>
          cases hsequence
          exact .inl ⟨hopening, hstays⟩
        | cons z front =>
          cases hsequence
          exact .inr ⟨front, y, back, rfl, hopening, hstays⟩
      · rintro (⟨hopening, hstays⟩ | ⟨front, y, back, rfl, hopening, hstays⟩)
        · exact ⟨[], x, rest, rfl, hopening, hstays⟩
        · exact ⟨x :: front, y, back, rfl, hopening, hstays⟩
    rw [hcases, ih, staysOpen_iff, leftOpen]
    split
    · next hopen => simp [hopen]
    · next hopen => simp [hopen]

theorem length_leftOpen_concat (sequence : List A) (x : A) :
    (leftOpen nesting (sequence ++ [x])).length =
      match nesting x with
      | .opening => (leftOpen nesting sequence).length + 1
      | .closing => (leftOpen nesting sequence).length - 1
      | .neutral => (leftOpen nesting sequence).length := by
  have hlength (sequence : List A) :
      (sequence.foldl (step nesting id) []).length = (leftOpen nesting sequence).length := by
    rw [foldl_step]
    simp
  rw [← hlength, ← hlength, List.foldl_append, List.foldl_cons, List.foldl_nil, step]
  cases nesting x <;> simp

theorem opening_of_mem_leftOpen {sequence : List A} {x : A} (hx : x ∈ leftOpen nesting sequence) :
    nesting x = .opening := by
  induction sequence with
  | nil => cases hx
  | cons first rest ih =>
    unfold leftOpen at hx
    split at hx
    · next hopen =>
      obtain rfl | hx := List.mem_cons.1 hx
      · exact hopen.1
      · exact ih hx
    · exact ih hx

section Map

variable {C : Type} {nesting} {other : C → Nesting} {g : A → C}

/-- What a sequence closes does not change with its members, as long as each of them does the same
    to what is open. -/
theorem surplus_map (hsame : ∀ x, other (g x) = nesting x) (sequence : List A) :
    surplus other (sequence.map g) = surplus nesting sequence := by
  induction sequence with
  | nil => rfl
  | cons x rest ih => simp only [List.map_cons, surplus, hsame, ih]

theorem leftOpen_map (hsame : ∀ x, other (g x) = nesting x) (sequence : List A) :
    leftOpen other (sequence.map g) = (leftOpen nesting sequence).map g := by
  induction sequence with
  | nil => rfl
  | cons x rest ih =>
    simp only [List.map_cons, leftOpen, hsame, surplus_map hsame, ih]
    split <;> rfl

end Map

end Nesting

end SequenceChart
