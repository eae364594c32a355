import Mathlib.Tactic.Common
import SequenceChart.Proofs.Theme.Hex

namespace SequenceChart.Css

/-- The characters that end a line of a style sheet. -/
def isBreak (c : Char) : Bool :=
  c = '\n' || c = '\r' || c = '\x0c'

/-- How far the reader of a string in single quotes is with an escape. -/
inductive Place where
  | plain
  /-- Behind a backslash. -/
  | escape
  /-- Behind digits of the number of a character, of which some more may follow. -/
  | digits (more : Nat)
  /-- Behind a carriage return of an escape. A line feed next to it belongs to it. -/
  | carriage
  deriving DecidableEq

namespace Place

/-- The place behind a character that has no part in an escape before it. There is none behind a
    character that ends the string. -/
def fresh (c : Char) : Option Place :=
  if c = '\'' ∨ isBreak c then none
  else if c = '\\' then some escape
  else some plain

/-- The place behind the white space that ends an escape. -/
def gap (c : Char) : Place :=
  if c = '\r' then carriage else plain

/-- The place behind a character. There is none behind a character that ends the string. -/
def next : Place → Char → Option Place
  | plain, c => fresh c
  | escape, c => some (if Text.IsHexDigit c then digits 5 else gap c)
  | digits more, c =>
    if Text.IsHexDigit c ∧ 0 < more then some (digits (more - 1))
    else if c = ' ' ∨ c = '\t' ∨ isBreak c then some (gap c)
    else fresh c
  | carriage, c => if c = '\n' then some plain else fresh c

end Place

/-- What stands behind the quote that ends a string. There is none if the string is cut off by the end
    of its line. -/
def afterString : Place → List Char → Option (List Char)
  | _, [] => none
  | place, c :: rest =>
    match place.next c with
    | some place => afterString place rest
    | none => if c = '\'' then some rest else none

/-- The place behind characters none of which ends the string. -/
def behind : Place → List Char → Option Place
  | place, [] => some place
  | place, c :: rest => (place.next c).bind (behind · rest)

/-- A text that a string in single quotes may consist of: no character of it ends the string, nor does
    it escape the quote behind it. -/
def Quotable (text : String) : Prop :=
  ∃ place ∈ behind .plain text.toList, place ≠ .escape

theorem length_afterString {place : Place} {text rest : List Char}
    (hrest : afterString place text = some rest) : rest.length < text.length := by
  fun_induction afterString place text with
  | case1 => cases hrest
  | case2 place c text next hnext ih => exact Nat.lt_succ_of_lt (ih hrest)
  | case3 place text hnext =>
    cases hrest
    exact Nat.lt_succ_self _
  | case4 => cases hrest

theorem Place.next_quote {place : Place} (hplace : place ≠ escape) : place.next '\'' = none := by
  cases place with
  | escape => exact absurd rfl hplace
  | plain | carriage => rfl
  | digits more => simp [next, Text.IsHexDigit, isBreak, fresh]

/-- The quote behind a text is read as the end of the string if and only if no character of the text
    ends the string and the text does not escape the quote. -/
theorem afterString_append_iff {place : Place} {text back : List Char} :
    afterString place (text ++ '\'' :: back) = some back ↔
      ∃ last ∈ behind place text, last ≠ .escape := by
  induction text generalizing place with
  | nil =>
    have hbehind : (∃ last ∈ behind place [], last ≠ .escape) ↔ place ≠ .escape := by simp [behind]
    rw [hbehind, List.nil_append]
    constructor
    · rintro hback rfl
      -- The quote is escaped, so the string goes on and what is behind it is shorter.
      have hshorter := length_afterString (show afterString .plain back = some back from hback)
      exact absurd hshorter (Nat.lt_irrefl _)
    · intro hplace
      simp [afterString, Place.next_quote hplace]
  | cons c rest ih =>
    rw [List.cons_append, afterString, behind]
    cases hnext : place.next c with
    | some next => exact ih
    | none =>
      refine iff_of_false ?_ (by simp)
      dsimp only
      split
      · intro hback
        have hlength := congrArg List.length (Option.some.inj hback)
        simp only [List.length_append, List.length_cons] at hlength
        omega
      · exact Option.some_ne_none _ ∘ Eq.symm

/-- Without a backslash it is quotes and line breaks that a string cannot have in it. -/
theorem quotable_iff {text : String} (htext : '\\' ∉ text.toList) :
    Quotable text ↔ ∀ c ∈ text.toList, c ≠ '\'' ∧ ¬ isBreak c := by
  rw [Quotable]
  generalize text.toList = cs at htext
  induction cs with
  | nil => simp [behind]
  | cons c rest ih =>
    obtain ⟨hc, hrest⟩ := not_or.1 fun hmem => htext (List.mem_cons.2 hmem)
    rw [behind, List.forall_mem_cons, ← ih hrest, Place.next, Place.fresh]
    split
    · next hends => exact iff_of_false (by simp) fun h => hends.elim h.1.1 h.1.2
    · next hplain =>
      rw [if_neg (Ne.symm hc)]
      exact (and_iff_right (not_or.1 hplain)).symm

end SequenceChart.Css
