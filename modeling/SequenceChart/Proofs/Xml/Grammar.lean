import Mathlib.Data.List.Nodup
import Mathlib.Tactic.Common
import SequenceChart.Text.Intervals

namespace SequenceChart.Xml

/-- The characters that XML 1.0 allows in a document. -/
def isChar (c : Char) : Bool :=
  Text.covers [(0x9, 0xA), (0xD, 0xD), (0x20, 0xD7FF), (0xE000, 0xFFFD), (0x10000, 0x10FFFF)] c.toNat

def isSpace (c : Char) : Bool :=
  Text.covers [(0x9, 0xA), (0xD, 0xD), (0x20, 0x20)] c.toNat

/-- The characters that a name may start with. -/
def startsName (c : Char) : Bool :=
  Text.covers [(0x3A, 0x3A), (0x41, 0x5A), (0x5F, 0x5F), (0x61, 0x7A), (0xC0, 0xD6), (0xD8, 0xF6),
    (0xF8, 0x2FF), (0x370, 0x37D), (0x37F, 0x1FFF), (0x200C, 0x200D), (0x2070, 0x218F),
    (0x2C00, 0x2FEF), (0x3001, 0xD7FF), (0xF900, 0xFDCF), (0xFDF0, 0xFFFD), (0x10000, 0xEFFFF)]
    c.toNat

/-- The characters that a name may go on with. -/
def continuesName (c : Char) : Bool :=
  startsName c || Text.covers [(0x2D, 0x2E), (0x30, 0x39), (0xB7, 0xB7), (0x300, 0x36F),
    (0x203F, 0x2040)] c.toNat

def isName (name : String) : Bool :=
  match name.toList with
  | [] => false
  | c :: rest => startsName c && rest.all continuesName

/-- The characters that are markup in the content of an element or in the value of an attribute. -/
def isMarkup (c : Char) : Bool :=
  c = '<' || c = '>' || c = '&' || c = '"'

/-- An allowed character that stands for itself wherever it stands. -/
def isPlain (c : Char) : Bool :=
  isChar c && !isMarkup c

/-- A text whose characters are all allowed. -/
def Allowed (text : String) : Prop :=
  ∀ c ∈ text.toList, isChar c

/-- A text whose characters are all plain. -/
def Plain (text : String) : Prop :=
  ∀ c ∈ text.toList, isPlain c

instance : DecidablePred Allowed := fun text =>
  decidable_of_iff (text.toList.all isChar) List.all_eq_true

instance : DecidablePred Plain := fun text =>
  decidable_of_iff (text.toList.all isPlain) List.all_eq_true

/-- A reference to an entity that needs no declaration, or to a character by its number. -/
inductive Reference : String → Prop where
  | entity {name : String} (hname : name ∈ ["amp", "lt", "gt", "quot", "apos"]) :
      Reference ("&" ++ name ++ ";")
  | decimal {c : Char} (hc : isChar c) : Reference ("&#" ++ toString c.toNat ++ ";")

/-- Character data in which whatever could be markup is a reference. -/
inductive Data : String → Prop where
  | empty : Data ""
  | text {text rest : String} (htext : ∀ c ∈ text.toList, isMarkup c = false) (hrest : Data rest) :
      Data (text ++ rest)
  | reference {reference rest : String} (hreference : Reference reference) (hrest : Data rest) :
      Data (reference ++ rest)

/-- The attributes in a tag, of which no two have the same name, and the space behind them. -/
inductive Attributes : List String → String → Prop where
  | none {gap : String} (hgap : gap.toList.all isSpace) : Attributes [] gap
  | cons {gap name value rest : String} {names : List String} (hgap : gap.toList.all isSpace)
      (hnonempty : gap ≠ "") (hname : isName name) (hnew : name ∉ names) (hvalue : Data value)
      (hrest : Attributes names rest) :
      Attributes (name :: names) (gap ++ name ++ "=\"" ++ value ++ "\"" ++ rest)

/-- Content of an element: data, and elements each of which ends with a tag of its name, or is
    empty. -/
inductive Content : String → Prop where
  | empty : Content ""
  | data {data rest : String} (hdata : Data data) (hrest : Content rest) : Content (data ++ rest)
  | childless {name attributes rest : String} {names : List String} (hname : isName name)
      (hattributes : Attributes names attributes) (hrest : Content rest) :
      Content ("<" ++ name ++ attributes ++ "/>" ++ rest)
  | element {name attributes inner rest : String} {names : List String} (hname : isName name)
      (hattributes : Attributes names attributes) (hinner : Content inner) (hrest : Content rest) :
      Content ("<" ++ name ++ attributes ++ ">" ++ inner ++ "</" ++ name ++ ">" ++ rest)

/-- A document without a prolog, comments, sections and instructions: one element. -/
def Document (text : String) : Prop :=
  ∃ name names attributes inner, isName name ∧ Attributes names attributes ∧ Content inner ∧
    text = "<" ++ name ++ attributes ++ ">" ++ inner ++ "</" ++ name ++ ">"

/-- A document that is well formed: its markup is, and it has no other characters than the allowed
    ones. -/
structure WellFormed (text : String) : Prop where
  document : Document text
  allowed : Allowed text

section Texts

variable {first second text : String}

@[simp] theorem allowed_append : Allowed (first ++ second) ↔ Allowed first ∧ Allowed second := by
  simp only [Allowed, String.toList_append, List.forall_mem_append]

@[simp] theorem plain_append : Plain (first ++ second) ↔ Plain first ∧ Plain second := by
  simp only [Plain, String.toList_append, List.forall_mem_append]

theorem isPlain_iff {c : Char} : isPlain c = true ↔ isChar c = true ∧ isMarkup c = false := by
  rw [isPlain, Bool.and_eq_true, Bool.not_eq_true']

theorem Plain.allowed (hplain : Plain text) : Allowed text :=
  fun c hc => (isPlain_iff.1 (hplain c hc)).1

theorem Plain.data (hplain : Plain text) : Data text := by
  rw [← String.append_empty (s := text)]
  exact .text (fun c hc => (isPlain_iff.1 (hplain c hc)).2) .empty

theorem Data.append (hfirst : Data first) (hsecond : Data second) : Data (first ++ second) := by
  induction hfirst with
  | empty => rwa [String.empty_append]
  | text htext _ ih =>
    rw [String.append_assoc]
    exact .text htext ih
  | reference hreference _ ih =>
    rw [String.append_assoc]
    exact .reference hreference ih

theorem Content.of_data (hdata : Data text) : Content text := by
  rw [← String.append_empty (s := text)]
  exact .data hdata .empty

theorem Content.append (hfirst : Content first) (hsecond : Content second) :
    Content (first ++ second) := by
  induction hfirst with
  | empty => rwa [String.empty_append]
  | data hdata _ ih =>
    rw [String.append_assoc]
    exact .data hdata ih
  | childless hname hattributes _ ih =>
    rw [String.append_assoc]
    exact .childless hname hattributes ih
  | element hname hattributes hinner _ _ ih =>
    rw [String.append_assoc]
    exact .element hname hattributes hinner ih

end Texts

end SequenceChart.Xml
