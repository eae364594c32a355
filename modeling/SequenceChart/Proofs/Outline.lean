import Mathlib.Data.List.Forall2
import Mathlib.Data.Option.Basic
import SequenceChart.Diagram.Basic
import SequenceChart.Label

namespace SequenceChart

namespace Label

/-- Texts that ask for as many lines, each as long as the one in its place. -/
def Alike (first second : String) : Prop :=
  (lines first).map String.length = (lines second).map String.length

/-- All characters of a text made the same, but for those that ask for line breaks. -/
def outlineChars : List Char → List Char
  | '\\' :: 'n' :: rest => '\\' :: 'n' :: outlineChars rest
  | _ :: rest => 'x' :: outlineChars rest
  | [] => []

/-- A text of which only the lengths of the lines are kept. -/
def outline (text : String) : String :=
  String.ofList (outlineChars text.toList)

/-- A line of which only the length is kept. -/
def masked (line : String) : String :=
  String.ofList (List.replicate line.length 'x')

theorem masked_ofList (cs : List Char) :
    masked (String.ofList cs) = String.ofList (List.replicate cs.length 'x') := by
  rw [masked, String.length_ofList]

theorem length_masked (line : String) : (masked line).length = line.length := by
  simp [masked]

theorem splitBreaks_outlineChars (cs : List Char) :
    splitBreaks (outlineChars cs) = (List.replicate (splitBreaks cs).1.length 'x',
      (splitBreaks cs).2.map fun line => List.replicate line.length 'x') := by
  induction cs using outlineChars.induct with
  | case1 rest ih => simp [outlineChars, splitBreaks, ih]
  | case2 c rest hbreak ih =>
    rw [outlineChars, splitBreaks, splitBreaks, ih]
    · simp [List.replicate_succ]
    · exact hbreak
    · rintro rest' h
      cases h
    · exact hbreak
  | case3 => rfl

/-- The lines of an outline. -/
theorem lines_outline (text : String) : lines (outline text) = (lines text).map masked := by
  simp only [lines, outline, String.toList_ofList, splitBreaks_outlineChars, List.map_cons,
    List.map_map, masked_ofList]
  congr 1
  exact List.map_congr_left fun line _ => (masked_ofList line).symm

/-- Pieces joined by what asks for a line break. -/
def joinBreaks (first : List Char) (others : List (List Char)) : List Char :=
  first ++ others.flatMap fun line => '\\' :: 'n' :: line

theorem joinBreaks_splitBreaks (cs : List Char) :
    joinBreaks (splitBreaks cs).1 (splitBreaks cs).2 = cs := by
  induction cs using splitBreaks.induct with
  | case1 rest ih => simpa [joinBreaks, splitBreaks] using ih
  | case2 c rest hbreak ih =>
    rw [splitBreaks]
    · simpa [joinBreaks] using ih
    · exact hbreak
  | case3 => rfl

/-- Alike texts have the same outline. -/
theorem Alike.outline_eq {first second : String} (halike : Alike first second) :
    outline first = outline second := by
  have hlengths (text : String) : (lines text).map String.length =
      (splitBreaks text.toList).1.length :: (splitBreaks text.toList).2.map List.length := by
    simp [lines, Function.comp_def]
  rw [Alike, hlengths, hlengths] at halike
  obtain ⟨hfirst, hothers⟩ := List.cons.inj halike
  have hmasked (split : List (List Char)) : (split.map fun line => List.replicate line.length 'x') =
      (split.map List.length).map fun n => List.replicate n 'x' := by
    rw [List.map_map]
    rfl
  rw [outline, outline, ← joinBreaks_splitBreaks (outlineChars first.toList),
    ← joinBreaks_splitBreaks (outlineChars second.toList), splitBreaks_outlineChars,
    splitBreaks_outlineChars, hfirst, hmasked, hmasked, hothers]

theorem Alike.refl (text : String) : Alike text text :=
  rfl

theorem outline_alike (text : String) : Alike (outline text) text := by
  rw [Alike, lines_outline, List.map_map]
  exact List.map_congr_left fun line _ => length_masked line

theorem outline_outline (text : String) : outline (outline text) = outline text :=
  (outline_alike text).outline_eq

theorem outline_eq_empty_iff {text : String} : outline text = "" ↔ text = "" := by
  have hnil : outlineChars text.toList = [] ↔ text.toList = [] := by
    fun_cases outlineChars text.toList <;> simp_all
  rw [outline, String.ofList_eq_empty_iff, hnil, String.toList_eq_nil_iff]

/-- A break may not be asked for across the seam of two texts. -/
theorem outlineChars_append (front : List Char) {back : List Char} (hback : back.head? ≠ some 'n') :
    outlineChars (front ++ back) = outlineChars front ++ outlineChars back := by
  induction front using outlineChars.induct with
  | case1 rest ih => simp [outlineChars, ih]
  | case2 c rest hbreak ih =>
    rw [List.cons_append, outlineChars, outlineChars, ih]
    · rfl
    · exact hbreak
    · rintro rest' rfl h
      cases rest with
      | nil => exact hback (congrArg List.head? h)
      | cons d rest =>
        obtain ⟨rfl, -⟩ := List.cons.inj h
        exact hbreak _ rfl rfl
  | case3 => rfl

/-- The outline of a text in brackets behind another text is that of its outline there. -/
theorem outline_bracketed (front text : String) :
    outline (front ++ "[" ++ outline text ++ "]") = outline (front ++ "[" ++ text ++ "]") := by
  have hsplit (inner : String) : outlineChars (front ++ "[" ++ inner ++ "]").toList =
      outlineChars front.toList ++ ('x' :: outlineChars inner.toList ++ ['x']) := by
    have hopen : outlineChars (inner.toList ++ [']']) = outlineChars inner.toList ++ ['x'] :=
      outlineChars_append _ (by decide)
    have hclose : outlineChars ('[' :: (inner.toList ++ [']'])) =
        'x' :: outlineChars (inner.toList ++ [']']) := rfl
    simp only [String.toList_append, List.append_assoc]
    rw [outlineChars_append _ (by simp)]
    simpa [hopen] using hclose
  have hinner : outlineChars (outline text).toList = outlineChars text.toList := by
    have hsame := congrArg String.toList (outline_outline text)
    simpa [outline] using hsame
  change String.ofList (outlineChars _) = String.ofList (outlineChars _)
  rw [hsplit, hsplit, hinner]

theorem outline_header (kind label : String) :
    outline (header kind (outline label)) = outline (header kind label) := by
  simp only [header, outline_eq_empty_iff]
  split
  · rfl
  · have hspace (inner : String) :
        kind ++ " [" ++ inner ++ "]" = kind ++ " " ++ "[" ++ inner ++ "]" := by
      have hopen : kind ++ " " ++ "[" = kind ++ " [" := String.append_assoc
      rw [hopen]
    rw [hspace, hspace, outline_bracketed]

theorem outline_divider (guard : String) :
    outline (divider (outline guard)) = outline (divider guard) := by
  simp only [divider, outline_eq_empty_iff]
  split
  · rfl
  · exact outline_bracketed "" guard

theorem divider_outline_eq_empty_iff {guard : String} :
    divider (outline guard) = "" ↔ divider guard = "" := by
  rw [← outline_eq_empty_iff, outline_divider, outline_eq_empty_iff]

end Label

end SequenceChart
