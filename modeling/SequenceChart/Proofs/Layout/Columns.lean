import Mathlib.Algebra.Order.Field.Rat
import Mathlib.Tactic.Linarith
import SequenceChart.Layout.Columns

namespace SequenceChart

theorem larger_eq_max (a b : ℚ) : larger a b = max a b :=
  (max_def_lt a b).symm

theorem ofCount_eq_cast (n : Nat) : (ofCount n : ℚ) = n :=
  rfl

theorem foldl_larger_ge {A : Type} (f : A → ℚ) (start : ℚ) (others : List A) :
    start ≤ others.foldl (fun right other => larger right (f other)) start ∧
      ∀ other ∈ others, f other ≤ others.foldl (fun right other => larger right (f other)) start := by
  induction others generalizing start with
  | nil => exact ⟨le_rfl, nofun⟩
  | cons other rest ih =>
    obtain ⟨hstart, hrest⟩ := ih (larger start (f other))
    rw [larger_eq_max] at hstart hrest
    rw [List.foldl_cons, larger_eq_max, List.forall_mem_cons]
    exact ⟨(le_max_left _ _).trans hstart, (le_max_right _ _).trans hstart, hrest⟩

section Names

variable {participants : List Participant} {name : String} {i : Nat}

theorem column?_isSome_iff :
    (column? name participants).isSome ↔ name ∈ participants.map Participant.name := by
  induction participants with
  | nil => simp [column?]
  | cons participant rest ih =>
    rw [column?, List.map_cons, List.mem_cons, ← ih]
    cases column? name rest with
    | some i => simp
    | none => by_cases hown : participant.name = name <;> simp [hown, Ne.symm]

theorem column?_lt (hcolumn : column? name participants = some i) : i < participants.length := by
  induction participants generalizing i with
  | nil => cases hcolumn
  | cons participant rest ih =>
    rw [column?] at hcolumn
    cases hrest : column? name rest with
    | some j =>
      rw [hrest] at hcolumn
      cases hcolumn
      exact Nat.succ_lt_succ (ih hrest)
    | none =>
      simp only [hrest, Option.ite_none_right_eq_some, Option.some.injEq] at hcolumn
      obtain ⟨_, rfl⟩ := hcolumn
      exact Nat.succ_pos _

theorem name_of_column? (hcolumn : column? name participants = some i) :
    participants[i]?.map Participant.name = some name := by
  induction participants generalizing i with
  | nil => cases hcolumn
  | cons participant rest ih =>
    rw [column?] at hcolumn
    cases hrest : column? name rest with
    | some j =>
      rw [hrest] at hcolumn
      cases hcolumn
      exact ih hrest
    | none =>
      simp only [hrest, Option.ite_none_right_eq_some, Option.some.injEq] at hcolumn
      obtain ⟨hname, rfl⟩ := hcolumn
      exact congrArg some hname

/-- The column of a participant that is listed. -/
def columnIn (participants : List Participant) (name : String) : Nat :=
  (column? name participants).getD 0

theorem columnOf_eq_ok (hname : name ∈ participants.map Participant.name) :
    columnOf participants name = .ok (columnIn participants name) := by
  obtain ⟨i, hcolumn⟩ := Option.isSome_iff_exists.1 (column?_isSome_iff.2 hname)
  rw [columnOf, columnIn, hcolumn]
  rfl

theorem column?_of_columnOf (hcolumn : columnOf participants name = .ok i) :
    column? name participants = some i := by
  rw [columnOf] at hcolumn
  split at hcolumn
  · next hfound =>
    cases hcolumn
    exact hfound
  · cases hcolumn

theorem columnIn_lt (hname : name ∈ participants.map Participant.name) :
    columnIn participants name < participants.length := by
  obtain ⟨i, hcolumn⟩ := Option.isSome_iff_exists.1 (column?_isSome_iff.2 hname)
  rw [columnIn, hcolumn]
  exact column?_lt hcolumn

theorem columnIn_inj {other : String} (hname : name ∈ participants.map Participant.name)
    (hother : other ∈ participants.map Participant.name) :
    columnIn participants name = columnIn participants other ↔ name = other := by
  obtain ⟨i, hcolumn⟩ := Option.isSome_iff_exists.1 (column?_isSome_iff.2 hname)
  obtain ⟨j, hotherColumn⟩ := Option.isSome_iff_exists.1 (column?_isSome_iff.2 hother)
  refine ⟨fun heq => ?_, congrArg _⟩
  have hsame : i = j := by simpa [columnIn, hcolumn, hotherColumn] using heq
  have hnames := (name_of_column? hcolumn).symm.trans (hsame ▸ name_of_column? hotherColumn)
  exact Option.some.inj hnames

theorem columnIn_head {participant : Participant} {rest : List Participant}
    (hdistinct : ((participant :: rest).map Participant.name).Nodup) :
    columnIn (participant :: rest) participant.name = 0 := by
  rw [List.map_cons, List.nodup_cons, ← column?_isSome_iff, Option.not_isSome_iff_eq_none] at hdistinct
  simp [columnIn, column?, hdistinct.1]

theorem columnIn_last (front : List Participant) (participant : Participant) :
    columnIn (front ++ [participant]) participant.name = front.length := by
  have hlast : column? participant.name (front ++ [participant]) = some front.length := by
    induction front with
    | nil => simp [column?]
    | cons first rest ih => simp [column?, ih]
  rw [columnIn, hlast]
  rfl

end Names

namespace Columns

open Distance

/-- The left edge of the box of a column. -/
def leftEdge (columns : Columns ℚ) (i : Nat) : ℚ :=
  columns.centers.getD i 0 - columns.widths.getD i 0 / 2

/-- The right edge of the box of a column. -/
def rightEdge (columns : Columns ℚ) (i : Nat) : ℚ :=
  columns.centers.getD i 0 + columns.widths.getD i 0 / 2

/-- Columns stand side by side, in their order. -/
structure Ordered (columns : Columns ℚ) (count : Nat) : Prop where
  centers : columns.centers.length = count
  left : ∀ i j, i ≤ j → j < count → columns.leftEdge i ≤ columns.leftEdge j
  right : ∀ i j, i ≤ j → j < count → columns.rightEdge i ≤ columns.rightEdge j

/-- As many gaps, each of which is at least as wide. -/
structure Widened (narrow wide : List ℚ) : Prop where
  length : wide.length = narrow.length
  le : ∀ i, narrow.getD i 0 ≤ wide.getD i 0

theorem Widened.refl (gaps : List ℚ) : Widened gaps gaps :=
  ⟨rfl, fun _ => le_rfl⟩

theorem Widened.trans {narrow middle wide : List ℚ} (hfirst : Widened narrow middle)
    (hsecond : Widened middle wide) : Widened narrow wide :=
  ⟨hsecond.length.trans hfirst.length, fun i => (hfirst.le i).trans (hsecond.le i)⟩

theorem widened_modify (gaps : List ℚ) (i : Nat) {f : ℚ → ℚ} (hf : ∀ gap, gap ≤ f gap) :
    Widened gaps (gaps.modify i f) := by
  refine ⟨List.length_modify .., fun j => ?_⟩
  simp only [List.getD_eq_getElem?_getD, List.getElem?_modify]
  cases gaps[j]? with
  | none => exact le_rfl
  | some gap =>
    by_cases hij : i = j
    · simpa [hij] using hf gap
    · simp [hij]

theorem widened_foldl {A : Type} {step : List ℚ → A → List ℚ}
    (hstep : ∀ gaps demand, Widened gaps (step gaps demand)) (gaps : List ℚ) (demands : List A) :
    Widened gaps (demands.foldl step gaps) := by
  induction demands generalizing gaps with
  | nil => exact .refl gaps
  | cons demand rest ih => exact (hstep gaps demand).trans (ih (step gaps demand))

theorem widened_widen (gaps : List ℚ) (span : Span ℚ) : Widened gaps (widen gaps span) := by
  simp only [widen]
  split
  · next hlack => exact widened_modify gaps _ fun gap => by linarith
  · exact .refl gaps

theorem widened_clear (gaps : List ℚ) (overhang : Overhang ℚ) :
    Widened gaps (clear gaps overhang) := by
  refine widened_modify gaps _ fun gap => ?_
  rw [larger_eq_max]
  exact le_max_left gap overhang.need

/-- What signals need only widens the gaps that the boxes need. -/
theorem widened_gaps (participantGap : ℚ) (widths : List ℚ) (spans : List (Span ℚ))
    (overhangs : List (Overhang ℚ)) :
    Widened (List.zipWith (gapBetween participantGap) widths (widths.drop 1))
      (gaps participantGap widths spans overhangs) :=
  (widened_foldl widened_widen _ _).trans (widened_foldl widened_clear _ _)

theorem length_centersFrom {α : Type} [Add α] (x : α) (gaps : List α) :
    (centersFrom x gaps).length = gaps.length + 1 := by
  induction gaps generalizing x with
  | nil => rfl
  | cons gap rest ih => rw [centersFrom, List.length_cons, ih, List.length_cons]

theorem centersFrom_succ {x : ℚ} {gaps : List ℚ} {i : Nat} (hi : i < gaps.length) :
    (centersFrom x gaps).getD (i + 1) 0 = (centersFrom x gaps).getD i 0 + gaps.getD i 0 := by
  induction gaps generalizing x i with
  | nil => cases hi
  | cons gap rest ih =>
    cases i with
    | zero => cases rest <;> simp [centersFrom]
    | succ i => simpa [centersFrom] using ih (Nat.lt_of_succ_lt_succ hi)

theorem gapBetween_ge (participantGap left right : ℚ) :
    (left + right) / 2 ≤ gapBetween participantGap left right := by
  rw [gapBetween, larger_eq_max]
  have hclear : (left + right) / 2 + Distance.boxClearance ≤
      max participantGap ((left + right) / 2 + Distance.boxClearance) := le_max_right _ _
  simp only [Distance.boxClearance] at hclear ⊢
  linarith

theorem getD_nonneg {widths : List ℚ} (hwidths : ∀ width ∈ widths, 0 ≤ width) (i : Nat) :
    0 ≤ widths.getD i 0 := by
  rw [List.getD_eq_getElem?_getD]
  cases hget : widths[i]? with
  | none => exact le_rfl
  | some width => exact hwidths width (List.mem_of_getElem? hget)

/-- Boxes whose centres are far enough apart stand side by side. -/
theorem ordered_of_gaps {widths gaps : List ℚ} (x right participantGap : ℚ)
    (hwidths : ∀ width ∈ widths, 0 ≤ width) (hwidths_ne : widths ≠ [])
    (hgaps : Widened (List.zipWith (gapBetween participantGap) widths (widths.drop 1)) gaps) :
    Ordered ⟨widths, centersFrom x gaps, right⟩ widths.length := by
  have hpositive := List.length_pos_iff.2 hwidths_ne
  have hlength : gaps.length + 1 = widths.length := by
    have hzip := hgaps.length
    simp only [List.length_zipWith, List.length_drop] at hzip
    omega
  have hstep (i : Nat) (hi : i + 1 < widths.length) :
      (centersFrom x gaps).getD i 0 + (widths.getD i 0 + widths.getD (i + 1) 0) / 2 ≤
        (centersFrom x gaps).getD (i + 1) 0 := by
    have hleast : (List.zipWith (gapBetween participantGap) widths (widths.drop 1)).getD i 0 =
        gapBetween participantGap (widths.getD i 0) (widths.getD (i + 1) 0) := by
      have hfirst : i < widths.length := by omega
      simp [List.getD_eq_getElem?_getD, List.getElem?_zipWith, List.getElem?_eq_getElem hfirst,
        List.getElem?_eq_getElem hi]
    have hgap := hgaps.le i
    rw [hleast] at hgap
    have hhalf := gapBetween_ge participantGap (widths.getD i 0) (widths.getD (i + 1) 0)
    rw [centersFrom_succ (by omega)]
    linarith
  refine ⟨(length_centersFrom x gaps).trans hlength, ?_, ?_⟩
  · intro i j hij hj
    induction j, hij using Nat.le_induction with
    | base => exact le_rfl
    | succ j hij ih =>
      refine (ih (by omega)).trans ?_
      have hnext := hstep j hj
      have hown := getD_nonneg hwidths j
      simp only [leftEdge]
      linarith
  · intro i j hij hj
    induction j, hij using Nat.le_induction with
    | base => exact le_rfl
    | succ j hij ih =>
      refine (ih (by omega)).trans ?_
      have hnext := hstep j hj
      have hother := getD_nonneg hwidths (j + 1)
      simp only [rightEdge]
      linarith

/-- A signal is among the demands: as an overhang if it returns to its column, or else as a span. -/
def Demanded (measure : String → Size ℚ) (spans : List (Span ℚ)) (overhangs : List (Overhang ℚ))
    (signal : Signal) (source target : Nat) : Prop :=
  if source = target then
    ⟨source, loopWidth + labelGap + (signalSize measure signal).width + labelPad⟩ ∈ overhangs
  else
    ⟨min source target, max source target, (signalSize measure signal).width + labelPad * 2⟩ ∈ spans

theorem Demanded.mono {measure : String → Size ℚ} {spans moreSpans : List (Span ℚ)}
    {overhangs moreOverhangs : List (Overhang ℚ)} {signal : Signal} {source target : Nat}
    (hspans : spans ⊆ moreSpans) (hoverhangs : overhangs ⊆ moreOverhangs)
    (hdemanded : Demanded measure spans overhangs signal source target) :
    Demanded measure moreSpans moreOverhangs signal source target := by
  unfold Demanded at hdemanded ⊢
  split
  · next hloop => exact hoverhangs (by rwa [if_pos hloop] at hdemanded)
  · next hspan => exact hspans (by rwa [if_neg hspan] at hdemanded)

theorem demands_eq_ok (measure : String → Size ℚ) {participants : List Participant}
    {signals : List Signal} (hsignals : ∀ signal ∈ signals,
      signal.source ∈ participants.map Participant.name ∧
        signal.target ∈ participants.map Participant.name) :
    ∃ spans overhangs, demands measure participants signals = .ok (spans, overhangs) ∧
      ∀ signal ∈ signals, Demanded measure spans overhangs signal
        (columnIn participants signal.source) (columnIn participants signal.target) := by
  induction signals with
  | nil => exact ⟨[], [], rfl, List.forall_mem_nil _⟩
  | cons signal rest ih =>
    obtain ⟨⟨hsource, htarget⟩, hrest⟩ := List.forall_mem_cons.1 hsignals
    obtain ⟨spans, overhangs, hneeds, hdemanded⟩ := ih hrest
    simp only [demands, columnOf_eq_ok hsource, columnOf_eq_ok htarget, hneeds, bind, Except.bind]
    split
    · next hloop =>
      refine ⟨_, _, rfl, List.forall_mem_cons.2 ⟨?_, fun other hother => ?_⟩⟩
      · rw [Demanded, if_pos hloop]
        exact List.mem_cons_self
      · exact (hdemanded other hother).mono (List.Subset.refl _) (List.subset_cons_self _ _)
    · next hspan =>
      refine ⟨_, _, rfl, List.forall_mem_cons.2 ⟨?_, fun other hother => ?_⟩⟩
      · rw [Demanded, if_neg hspan]
        exact List.mem_cons_self
      · exact (hdemanded other hother).mono (List.subset_cons_self _ _) (List.Subset.refl _)

theorem signalSize_width_nonneg {measure : String → Size ℚ} (hwidth : ∀ text, 0 ≤ (measure text).width)
    (signal : Signal) : 0 ≤ (signalSize measure signal).width := by
  rw [signalSize]
  split
  · exact le_rfl
  · exact hwidth signal.label

theorem signalSize_height_nonneg {measure : String → Size ℚ}
    (hheight : ∀ text, 0 ≤ (measure text).height) (signal : Signal) :
    0 ≤ (signalSize measure signal).height := by
  rw [signalSize]
  split
  · exact le_rfl
  · exact hheight signal.label

theorem boxWidthOf_nonneg (measure : String → Size ℚ) (participant : Participant) :
    0 ≤ boxWidthOf measure participant := by
  rw [boxWidthOf, larger_eq_max]
  have hleast : (0 : ℚ) ≤ Distance.boxWidth := by norm_num [Distance.boxWidth]
  exact hleast.trans (le_max_right _ _)

end Columns

end SequenceChart
