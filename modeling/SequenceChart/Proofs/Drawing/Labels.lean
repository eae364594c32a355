import Mathlib
import SequenceChart.Diagram.OfText
import SequenceChart.Font
import SequenceChart.Proofs.Diagram.WellFormed
import SequenceChart.Proofs.Drawing.Corners
import SequenceChart.Proofs.Drawing.Rendering
import SequenceChart.Proofs.Layout.Composed

namespace SequenceChart

open Distance

/-- The upper and the lower edge of the box of a text. -/
def Call.textEdges? : Call ℚ → Option (ℚ × ℚ)
  | .text _ _ _ corner size _ => some (corner.y, corner.y + size.height)
  | _ => none

namespace SignalRow

/-- The edges of the boxes of texts that are drawn for a row. -/
def labelEdges (palette : Palette ℚ) (row : SignalRow ℚ) : List (ℚ × ℚ) :=
  (Drawing.ofSignal palette row).calls.filterMap Call.textEdges?

/-- What is written in a row ends above the line of the next one, and above what is written there. -/
def LabelClears (palette : Palette ℚ) (row next : SignalRow ℚ) : Prop :=
  ∀ label ∈ row.labelEdges palette,
    label.2 ≤ next.y ∧ ∀ other ∈ next.labelEdges palette, label.2 ≤ other.1

/-- How high a label beside a loop may be if it shall end above the next row. -/
def labelRoom (between : List Event) (next : SignalRow ℚ) : ℚ :=
  2 * Event.borders between +
    if next.label = "" then 76
    else if next.isSelf then min (76 + 2 * next.labelHeight) (96 + next.labelHeight)
    else 64

/-- The upper edge of the label of a row, which is above the line or, in a loop, beside its middle. -/
def labelTop (row : SignalRow ℚ) : ℚ :=
  if row.isSelf then row.y + loopHeight / 2 - row.labelHeight / 2 else row.top

theorem labelEdges_eq (palette : Palette ℚ) (row : SignalRow ℚ) :
    row.labelEdges palette =
      if row.label = "" then [] else [(row.labelTop, row.labelTop + row.labelHeight)] := by
  have hsegment (dashed hasHead : Bool) (start stop : Point ℚ) :
      (Drawing.segment palette dashed hasHead start stop).textEdges? = none := by
    rw [Drawing.segment]
    split <;> rfl
  have hlines : (Drawing.signalLines palette row).filterMap Call.textEdges? = [] := by
    simp only [Drawing.signalLines]
    split <;> simp [hsegment]
  rw [labelEdges, Drawing.ofSignal, Drawing.calls_ofCalls, List.filterMap_append, hlines]
  split
  · rfl
  · cases hself : row.isSelf <;> simp [Drawing.signalLabel, labelTop, hself, Call.textEdges?, top]

theorem labelClears_iff {palette : Palette ℚ} {row next : SignalRow ℚ} (hlabel : row.label ≠ "") :
    row.LabelClears palette next ↔ row.labelTop + row.labelHeight ≤ next.y ∧
      (next.label ≠ "" → row.labelTop + row.labelHeight ≤ next.labelTop) := by
  rw [LabelClears, labelEdges_eq, if_neg hlabel, List.forall_mem_singleton, labelEdges_eq]
  by_cases hnext : next.label = "" <;> simp [hnext]

end SignalRow

/-- What is said about a row and the next one: how far apart their lines are, and that only a label
    has a height. -/
structure Follows (row : SignalRow ℚ) (between : List Event) (next : SignalRow ℚ) : Prop where
  distance : next.y - row.y = max (40 - row.labelHeight) 18 + row.extra between next
  height : 0 ≤ row.labelHeight
  nextHeight : 0 ≤ next.labelHeight
  unlabelled : next.label = "" → next.labelHeight = 0

namespace Follows

variable {palette : Palette ℚ} {row next : SignalRow ℚ} {between : List Event}

/-- A label above its line is clear of the next row. -/
theorem clears (hfollows : Follows row between next) (hself : row.isSelf = false) :
    row.LabelClears palette next := by
  obtain ⟨hdistance, hheight, hnext, -⟩ := hfollows
  by_cases hlabel : row.label = ""
  · simp [SignalRow.LabelClears, SignalRow.labelEdges_eq, hlabel]
  · have hborders := Event.borders_nonneg between
    have hleast := le_max_right (40 - row.labelHeight) 18
    rw [SignalRow.extra, hself, if_neg Bool.false_ne_true, ← Event.borders] at hdistance
    have hend : row.labelTop + row.labelHeight = row.y - 6 := by
      rw [SignalRow.labelTop, hself, if_neg Bool.false_ne_true, SignalRow.top, labelGap]
      linarith
    have htop : next.y - 6 - next.labelHeight ≤ next.labelTop := by
      rw [SignalRow.labelTop, SignalRow.top, labelGap, loopHeight]
      split <;> linarith
    rw [SignalRow.labelClears_iff hlabel, hend]
    constructor
    · linarith
    · intro _
      linarith

/-- A label beside a loop is clear of the next row exactly if there is room for its lower half. -/
theorem clears_iff (hfollows : Follows row between next) (hself : row.isSelf = true)
    (hlabel : row.label ≠ "") :
    row.LabelClears palette next ↔ row.labelHeight ≤ SignalRow.labelRoom between next := by
  obtain ⟨hdistance, hheight, hnext, hunlabelled⟩ := hfollows
  have hborders := Event.borders_nonneg between
  rw [SignalRow.extra, if_pos hself, ← Event.borders] at hdistance
  have hend : row.labelTop + row.labelHeight = row.y + 10 + row.labelHeight / 2 := by
    rw [SignalRow.labelTop, if_pos hself, loopHeight]
    linarith
  rw [SignalRow.labelClears_iff hlabel, hend, SignalRow.labelRoom]
  have hreach (drop : ℚ) (hdrop : drop ≤ 27 + Event.borders between + next.labelHeight) :
      row.y + 10 + row.labelHeight / 2 ≤ next.y - drop ↔
        row.labelHeight ≤ 76 + 2 * Event.borders between + 2 * next.labelHeight - 2 * drop := by
    rcases le_total (40 - row.labelHeight) 18 with hlow | hhigh
    · rw [max_eq_right hlow] at hdistance
      constructor <;> intro hclear <;> linarith
    · rw [max_eq_left hhigh] at hdistance
      constructor <;> intro hclear <;> linarith
  have hline := hreach 0 (by linarith)
  rw [sub_zero] at hline
  rw [hline]
  by_cases hunwritten : next.label = ""
  · rw [if_pos hunwritten, hunlabelled hunwritten]
    constructor
    · intro hclear
      linarith [hclear.1]
    · intro hclear
      exact ⟨by linarith, fun hwritten => absurd hunwritten hwritten⟩
  · rw [if_neg hunwritten, imp_iff_right hunwritten, SignalRow.labelTop]
    cases hloop : next.isSelf with
    | true =>
      have htop : next.y + loopHeight / 2 - next.labelHeight / 2 =
          next.y - (next.labelHeight / 2 - 10) := by
        simp only [loopHeight]
        linarith
      rw [if_pos rfl, if_pos rfl, htop, hreach _ (by linarith), ← min_add_add_left, le_min_iff]
      constructor <;> rintro ⟨hclear, hapart⟩ <;> constructor <;> linarith
    | false =>
      have htop : next.top = next.y - (next.labelHeight + 6) := by
        simp only [SignalRow.top, labelGap]
        linarith
      rw [if_neg Bool.false_ne_true, if_neg Bool.false_ne_true, htop, hreach _ (by linarith)]
      constructor
      · rintro ⟨-, hapart⟩
        linarith
      · intro hapart
        constructor <;> linarith

end Follows

theorem SignalRow.labelRoom_ge (between : List Event) {next : SignalRow ℚ}
    (hnext : 0 ≤ next.labelHeight) : 64 ≤ labelRoom between next := by
  have hborders := Event.borders_nonneg between
  have hloop : 76 ≤ min (76 + 2 * next.labelHeight) (96 + next.labelHeight) :=
    le_min (by linarith) (by linarith)
  rw [labelRoom]
  split_ifs <;> linarith

theorem Font.labelSize_height (text : String) :
    ((standard : Font ℚ).labelSize text).height = (Label.lines text).length * (65 / 4) := by
  simp only [labelSize, standard, lineHeight, ofCount_eq_cast]
  linarith

theorem Font.labelSize_height_nonneg (text : String) :
    0 ≤ ((standard : Font ℚ).labelSize text).height := by
  rw [labelSize_height]
  positivity

namespace Layout

/-- Labels above their lines are clear of the next row, and labels beside loops are if they have at most
    three lines. Higher ones are if borders of fragments or the next label make enough room. -/
structure Labelled (layout : Layout ℚ) (palette : Palette ℚ) (diagram : Diagram) : Prop where
  messages : layout.signals.map SignalRow.message = diagram.signals
  loops : ∀ row ∈ layout.signals, row.isSelf = row.message.isSelf
  heights : ∀ row ∈ layout.signals,
    row.labelHeight = if row.label = "" then 0 else ((Label.lines row.label).length * (65 / 4) : ℚ)
  clear : ∀ front row next back, layout.signals = front ++ row :: next :: back →
    row.isSelf = false ∨ (Label.lines row.label).length ≤ 3 → row.LabelClears palette next
  clear_iff : ∀ front row next back, layout.signals = front ++ row :: next :: back →
    row.isSelf = true → row.label ≠ "" → ∃ before between after : List Event,
      diagram.content.body.events =
        before ++ .signal row.message :: between ++ .signal next.message :: after ∧
      before.filterMap Event.signal? = front.map SignalRow.message ∧
      (∀ event ∈ between, event.signal? = none) ∧
      (row.LabelClears palette next ↔ row.labelHeight ≤ SignalRow.labelRoom between next)

/-- In a layout of standard labels, successive rows follow each other. -/
theorem Arranged.follows {layout : Layout ℚ} {columns : Columns ℚ} {diagram : Diagram}
    {spots : List Spot}
    (harranged : layout.Arranged ⟨diagram.participants, columns, Spacing.ofOptions {},
      Font.standard.labelSize⟩ diagram spots)
    {front back : List (SignalRow ℚ)} {row next : SignalRow ℚ}
    (hsplit : layout.signals = front ++ row :: next :: back) :
    ∃ before between after : List Event,
      diagram.content.body.events =
        before ++ .signal row.message :: between ++ .signal next.message :: after ∧
      before.filterMap Event.signal? = front.map SignalRow.message ∧
      (∀ event ∈ between, event.signal? = none) ∧ Follows row between next := by
  obtain ⟨top, bottom, hruns⟩ := harranged.runs
  obtain ⟨before, between, after, hevents, hbefore, hbetween, hdistance⟩ :=
    hruns.distance harranged.carries hsplit
  have hheight : ∀ other ∈ layout.signals, 0 ≤ other.labelHeight := by
    intro other hother
    apply Grid.Carries.labelHeight_nonneg _ (harranged.carries other hother)
    exact Font.labelSize_height_nonneg
  refine ⟨before, between, after, hevents, hbefore, hbetween, hdistance,
    hheight row (by simp [hsplit]), hheight next (by simp [hsplit]), fun hunwritten => ?_⟩
  change next.message.label = "" at hunwritten
  have hsize := congrArg Size.height (harranged.carries next (by simp [hsplit])).size
  rwa [Columns.signalSize, if_pos hunwritten] at hsize

theorem ofText_labelled (palette : Palette ℚ) (text : String) :
    ∃ diagram problems layout, Diagram.ofText text = .ok (diagram, problems) ∧
      ofDiagram Font.standard.labelSize (Spacing.ofOptions {}) diagram = .ok layout ∧
      layout.Labelled palette diagram := by
  let diagram := ((TokenLine.statements (TokenLine.ofText text)).foldl Builder.after
    (Builder.ofDiagram {})).diagram
  have hformed : diagram.WellFormed := Diagram.foldl_after_ofText_wellFormed text
  obtain ⟨layout, spots, columns, hlayout, harranged⟩ := ofDiagram_arranged Font.standard.labelSize
    (Spacing.descends_of_height (Spacing.ofOptions {}) Font.labelSize_height_nonneg) hformed.refers
  have hheights : ∀ row ∈ layout.signals, row.labelHeight =
      if row.label = "" then 0 else ((Label.lines row.label).length * (65 / 4) : ℚ) := by
    intro row hrow
    rw [← Font.labelSize_height]
    have hsize := congrArg Size.height (harranged.carries row hrow).size
    rw [Columns.signalSize, apply_ite Size.height] at hsize
    exact hsize
  refine ⟨diagram, _, layout, Diagram.ofText_eq_ok text, hlayout, harranged.shows.messages,
    fun row hrow => (harranged.carries row hrow).isSelf, hheights, ?_, ?_⟩
  · intro front row next back hsplit hshort
    obtain ⟨-, between, -, -, -, -, hfollows⟩ := harranged.follows hsplit
    cases hself : row.isSelf with
    | false => exact hfollows.clears hself
    | true =>
      by_cases hlabel : row.label = ""
      · simp [SignalRow.LabelClears, SignalRow.labelEdges_eq, hlabel]
      · rw [hfollows.clears_iff hself hlabel, hheights row (by simp [hsplit]), if_neg hlabel]
        have hlines : (Label.lines row.label).length ≤ 3 := hshort.resolve_left (by simp [hself])
        have hcast : ((Label.lines row.label).length : ℚ) ≤ 3 := by exact_mod_cast hlines
        have hroom := SignalRow.labelRoom_ge between hfollows.nextHeight
        linarith
  · intro front row next back hsplit hself hlabel
    obtain ⟨before, between, after, hevents, hbefore, hbetween, hfollows⟩ := harranged.follows hsplit
    exact ⟨before, between, after, hevents, hbefore, hbetween, hfollows.clears_iff hself hlabel⟩

set_option maxRecDepth 4000 in
/-- The lower half of a label of five lines beside a loop reaches below the line of the next signal. -/
theorem ofText_labelled_fiveLines :
    ∃ palette : Palette ℚ, ∃ diagram layout first second,
      Palette.ofOptions {} = .ok palette ∧
      Diagram.ofText "A -> A: 1\\n2\\n3\\n4\\n5\nA -> B" = .ok (diagram, []) ∧
      ofDiagram Font.standard.labelSize (Spacing.ofOptions {}) diagram = .ok layout ∧
      layout.signals = [first, second] ∧ ¬ first.LabelClears palette second := by
  let rest : Body := .signal ⟨"A", "B", "", .solid, true⟩ .empty
  let diagram : Diagram :=
    { participants := [⟨"A", "A"⟩, ⟨"B", "B"⟩]
      content := ⟨"", .signal ⟨"A", "A", "1\\n2\\n3\\n4\\n5", .solid, true⟩ rest⟩ }
  let first : SignalRow ℚ :=
    ⟨0, "A", "A", "1\\n2\\n3\\n4\\n5", .solid, true, 70, 70, 669 / 4, true, 143 / 20, 325 / 4⟩
  let second : SignalRow ℚ := ⟨1, "A", "B", "", .solid, true, 70, 210, 861 / 4, false, 0, 0⟩
  have hdiagram : Diagram.ofText "A -> A: 1\\n2\\n3\\n4\\n5\nA -> B" = .ok (diagram, []) := by
    cbv
  have hrows : (ofDiagram Font.standard.labelSize (Spacing.ofOptions {}) diagram).map signals =
      .ok [first, second] := by
    decide +kernel
  have haccepted : ¬ ({} : Options ℚ).Rejected := by simp [Options.Rejected, nonempty?]
  obtain ⟨palette, hpalette⟩ : ∃ palette : Palette ℚ, Palette.ofOptions {} = .ok palette :=
    Palette.ofOptions_eq_ok_iff.2 haccepted
  obtain ⟨layout, hlayout, hrows⟩ := map_eq_ok_iff.1 hrows
  refine ⟨palette, diagram, layout, first, second, hpalette, hdiagram, hlayout, hrows,
    fun hclears => ?_⟩
  have hlabel : first.label ≠ "" := by decide
  have hline := ((SignalRow.labelClears_iff hlabel).1 hclears).1
  simp only [SignalRow.labelTop, first, second, loopHeight, if_true] at hline
  norm_num at hline

end Layout

end SequenceChart
