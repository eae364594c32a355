import SequenceChart.Diagram.OfText
import SequenceChart.Font
import SequenceChart.Proofs.Diagram.WellFormed
import SequenceChart.Proofs.Drawing.Labels
import SequenceChart.Proofs.Layout.Surrounded

namespace SequenceChart

open Distance

/-- The box of a fragment has room for its tab, and the tab for the header. As the header of a fragment
    has a fixed height, no matter how high its text is, the tab is not high enough for every text. -/
structure FragmentBox.HasTab (box : FragmentBox ℚ) (header tab : Size ℚ) : Prop where
  width : header.width ≤ tab.width
  height : header.height ≤ tab.height ↔ header.height ≤ 28
  insideWidth : tab.width ≤ box.width
  insideHeight : tab.height ≤ box.height

/-- Calls that draw a fragment, and in the corner of its box a tab with the header in it. The tab is all
    that they fill. -/
def FragmentBox.DrawnWithTab (box : FragmentBox ℚ) (measure : String → Size ℚ)
    (calls : List (Call ℚ)) : Prop :=
  ∃ header tab, header = Label.header box.kind box.label ∧ box.HasTab (measure header) tab ∧
    ∃ border filling ink dividers,
      calls = [.measure header, .push box.x box.y, .rectangle ⟨0, 0⟩ ⟨box.width, box.height⟩ border,
        .fill ⟨0, 0⟩ tab filling, .rectangle ⟨0, 0⟩ tab border,
        .text header .center .center ⟨0, 0⟩ tab ink] ++ dividers ++ [.pop] ∧
      ∀ call ∈ dividers, call.kind = .dashedLine ∨ call.kind = .text

theorem FragmentBox.hasTab_tabSize {box : FragmentBox ℚ} {header : Size ℚ}
    (hwidth : header.width + tabPad * 2 ≤ box.width)
    (hheight : fragmentHeader + fragmentBottom ≤ box.height) :
    box.HasTab header (Drawing.tabSize header box.width) := by
  simp only [tabPad, fragmentHeader, fragmentBottom] at hwidth hheight
  refine ⟨?_, ?_, ?_, ?_⟩ <;> simp only [Drawing.tabSize, smaller_eq_min, larger_eq_max, tabPad, fragmentHeader]
  · rw [min_eq_left (by linarith)]
    linarith
  · rw [le_min_iff]
    exact ⟨And.right, fun hlow => ⟨le_max_left _ _, hlow⟩⟩
  · exact min_le_right _ _
  · exact (min_le_right _ _).trans (by linarith)

theorem Drawing.kind_ofDivider (palette : Palette ℚ) (box : FragmentBox ℚ) (divider : Divider ℚ) :
    ∀ call ∈ (ofDivider palette box divider).calls, call.kind = .dashedLine ∨ call.kind = .text := by
  simp only [ofDivider, calls_ofCalls, List.forall_mem_cons]
  refine ⟨.inl rfl, ?_⟩
  split <;> simp [Call.kind]

theorem Drawing.drawnWithTab_ofFragment (measure : String → Size ℚ) (palette : Palette ℚ)
    {box : FragmentBox ℚ}
    (hwidth : (measure (Label.header box.kind box.label)).width + tabPad * 2 ≤ box.width)
    (hheight : fragmentHeader + fragmentBottom ≤ box.height) :
    box.DrawnWithTab measure (ofFragment measure palette box).calls := by
  refine ⟨_, _, rfl, FragmentBox.hasTab_tabSize hwidth hheight, palette.nodeStroke,
    palette.fragmentHeader, palette.mutedText, (forAll (ofDivider palette box) box.dividers).calls, ?_,
    forall_calls_forAll (kind_ofDivider palette box) box.dividers⟩
  simp only [ofFragment, calls, calls_append, calls_ofCalls, List.cons_append, List.nil_append]

theorem Font.labelSize_width_nonneg (text : String) :
    0 ≤ ((standard : Font ℚ).labelSize text).width := by
  have hwidth (line : String) : 0 ≤ (standard : Font ℚ).textWidth line := by
    simp only [textWidth, standard, ratio, ofCount_eq_cast]
    positivity
  exact (hwidth _).trans (foldl_larger_ge _ _ _).1

namespace Layout

/-- Every box of an arranged layout is wide enough for its header, and high enough for the header of a
    fragment without rows. -/
theorem Arranged.tab_le {layout : Layout ℚ} {grid : Grid ℚ} {diagram : Diagram} {spots : List Spot}
    (harranged : layout.Arranged grid diagram spots) {box : FragmentBox ℚ}
    (hbox : box ∈ layout.fragments) :
    (grid.measure (Label.header box.kind box.label)).width + tabPad * 2 ≤ box.width ∧
      fragmentHeader + fragmentBottom ≤ box.height := by
  rw [← harranged.shows.fragments] at hbox
  obtain ⟨fragment, hspot⟩ := Spot.mem_filterMap_box?.1 hbox
  obtain ⟨front, rest, hsplit⟩ := List.append_of_mem hspot
  obtain ⟨_, _, -, -, hencloses, -⟩ := harranged.stacked front fragment box rest hsplit
  have hframes : grid.Frames fragment box := harranged.fits _ hspot
  have hheader := hframes.header_le
  rw [← hframes.kind, ← hframes.label] at hheader
  refine ⟨?_, hencloses.height⟩
  simp only [tabPad]
  linarith

/-- What a rendering draws for the fragments of a text are boxes with tabs that are as wide as their
    headers demand and lie in the boxes. A tab is as high as its header up to a height of 28, which is
    that of one line, but not of two lines in the standard font. -/
theorem ofText_tabbed (measure : String → Size ℚ) (text : String) :
    ∃ diagram problems layout front groups back,
      Diagram.ofText text = .ok (diagram, problems) ∧
      ofDiagram measure (Spacing.ofOptions {}) diagram = .ok layout ∧
      Diagram.RendersBy measure {} diagram layout (front ++ groups.flatten ++ back) ∧
      List.Forall₂ (fun box calls => box.DrawnWithTab measure calls) layout.fragments groups := by
  have hrefers := (Diagram.foldl_after_ofText_wellFormed text).refers
  have hdescends : (Spacing.ofOptions ({} : Options ℚ)).Descends measure :=
    Spacing.descends_of_rowHeight (by norm_num [Spacing.ofOptions]) measure
  obtain ⟨layout, spots, columns, hlayout, harranged⟩ := ofDiagram_arranged measure hdescends hrefers
  have haccepted : ¬ ({} : Options ℚ).Rejected := by simp [Options.Rejected, nonempty?]
  obtain ⟨palette, hpalette⟩ := Palette.ofOptions_eq_ok_iff.2 haccepted
  have hrenders := Diagram.rendersBy_rendering hlayout hpalette
  rw [Diagram.rendering, Drawing.ofLayout] at hrenders
  simp only [Drawing.calls_append, Drawing.calls_forAll (Drawing.ofFragment measure palette)] at hrenders
  rw [← List.append_assoc, ← List.append_assoc, List.flatMap_def] at hrenders
  refine ⟨_, _, layout, _, _, _, Diagram.ofText_eq_ok text, hlayout, hrenders, ?_⟩
  rw [List.forall₂_map_right_iff, List.forall₂_same]
  intro box hbox
  obtain ⟨hwidth, hheight⟩ := harranged.tab_le hbox
  exact Drawing.drawnWithTab_ofFragment measure palette hwidth hheight

set_option maxRecDepth 4000 in
/-- A header of two lines is higher than the tab that it is drawn in. -/
theorem ofText_tabbed_twoLines :
    ∃ palette : Palette ℚ, ∃ diagram layout box tab, Palette.ofOptions {} = .ok palette ∧
      (∀ text, 0 ≤ ((Font.standard : Font ℚ).labelSize text).width ∧
        0 ≤ ((Font.standard : Font ℚ).labelSize text).height) ∧
      Diagram.ofText "loop a\\nb\nA -> B\nend" = .ok (diagram, []) ∧
      ofDiagram Font.standard.labelSize (Spacing.ofOptions {}) diagram = .ok layout ∧
      layout.fragments = [box] ∧
      Call.fill ⟨0, 0⟩ tab palette.fragmentHeader ∈
        (Drawing.ofFragment Font.standard.labelSize palette box).calls ∧
      Call.text (Label.header box.kind box.label) .center .center ⟨0, 0⟩ tab palette.mutedText ∈
        (Drawing.ofFragment Font.standard.labelSize palette box).calls ∧
      tab.height < ((Font.standard : Font ℚ).labelSize (Label.header box.kind box.label)).height := by
  let inside : Operands := .cons "a\\nb" (.signal ⟨"A", "B", "", .solid, true⟩ .empty) .none
  let diagram : Diagram :=
    { participants := [⟨"A", "A"⟩, ⟨"B", "B"⟩], content := ⟨"", .fragment "loop" inside .empty⟩ }
  let box : FragmentBox ℚ := ⟨"loop", "a\\nb", 30, 80, 240, 78, 0, []⟩
  let header : Size ℚ := Font.standard.labelSize (Label.header box.kind box.label)
  have hdiagram : Diagram.ofText "loop a\\nb\nA -> B\nend" = .ok (diagram, []) := by
    cbv
  have hboxes : (ofDiagram Font.standard.labelSize (Spacing.ofOptions {}) diagram).map fragments =
      .ok [box] := by
    decide +kernel
  have haccepted : ¬ ({} : Options ℚ).Rejected := by simp [Options.Rejected, nonempty?]
  obtain ⟨palette, hpalette⟩ : ∃ palette : Palette ℚ, Palette.ofOptions {} = .ok palette :=
    Palette.ofOptions_eq_ok_iff.2 haccepted
  obtain ⟨layout, hlayout, hboxes⟩ := map_eq_ok_iff.1 hboxes
  refine ⟨palette, diagram, layout, box, Drawing.tabSize header box.width, hpalette, fun text => ?_,
    hdiagram, hlayout, hboxes, ?_, ?_, ?_⟩
  · exact ⟨Font.labelSize_width_nonneg text, Font.labelSize_height_nonneg text⟩
  · simp [Drawing.ofFragment, Drawing.calls, Drawing.calls_append, Drawing.calls_ofCalls, header]
  · simp [Drawing.ofFragment, Drawing.calls, Drawing.calls_append, Drawing.calls_ofCalls, header]
  · change (Drawing.tabSize header box.width).height < header.height
    decide +kernel

end Layout

end SequenceChart
