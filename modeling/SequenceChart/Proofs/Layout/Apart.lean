import SequenceChart.Font
import SequenceChart.Proofs.Layout.Composed
import SequenceChart.Proofs.Layout.Traced

namespace SequenceChart

open Distance

theorem columnIn_of_getElem? {participants : List Participant}
    (hdistinct : (participants.map Participant.name).Nodup) {i : Nat} {participant : Participant}
    (hparticipant : participants[i]? = some participant) :
    columnIn participants participant.name = i := by
  have hname : participant.name ∈ participants.map Participant.name :=
    List.mem_map_of_mem (List.mem_of_getElem? hparticipant)
  obtain ⟨j, hcolumn⟩ := Option.isSome_iff_exists.1 (column?_isSome_iff.2 hname)
  have hfound := name_of_column? hcolumn
  have hown : participants[i]?.map Participant.name = some participant.name :=
    congrArg (Option.map Participant.name) hparticipant
  rw [← List.getElem?_map] at hfound hown
  have hbound : j < (participants.map Participant.name).length := by simpa using column?_lt hcolumn
  rw [columnIn, hcolumn]
  exact (List.getElem?_inj hbound hdistinct).1 (hfound.trans hown.symm)

/-- The room of an overhang as a span of one gap, that between its column and the next one. -/
def Overhang.span (overhang : Overhang ℚ) : Span ℚ :=
  ⟨overhang.column, overhang.column + 1, overhang.need⟩

namespace Columns

theorem participantGap_le_gapBetween (participantGap left right : ℚ) :
    participantGap ≤ gapBetween participantGap left right := by
  rw [gapBetween, larger_eq_max]
  exact le_max_left _ _

theorem boxes_le_gapBetween (participantGap left right : ℚ) :
    (left + right) / 2 + boxClearance ≤ gapBetween participantGap left right := by
  rw [gapBetween, larger_eq_max]
  exact le_max_right _ _

theorem room_singleton (gaps : List ℚ) (i : Nat) : room gaps i (i + 1) = gaps.getD i 0 := by
  rw [room_succ gaps le_rfl]
  simp [room]

theorem allows_clear {overhang : Overhang ℚ} {gaps : List ℚ} (hcolumn : overhang.column < gaps.length) :
    Allows overhang.span (clear gaps overhang) := by
  have hgap : (clear gaps overhang).getD overhang.column 0 =
      max (gaps.getD overhang.column 0) overhang.need := by
    simp [clear, List.getD_eq_getElem?_getD, List.getElem?_eq_getElem hcolumn, larger_eq_max]
  rw [Allows, Overhang.span, room_singleton, hgap]
  exact le_max_right _ _

/-- Widening goes on after spans have been looked at, but no gap becomes narrower again, and so an
    overhang keeps the room that it has been given. -/
theorem allows_gaps_of_overhang (participantGap : ℚ) {widths : List ℚ} (spans : List (Span ℚ))
    {overhangs : List (Overhang ℚ)} {overhang : Overhang ℚ} (hoverhang : overhang ∈ overhangs)
    (hnext : overhang.column + 1 < widths.length) :
    Allows overhang.span (gaps participantGap widths spans overhangs) := by
  refine allows_foldl widened_clear (fun gaps hgaps => allows_clear ?_) hoverhang rfl
  rw [hgaps, length_widen, List.length_zipWith, List.length_drop]
  omega

/-- The columns of a diagram with participants are spread from the left as far as the signals of the
    diagram demand. -/
theorem ofDiagram_eq_spread {measure : String → Size ℚ} {spacing : Spacing ℚ} {diagram : Diagram}
    {columns : Columns ℚ} (hcolumns : ofDiagram measure spacing diagram = .ok columns)
    (hparticipants : diagram.participants ≠ [])
    (hsignals : ∀ signal ∈ diagram.signals,
      signal.source ∈ diagram.names ∧ signal.target ∈ diagram.names) :
    ∃ start border spans overhangs,
      columns = spread start spacing.participantGap border
        (diagram.participants.map (boxWidthOf measure)) spans overhangs ∧
      ∀ signal ∈ diagram.signals, Demanded measure spans overhangs signal
        (columnIn diagram.participants signal.source) (columnIn diagram.participants signal.target) := by
  obtain ⟨spans, overhangs, hneeds, hdemanded⟩ := demands_eq_ok measure hsignals
  refine ⟨spacing.padding + fragmentPad * ofCount diagram.content.body.depth,
    fragmentPad * ofCount diagram.content.body.depth, spans, overhangs, ?_, hdemanded⟩
  simp only [ofDiagram, hneeds, bind, Except.bind] at hcolumns
  obtain ⟨first, others, hwidths⟩ := List.exists_cons_of_ne_nil
    (mt (List.map_eq_nil_iff (f := boxWidthOf measure)).1 hparticipants)
  rw [hwidths] at hcolumns ⊢
  cases hcolumns
  rfl

/-- Neighbouring columns are as far apart as has been asked for, their boxes are clear of each other,
    and the label beside a loop ends before the next column. -/
structure Spacious (columns : Columns ℚ) (measure : String → Size ℚ) (participantGap : ℚ)
    (diagram : Diagram) : Prop where
  widths : columns.widths = diagram.participants.map (boxWidthOf measure)
  gaps : ∀ i, i + 1 < diagram.participants.length →
    columns.centers.getD i 0 + participantGap ≤ columns.centers.getD (i + 1) 0
  boxes : ∀ i, i + 1 < diagram.participants.length →
    columns.rightEdge i + boxClearance ≤ columns.leftEdge (i + 1)
  loops : ∀ signal ∈ diagram.signals, signal.source = signal.target →
    columnIn diagram.participants signal.source + 1 < diagram.participants.length →
      columns.centerOf diagram.participants signal.source +
          (loopWidth + labelGap + (signalSize measure signal).width + labelPad) ≤
        columns.centers.getD (columnIn diagram.participants signal.source + 1) 0

theorem Spacious.boxWidth_le {columns : Columns ℚ} {measure : String → Size ℚ} {participantGap : ℚ}
    {diagram : Diagram} (hspacious : columns.Spacious measure participantGap diagram) {i : Nat}
    (hi : i < diagram.participants.length) : boxWidth ≤ columns.widths.getD i 0 := by
  have hwidth : columns.widths.getD i 0 = boxWidthOf measure diagram.participants[i] := by
    simp [hspacious.widths, List.getD_eq_getElem?_getD, List.getElem?_eq_getElem hi]
  rw [hwidth, boxWidthOf, larger_eq_max]
  exact le_max_right _ _

/-- Since the boxes of neighbouring columns are clear of each other, so are those of any two columns,
    whatever gap has been asked for. -/
theorem Spacious.centers_add_le {columns : Columns ℚ} {measure : String → Size ℚ} {participantGap : ℚ}
    {diagram : Diagram} (hspacious : columns.Spacious measure participantGap diagram) {i j : Nat}
    (hij : i < j) (hj : j < diagram.participants.length) :
    columns.centers.getD i 0 + (boxWidth + boxClearance) ≤ columns.centers.getD j 0 := by
  have hnext (i : Nat) (hi : i + 1 < diagram.participants.length) :
      columns.centers.getD i 0 + (boxWidth + boxClearance) ≤ columns.centers.getD (i + 1) 0 := by
    have hclear := hspacious.boxes i hi
    have hleft := hspacious.boxWidth_le (Nat.lt_of_succ_lt hi)
    have hright := hspacious.boxWidth_le hi
    simp only [rightEdge, leftEdge, boxClearance, boxWidth] at hclear hleft hright ⊢
    linarith
  induction j, hij using Nat.le_induction with
  | base => exact hnext i hj
  | succ j _ ih =>
    have hbefore := ih (Nat.lt_of_succ_lt hj)
    have hafter := hnext j hj
    simp only [boxWidth, boxClearance] at hbefore hafter ⊢
    linarith

/-- The columns keep the order of the participants. -/
theorem Spacious.centers_lt {columns : Columns ℚ} {measure : String → Size ℚ} {participantGap : ℚ}
    {diagram : Diagram} (hspacious : columns.Spacious measure participantGap diagram) {i j : Nat}
    (hij : i < j) (hj : j < diagram.participants.length) :
    columns.centers.getD i 0 < columns.centers.getD j 0 := by
  have hapart := hspacious.centers_add_le hij hj
  simp only [boxWidth, boxClearance] at hapart
  linarith

theorem spread_centers_succ {start participantGap border : ℚ} {widths : List ℚ}
    {spans : List (Span ℚ)} {overhangs : List (Overhang ℚ)} {i : Nat} (hi : i + 1 < widths.length) :
    (spread start participantGap border widths spans overhangs).centers.getD (i + 1) 0 =
      (spread start participantGap border widths spans overhangs).centers.getD i 0 +
        (gaps participantGap widths spans overhangs).getD i 0 := by
  refine centersFrom_succ ?_
  rw [length_gaps]
  omega

theorem gapBetween_le_gaps (participantGap : ℚ) {widths : List ℚ} (spans : List (Span ℚ))
    (overhangs : List (Overhang ℚ)) {i : Nat} (hi : i + 1 < widths.length) :
    gapBetween participantGap (widths.getD i 0) (widths.getD (i + 1) 0) ≤
      (gaps participantGap widths spans overhangs).getD i 0 := by
  have hfirst : i < widths.length := by omega
  have hleast : (List.zipWith (gapBetween participantGap) widths (widths.drop 1)).getD i 0 =
      gapBetween participantGap (widths.getD i 0) (widths.getD (i + 1) 0) := by
    simp [List.getD_eq_getElem?_getD, List.getElem?_zipWith, List.getElem?_eq_getElem hfirst,
      List.getElem?_eq_getElem hi]
  rw [← hleast]
  exact (widened_gaps participantGap widths spans overhangs).le i

theorem ofDiagram_spacious {measure : String → Size ℚ} {spacing : Spacing ℚ} {diagram : Diagram}
    {columns : Columns ℚ} (hcolumns : ofDiagram measure spacing diagram = .ok columns)
    (hparticipants : diagram.participants ≠ [])
    (hsignals : ∀ signal ∈ diagram.signals,
      signal.source ∈ diagram.names ∧ signal.target ∈ diagram.names) :
    columns.Spacious measure spacing.participantGap diagram := by
  obtain ⟨start, border, spans, overhangs, rfl, hdemanded⟩ :=
    ofDiagram_eq_spread hcolumns hparticipants hsignals
  have hcount : (diagram.participants.map (boxWidthOf measure)).length = diagram.participants.length :=
    List.length_map _
  refine ⟨rfl, fun i hi => ?_, fun i hi => ?_, fun signal hsignal hloop hnext => ?_⟩
  · rw [← hcount] at hi
    have hleast := gapBetween_le_gaps spacing.participantGap spans overhangs hi
    rw [spread_centers_succ hi]
    exact add_le_add_right ((participantGap_le_gapBetween _ _ _).trans hleast) _
  · rw [← hcount] at hi
    have hleast := (boxes_le_gapBetween _ _ _).trans
      (gapBetween_le_gaps spacing.participantGap spans overhangs hi)
    simp only [leftEdge, rightEdge, spread_centers_succ hi]
    simp only [spread]
    linarith
  · rw [← hcount] at hnext
    have hoverhang := hdemanded signal hsignal
    rw [Demanded, if_pos (congrArg (columnIn diagram.participants) hloop)] at hoverhang
    have hroom := allows_gaps_of_overhang spacing.participantGap spans hoverhang hnext
    rw [Allows, Overhang.span, room_singleton] at hroom
    rw [spread_centers_succ hnext]
    exact add_le_add_right hroom _

end Columns

namespace Layout

/-- The boxes of participants stand in their columns, and the layout ends on the right of what is drawn
    beside the columns. -/
structure Framed (layout : Layout ℚ) (grid : Grid ℚ) : Prop where
  participants : ∃ top height, layout.participants = grid.participants.mapIdx fun i participant =>
    ⟨participant.name, participant.label, grid.center i, top, grid.boxWidth i, height⟩
  width : grid.columns.right + grid.spacing.padding ≤ layout.width

theorem ofRows_framed {grid : Grid ℚ} {content : Body} {heading : Option (String × Size ℚ)}
    {layout : Layout ℚ} (hlayout : ofRows grid content heading = .ok layout) : layout.Framed grid := by
  rw [ofRows_eq] at hlayout
  obtain ⟨⟨rows, after⟩, _, hlayout⟩ := bind_eq_ok_iff.1 hlayout
  obtain ⟨unclosed, _, hlayout⟩ := bind_eq_ok_iff.1 hlayout
  cases hlayout
  have hboxes := (foldl_larger_ge (fun box : FragmentBox ℚ => box.x + box.width)
    grid.columns.right rows.boxes).1
  refine ⟨⟨_, _, rfl⟩, add_le_add_left (hboxes.trans ?_) _⟩
  cases heading with
  | none => exact le_rfl
  | some text =>
    rw [Grid.rightEnd, larger_eq_max]
    exact le_max_left _ _

theorem ofDiagram_framed {measure : String → Size ℚ} {spacing : Spacing ℚ} {diagram : Diagram}
    {layout : Layout ℚ} (hlayout : ofDiagram measure spacing diagram = .ok layout)
    (hparticipants : diagram.participants ≠ []) {columns : Columns ℚ}
    (hcolumns : Columns.ofDiagram measure spacing diagram = .ok columns) :
    layout.Framed ⟨diagram.participants, columns, spacing, measure⟩ := by
  have hfilled : (diagram.participants.isEmpty && decide (diagram.content.body = .empty)) = false := by
    simp [hparticipants]
  simp only [ofDiagram, hfilled, Bool.false_eq_true, if_false, hcolumns, bind, Except.bind] at hlayout
  exact ofRows_framed hlayout

theorem Framed.getElem? {layout : Layout ℚ} {grid : Grid ℚ} (hframed : layout.Framed grid) {i : Nat}
    {box : ParticipantBox ℚ} (hbox : layout.participants[i]? = some box) :
    ∃ participant, grid.participants[i]? = some participant ∧ box.name = participant.name ∧
      box.label = participant.label ∧ box.x = grid.center i ∧ box.width = grid.boxWidth i := by
  obtain ⟨top, height, hparticipants⟩ := hframed.participants
  rw [hparticipants, List.getElem?_mapIdx, Option.map_eq_some_iff] at hbox
  obtain ⟨participant, hparticipant, rfl⟩ := hbox
  exact ⟨participant, hparticipant, rfl, rfl, rfl, rfl⟩

section KeepsApart

variable {layout : Layout ℚ} {columns : Columns ℚ} {spacing : Spacing ℚ} {measure : String → Size ℚ}
  {diagram : Diagram}

/-- The box of a column is in the middle of it, and its name tells the column. -/
theorem Framed.column (hframed : layout.Framed ⟨diagram.participants, columns, spacing, measure⟩)
    (hdistinct : diagram.names.Nodup) {i : Nat} {box : ParticipantBox ℚ}
    (hbox : layout.participants[i]? = some box) :
    columnIn diagram.participants box.name = i ∧
      box.x = columns.centerOf diagram.participants box.name ∧ i < diagram.participants.length := by
  obtain ⟨participant, hparticipant, hname, -, hx, -⟩ := hframed.getElem? hbox
  have hcolumn := columnIn_of_getElem? hdistinct hparticipant
  rw [hname, Columns.centerOf, hcolumn]
  exact ⟨rfl, hx, (List.getElem?_eq_some_iff.1 hparticipant).1⟩

theorem Framed.boxes (hframed : layout.Framed ⟨diagram.participants, columns, spacing, measure⟩)
    (hwidths : columns.widths = diagram.participants.map (Columns.boxWidthOf measure)) :
    List.Forall₂ (fun participant box => box.name = participant.name ∧
      box.label = participant.label ∧ (measure participant.label).width + 32 ≤ box.width ∧ 80 ≤ box.width)
      diagram.participants layout.participants := by
  obtain ⟨top, height, hparticipants⟩ := hframed.participants
  rw [hparticipants, List.forall₂_iff_get]
  refine ⟨List.length_mapIdx.symm, fun i hi _ => ?_⟩
  have hwidth : columns.widths.getD i 0 = Columns.boxWidthOf measure (diagram.participants.get ⟨i, hi⟩) := by
    simp [hwidths, List.getD_eq_getElem?_getD, List.getElem?_eq_getElem hi]
  rw [Columns.boxWidthOf, larger_eq_max] at hwidth
  simp only [List.get_eq_getElem, List.getElem_mapIdx, Grid.boxWidth, true_and] at hwidth ⊢
  rw [hwidth]
  exact ⟨le_max_left _ _, le_max_right _ _⟩

theorem Framed.ordered (hframed : layout.Framed ⟨diagram.participants, columns, spacing, measure⟩)
    (hspacious : columns.Spacious measure spacing.participantGap diagram) :
    layout.participants.Pairwise fun left right => left.x < right.x := by
  obtain ⟨top, height, hparticipants⟩ := hframed.participants
  rw [hparticipants, List.pairwise_iff_getElem]
  intro i j hi hj hij
  simp only [List.getElem_mapIdx, Grid.center]
  exact hspacious.centers_lt hij (by simpa using hj)

end KeepsApart

/-- A diagram with participants is laid out on the columns that its signals have asked for. -/
theorem ofDiagram_onColumns (measure : String → Size ℚ) (spacing : Spacing ℚ) {diagram : Diagram}
    (hparticipants : diagram.participants ≠ [])
    (hrefers : ∀ name ∈ diagram.content.body.named, name ∈ diagram.names) :
    ∃ layout columns, ofDiagram measure spacing diagram = .ok layout ∧
      Columns.ofDiagram measure spacing diagram = .ok columns ∧
      layout.Framed ⟨diagram.participants, columns, spacing, measure⟩ ∧
      columns.Ordered diagram.participants.length ∧
      columns.Roomy measure spacing.padding (fragmentPad * ofCount diagram.content.body.depth) diagram ∧
      columns.Spacious measure spacing.participantGap diagram := by
  have hsignals := Diagram.signals_listed hrefers
  obtain ⟨layout, hlayout⟩ := ofDiagram_of_listed measure spacing hrefers
  obtain ⟨columns, hcolumns, hordered, hroomy⟩ := Columns.ofDiagram_eq_ok measure spacing hsignals
  exact ⟨layout, columns, hlayout, hcolumns, ofDiagram_framed hlayout hparticipants hcolumns, hordered,
    hroomy, Columns.ofDiagram_spacious hcolumns hparticipants hsignals⟩

end Layout

end SequenceChart
