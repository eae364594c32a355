import SequenceChart.Diagram.OfText
import SequenceChart.Proofs.Diagram.WellFormed
import SequenceChart.Proofs.Drawing.Corners
import SequenceChart.Proofs.Drawing.Rendering
import SequenceChart.Proofs.Layout.Surrounded

namespace SequenceChart

open Distance

/-- From left to right all that a call draws is between the sides of a box. -/
def FragmentBox.Bounds (box : FragmentBox ℚ) (call : Call ℚ) : Prop :=
  ∀ point ∈ call.corners, box.x ≤ point.x ∧ point.x ≤ box.x + box.width

/-- Where the label beside the loop of a signal to its source ends. -/
def SignalRow.labelEnd (row : SignalRow ℚ) : ℚ :=
  row.startX + loopWidth + labelGap + row.labelWidth

/-- The label beside a loop begins behind the loop, and so only its end can be beyond a box that holds
    the loop. -/
theorem FragmentBox.bounds_loopLabel_iff {box : FragmentBox ℚ} {palette : Palette ℚ}
    {row : SignalRow ℚ} (hself : row.isSelf = true) (hstart : box.x ≤ row.startX)
    (hlabel : 0 ≤ row.labelWidth) :
    box.Bounds (Drawing.signalLabel palette row) ↔ row.labelEnd ≤ box.x + box.width := by
  have hcorners : (∀ x ∈ (Drawing.signalLabel palette row).corners.map Point.x,
      box.x ≤ x ∧ x ≤ box.x + box.width) ↔ box.Bounds (Drawing.signalLabel palette row) :=
    List.forall_mem_map
  rw [← hcorners, Drawing.corners_signalLabel_self palette hself, List.forall_mem_cons,
    List.forall_mem_singleton]
  simp only [SignalRow.labelEnd, loopWidth, labelGap]
  constructor
  · rintro ⟨-, -, hend⟩
    exact hend
  · intro hend
    refine ⟨⟨?_, ?_⟩, ?_, hend⟩ <;> linarith

namespace Grid

section Frames

variable {columns : Columns ℚ} {spacing : Spacing ℚ} {measure : String → Size ℚ} {diagram : Diagram}
  {fragment : Fragment} {box : FragmentBox ℚ} {row : SignalRow ℚ}

/-- A loop is within the box of its participant. -/
theorem Frames.bounds_lines (hordered : columns.Ordered diagram.participants.length)
    (hspacious : columns.Spacious measure spacing.participantGap diagram)
    (hframes : Frames ⟨diagram.participants, columns, spacing, measure⟩ fragment box)
    (hlisted : Lists ⟨diagram.participants, columns, spacing, measure⟩ fragment.operands.named)
    (hcarries : Carries ⟨diagram.participants, columns, spacing, measure⟩ row)
    (hinside : row.message ∈ fragment.operands.signals)
    (hends : ∀ x ∈ [row.startX, row.endX], box.x < x ∧ x < box.x + box.width)
    (palette : Palette ℚ) : ∀ line ∈ Drawing.signalLines palette row, box.Bounds line := by
  intro line hline point hpoint
  obtain ⟨hstart, hstop⟩ := List.forall_mem_cons.1 hends
  have hstop := List.forall_mem_singleton.1 hstop
  obtain ⟨hx | hx | ⟨-, hx⟩, -⟩ := Drawing.mem_corners_signalLines hline hpoint
  · exact hx ▸ ⟨hstart.1.le, hstart.2.le⟩
  · exact hx ▸ ⟨hstop.1.le, hstop.2.le⟩
  · have hsource := (Operands.signals_named fragment.operands hinside).1
    have hbeyond := (hframes.beyond hordered hlisted (columnIn_mem_reach hsource)).2
    have hwidth := hspacious.boxWidth_le (columnIn_lt (hlisted _ hsource))
    have hpad := fragmentPad_le_inset fragment
    have hstartX := hcarries.startX
    simp only [Columns.rightEdge, center, Distance.boxWidth, fragmentPad] at hbeyond hwidth hpad hstartX
    simp only [SignalRow.message] at hbeyond hwidth
    rw [hx, loopWidth]
    constructor <;> linarith

/-- The label between two columns is as wide as the distance of its ends. -/
theorem Frames.bounds_label (hself : row.isSelf = false)
    (hends : ∀ x ∈ [row.startX, row.endX], box.x < x ∧ x < box.x + box.width)
    (palette : Palette ℚ) : box.Bounds (Drawing.signalLabel palette row) := by
  obtain ⟨⟨hstart, hstartEnd⟩, hstop⟩ := List.forall_mem_cons.1 hends
  obtain ⟨hstop, hstopEnd⟩ := List.forall_mem_singleton.1 hstop
  intro point hpoint
  rw [Drawing.corners_signalLabel palette hself, List.mem_cons, List.mem_singleton] at hpoint
  obtain rfl | rfl := hpoint
  · exact ⟨le_min hstart.le hstop.le, min_le_of_left_le hstartEnd.le⟩
  · exact ⟨le_max_of_le_left hstart.le, max_le hstartEnd.le hstopEnd.le⟩

/-- The label beside a loop ends inside a box if the fragment reaches to another column on the right,
    as the gap between the columns has been made wide enough for the label. Otherwise it may only be as
    long as the box of the participant with the borders, or else the header, reaches. -/
theorem Frames.labelEnd_le_iff (hordered : columns.Ordered diagram.participants.length)
    (hspacious : columns.Spacious measure spacing.participantGap diagram)
    (hframes : Frames ⟨diagram.participants, columns, spacing, measure⟩ fragment box)
    (hlisted : Lists ⟨diagram.participants, columns, spacing, measure⟩ fragment.operands.named)
    (hcarries : Carries ⟨diagram.participants, columns, spacing, measure⟩ row)
    (hself : row.isSelf = true) (hinside : row.message ∈ fragment.operands.signals)
    (hsignal : row.message ∈ diagram.signals) :
    row.labelEnd ≤ box.x + box.width ↔
      (∃ name ∈ fragment.operands.named,
          columnIn diagram.participants row.source < columnIn diagram.participants name) ∨
        row.labelEnd ≤ columns.rightEdge (columnIn diagram.participants row.source) + inset fragment ∨
          row.labelEnd ≤ headerEnd ⟨diagram.participants, columns, spacing, measure⟩ fragment box.x := by
  have hsource : row.source ∈ fragment.operands.named :=
    (Operands.signals_named fragment.operands hinside).1
  have hown := columnIn_lt (hlisted _ hsource)
  obtain ⟨right, hspans, hwidth⟩ := hframes.spans
  constructor
  · intro hend
    obtain ⟨low, high, -, hhigh, -, hright⟩ :=
      hspans.of_ne_nil (List.ne_nil_of_length_pos (Nat.zero_lt_of_lt hown))
    rw [hwidth, le_max_iff] at hend
    obtain hend | hend := hend
    · obtain hlast | hlater := (hhigh.2 (columnIn_mem_reach hsource)).eq_or_lt
      · change right = _ + inset fragment at hright
        rw [hright, ← hlast] at hend
        exact .inr (.inl hend)
      · have hreach := hhigh.1
        rw [reach, if_neg (List.ne_nil_of_mem hsource)] at hreach
        obtain ⟨name, hname, rfl⟩ := List.mem_map.1 hreach
        exact .inl ⟨name, hname, hlater⟩
    · exact .inr (.inr hend)
  · rintro (⟨name, hname, hlater⟩ | hend | hend)
    · have hcolumn := columnIn_lt (hlisted _ hname)
      have hbeyond := (hframes.beyond hordered hlisted (columnIn_mem_reach hname)).2
      have hbox := hspacious.boxWidth_le hcolumn
      have hpad := fragmentPad_le_inset fragment
      have hgap := hspacious.loops row.message hsignal (hcarries.isSelf_iff.1 hself)
        (lt_of_le_of_lt hlater hcolumn)
      have hnext : columns.centers.getD (columnIn diagram.participants row.source + 1) 0 ≤
          columns.centers.getD (columnIn diagram.participants name) 0 := by
        obtain heq | hlt := (Nat.succ_le_of_lt hlater).eq_or_lt
        · rw [← heq]
        · exact (hspacious.centers_lt hlt hcolumn).le
      have hlabel : row.labelWidth = (Columns.signalSize measure row.message).width :=
        congrArg Size.width hcarries.size
      have hstartX := hcarries.startX
      rw [SignalRow.labelEnd, hlabel]
      simp only [Columns.rightEdge, Columns.centerOf, center, SignalRow.message, Distance.boxWidth, fragmentPad,
        loopWidth, labelGap, labelPad] at hbeyond hbox hpad hgap hstartX ⊢
      linarith
    · exact hend.trans (hframes.beyond hordered hlisted (columnIn_mem_reach hsource)).2
    · exact hend.trans (hwidth ▸ le_max_right _ _)

end Frames

end Grid

/-- What is drawn for a row in a fragment is between the sides of the box of the fragment: the line or
    the loop of the signal always, and so is the label of a signal between two participants. The label
    beside a loop is if the fragment reaches further to the right anyway: to another participant, or as
    far as the label with the borders of the fragments around the participant or with its header. -/
structure FragmentBox.Contains (box : FragmentBox ℚ) (fragment : Fragment)
    (participants : List (ParticipantBox ℚ)) (measure : String → Size ℚ) (palette : Palette ℚ)
    (row : SignalRow ℚ) : Prop where
  lines : ∀ line ∈ Drawing.signalLines palette row, box.Bounds line
  label : row.isSelf = false → box.Bounds (Drawing.signalLabel palette row)
  loopLabel : row.isSelf = true → ∃ own ∈ participants, own.name = row.source ∧
    (box.Bounds (Drawing.signalLabel palette row) ↔
      (∃ other ∈ participants, other.name ∈ fragment.operands.named ∧ own.x < other.x) ∨
        row.labelEnd ≤ own.x + own.width / 2 + 10 * (fragment.operands.depth + 1) ∨
          row.labelEnd ≤ box.x + (measure (Label.header box.kind box.label)).width + 32)

namespace Layout

variable {layout : Layout ℚ} {columns : Columns ℚ} {spacing : Spacing ℚ} {measure : String → Size ℚ}
  {diagram : Diagram}

/-- The signals and fragments of a diagram stand in spots in the order of the source. Behind the box of
    each fragment come the spots of its operands, and the box contains what is drawn for them. -/
def Contained (layout : Layout ℚ) (measure : String → Size ℚ) (diagram : Diagram) : Prop :=
  ∃ spots : List Spot, layout.Shows diagram spots ∧
    ∀ (front : List Spot) (fragment : Fragment) (box : FragmentBox ℚ) (rest : List Spot),
      spots = front ++ .box fragment box :: rest → ∃ (operands : List (List Spot)) (back : List Spot),
        rest = operands.flatten ++ back ∧
        operands.map (List.map Spot.item) = fragment.operands.items (fragment.depth + 1) ∧
        ∀ row, .row row ∈ operands.flatten → ∀ palette,
          box.Contains fragment layout.participants measure palette row

theorem Framed.exists_box (hframed : layout.Framed ⟨diagram.participants, columns, spacing, measure⟩)
    {name : String} (hname : name ∈ diagram.names) :
    ∃ box ∈ layout.participants, box.name = name ∧
      box.x = columns.centers.getD (columnIn diagram.participants name) 0 ∧
      box.width = columns.widths.getD (columnIn diagram.participants name) 0 := by
  obtain ⟨i, hcolumn⟩ := Option.isSome_iff_exists.1 (column?_isSome_iff.2 hname)
  obtain ⟨participant, hparticipant, hown⟩ := Option.map_eq_some_iff.1 (name_of_column? hcolumn)
  obtain ⟨top, height, hboxes⟩ := hframed.participants
  rw [columnIn, hcolumn]
  refine ⟨⟨participant.name, participant.label, columns.centers.getD i 0, top, columns.widths.getD i 0,
    height⟩, List.mem_iff_getElem?.2 ⟨i, ?_⟩, hown, rfl, rfl⟩
  rw [hboxes, List.getElem?_mapIdx, hparticipant]
  rfl

/-- A participant is further to the right than another one if its column is. -/
theorem Framed.exists_right_iff
    (hframed : layout.Framed ⟨diagram.participants, columns, spacing, measure⟩)
    (hdistinct : diagram.names.Nodup)
    (hspacious : columns.Spacious measure spacing.participantGap diagram) {names : List String}
    (hnames : ∀ name ∈ names, name ∈ diagram.names) {own : Nat} (hown : own < diagram.participants.length) :
    (∃ name ∈ names, own < columnIn diagram.participants name) ↔
      ∃ other ∈ layout.participants, other.name ∈ names ∧ columns.centers.getD own 0 < other.x := by
  constructor
  · rintro ⟨name, hname, hlater⟩
    obtain ⟨other, hother, rfl, hx, -⟩ := hframed.exists_box (hnames name hname)
    refine ⟨other, hother, hname, ?_⟩
    rw [hx]
    exact hspacious.centers_lt hlater (columnIn_lt (hnames _ hname))
  · rintro ⟨other, hother, hname, hlater⟩
    obtain ⟨i, hi⟩ := List.getElem?_of_mem hother
    obtain ⟨-, hx, -⟩ := hframed.column hdistinct hi
    rw [hx, Columns.centerOf] at hlater
    refine ⟨other.name, hname, lt_of_not_ge fun hbefore => hlater.not_ge ?_⟩
    obtain heq | hlt := hbefore.eq_or_lt
    · rw [heq]
    · exact (hspacious.centers_lt hlt hown).le

theorem Framed.contains (hframed : layout.Framed ⟨diagram.participants, columns, spacing, measure⟩)
    (hdistinct : diagram.names.Nodup) (hordered : columns.Ordered diagram.participants.length)
    (hspacious : columns.Spacious measure spacing.participantGap diagram)
    (hwidth : ∀ text, 0 ≤ (measure text).width) {fragment : Fragment} {box : FragmentBox ℚ}
    (hframes : Grid.Frames ⟨diagram.participants, columns, spacing, measure⟩ fragment box)
    (hlisted : ∀ name ∈ fragment.operands.named, name ∈ diagram.names) {row : SignalRow ℚ}
    (hcarries : Grid.Carries ⟨diagram.participants, columns, spacing, measure⟩ row)
    (hinside : row.message ∈ fragment.operands.signals) (hsignal : row.message ∈ diagram.signals)
    (hends : ∀ x ∈ [row.startX, row.endX], box.x < x ∧ x < box.x + box.width) (palette : Palette ℚ) :
    box.Contains fragment layout.participants measure palette row where
  lines := hframes.bounds_lines hordered hspacious hlisted hcarries hinside hends palette
  label hself := Grid.Frames.bounds_label hself hends palette
  loopLabel := by
    intro hself
    have hsource : row.source ∈ diagram.names :=
      hlisted _ (Operands.signals_named fragment.operands hinside).1
    obtain ⟨own, hown, hname, hx, hownWidth⟩ := hframed.exists_box hsource
    have hlabel : 0 ≤ row.labelWidth := by
      have hsize := Columns.signalSize_width_nonneg hwidth row.message
      rwa [← hcarries.size] at hsize
    have hstart := (List.forall_mem_cons.1 hends).1.1.le
    refine ⟨own, hown, hname, ?_⟩
    rw [FragmentBox.bounds_loopLabel_iff hself hstart hlabel,
      hframes.labelEnd_le_iff hordered hspacious hlisted hcarries hself hinside hsignal,
      hframed.exists_right_iff hdistinct hspacious hlisted (columnIn_lt hsource), hframes.kind,
      hframes.label, hx, hownWidth]
    simp only [Columns.rightEdge, Grid.headerEnd, Grid.inset, tabPad, fragmentPad, ofCount_eq_cast,
      Nat.cast_succ]
    norm_num

/-- The layout of a diagram contains what is drawn for signals in the boxes of fragments. -/
theorem ofDiagram_contained (hdescends : spacing.Descends measure)
    (hwidth : ∀ text, 0 ≤ (measure text).width) (hdistinct : diagram.names.Nodup)
    (hrefers : ∀ name ∈ diagram.content.body.named, name ∈ diagram.names) :
    ∃ layout, ofDiagram measure spacing diagram = .ok layout ∧ layout.Contained measure diagram := by
  by_cases hparticipants : diagram.participants = []
  · obtain ⟨layout, spots, columns, hlayout, harranged⟩ := ofDiagram_arranged measure hdescends hrefers
    refine ⟨layout, hlayout, spots, harranged.shows, fun front fragment box rest hsplit => ?_⟩
    obtain ⟨operands, back, hrest, hitems, -, -, hfits⟩ := harranged.fragment hrefers hsplit
    refine ⟨operands, back, hrest, hitems, fun row hrow _ => ?_⟩
    -- A signal is between participants, of which there are none.
    have hsource := Grid.Carries.source (hfits _ hrow)
    simp [hparticipants] at hsource
  · obtain ⟨layout, columns, hlayout, hcolumns, hframed, hordered, hroomy, hspacious⟩ :=
      ofDiagram_onColumns measure spacing hparticipants hrefers
    obtain ⟨spots, harranged⟩ := arranged_of_columns hdescends hrefers hcolumns hordered hlayout
    refine ⟨layout, hlayout, spots, harranged.shows, fun front fragment box rest hsplit => ?_⟩
    obtain ⟨operands, back, hrest, hitems, hframes, hlisted, hfits⟩ := harranged.fragment hrefers hsplit
    refine ⟨operands, back, hrest, hitems, fun row hrow => ?_⟩
    have hcarries : Grid.Carries _ row := hfits _ hrow
    have hinside := Spot.message_mem_signals hitems hrow
    have hsignal : row.message ∈ diagram.signals := by
      rw [← harranged.shows.messages, ← harranged.shows.signals]
      refine List.mem_map_of_mem (Spot.mem_filterMap_row?.2 ?_)
      simp [hsplit, hrest, List.mem_flatten.1 hrow]
    exact hframed.contains hdistinct hordered hspacious hwidth hframes hlisted hcarries hinside hsignal
      (hframes.contains_ends hordered hroomy.boxes hlisted hcarries hinside)

/-- The box of a fragment contains all that is drawn for the signals in it but for some labels beside
    loops. Columns make room for the label beside a loop up to the next column and up to the end of the
    drawing; the box of a fragment is made from the columns, and does not look at labels. -/
theorem ofText_contained {measure : String → Size ℚ} (hwidth : ∀ text, 0 ≤ (measure text).width)
    (text : String) :
    ∃ diagram problems layout, Diagram.ofText text = .ok (diagram, problems) ∧
      ofDiagram measure (Spacing.ofOptions {}) diagram = .ok layout ∧
      layout.Contained measure diagram := by
  have hformed := Diagram.foldl_after_ofText_wellFormed text
  have hdescends : (Spacing.ofOptions ({} : Options ℚ)).Descends measure :=
    Spacing.descends_of_rowHeight (by norm_num [Spacing.ofOptions]) measure
  obtain ⟨layout, hlayout, hcontained⟩ :=
    ofDiagram_contained hdescends hwidth hformed.distinct hformed.refers
  exact ⟨_, _, layout, Diagram.ofText_eq_ok text, hlayout, hcontained⟩

theorem ofText_contained_loops :
    (∀ text, 0 ≤ (evenSize (7 : ℚ) 15 text).width) ∧
      ∃ diagram problems layout,
        Diagram.ofText "A -> B\nalt yes\nA -> A: again\nelse no\nopt\nB -> A\nend\nend" =
          .ok (diagram, problems) ∧
        ofDiagram (evenSize 7 15) (Spacing.ofOptions {}) diagram = .ok layout ∧
        layout.Contained (evenSize 7 15) diagram := by
  have hwidth : ∀ text, 0 ≤ (evenSize (7 : ℚ) 15 text).width := by
    intro text
    simp only [evenSize, ofCount_eq_cast]
    positivity
  exact ⟨hwidth, ofText_contained hwidth _⟩

set_option maxRecDepth 4000 in
/-- The label beside a loop can end on the right of the box of the fragment that the signal is in, where
    the fragment reaches to no other participant. -/
theorem ofText_contained_longLabel :
    ∃ palette : Palette ℚ, ∃ diagram layout box row, Palette.ofOptions {} = .ok palette ∧
      (∀ text, 0 ≤ (evenSize (7 : ℚ) 15 text).width ∧ 0 ≤ (evenSize (7 : ℚ) 15 text).height) ∧
      Diagram.ofText "loop\nA -> A: checking again\nend" = .ok (diagram, []) ∧
      diagram.content.body = .fragment "loop"
        (.cons "" (.signal ⟨"A", "A", "checking again", .solid, true⟩ .empty) .none) .empty ∧
      ofDiagram (evenSize (7 : ℚ) 15) (Spacing.ofOptions {}) diagram = .ok layout ∧
      layout.fragments = [box] ∧ layout.signals = [row] ∧
      ∃ call ∈ (Drawing.ofSignal palette row).calls, ¬ box.Bounds call := by
  let inside : Operands := .cons "" (.signal ⟨"A", "A", "checking again", .solid, true⟩ .empty) .none
  let diagram : Diagram :=
    { participants := [⟨"A", "A"⟩], content := ⟨"", .fragment "loop" inside .empty⟩ }
  let box : FragmentBox ℚ := ⟨"loop", "", 30, 80, 100, 108, 0, []⟩
  let row : SignalRow ℚ := ⟨0, "A", "A", "checking again", .solid, true, 80, 80, 129, true, 98, 15⟩
  have hdiagram : Diagram.ofText "loop\nA -> A: checking again\nend" = .ok (diagram, []) := by
    cbv
  have hplaced : (ofDiagram (evenSize (7 : ℚ) 15) (Spacing.ofOptions {}) diagram).map
      (fun layout => (layout.fragments, layout.signals)) = .ok ([box], [row]) := by
    decide +kernel
  have haccepted : ¬ ({} : Options ℚ).Rejected := by simp [Options.Rejected, nonempty?]
  obtain ⟨palette, hpalette⟩ : ∃ palette : Palette ℚ, Palette.ofOptions {} = .ok palette :=
    Palette.ofOptions_eq_ok_iff.2 haccepted
  obtain ⟨layout, hlayout, hplaced⟩ := map_eq_ok_iff.1 hplaced
  obtain ⟨hfragments, hsignals⟩ := Prod.mk.inj hplaced
  refine ⟨palette, diagram, layout, box, row, hpalette, fun text => ?_, hdiagram, rfl, hlayout, hfragments,
    hsignals, Drawing.signalLabel palette row, ?_, fun hbounds => ?_⟩
  · simp only [evenSize, ofCount_eq_cast]
    constructor <;> positivity
  · simp [Drawing.ofSignal, Drawing.calls_ofCalls, row]
  · have hend := (FragmentBox.bounds_loopLabel_iff rfl (by norm_num [box, row]) (by norm_num [row])).1 hbounds
    norm_num [SignalRow.labelEnd, box, row, loopWidth, labelGap] at hend

end Layout

end SequenceChart
