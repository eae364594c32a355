import SequenceChart.Font
import SequenceChart.Proofs.Layout.Measured

namespace SequenceChart

variable {α : Type}

namespace Layout

/-- Where the lifeline of a participant stands. -/
def lifelineX? (layout : Layout α) (name : String) : Option α :=
  (layout.lifelines.find? (·.participant = name)).map Lifeline.x

/-- A row that shows the signal with this number. It reaches from the lifeline of its source to that of
    its target, and leaves as much room for its label as the label measures. -/
structure ShowsAt (layout : Layout α) [∀ n, OfNat α n] (measure : String → Size α) (number : Nat)
    (signal : Signal) (row : SignalRow α) : Prop where
  index : row.index = number
  source : row.source = signal.source
  target : row.target = signal.target
  label : row.label = signal.label
  style : row.style = signal.style
  hasHead : row.hasHead = signal.hasHead
  startX : layout.lifelineX? signal.source = some row.startX
  endX : layout.lifelineX? signal.target = some row.endX
  size : ⟨row.labelWidth, row.labelHeight⟩ =
    if signal.label = "" then (⟨0, 0⟩ : Size α) else measure signal.label

/-- A layout has a lifeline for every participant, a row for every signal and a box for every fragment
    of a diagram, all of them in the order of the diagram. -/
structure Enumerates (layout : Layout α) [∀ n, OfNat α n] (measure : String → Size α)
    (diagram : Diagram) : Prop where
  lifelines : layout.lifelines.map Lifeline.participant = diagram.names
  count : layout.signals.length = diagram.signals.length
  rows : ∀ (i : Nat) signal, diagram.signals[i]? = some signal →
    ∃ row, layout.signals[i]? = some row ∧ layout.ShowsAt measure i signal row
  boxes : List.Forall₂ FragmentBox.Displays (diagram.content.body.fragments 0) layout.fragments

/-- As no two participants share a name, a name leads to the lifeline in its column. -/
theorem find?_lifelines {participants : List Participant} {name : String} {i : Nat}
    (hdistinct : (participants.map Participant.name).Nodup)
    (hcolumn : columnOf participants name = .ok i) (center : Nat → α) (top bottom : α) :
    (participants.mapIdx fun i participant =>
        (⟨participant.name, center i, top, bottom⟩ : Lifeline α)).find? (·.participant = name) =
      some ⟨name, center i, top, bottom⟩ := by
  obtain ⟨participant, hparticipant, rfl⟩ := Option.map_eq_some_iff.1
    (name_of_column? (column?_of_columnOf hcolumn))
  obtain ⟨hi, hparticipant⟩ := List.getElem?_eq_some_iff.1 hparticipant
  rw [List.find?_eq_some_iff_getElem]
  refine ⟨by simp, i, by simpa using hi, by simp [hparticipant], fun j hj => ?_⟩
  have hbound : j < participants.length := hj.trans hi
  have hother : participants[j].name ≠ participant.name := by
    rw [← hparticipant]
    exact List.pairwise_iff_getElem.1 (List.pairwise_map.1 hdistinct) j i hbound hi hj
  simpa using hother

variable [Add α] [Sub α] [Mul α] [Div α] [LT α] [DecidableLT α] [∀ n, OfNat α n]

/-- The rows and boxes of a layout are placed with the sizes that a table holds at the numbers of the
    signals. -/
def PlacedBy (layout : Layout α) (measure : String → Size α) (spacing : Spacing α) (diagram : Diagram)
    (sizes : List (Size α)) : Prop :=
  ∃ columns y rows cursor, Columns.ofDiagram measure spacing diagram = .ok columns ∧
    Grid.placeBodyBy ⟨diagram.participants, columns, spacing, measure⟩ sizes 0 diagram.content.body { y } =
      some (rows, cursor) ∧
    layout.signals = rows.signals ∧ layout.fragments = rows.boxes

/-- The lifelines, rows and boxes of a layout are those of a grid. -/
structure PlacedOn (layout : Layout α) (grid : Grid α) (content : Body) : Prop where
  lifelines : ∃ top bottom, layout.lifelines = grid.participants.mapIdx fun i participant =>
    ⟨participant.name, grid.center i, top, bottom⟩
  rows : ∃ y rows cursor, grid.placeBody 0 content { y } = .ok (rows, cursor) ∧
    layout.signals = rows.signals ∧ layout.fragments = rows.boxes

variable {layout : Layout α} {grid : Grid α} {content : Body} {diagram : Diagram}
  {measure : String → Size α} {spacing : Spacing α} {name : String} {i : Nat}

theorem ofRows_placedOn {heading : Option (String × Size α)}
    (hlayout : ofRows grid content heading = .ok layout) : layout.PlacedOn grid content := by
  obtain ⟨⟨rows, cursor⟩, hbody, hlayout⟩ := bind_eq_ok_iff.1 hlayout
  obtain ⟨_, _, hlayout⟩ := bind_eq_ok_iff.1 hlayout
  cases hlayout
  exact ⟨⟨_, _, rfl⟩, _, rows, cursor, hbody, rfl, rfl⟩

theorem ofDiagram_placedOn {columns : Columns α}
    (hcolumns : Columns.ofDiagram measure spacing diagram = .ok columns)
    (hlayout : ofDiagram measure spacing diagram = .ok layout) :
    layout.PlacedOn ⟨diagram.participants, columns, spacing, measure⟩ diagram.content.body := by
  rw [ofDiagram] at hlayout
  split at hlayout
  · next hempty =>
    simp only [Bool.and_eq_true, List.isEmpty_iff, decide_eq_true_eq] at hempty
    obtain ⟨hparticipants, hbody⟩ := hempty
    cases hlayout
    rw [hbody]
    refine ⟨⟨0, 0, ?_⟩, 0, {}, _, rfl, ?_, ?_⟩
    · simp only [hparticipants, List.mapIdx_nil]
      cases (nonempty? diagram.title).map fun text => (text, measure text) <;> rfl
    all_goals cases (nonempty? diagram.title).map fun text => (text, measure text) <;> rfl
  · rw [hcolumns] at hlayout
    exact ofRows_placedOn hlayout

theorem PlacedOn.names (hplaced : layout.PlacedOn grid content) :
    layout.lifelines.map Lifeline.participant = grid.participants.map Participant.name := by
  obtain ⟨top, bottom, hlifelines⟩ := hplaced.lifelines
  rw [hlifelines]
  refine List.ext_getElem? fun i => ?_
  simp only [List.getElem?_map, List.getElem?_mapIdx, Option.map_map]
  rfl

theorem PlacedOn.lifelineX? (hplaced : layout.PlacedOn grid content)
    (hdistinct : (grid.participants.map Participant.name).Nodup)
    (hcolumn : columnOf grid.participants name = .ok i) :
    layout.lifelineX? name = some (grid.center i) := by
  obtain ⟨top, bottom, hlifelines⟩ := hplaced.lifelines
  rw [Layout.lifelineX?, hlifelines, find?_lifelines hdistinct hcolumn]
  rfl

/-- The passes over a diagram agree, whatever the sizes of texts and the distances are. The pass that
    places rows looks up the sizes of labels by the numbers of the signals, and finds those that
    another pass has measured; it goes over the signals and fragments in the order of the source. -/
theorem ofDiagram_enumerates (measure : String → Size α) (spacing : Spacing α) {diagram : Diagram}
    (hdistinct : diagram.names.Nodup)
    (hrefers : ∀ name ∈ diagram.content.body.named, name ∈ diagram.names) :
    ∃ layout, ofDiagram measure spacing diagram = .ok layout ∧
      layout.PlacedBy measure spacing diagram (diagram.labelSizes measure) ∧
      layout.Enumerates measure diagram := by
  obtain ⟨layout, hlayout⟩ := ofDiagram_of_listed measure spacing hrefers
  obtain ⟨columns, hcolumns, hpresents⟩ := ofDiagram_presents hlayout
  have hplaced := ofDiagram_placedOn hcolumns hlayout
  obtain ⟨y, rows, cursor, hbody, hsignals, hboxes⟩ := hplaced.rows
  refine ⟨layout, hlayout, ⟨columns, y, rows, cursor, hcolumns, ?_, hsignals, hboxes⟩, hplaced.names,
    hpresents.shown.length_eq.symm, fun i signal hsignal => ?_, hpresents.boxed⟩
  · exact Grid.placeBodyBy_eq_some 0 diagram.content.body hbody List.prefix_rfl
  · obtain ⟨hi, rfl⟩ := List.getElem?_eq_some_iff.1 hsignal
    have hrow : i < layout.signals.length := hpresents.shown.length_eq ▸ hi
    have hdisplays := hpresents.shown.get hi hrow
    obtain ⟨start, hstart, hstartX⟩ := hdisplays.startX
    obtain ⟨stop, hstop, hendX⟩ := hdisplays.endX
    refine ⟨layout.signals[i], List.getElem?_eq_getElem hrow, hpresents.index hrow, hdisplays.source,
      hdisplays.target, hdisplays.label, hdisplays.style, hdisplays.hasHead, ?_, ?_, hdisplays.size⟩
    · exact (hplaced.lifelineX? hdistinct hstart).trans (congrArg some hstartX.symm)
    · exact (hplaced.lifelineX? hdistinct hstop).trans (congrArg some hendX.symm)

theorem ofDiagram_enumerates_alternatives :
    let inner : Operands := .cons "" (.signal ⟨"B", "B", "again", .dashed, true⟩ .empty) .none
    let outer : Operands := .cons "yes" (.fragment "loop" inner .empty)
      (.cons "no" (.signal ⟨"B", "A", "", .solid, false⟩ .empty) .none)
    let diagram : Diagram :=
      { participants := [⟨"A", "A"⟩, ⟨"B", "Bob"⟩]
        content := ⟨"", .signal ⟨"A", "B", "hi", .solid, true⟩
          (.fragment "alt" outer (.activation "B" true (.signal ⟨"A", "A", "", .solid, true⟩ .empty)))⟩ }
    diagram.names.Nodup ∧ (∀ name ∈ diagram.content.body.named, name ∈ diagram.names) ∧
      ∃ layout, ofDiagram (evenSize (7 : ℚ) 15) (Spacing.ofOptions {}) diagram = .ok layout ∧
        layout.PlacedBy (evenSize 7 15) (Spacing.ofOptions {}) diagram (diagram.labelSizes (evenSize 7 15)) ∧
        layout.Enumerates (evenSize 7 15) diagram := by
  intro inner outer diagram
  have hdistinct : diagram.names.Nodup := by decide
  have hrefers : ∀ name ∈ diagram.content.body.named, name ∈ diagram.names := by decide
  exact ⟨hdistinct, hrefers, ofDiagram_enumerates _ _ hdistinct hrefers⟩

end Layout

end SequenceChart
