import Mathlib.Tactic.Common
import SequenceChart.Layout.OfDiagram
import SequenceChart.Proofs.Diagram.Alike

namespace SequenceChart

theorem map_bind_eq {E A B C D : Type} {x : Except E A} {f : A → B} {g : B → Except E C}
    {h : A → Except E D} {k : D → C} (hnext : ∀ a, g (f a) = (h a).map k) :
    (x.map f >>= g) = (x >>= h).map k := by
  cases x with
  | error error => rfl
  | ok a => exact hnext a

section Parts

variable {α : Type}

/-- The box of a title with the outline of its text. -/
def TitleBox.outlined (box : TitleBox α) : TitleBox α :=
  { box with text := Label.outline box.text }

/-- The box of a participant with the outline of its label. -/
def ParticipantBox.outlined (box : ParticipantBox α) : ParticipantBox α :=
  { box with label := Label.outline box.label }

/-- The row of a signal with the outline of its label. -/
def SignalRow.outlined (row : SignalRow α) : SignalRow α :=
  { row with label := Label.outline row.label }

/-- A divider with the outline of its guard. -/
def Divider.outlined (divider : Divider α) : Divider α :=
  { divider with label := Label.outline divider.label }

/-- The box of a fragment with the outlines of its guards. -/
def FragmentBox.outlined (box : FragmentBox α) : FragmentBox α :=
  { box with label := Label.outline box.label, dividers := box.dividers.map Divider.outlined }

/-- Rows with the outlines of their texts. -/
def Rows.outlined (rows : Rows α) : Rows α :=
  { rows with
    signals := rows.signals.map SignalRow.outlined
    boxes := rows.boxes.map FragmentBox.outlined }

/-- A layout with the outlines of its texts. -/
def Layout.outlined (layout : Layout α) : Layout α :=
  { layout with
    title := layout.title.map TitleBox.outlined
    participants := layout.participants.map ParticipantBox.outlined
    signals := layout.signals.map SignalRow.outlined
    fragments := layout.fragments.map FragmentBox.outlined }

theorem Rows.outlined_append (above below : Rows α) :
    (above ++ below).outlined = above.outlined ++ below.outlined := by
  change (above.append below).outlined = above.outlined.append below.outlined
  simp [outlined, append]

end Parts

mutual

theorem Body.signals_outlined : ∀ body : Body,
    body.outlined.signals = body.signals.map Signal.outlined
  | .empty => rfl
  | .signal message rest => by
    rw [Body.outlined, Body.signals, Body.signals, rest.signals_outlined, List.map_cons]
  | .activation name starts rest => by
    rw [Body.outlined, Body.signals, Body.signals, rest.signals_outlined]
  | .fragment kind operands rest => by
    rw [Body.outlined, Body.signals, Body.signals, operands.signals_outlined, rest.signals_outlined,
      List.map_append]

theorem Operands.signals_outlined : ∀ operands : Operands,
    operands.outlined.signals = operands.signals.map Signal.outlined
  | .none => rfl
  | .cons guard body rest => by
    rw [Operands.outlined, Operands.signals, Operands.signals, body.signals_outlined,
      rest.signals_outlined, List.map_append]

end

mutual

theorem Body.depth_outlined : ∀ body : Body, body.outlined.depth = body.depth
  | .empty => rfl
  | .signal _ rest => rest.depth_outlined
  | .activation _ _ rest => rest.depth_outlined
  | .fragment kind operands rest => by
    rw [Body.outlined, Body.depth, Body.depth, operands.depth_outlined, rest.depth_outlined]

theorem Operands.depth_outlined : ∀ operands : Operands, operands.outlined.depth = operands.depth
  | .none => rfl
  | .cons guard body rest => by
    rw [Operands.outlined, Operands.depth, Operands.depth, body.depth_outlined, rest.depth_outlined]

end

theorem column?_outlined (name : String) (participants : List Participant) :
    column? name (participants.map Participant.outlined) = column? name participants := by
  induction participants with
  | nil => rfl
  | cons participant rest ih =>
    rw [List.map_cons, column?, column?, ih]
    rfl

theorem columnOf_outlined (participants : List Participant) (name : String) :
    columnOf (participants.map Participant.outlined) name = columnOf participants name := by
  rw [columnOf, columnOf, column?_outlined]

mutual

theorem Body.involved_outlined (participants : List Participant) : ∀ body : Body,
    body.outlined.involved (participants.map Participant.outlined) = body.involved participants
  | .empty => rfl
  | .signal message rest => by
    simp only [Body.outlined, Body.involved, rest.involved_outlined participants, columnOf_outlined,
      Signal.outlined]
  | .activation name starts rest => by
    simp only [Body.outlined, Body.involved, rest.involved_outlined participants, columnOf_outlined]
  | .fragment kind operands rest => by
    simp only [Body.outlined, Body.involved, operands.involved_outlined participants,
      rest.involved_outlined participants]

theorem Operands.involved_outlined (participants : List Participant) : ∀ operands : Operands,
    operands.outlined.involved (participants.map Participant.outlined) =
      operands.involved participants
  | .none => rfl
  | .cons guard body rest => by
    simp only [Operands.outlined, Operands.involved, body.involved_outlined participants,
      rest.involved_outlined participants]

end

theorem Operands.label_outlined (operands : Operands) :
    operands.outlined.label = Label.outline operands.label := by
  cases operands <;> rfl

theorem Body.outlined_eq_empty_iff {body : Body} : body.outlined = .empty ↔ body = .empty := by
  cases body <;> simp [outlined]

theorem nonempty?_outline (title : Option String) :
    nonempty? (title.map Label.outline) = (nonempty? title).map Label.outline := by
  cases title with
  | none => rfl
  | some text =>
    by_cases htext : text = ""
    · subst htext
      rfl
    · simp [nonempty?, Option.filter, htext, Label.outline_eq_empty_iff]

variable {α : Type} {measure : String → Size α}

theorem measure_header (hmeasure : ∀ text, measure (Label.outline text) = measure text)
    (kind label : String) :
    measure (Label.header kind (Label.outline label)) = measure (Label.header kind label) := by
  rw [← hmeasure, Label.outline_header, hmeasure]

/-- A grid with the outlines of the labels of participants. -/
def Grid.outlined (grid : Grid α) : Grid α :=
  { grid with participants := grid.participants.map Participant.outlined }

theorem Grid.extent?_outlined {grid : Grid α} (operands : Operands) :
    grid.outlined.extent? operands.outlined = grid.extent? operands := by
  have hinvolved : operands.outlined.involved grid.outlined.participants =
      operands.involved grid.participants := operands.involved_outlined grid.participants
  simp only [extent?]
  rw [hinvolved]
  rfl

variable [∀ n, OfNat α n]

theorem Columns.signalSize_outlined (hmeasure : ∀ text, measure (Label.outline text) = measure text)
    (signal : Signal) : signalSize measure signal.outlined = signalSize measure signal := by
  simp only [signalSize, Signal.outlined, Label.outline_eq_empty_iff, hmeasure]

variable [Add α] [Mul α]

theorem Columns.demands_outlined (hmeasure : ∀ text, measure (Label.outline text) = measure text)
    (participants : List Participant) (signals : List Signal) :
    demands measure (participants.map Participant.outlined) (signals.map Signal.outlined) =
      demands measure participants signals := by
  induction signals with
  | nil => rfl
  | cons signal rest ih =>
    simp only [List.map_cons, demands, ih, columnOf_outlined, signalSize_outlined hmeasure]
    rfl

variable [Sub α] [Div α] [LT α] [DecidableLT α]

/-- The columns of a diagram do not depend on its texts but on their outlines. -/
theorem Columns.ofDiagram_outlined (hmeasure : ∀ text, measure (Label.outline text) = measure text)
    (spacing : Spacing α) (diagram : Diagram) :
    Columns.ofDiagram measure spacing diagram.outlined =
      Columns.ofDiagram measure spacing diagram := by
  have hwidths : (diagram.participants.map Participant.outlined).map (boxWidthOf measure) =
      diagram.participants.map (boxWidthOf measure) := by
    simp [boxWidthOf, Participant.outlined, hmeasure]
  have hneeds := demands_outlined hmeasure diagram.participants diagram.signals
  rw [Diagram.signals, ← Body.signals_outlined] at hneeds
  simp only [Columns.ofDiagram, Diagram.outlined, Diagram.signals, hwidths, hneeds, Body.depth_outlined]

namespace Grid

variable {grid : Grid α}

omit [Div α] in
theorem placeSignal_outlined (hmeasure : ∀ text, grid.measure (Label.outline text) = grid.measure text)
    (signal : Signal) (cursor : Cursor α) :
    grid.outlined.placeSignal signal.outlined cursor =
      (grid.placeSignal signal cursor).map (Prod.map SignalRow.outlined id) := by
  have hband : grid.outlined.labelBand signal.outlined = grid.labelBand signal := by
    simp only [labelBand, outlined, Columns.signalSize_outlined hmeasure]
    simp only [Signal.outlined, Label.outline_eq_empty_iff]
  have hsize : Columns.signalSize grid.outlined.measure signal.outlined =
      Columns.signalSize grid.measure signal := Columns.signalSize_outlined hmeasure signal
  have hcolumn (name : String) :
      columnOf grid.outlined.participants name = columnOf grid.participants name :=
    columnOf_outlined grid.participants name
  simp only [placeSignal, hband, hsize, hcolumn]
  cases hsource : columnOf grid.participants signal.source with
  | error error =>
    simp only [Signal.outlined, hsource]
    rfl
  | ok source =>
    cases htarget : columnOf grid.participants signal.target with
    | error error =>
      simp only [Signal.outlined, hsource, htarget]
      rfl
    | ok target =>
      simp only [Signal.outlined, hsource, htarget]
      rfl

omit [LT α] [DecidableLT α] in
theorem bar_outlined (name : String) (top bottom : α) (level : Nat) :
    grid.outlined.bar name top bottom level = grid.bar name top bottom level := by
  have hcolumn : columnOf grid.outlined.participants name = columnOf grid.participants name :=
    columnOf_outlined grid.participants name
  rw [bar, bar, hcolumn]
  rfl

theorem placeActivation_outlined (name : String) (starts : Bool) (cursor : Cursor α) :
    grid.outlined.placeActivation name starts cursor = grid.placeActivation name starts cursor := by
  simp only [placeActivation, bar_outlined]
  rfl

theorem edges_outlined (operands : Operands) (depth : Nat) (inner : List (FragmentBox α)) :
    grid.outlined.edges operands.outlined depth (inner.map FragmentBox.outlined) =
      grid.edges operands depth inner := by
  have hchildren : (inner.map FragmentBox.outlined).filter (·.depth = depth + 1) =
      (inner.filter (·.depth = depth + 1)).map FragmentBox.outlined := List.filter_map
  simp only [edges, extent?_outlined, hchildren, List.foldl_map, operands.depth_outlined]
  rfl

theorem fragmentBox_outlined (hmeasure : ∀ text, grid.measure (Label.outline text) = grid.measure text)
    (kind : String) (operands : Operands) (depth : Nat) (top bottom : α)
    (dividers : List (Divider α)) (inner : List (FragmentBox α)) :
    grid.outlined.fragmentBox kind operands.outlined depth top bottom
        (dividers.map Divider.outlined) (inner.map FragmentBox.outlined) =
      (grid.fragmentBox kind operands depth top bottom dividers inner).map FragmentBox.outlined := by
  have hheader : grid.outlined.measure (Label.header kind (Label.outline operands.label)) =
      grid.measure (Label.header kind operands.label) := measure_header hmeasure kind operands.label
  simp only [fragmentBox, edges_outlined, operands.label_outlined, hheader]
  cases grid.edges operands depth inner <;> rfl

mutual

/-- What is placed for an outlined body is what is placed for the body, outlined. -/
theorem placeBody_outlined (hmeasure : ∀ text, grid.measure (Label.outline text) = grid.measure text)
    (depth : Nat) : ∀ (body : Body) (cursor : Cursor α),
    grid.outlined.placeBody depth body.outlined cursor =
      (grid.placeBody depth body cursor).map (Prod.map Rows.outlined id)
  | .empty, cursor => rfl
  | .signal message rest, cursor => by
    rw [Body.outlined, placeBody, placeBody, placeSignal_outlined hmeasure]
    refine map_bind_eq fun (row, after) => ?_
    simp only [Prod.map, id, placeBody_outlined hmeasure depth rest]
    refine map_bind_eq fun (rows, after) => ?_
    simp only [pure, Except.pure, Except.map, Prod.map, id, Rows.outlined_append]
    rfl
  | .activation name starts rest, cursor => by
    rw [Body.outlined, placeBody, placeBody, placeActivation_outlined]
    cases grid.placeActivation name starts cursor with
    | error error => rfl
    | ok placed =>
      simp only [bind, Except.bind]
      rw [placeBody_outlined hmeasure depth rest]
      refine map_bind_eq fun (rows, after) => ?_
      simp only [pure, Except.pure, Except.map, Prod.map, id, Rows.outlined_append]
      rfl
  | .fragment kind operands rest, cursor => by
    rw [Body.outlined, placeBody, placeBody, placeOperands_outlined hmeasure]
    refine map_bind_eq fun (dividers, inner, middle) => ?_
    simp only [Prod.map, id, Rows.outlined, fragmentBox_outlined hmeasure]
    refine map_bind_eq fun box => ?_
    rw [placeBody_outlined hmeasure depth rest]
    refine map_bind_eq fun (rows, after) => ?_
    simp only [pure, Except.pure, Except.map, Prod.map, id, Rows.outlined_append]
    rfl

theorem placeOperands_outlined (hmeasure : ∀ text, grid.measure (Label.outline text) = grid.measure text)
    (depth : Nat) (isFirst : Bool) : ∀ (operands : Operands) (cursor : Cursor α),
    grid.outlined.placeOperands depth isFirst operands.outlined cursor =
      (grid.placeOperands depth isFirst operands cursor).map
        (Prod.map (List.map Divider.outlined) (Prod.map Rows.outlined id))
  | .none, cursor => rfl
  | .cons guard body rest, cursor => by
    rw [Operands.outlined, placeOperands, placeOperands, placeBody_outlined hmeasure depth body]
    refine map_bind_eq fun (rows, middle) => ?_
    simp only [Prod.map, id, placeOperands_outlined hmeasure depth false rest]
    refine map_bind_eq fun (others, below, after) => ?_
    cases isFirst <;>
      simp [pure, Except.pure, Except.map, Rows.outlined_append, Divider.outlined]

end

theorem closeBars_outlined (name : String) (y : α) (starts : List α) :
    grid.outlined.closeBars name y starts = grid.closeBars name y starts := by
  induction starts with
  | nil => rfl
  | cons start outer ih =>
    rw [closeBars, closeBars, ih]
    simp only [bar_outlined]
    rfl

theorem closeAllBars_outlined (y : α) (opened : OpenBars α) :
    grid.outlined.closeAllBars y opened = grid.closeAllBars y opened := by
  induction opened with
  | nil => rfl
  | cons entry rest ih => rw [closeAllBars, closeAllBars, ih, closeBars_outlined]

end Grid

namespace Layout

omit [Sub α] [Mul α] [Div α] in
theorem boxHeightOf_outlined (hmeasure : ∀ text, measure (Label.outline text) = measure text)
    (participants : List Participant) :
    boxHeightOf measure (participants.map Participant.outlined) = boxHeightOf measure participants := by
  cases participants with
  | nil => rfl
  | cons participant rest =>
    simp [boxHeightOf, Participant.outlined, hmeasure, List.foldl_map]

theorem ofRows_outlined {grid : Grid α}
    (hmeasure : ∀ text, grid.measure (Label.outline text) = grid.measure text) (content : Body)
    (title : Option (String × Size α)) :
    ofRows grid.outlined content.outlined (title.map (Prod.map Label.outline id)) =
      (ofRows grid content title).map outlined := by
  have hheight : boxHeightOf grid.outlined.measure grid.outlined.participants =
      boxHeightOf grid.measure grid.participants := boxHeightOf_outlined hmeasure grid.participants
  have hspacing : grid.outlined.spacing = grid.spacing := rfl
  have hboxes (right : α) (boxes : List (FragmentBox α)) :
      (boxes.map FragmentBox.outlined).foldl (fun right box => larger right (box.x + box.width)) right =
        boxes.foldl (fun right box => larger right (box.x + box.width)) right := by
    rw [List.foldl_map]
    rfl
  have hparticipants (y height : α) :
      (grid.outlined.participants.mapIdx fun i participant => ParticipantBox.mk participant.name
          participant.label (grid.outlined.center i) y (grid.outlined.boxWidth i) height) =
        (grid.participants.mapIdx fun i participant => ParticipantBox.mk participant.name
          participant.label (grid.center i) y (grid.boxWidth i) height).map ParticipantBox.outlined := by
    refine List.ext_getElem? fun i => ?_
    simp only [Grid.outlined, List.getElem?_map, List.getElem?_mapIdx, Option.map_map]
    rfl
  have hlifelines (top bottom : α) :
      (grid.outlined.participants.mapIdx fun i participant => Lifeline.mk participant.name
          (grid.outlined.center i) top bottom) =
        grid.participants.mapIdx fun i participant => Lifeline.mk participant.name
          (grid.center i) top bottom := by
    refine List.ext_getElem? fun i => ?_
    simp only [Grid.outlined, List.getElem?_map, List.getElem?_mapIdx, Option.map_map]
    rfl
  cases title <;>
    simp only [Option.map_none, Option.map_some, Prod.map, id, ofRows, hheight, hspacing,
      Grid.placeBody_outlined hmeasure]
  all_goals
    refine map_bind_eq fun (rows, cursor) => ?_
    simp only [Prod.map, id, Grid.closeAllBars_outlined]
    cases grid.closeAllBars cursor.y cursor.opened with
    | error error => rfl
    | ok unclosed =>
      simp only [Rows.outlined, hboxes, hparticipants, hlifelines]
      rfl

/-- A diagram is laid out as its outline is. -/
theorem ofDiagram_outlined (hmeasure : ∀ text, measure (Label.outline text) = measure text)
    (spacing : Spacing α) (diagram : Diagram) :
    ofDiagram measure spacing diagram.outlined = (ofDiagram measure spacing diagram).map outlined := by
  have htitle : (nonempty? diagram.outlined.title).map (fun text => (text, measure text)) =
      ((nonempty? diagram.title).map fun text => (text, measure text)).map
        (Prod.map Label.outline id) := by
    rw [Diagram.outlined, nonempty?_outline, Option.map_map, Option.map_map]
    simp [Function.comp_def, hmeasure]
  have hempty : (diagram.outlined.participants.isEmpty &&
        decide (diagram.outlined.content.body = .empty)) =
      (diagram.participants.isEmpty && decide (diagram.content.body = .empty)) := by
    simp [Diagram.outlined, Body.outlined_eq_empty_iff]
  simp only [ofDiagram, htitle, hempty]
  split
  · cases (nonempty? diagram.title).map fun text => (text, measure text) <;> rfl
  · rw [Columns.ofDiagram_outlined hmeasure]
    cases Columns.ofDiagram measure spacing diagram with
    | error error => rfl
    | ok columns =>
      let grid : Grid α := ⟨diagram.participants, columns, spacing, measure⟩
      have hgrid : ∀ text, grid.measure (Label.outline text) = grid.measure text := hmeasure
      exact ofRows_outlined hgrid diagram.content.body _

end Layout

end SequenceChart
