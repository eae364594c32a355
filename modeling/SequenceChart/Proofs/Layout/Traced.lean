import Mathlib.Data.List.Forall2
import SequenceChart.Drawing.Render
import SequenceChart.Proofs.Layout.Listed
import SequenceChart.Proofs.Statement.Grammar

namespace SequenceChart

variable {α : Type}

/-- The guards of operands, in order. -/
def Operands.guards : Operands → List String
  | .none => []
  | .cons guard _ rest => guard :: rest.guards

/-- The header of a fragment. -/
def Fragment.header (fragment : Fragment) : String :=
  Label.header fragment.kind fragment.operands.label

mutual

theorem Body.map_header_fragments : ∀ (body : Body) (depth : Nat),
    (body.fragments depth).map Fragment.header = body.headers
  | .empty, _ => rfl
  | .signal _ rest, depth => rest.map_header_fragments depth
  | .activation _ _ rest, depth => rest.map_header_fragments depth
  | .fragment kind operands rest, depth => by
    simp [Body.fragments, Body.headers, Fragment.header, rest.map_header_fragments depth,
      operands.map_header_fragments (depth + 1)]

theorem Operands.map_header_fragments : ∀ (operands : Operands) (depth : Nat),
    (operands.fragments depth).map Fragment.header = operands.headers
  | .none, _ => rfl
  | .cons guard body rest, depth => by
    simp [Operands.fragments, Operands.headers, body.map_header_fragments depth,
      rest.map_header_fragments depth]

end

/-- A box that shows a fragment, with a divider for each operand after the first one. -/
structure FragmentBox.Displays (fragment : Fragment) (box : FragmentBox α) : Prop where
  kind : box.kind = fragment.kind
  label : box.label = fragment.operands.label
  depth : box.depth = fragment.depth
  dividers : box.dividers.map Divider.label = fragment.operands.guards.drop 1

variable [∀ n, OfNat α n]

namespace Grid

/-- A row that shows a signal with the size of its label, between the columns of its ends. -/
structure Displays (grid : Grid α) (signal : Signal) (row : SignalRow α) : Prop where
  source : row.source = signal.source
  target : row.target = signal.target
  label : row.label = signal.label
  style : row.style = signal.style
  hasHead : row.hasHead = signal.hasHead
  isSelf : row.isSelf = signal.isSelf
  startX : ∃ column, columnOf grid.participants signal.source = .ok column ∧
    row.startX = grid.center column
  endX : ∃ column, columnOf grid.participants signal.target = .ok column ∧
    row.endX = grid.center column
  size : ⟨row.labelWidth, row.labelHeight⟩ = Columns.signalSize grid.measure signal

/-- What is placed from one cursor to another one shows signals and fragments in their order, and the
    signals are counted. -/
structure Traces (grid : Grid α) (before : Cursor α) (messages : List Signal)
    (fragments : List Fragment) (rows : Rows α) (after : Cursor α) : Prop where
  shown : List.Forall₂ grid.Displays messages rows.signals
  numbered : rows.signals.map SignalRow.index = List.range' before.index messages.length
  counted : after.index = before.index + messages.length
  boxed : List.Forall₂ FragmentBox.Displays fragments rows.boxes

variable {grid : Grid α} {before middle after : Cursor α} {messages others : List Signal}
  {fragments more : List Fragment} {rows below : Rows α}

theorem Traces.append (habove : grid.Traces before messages fragments rows middle)
    (hbelow : grid.Traces middle others more below after) :
    grid.Traces before (messages ++ others) (fragments ++ more) (rows ++ below) after where
  shown := List.rel_append habove.shown hbelow.shown
  numbered := by
    have hnumbered : (rows ++ below).signals.map SignalRow.index =
        rows.signals.map SignalRow.index ++ below.signals.map SignalRow.index := List.map_append
    rw [hnumbered, habove.numbered, hbelow.numbered, habove.counted, List.length_append,
      List.range'_append_1]
  counted := by
    rw [hbelow.counted, habove.counted, List.length_append, Nat.add_assoc]
  boxed := List.rel_append habove.boxed hbelow.boxed

/-- Nothing is shown where the cursor only moves. -/
theorem Traces.skip (bars : List (ActivationBar α)) (hindex : after.index = before.index) :
    grid.Traces before [] [] { bars } after :=
  ⟨.nil, rfl, hindex, .nil⟩

variable [Add α] [Sub α] [Mul α] [LT α] [DecidableLT α]

theorem placeSignal_traces {signal : Signal} {row : SignalRow α}
    (hplaced : grid.placeSignal signal before = .ok (row, after)) :
    grid.Traces before [signal] [] { signals := [row] } after := by
  obtain ⟨source, hsource, hplaced⟩ := bind_eq_ok_iff.1 hplaced
  obtain ⟨target, htarget, hplaced⟩ := bind_eq_ok_iff.1 hplaced
  cases hplaced
  exact ⟨.cons ⟨rfl, rfl, rfl, rfl, rfl, rfl, ⟨source, hsource, rfl⟩, ⟨target, htarget, rfl⟩, rfl⟩ .nil,
    rfl, rfl, .nil⟩

variable [Div α]

theorem placeActivation_index {name : String} {starts : Bool} {bars : List (ActivationBar α)}
    (hplaced : grid.placeActivation name starts before = .ok (bars, after)) :
    after.index = before.index := by
  simp only [placeActivation] at hplaced
  split at hplaced
  · cases hplaced
    rfl
  · split at hplaced
    · cases hplaced
      rfl
    · obtain ⟨_, _, hplaced⟩ := bind_eq_ok_iff.1 hplaced
      cases hplaced
      rfl

theorem fragmentBox_displays {kind : String} {operands : Operands} {depth : Nat} {top bottom : α}
    {dividers : List (Divider α)} {inner : List (FragmentBox α)} {box : FragmentBox α}
    (hbox : grid.fragmentBox kind operands depth top bottom dividers inner = .ok box)
    (hdividers : dividers.map Divider.label = operands.guards.drop 1) :
    box.Displays ⟨depth, kind, operands⟩ := by
  obtain ⟨_, _, hbox⟩ := bind_eq_ok_iff.1 hbox
  cases hbox
  exact ⟨rfl, rfl, rfl, hdividers⟩

mutual

/-- What is placed for a body are its signals and fragments, each in the order of the source. -/
theorem placeBody_traces (depth : Nat) : ∀ (body : Body) {before after : Cursor α} {rows : Rows α},
    grid.placeBody depth body before = .ok (rows, after) →
      grid.Traces before body.signals (body.fragments depth) rows after
  | .empty, _, _, _, hplaced => by
    cases hplaced
    exact .skip [] rfl
  | .signal message rest, _, _, _, hplaced => by
    obtain ⟨⟨row, middle⟩, hsignal, hplaced⟩ := bind_eq_ok_iff.1 hplaced
    obtain ⟨⟨others, after⟩, hrest, hplaced⟩ := bind_eq_ok_iff.1 hplaced
    cases hplaced
    exact (placeSignal_traces hsignal).append (placeBody_traces depth rest hrest)
  | .activation name starts rest, _, _, _, hplaced => by
    obtain ⟨⟨bars, middle⟩, hactivation, hplaced⟩ := bind_eq_ok_iff.1 hplaced
    obtain ⟨⟨others, after⟩, hrest, hplaced⟩ := bind_eq_ok_iff.1 hplaced
    cases hplaced
    exact (Traces.skip bars (placeActivation_index hactivation)).append
      (placeBody_traces depth rest hrest)
  | .fragment kind operands rest, before, _, _, hplaced => by
    obtain ⟨⟨dividers, inner, middle⟩, hoperands, hplaced⟩ := bind_eq_ok_iff.1 hplaced
    obtain ⟨box, hbox, hplaced⟩ := bind_eq_ok_iff.1 hplaced
    obtain ⟨⟨others, after⟩, hrest, hplaced⟩ := bind_eq_ok_iff.1 hplaced
    cases hplaced
    obtain ⟨hinner, hdividers⟩ := placeOperands_traces (depth + 1) true operands hoperands
    have hwhole : grid.Traces before operands.signals
        (⟨depth, kind, operands⟩ :: operands.fragments (depth + 1))
        { inner with boxes := box :: inner.boxes }
        { middle with y := middle.y + Distance.fragmentBottom } :=
      ⟨hinner.shown, hinner.numbered, hinner.counted,
        .cons (fragmentBox_displays hbox hdividers) hinner.boxed⟩
    exact hwhole.append (placeBody_traces depth rest hrest)

/-- What is placed for operands are their signals and fragments, and the guards of all but the first
    one. -/
theorem placeOperands_traces (depth : Nat) (isFirst : Bool) : ∀ (operands : Operands)
    {before after : Cursor α} {dividers : List (Divider α)} {rows : Rows α},
    grid.placeOperands depth isFirst operands before = .ok (dividers, rows, after) →
      grid.Traces before operands.signals (operands.fragments depth) rows after ∧
        dividers.map Divider.label = operands.guards.drop (if isFirst then 1 else 0)
  | .none, _, _, _, _, hplaced => by
    cases hplaced
    exact ⟨.skip [] rfl, by simp [Operands.guards]⟩
  | .cons guard body rest, before, _, _, _, hplaced => by
    obtain ⟨⟨own, middle⟩, hbody, hplaced⟩ := bind_eq_ok_iff.1 hplaced
    obtain ⟨⟨others, below, after⟩, hrest, hplaced⟩ := bind_eq_ok_iff.1 hplaced
    cases hplaced
    obtain ⟨hbelow, hothers⟩ := placeOperands_traces depth false rest hrest
    have habove := placeBody_traces depth body hbody
    refine ⟨Traces.append ⟨habove.shown, habove.numbered, habove.counted, habove.boxed⟩ hbelow, ?_⟩
    cases isFirst <;> simp [Operands.guards, hothers]

end

end Grid

namespace Columns

variable [LT α] [DecidableLT α]

omit [∀ n, OfNat α n] in
theorem length_clear (gaps : List α) (overhangs : List (Overhang α)) :
    (overhangs.foldl clear gaps).length = gaps.length := by
  induction overhangs generalizing gaps with
  | nil => rfl
  | cons overhang rest ih => rw [List.foldl_cons, ih, clear, List.length_modify]

variable [Add α] [Sub α]

theorem length_widen (gaps : List α) (spans : List (Span α)) :
    (spans.foldl widen gaps).length = gaps.length := by
  induction spans generalizing gaps with
  | nil => rfl
  | cons span rest ih =>
    rw [List.foldl_cons, ih]
    simp only [widen]
    split
    · exact List.length_modify ..
    · rfl

variable [Div α]

theorem length_gaps (participantGap : α) (widths : List α) (spans : List (Span α))
    (overhangs : List (Overhang α)) :
    (gaps participantGap widths spans overhangs).length = widths.length - 1 := by
  simp [gaps, length_clear, length_widen]

variable [Mul α]

/-- Every participant has a width and a centre. -/
theorem ofDiagram_lengths {measure : String → Size α} {spacing : Spacing α} {diagram : Diagram}
    {columns : Columns α} (hcolumns : ofDiagram measure spacing diagram = .ok columns) :
    columns.widths.length = diagram.participants.length ∧
      columns.centers.length = diagram.participants.length := by
  obtain ⟨⟨spans, overhangs⟩, _, hcolumns⟩ := bind_eq_ok_iff.1 hcolumns
  cases hparticipants : diagram.participants with
  | nil =>
    simp only [hparticipants, List.map_nil] at hcolumns
    cases hcolumns
    exact ⟨rfl, rfl⟩
  | cons participant rest =>
    simp only [hparticipants, List.map_cons] at hcolumns
    cases hcolumns
    refine ⟨by simp, ?_⟩
    simp [length_centersFrom, length_gaps]

end Columns

namespace Layout

/-- A layout shows what a diagram holds, in the same order: the title, the participants in their
    columns, the signals, which are counted, and the fragments. -/
structure Presents (layout : Layout α) (grid : Grid α) (diagram : Diagram) : Prop where
  titled : layout.title.map TitleBox.text = nonempty? diagram.title
  labelled : layout.participants.map ParticipantBox.label = diagram.participants.map Participant.label
  placed : ∀ (i : Nat) participant, grid.participants[i]? = some participant →
    ∃ box, layout.participants[i]? = some box ∧ box.name = participant.name ∧
      box.label = participant.label ∧ box.x = grid.center i
  shown : List.Forall₂ grid.Displays diagram.signals layout.signals
  numbered : layout.signals.map SignalRow.index = List.range diagram.signals.length
  boxed : List.Forall₂ FragmentBox.Displays (diagram.content.body.fragments 0) layout.fragments

variable {layout : Layout α} {grid : Grid α} {diagram : Diagram}

theorem Presents.index (hpresents : layout.Presents grid diagram) {i : Nat}
    (hi : i < layout.signals.length) : layout.signals[i].index = i := by
  have hlength := hpresents.shown.length_eq
  have hnumber := congrArg (·[i]?) hpresents.numbered
  simpa [hlength ▸ hi, hi] using hnumber

/-- The number of a row is that of its signal, at which the size of its label is found. -/
theorem Presents.size (hpresents : layout.Presents grid diagram) : ∀ row ∈ layout.signals,
    (diagram.signals.map (Columns.signalSize grid.measure))[row.index]? =
      some ⟨row.labelWidth, row.labelHeight⟩ := by
  intro row hrow
  obtain ⟨i, hi, rfl⟩ := List.getElem_of_mem hrow
  have hlength := hpresents.shown.length_eq
  have hdisplays := hpresents.shown.get (hlength ▸ hi) hi
  rw [hpresents.index hi, List.getElem?_map, List.getElem?_eq_getElem (hlength ▸ hi)]
  exact congrArg some hdisplays.size.symm

theorem Presents.column (hpresents : layout.Presents grid diagram) {name : String} {i : Nat}
    (hcolumn : columnOf grid.participants name = .ok i) :
    ∃ box ∈ layout.participants, box.name = name ∧ box.x = grid.center i := by
  obtain ⟨participant, hparticipant, hname⟩ :=
    Option.map_eq_some_iff.1 (name_of_column? (column?_of_columnOf hcolumn))
  obtain ⟨box, hbox, hboxName, -, hx⟩ := hpresents.placed i participant hparticipant
  exact ⟨box, List.mem_of_getElem? hbox, hboxName.trans hname, hx⟩

/-- Every row reaches from the column of its source to that of its target. -/
theorem Presents.ends (hpresents : layout.Presents grid diagram) : ∀ row ∈ layout.signals,
    (∃ box ∈ layout.participants, box.name = row.source ∧ box.x = row.startX) ∧
      ∃ box ∈ layout.participants, box.name = row.target ∧ box.x = row.endX := by
  intro row hrow
  obtain ⟨i, hi, rfl⟩ := List.getElem_of_mem hrow
  have hdisplays := hpresents.shown.get (hpresents.shown.length_eq ▸ hi) hi
  obtain ⟨start, hstart, hstartX⟩ := hdisplays.startX
  obtain ⟨stop, hstop, hendX⟩ := hdisplays.endX
  refine ⟨?_, ?_⟩
  · obtain ⟨box, hbox, hname, hx⟩ := hpresents.column hstart
    exact ⟨box, hbox, hname.trans hdisplays.source.symm, hx.trans hstartX.symm⟩
  · obtain ⟨box, hbox, hname, hx⟩ := hpresents.column hstop
    exact ⟨box, hbox, hname.trans hdisplays.target.symm, hx.trans hendX.symm⟩

/-- The headers of the boxes are those that were measured. -/
theorem Presents.headers (hpresents : layout.Presents grid diagram) :
    layout.fragments.map (fun box => Label.header box.kind box.label) =
      diagram.content.body.headers := by
  have hheaders {fragments : List Fragment} {boxes : List (FragmentBox α)}
      (hboxed : List.Forall₂ FragmentBox.Displays fragments boxes) :
      boxes.map (fun box => Label.header box.kind box.label) = fragments.map Fragment.header := by
    induction hboxed with
    | nil => rfl
    | cons hbox _ ih => rw [List.map_cons, List.map_cons, ih, hbox.kind, hbox.label, Fragment.header]
  rw [← Body.map_header_fragments _ 0, hheaders hpresents.boxed]

variable [Add α] [Sub α] [Mul α] [Div α] [LT α] [DecidableLT α]

theorem ofRows_presents {grid : Grid α} {diagram : Diagram} {heading : Option (String × Size α)}
    (hheading : heading.map Prod.fst = nonempty? diagram.title)
    (hparticipants : grid.participants = diagram.participants) {layout : Layout α}
    (hlayout : ofRows grid diagram.content.body heading = .ok layout) :
    layout.Presents grid diagram := by
  obtain ⟨⟨rows, cursor⟩, hbody, hlayout⟩ := bind_eq_ok_iff.1 hlayout
  obtain ⟨_, _, hlayout⟩ := bind_eq_ok_iff.1 hlayout
  cases hlayout
  obtain ⟨hshown, hnumbered, -, hboxed⟩ := Grid.placeBody_traces 0 diagram.content.body hbody
  refine ⟨?_, ?_, ?_, hshown, ?_, hboxed⟩
  · rw [← hheading, Option.map_map]
    rfl
  · rw [← hparticipants]
    refine List.ext_getElem? fun i => ?_
    simp only [List.getElem?_map, List.getElem?_mapIdx, Option.map_map]
    rfl
  · intro i participant hparticipant
    exact ⟨_, by rw [List.getElem?_mapIdx, hparticipant]; rfl, rfl, rfl, rfl⟩
  · rw [List.range_eq_range']
    exact hnumbered

/-- The passes over a diagram agree: that which finds the columns, that which measures labels and
    headers, and that which places rows and boxes. -/
theorem ofDiagram_presents {measure : String → Size α} {spacing : Spacing α} {diagram : Diagram}
    {layout : Layout α} (hlayout : ofDiagram measure spacing diagram = .ok layout) :
    ∃ columns, Columns.ofDiagram measure spacing diagram = .ok columns ∧
      layout.Presents ⟨diagram.participants, columns, spacing, measure⟩ diagram := by
  rw [ofDiagram] at hlayout
  split at hlayout
  · next hempty =>
    simp only [Bool.and_eq_true, List.isEmpty_iff, decide_eq_true_eq] at hempty
    obtain ⟨hparticipants, hbody⟩ := hempty
    have hlisted : Listed diagram.participants diagram.content.body.named := by
      rw [hbody]
      exact List.forall_mem_nil _
    obtain ⟨columns, hcolumns⟩ := Columns.ofDiagram_of_listed measure spacing hlisted
    refine ⟨columns, hcolumns, ?_⟩
    cases hlayout
    refine ⟨?_, ?_, ?_, ?_, ?_, ?_⟩
    · cases nonempty? diagram.title <;> rfl
    all_goals
      cases (nonempty? diagram.title).map fun text => (text, measure text) <;>
        simp [Diagram.signals, hparticipants, hbody, Body.signals, Body.fragments, ofTitle]
  · obtain ⟨columns, hcolumns, hlayout⟩ := bind_eq_ok_iff.1 hlayout
    refine ⟨columns, hcolumns, ofRows_presents ?_ rfl hlayout⟩
    rw [Option.map_map]
    exact Option.map_id'

end Layout

end SequenceChart
