import SequenceChart.Proofs.Layout.Traced

namespace SequenceChart

open Distance

variable {α : Type} [∀ n, OfNat α n]

/-- The sizes of the labels of a diagram, measured in a pass of their own. -/
def Diagram.labelSizes (measure : String → Size α) (diagram : Diagram) : List (Size α) :=
  diagram.signals.map (Columns.signalSize measure)

namespace Grid

/-- From a number on, a table holds the sizes of the labels of signals. -/
def HoldsFrom (grid : Grid α) (sizes : List (Size α)) (number : Nat) (messages : List Signal) : Prop :=
  messages.map (Columns.signalSize grid.measure) <+: sizes.drop number

theorem holdsFrom_append {grid : Grid α} {sizes : List (Size α)} {number : Nat}
    (messages : List Signal) {others : List Signal}
    (hholds : grid.HoldsFrom sizes number (messages ++ others)) :
    grid.HoldsFrom sizes number messages ∧
      grid.HoldsFrom sizes (number + messages.length) others := by
  rw [HoldsFrom, List.map_append] at hholds
  obtain ⟨back, hback⟩ := hholds
  rw [List.append_assoc] at hback
  refine ⟨⟨_, hback⟩, back, ?_⟩
  rw [← List.drop_drop, ← hback, List.drop_left' (List.length_map _)]

variable [Add α] [Sub α] [Mul α] [LT α] [DecidableLT α]

/-- Places a signal whose label has a known size. No text is measured for it. -/
def placeSized (grid : Grid α) (size : Size α) (signal : Signal) (cursor : Cursor α) :
    Except LayoutError (SignalRow α × Cursor α) := do
  let (row, cursor) ← placeSignal { grid with measure := fun _ => size } signal cursor
  return ({ row with labelWidth := size.width, labelHeight := size.height }, cursor)

/-- Places a signal with the size that a table holds at its number, if it holds one. -/
def placeSignalBy (grid : Grid α) (sizes : List (Size α)) (signal : Signal) (cursor : Cursor α) :
    Option (SignalRow α × Cursor α) := do
  let size ← sizes[cursor.index]?
  (grid.placeSized size signal cursor).toOption

variable {grid : Grid α} {sizes : List (Size α)} {before after : Cursor α}

theorem placeSized_signalSize (signal : Signal) (cursor : Cursor α) :
    grid.placeSized (Columns.signalSize grid.measure signal) signal cursor =
      grid.placeSignal signal cursor := by
  simp only [placeSized, placeSignal, labelBand, Columns.signalSize]
  cases columnOf grid.participants signal.source with
  | error => rfl
  | ok source =>
    cases columnOf grid.participants signal.target with
    | error => rfl
    | ok target => split <;> rfl

theorem placeSignalBy_eq_some {signal : Signal} {row : SignalRow α}
    (hplaced : grid.placeSignal signal before = .ok (row, after))
    (hholds : grid.HoldsFrom sizes before.index [signal]) :
    grid.placeSignalBy sizes signal before = some (row, after) := by
  have hsize : sizes[before.index]? = some (Columns.signalSize grid.measure signal) := by
    obtain ⟨back, hback⟩ := hholds
    rw [← Nat.add_zero before.index, ← List.getElem?_drop, ← hback]
    rfl
  rw [placeSignalBy, hsize, Option.bind_eq_bind, Option.bind_some, placeSized_signalSize, hplaced]
  rfl

variable [Div α]

mutual

/-- Places a body like `placeBody`, but measures no label: their sizes are those that a table holds
    at the numbers which the cursor counts. -/
def placeBodyBy (grid : Grid α) (sizes : List (Size α)) (depth : Nat) :
    Body → Cursor α → Option (Rows α × Cursor α)
  | .empty, cursor => some ({}, cursor)
  | .signal message rest, cursor => do
    let (placed, cursor) ← grid.placeSignalBy sizes message cursor
    let (rows, cursor) ← placeBodyBy grid sizes depth rest cursor
    return ({ signals := [placed] } ++ rows, cursor)
  | .activation name starts rest, cursor => do
    let (placed, cursor) ← (grid.placeActivation name starts cursor).toOption
    let (rows, cursor) ← placeBodyBy grid sizes depth rest cursor
    return ({ bars := placed } ++ rows, cursor)
  | .fragment kind operands rest, cursor => do
    let top := cursor.y
    let (dividers, inner, cursor) ← placeOperandsBy grid sizes (depth + 1) true operands
      { cursor with y := cursor.y + fragmentHeader }
    let bottom := cursor.y + fragmentBottom
    let box ← (grid.fragmentBox kind operands depth top bottom dividers inner.boxes).toOption
    let (rows, cursor) ← placeBodyBy grid sizes depth rest { cursor with y := bottom }
    return ({ inner with boxes := box :: inner.boxes } ++ rows, cursor)

/-- Places operands like `placeOperands`, with the sizes of labels from a table. -/
def placeOperandsBy (grid : Grid α) (sizes : List (Size α)) (depth : Nat) (isFirst : Bool) :
    Operands → Cursor α → Option (List (Divider α) × Rows α × Cursor α)
  | .none, cursor => some ([], {}, cursor)
  | .cons guard body rest, cursor => do
    let dividers : List (Divider α) := if isFirst then [] else [⟨cursor.y, guard⟩]
    let start := if isFirst then cursor.y else cursor.y + dividerHeight
    let (rows, cursor) ← placeBodyBy grid sizes depth body { cursor with y := start }
    let (others, below, cursor) ← placeOperandsBy grid sizes depth false rest cursor
    return (dividers ++ others, rows ++ below, cursor)

end

mutual

/-- A table with the sizes of the labels, in the order of the source, gives what measuring each label
    at its place gives. The cursor always counts the signals in front of it. -/
theorem placeBodyBy_eq_some (depth : Nat) : ∀ (body : Body) {before after : Cursor α} {rows : Rows α},
    grid.placeBody depth body before = .ok (rows, after) →
      grid.HoldsFrom sizes before.index body.signals →
        grid.placeBodyBy sizes depth body before = some (rows, after)
  | .empty, _, _, _, hplaced, _ => by
    cases hplaced
    rfl
  | .signal message rest, _, _, _, hplaced, hholds => by
    obtain ⟨⟨row, middle⟩, hsignal, hplaced⟩ := bind_eq_ok_iff.1 hplaced
    obtain ⟨⟨others, after⟩, hrest, hplaced⟩ := bind_eq_ok_iff.1 hplaced
    cases hplaced
    obtain ⟨hown, hothers⟩ := holdsFrom_append [message] hholds
    rw [← (placeSignal_traces hsignal).counted] at hothers
    simp only [placeBodyBy, placeSignalBy_eq_some hsignal hown,
      placeBodyBy_eq_some depth rest hrest hothers, Option.bind_eq_bind, Option.bind_some]
    rfl
  | .activation name starts rest, _, _, _, hplaced, hholds => by
    obtain ⟨⟨bars, middle⟩, hactivation, hplaced⟩ := bind_eq_ok_iff.1 hplaced
    obtain ⟨⟨others, after⟩, hrest, hplaced⟩ := bind_eq_ok_iff.1 hplaced
    cases hplaced
    rw [← placeActivation_index hactivation] at hholds
    simp only [placeBodyBy, hactivation, Except.toOption, placeBodyBy_eq_some depth rest hrest hholds,
      Option.bind_eq_bind, Option.bind_some]
    rfl
  | .fragment kind operands rest, before, _, _, hplaced, hholds => by
    obtain ⟨⟨dividers, inner, middle⟩, hoperands, hplaced⟩ := bind_eq_ok_iff.1 hplaced
    obtain ⟨box, hbox, hplaced⟩ := bind_eq_ok_iff.1 hplaced
    obtain ⟨⟨others, after⟩, hrest, hplaced⟩ := bind_eq_ok_iff.1 hplaced
    cases hplaced
    obtain ⟨hinner, hothers⟩ := holdsFrom_append operands.signals hholds
    rw [← (placeOperands_traces (depth + 1) true operands hoperands).1.counted] at hothers
    simp only [placeBodyBy, placeOperandsBy_eq_some (depth + 1) true operands hoperands hinner, hbox,
      Except.toOption, placeBodyBy_eq_some depth rest hrest hothers, Option.bind_eq_bind,
      Option.bind_some]
    rfl

theorem placeOperandsBy_eq_some (depth : Nat) (isFirst : Bool) : ∀ (operands : Operands)
    {before after : Cursor α} {dividers : List (Divider α)} {rows : Rows α},
    grid.placeOperands depth isFirst operands before = .ok (dividers, rows, after) →
      grid.HoldsFrom sizes before.index operands.signals →
        grid.placeOperandsBy sizes depth isFirst operands before = some (dividers, rows, after)
  | .none, _, _, _, _, hplaced, _ => by
    cases hplaced
    rfl
  | .cons guard body rest, before, _, _, _, hplaced, hholds => by
    obtain ⟨⟨own, middle⟩, hbody, hplaced⟩ := bind_eq_ok_iff.1 hplaced
    obtain ⟨⟨others, below, after⟩, hrest, hplaced⟩ := bind_eq_ok_iff.1 hplaced
    cases hplaced
    obtain ⟨hown, hothers⟩ := holdsFrom_append body.signals hholds
    rw [← (placeBody_traces depth body hbody).counted] at hothers
    simp only [placeOperandsBy, placeBodyBy_eq_some depth body hbody hown,
      placeOperandsBy_eq_some depth false rest hrest hothers, Option.bind_eq_bind, Option.bind_some]
    rfl

end

end Grid

end SequenceChart
