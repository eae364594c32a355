import SequenceChart.Proofs.Layout.Placed

namespace SequenceChart

variable {α : Type} [Add α] [Mul α] [∀ n, OfNat α n]

/-- Every name is that of a participant. -/
def Listed (participants : List Participant) (names : List String) : Prop :=
  ∀ name ∈ names, name ∈ participants.map Participant.name

theorem Columns.demands_of_listed (measure : String → Size α) {participants : List Participant}
    {signals : List Signal}
    (hsignals : ∀ signal ∈ signals, Listed participants [signal.source, signal.target]) :
    ∃ needs, demands measure participants signals = .ok needs := by
  induction signals with
  | nil => exact ⟨_, rfl⟩
  | cons signal rest ih =>
    obtain ⟨hends, hrest⟩ := List.forall_mem_cons.1 hsignals
    have hsource := columnOf_eq_ok (hends signal.source (by simp))
    have htarget := columnOf_eq_ok (hends signal.target (by simp))
    obtain ⟨needs, hneeds⟩ := ih hrest
    simp only [demands, hsource, htarget, hneeds, bind, Except.bind]
    split <;> exact ⟨_, rfl⟩

variable [Sub α] [Div α] [LT α] [DecidableLT α]

theorem Columns.ofDiagram_of_listed (measure : String → Size α) (spacing : Spacing α) {diagram : Diagram}
    (hlisted : Listed diagram.participants diagram.content.body.named) :
    ∃ columns, Columns.ofDiagram measure spacing diagram = .ok columns := by
  have hsignals : ∀ signal ∈ diagram.signals,
      Listed diagram.participants [signal.source, signal.target] := by
    intro signal hsignal name hname
    obtain ⟨hsource, htarget⟩ := Body.signals_named diagram.content.body hsignal
    obtain rfl | rfl : name = signal.source ∨ name = signal.target := by simpa using hname
    · exact hlisted signal.source hsource
    · exact hlisted signal.target htarget
  obtain ⟨needs, hneeds⟩ := demands_of_listed measure hsignals
  simp only [Columns.ofDiagram, hneeds, bind, Except.bind]
  split <;> exact ⟨_, rfl⟩

namespace Grid

variable {grid : Grid α}

omit [Div α] in
theorem placeSignal_of_listed {signal : Signal}
    (hsource : signal.source ∈ grid.participants.map Participant.name)
    (htarget : signal.target ∈ grid.participants.map Participant.name) (cursor : Cursor α) :
    ∃ row after, grid.placeSignal signal cursor = .ok (row, after) ∧
      after.opened = cursor.opened := by
  simp only [placeSignal, columnOf_eq_ok hsource, columnOf_eq_ok htarget, bind, Except.bind]
  exact ⟨_, _, rfl, rfl⟩

omit [LT α] [DecidableLT α] in
theorem bar_of_listed {name : String} (hname : name ∈ grid.participants.map Participant.name)
    (top bottom : α) (level : Nat) : ∃ bar, grid.bar name top bottom level = .ok bar := by
  rw [bar, columnOf_eq_ok hname]
  exact ⟨_, rfl⟩

theorem placeActivation_of_listed {name : String}
    (hname : name ∈ grid.participants.map Participant.name) (starts : Bool) {cursor : Cursor α}
    (hopened : Listed grid.participants (cursor.opened.map Prod.fst)) :
    ∃ bars after, grid.placeActivation name starts cursor = .ok (bars, after) ∧
      Listed grid.participants (after.opened.map Prod.fst) := by
  have hset (own : List α) :
      Listed grid.participants ((cursor.opened.set name own).map Prod.fst) := by
    intro other hother
    obtain rfl | hother := List.mem_cons.1 (OpenBars.map_set_subset name own cursor.opened hother)
    · exact hname
    · exact hopened other hother
  cases starts with
  | true => exact ⟨_, _, rfl, hset _⟩
  | false =>
    simp only [placeActivation, Bool.false_eq_true, if_false]
    split
    · exact ⟨_, _, rfl, hset []⟩
    · next start outer hown =>
      simp only [bar, columnOf_eq_ok hname, bind, Except.bind]
      exact ⟨_, _, rfl, hset outer⟩

theorem fragmentBox_of_listed (kind : String) {operands : Operands}
    (hlisted : Listed grid.participants operands.named) (depth : Nat) (top bottom : α)
    (dividers : List (Divider α)) (inner : List (FragmentBox α)) :
    ∃ box, grid.fragmentBox kind operands depth top bottom dividers inner = .ok box := by
  have hextent : ∃ columns, grid.extent? operands = .ok columns := by
    rw [extent?, Operands.involved_eq_ok operands hlisted]
    simp only [bind, Except.bind]
    split <;> exact ⟨_, rfl⟩
  obtain ⟨columns, hcolumns⟩ := hextent
  have hedges : ∃ sides, grid.edges operands depth inner = .ok sides := by
    simp only [edges, hcolumns, bind, Except.bind]
    cases columns <;> exact ⟨_, rfl⟩
  obtain ⟨sides, hsides⟩ := hedges
  simp only [fragmentBox, hsides, bind, Except.bind]
  exact ⟨_, rfl⟩

mutual

/-- A body whose signals and activations refer to participants is placed, and the activations that
    are open after it are those of participants. -/
theorem placeBody_of_listed (depth : Nat) : ∀ (body : Body), Listed grid.participants body.named →
    ∀ cursor : Cursor α, Listed grid.participants (cursor.opened.map Prod.fst) →
      ∃ rows after, grid.placeBody depth body cursor = .ok (rows, after) ∧
        Listed grid.participants (after.opened.map Prod.fst)
  | .empty, _, cursor, hopened => ⟨_, _, rfl, hopened⟩
  | .signal message rest, hlisted, cursor, hopened => by
    obtain ⟨hsource, hlisted⟩ := List.forall_mem_cons.1 hlisted
    obtain ⟨htarget, hlisted⟩ := List.forall_mem_cons.1 hlisted
    obtain ⟨row, middle, hsignal, hsame⟩ := placeSignal_of_listed hsource htarget cursor
    rw [← hsame] at hopened
    obtain ⟨rows, after, hrest, hafter⟩ := placeBody_of_listed depth rest hlisted middle hopened
    simp only [placeBody, hsignal, hrest, bind, Except.bind]
    exact ⟨_, _, rfl, hafter⟩
  | .activation name starts rest, hlisted, cursor, hopened => by
    obtain ⟨hname, hlisted⟩ := List.forall_mem_cons.1 hlisted
    obtain ⟨bars, middle, hactivation, hopened⟩ := placeActivation_of_listed hname starts hopened
    obtain ⟨rows, after, hrest, hafter⟩ := placeBody_of_listed depth rest hlisted middle hopened
    simp only [placeBody, hactivation, hrest, bind, Except.bind]
    exact ⟨_, _, rfl, hafter⟩
  | .fragment kind operands rest, hlisted, cursor, hopened => by
    obtain ⟨hinner, hlisted⟩ := List.forall_mem_append.1 hlisted
    obtain ⟨dividers, inner, middle, hoperands, hopened⟩ :=
      placeOperands_of_listed (depth + 1) true operands hinner
        { cursor with y := cursor.y + Distance.fragmentHeader } hopened
    obtain ⟨box, hbox⟩ := fragmentBox_of_listed kind hinner depth cursor.y
      (middle.y + Distance.fragmentBottom) dividers inner.boxes
    obtain ⟨rows, after, hrest, hafter⟩ := placeBody_of_listed depth rest hlisted
      { middle with y := middle.y + Distance.fragmentBottom } hopened
    simp only [placeBody, hoperands, hbox, hrest, bind, Except.bind]
    exact ⟨_, _, rfl, hafter⟩

theorem placeOperands_of_listed (depth : Nat) (isFirst : Bool) : ∀ (operands : Operands),
    Listed grid.participants operands.named →
      ∀ cursor : Cursor α, Listed grid.participants (cursor.opened.map Prod.fst) →
        ∃ dividers rows after,
          grid.placeOperands depth isFirst operands cursor = .ok (dividers, rows, after) ∧
            Listed grid.participants (after.opened.map Prod.fst)
  | .none, _, cursor, hopened => ⟨_, _, _, rfl, hopened⟩
  | .cons guard body rest, hlisted, cursor, hopened => by
    obtain ⟨hinner, hlisted⟩ := List.forall_mem_append.1 hlisted
    obtain ⟨rows, middle, hbody, hopened⟩ := placeBody_of_listed depth body hinner
      { cursor with y := if isFirst then cursor.y else cursor.y + Distance.dividerHeight } hopened
    obtain ⟨dividers, below, after, hrest, hafter⟩ :=
      placeOperands_of_listed depth false rest hlisted middle hopened
    simp only [placeOperands, hbody, hrest, bind, Except.bind]
    exact ⟨_, _, _, rfl, hafter⟩

end

theorem closeBars_of_listed {name : String} (hname : name ∈ grid.participants.map Participant.name)
    (y : α) (starts : List α) : ∃ bars, grid.closeBars name y starts = .ok bars := by
  induction starts with
  | nil => exact ⟨_, rfl⟩
  | cons start outer ih =>
    obtain ⟨others, hothers⟩ := ih
    obtain ⟨placed, hplaced⟩ := bar_of_listed hname start
      (larger (y - grid.spacing.rowHeight / 2) start) outer.length
    simp only [closeBars, hothers, hplaced, bind, Except.bind]
    exact ⟨_, rfl⟩

theorem closeAllBars_of_listed {opened : OpenBars α}
    (hopened : Listed grid.participants (opened.map Prod.fst)) (y : α) :
    ∃ bars, grid.closeAllBars y opened = .ok bars := by
  induction opened with
  | nil => exact ⟨_, rfl⟩
  | cons entry rest ih =>
    obtain ⟨hname, hrest⟩ := List.forall_mem_cons.1 hopened
    obtain ⟨own, hown⟩ := closeBars_of_listed hname y entry.2
    obtain ⟨others, hothers⟩ := ih hrest
    rw [closeAllBars, hown, hothers]
    exact ⟨_, rfl⟩

end Grid

namespace Layout

theorem ofRows_of_listed {grid : Grid α} {content : Body}
    (hlisted : Listed grid.participants content.named) (heading : Option (String × Size α)) :
    ∃ layout, ofRows grid content heading = .ok layout := by
  have hplaced (y : α) : ∃ rows after bars, grid.placeBody 0 content { y } = .ok (rows, after) ∧
      grid.closeAllBars after.y after.opened = .ok bars := by
    obtain ⟨rows, after, hbody, hopened⟩ :=
      Grid.placeBody_of_listed 0 content hlisted { y } (List.forall_mem_nil _)
    obtain ⟨bars, hbars⟩ := Grid.closeAllBars_of_listed hopened after.y
    exact ⟨rows, after, bars, hbody, hbars⟩
  cases heading with
  | none =>
    obtain ⟨rows, after, bars, hbody, hbars⟩ := hplaced (grid.spacing.padding +
      boxHeightOf grid.measure grid.participants + Distance.headerGap)
    simp only [ofRows, hbody, hbars, bind, Except.bind]
    exact ⟨_, rfl⟩
  | some text =>
    obtain ⟨rows, after, bars, hbody, hbars⟩ := hplaced (grid.spacing.padding +
      (text.2.height + Distance.titleGap) + boxHeightOf grid.measure grid.participants +
        Distance.headerGap)
    simp only [ofRows, hbody, hbars, bind, Except.bind]
    exact ⟨_, rfl⟩

/-- A diagram whose signals and activations refer to participants has a layout, whatever the sizes
    of its labels and the distances are. -/
theorem ofDiagram_of_listed (measure : String → Size α) (spacing : Spacing α) {diagram : Diagram}
    (hlisted : Listed diagram.participants diagram.content.body.named) :
    ∃ layout, ofDiagram measure spacing diagram = .ok layout := by
  obtain ⟨columns, hcolumns⟩ := Columns.ofDiagram_of_listed measure spacing hlisted
  rw [ofDiagram]
  split
  · exact ⟨_, rfl⟩
  · simp only [hcolumns, bind, Except.bind]
    exact ofRows_of_listed hlisted _

end Layout

end SequenceChart
