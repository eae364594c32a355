import SequenceChart.Layout.OfDiagram
import SequenceChart.Proofs.Layout.Extent
import SequenceChart.Proofs.Layout.Spot

namespace SequenceChart

theorem OpenBars.map_set_subset {α : Type} (name : String) (starts : List α) (bars : OpenBars α) :
    (bars.set name starts).map Prod.fst ⊆ name :: bars.map Prod.fst := by
  induction bars with
  | nil => simp [set]
  | cons entry rest ih =>
    obtain ⟨other, own⟩ := entry
    rw [set]
    split
    · simp
    · intro found hfound
      rw [List.map_cons, List.mem_cons] at hfound
      obtain rfl | hfound := hfound
      · simp
      · have hmem := ih hfound
        rw [List.mem_cons] at hmem
        simp only [List.map_cons, List.mem_cons]
        tauto

mutual

theorem Body.signals_named {signal : Signal} : ∀ (body : Body), signal ∈ body.signals →
    signal.source ∈ body.named ∧ signal.target ∈ body.named
  | .empty, hsignal => by cases hsignal
  | .signal message rest, hsignal => by
    rw [Body.signals, List.mem_cons] at hsignal
    obtain rfl | hsignal := hsignal
    · simp [Body.named]
    · have hnamed := Body.signals_named rest hsignal
      simp [Body.named, hnamed]
  | .activation name starts rest, hsignal => by
    have hnamed := Body.signals_named rest hsignal
    simp [Body.named, hnamed]
  | .fragment kind operands rest, hsignal => by
    rw [Body.signals, List.mem_append] at hsignal
    obtain hsignal | hsignal := hsignal
    · have hnamed := Operands.signals_named operands hsignal
      simp [Body.named, hnamed]
    · have hnamed := Body.signals_named rest hsignal
      simp [Body.named, hnamed]

theorem Operands.signals_named {signal : Signal} : ∀ (operands : Operands),
    signal ∈ operands.signals → signal.source ∈ operands.named ∧ signal.target ∈ operands.named
  | .none, hsignal => by cases hsignal
  | .cons guard body rest, hsignal => by
    rw [Operands.signals, List.mem_append] at hsignal
    obtain hsignal | hsignal := hsignal
    · have hnamed := Body.signals_named body hsignal
      simp [Operands.named, hnamed]
    · have hnamed := Operands.signals_named rest hsignal
      simp [Operands.named, hnamed]

end

theorem Diagram.signals_listed {diagram : Diagram}
    (hrefers : ∀ name ∈ diagram.content.body.named, name ∈ diagram.names) :
    ∀ signal ∈ diagram.signals, signal.source ∈ diagram.names ∧ signal.target ∈ diagram.names := by
  intro signal hsignal
  obtain ⟨hsource, htarget⟩ := Body.signals_named diagram.content.body hsignal
  exact ⟨hrefers signal.source hsource, hrefers signal.target htarget⟩

namespace Grid

variable {grid : Grid ℚ}

/-- The box of a fragment stands inside the box of the one that it lies in, above the bottom and
    below the top, and also between the sides as far as the columns and its header let it. -/
structure Holds (grid : Grid ℚ) (outer inner : Fragment × FragmentBox ℚ) : Prop where
  below : outer.2.y < inner.2.y
  above : inner.2.y + inner.2.height < outer.2.y + outer.2.height
  sides : grid.Covers outer.1 inner.1 → outer.2.x < inner.2.x ∧
    (inner.2.x + inner.2.width < outer.2.x + outer.2.width ↔
      grid.headerEnd inner.1 inner.2.x < outer.2.x + outer.2.width)

/-- After the box of each fragment come the boxes of those inside it. It holds those of the fragments
    that lie in it directly. -/
def Nested (grid : Grid ℚ) (placed : List (Fragment × FragmentBox ℚ)) : Prop :=
  ∀ front outer rest, placed = front ++ outer :: rest → ∃ inside back, rest = inside ++ back ∧
    inside.map Prod.fst = outer.1.operands.fragments (outer.1.depth + 1) ∧
    ∀ inner ∈ inside, inner.1.depth = outer.1.depth + 1 → grid.Holds outer inner

/-- A row shows a signal between participants, from the column of its source to that of its target,
    with the size of its label. -/
structure Carries (grid : Grid ℚ) (row : SignalRow ℚ) : Prop where
  source : row.source ∈ grid.participants.map Participant.name
  target : row.target ∈ grid.participants.map Participant.name
  startX : row.startX = grid.center (columnIn grid.participants row.source)
  endX : row.endX = grid.center (columnIn grid.participants row.target)
  isSelf : row.isSelf = row.message.isSelf
  size : ⟨row.labelWidth, row.labelHeight⟩ = Columns.signalSize grid.measure row.message

theorem Carries.isSelf_iff {row : SignalRow ℚ} (hcarries : grid.Carries row) :
    row.isSelf = true ↔ row.source = row.target := by
  rw [hcarries.isSelf]
  exact decide_eq_true_iff

theorem Carries.labelBand_eq {row : SignalRow ℚ} (hcarries : grid.Carries row) :
    grid.labelBand row.message = row.labelHeight + Distance.labelGap := by
  rw [Grid.labelBand_eq, ← hcarries.size]

theorem Carries.labelHeight_nonneg (hheight : ∀ text, 0 ≤ (grid.measure text).height)
    {row : SignalRow ℚ} (hcarries : grid.Carries row) : 0 ≤ row.labelHeight := by
  have hsize := Columns.signalSize_height_nonneg hheight row.message
  rwa [← hcarries.size] at hsize

theorem Carries.top_lt_y (hheight : ∀ text, 0 ≤ (grid.measure text).height) {row : SignalRow ℚ}
    (hcarries : grid.Carries row) : row.top < row.y := by
  have hlabel := hcarries.labelHeight_nonneg hheight
  simp only [SignalRow.top, Distance.labelGap]
  linarith

/-- A spot has what the grid gives to what stands in it, but for its height. -/
def Fits (grid : Grid ℚ) : Spot → Prop
  | .row row => grid.Carries row
  | .box fragment box => grid.Frames fragment box

/-- What follows the box of a fragment begins with the spots of its operands, which the box encloses.
    It holds the boxes of the fragments that lie in it directly. -/
def Enclosed (grid : Grid ℚ) (front : List Spot) (fragment : Fragment) (box : FragmentBox ℚ)
    (rest : List Spot) : Prop :=
  ∃ operands back, rest = operands.flatten ++ back ∧
    operands.map (List.map Spot.item) = fragment.operands.items (fragment.depth + 1) ∧
    box.Encloses front operands back ∧
    ∀ inner child, .box inner child ∈ operands.flatten → inner.depth = fragment.depth + 1 →
      grid.Holds (fragment, box) (inner, child)

/-- Every fragment is enclosed by its box. -/
def Stacked (grid : Grid ℚ) (spots : List Spot) : Prop :=
  ∀ front fragment box rest, spots = front ++ .box fragment box :: rest →
    grid.Enclosed front fragment box rest

section Stacked

variable {fragment : Fragment} {box : FragmentBox ℚ} {front rest : List Spot}

theorem Enclosed.of_front {others : List Spot} (henclosed : grid.Enclosed front fragment box rest)
    (hothers : ∀ row, .row row ∈ others → .row row ∈ front ∨ row.bottom ≤ box.y) :
    grid.Enclosed others fragment box rest := by
  obtain ⟨operands, back, hrest, hitems, hencloses, hholds⟩ := henclosed
  refine ⟨operands, back, hrest, hitems, { hencloses with front := fun row hrow => ?_ }, hholds⟩
  exact (hothers row hrow).elim (hencloses.front row) id

theorem Enclosed.append (henclosed : grid.Enclosed front fragment box rest) {later : List Spot}
    (hlater : ∀ spot ∈ later, box.bottom ≤ spot.top) :
    grid.Enclosed front fragment box (rest ++ later) := by
  obtain ⟨operands, back, rfl, hitems, hencloses, hholds⟩ := henclosed
  refine ⟨operands, back ++ later, List.append_assoc .., hitems,
    { hencloses with back := fun spot hspot => ?_ }, hholds⟩
  exact (List.mem_append.1 hspot).elim (hencloses.back spot) (hlater spot)

theorem Stacked.append {upper lower : List Spot} (hupper : grid.Stacked upper)
    (hlower : grid.Stacked lower)
    (horder : ∀ spot ∈ upper, ∀ later ∈ lower, spot.bottom ≤ later.top) :
    grid.Stacked (upper ++ lower) := by
  intro front fragment box rest hsplit
  have hbelow (middle : List Spot) (hmiddle : lower = middle ++ .box fragment box :: rest) :
      grid.Enclosed (upper ++ middle) fragment box rest := by
    refine (hlower middle fragment box rest hmiddle).of_front fun row hrow => ?_
    obtain hrow | hrow := List.mem_append.1 hrow
    · exact .inr (horder _ hrow (.box fragment box) (by simp [hmiddle]))
    · exact .inl hrow
  obtain ⟨middle, rfl, hmiddle⟩ | ⟨middle, hfront, hmiddle⟩ := List.append_eq_append_iff.1 hsplit
  · exact hbelow middle hmiddle
  · cases middle with
    | nil =>
      have henclosed := hbelow [] hmiddle.symm
      rwa [hfront, List.append_nil, List.append_nil] at henclosed
    | cons first others =>
      obtain ⟨rfl, rfl⟩ := List.cons.inj hmiddle
      exact (hupper front fragment box others hfront).append
        (horder (.box fragment box) (by simp [hfront]))

theorem Stacked.cons {operands : List (List Spot)} (hstacked : grid.Stacked operands.flatten)
    (hitems : operands.map (List.map Spot.item) = fragment.operands.items (fragment.depth + 1))
    (hencloses : box.Encloses [] operands [])
    (hholds : ∀ inner child, .box inner child ∈ operands.flatten → inner.depth = fragment.depth + 1 →
      grid.Holds (fragment, box) (inner, child)) :
    grid.Stacked (.box fragment box :: operands.flatten) := by
  intro front other place rest hsplit
  cases front with
  | nil =>
    cases hsplit
    exact ⟨operands, [], (List.append_nil _).symm, hitems, hencloses, hholds⟩
  | cons first front =>
    obtain ⟨rfl, hrest⟩ := List.cons.inj hsplit
    exact (hstacked front other place rest hrest).of_front fun row hrow => .inl (by simpa using hrow)

theorem Stacked.nested {spots : List Spot} (hstacked : grid.Stacked spots) :
    grid.Nested (spots.filterMap Spot.fragmentBox?) := by
  intro front outer rest hsplit
  obtain ⟨upper, lower, rfl, rfl, hlower⟩ := List.filterMap_eq_append_iff.1 hsplit
  obtain ⟨rows, spot, later, rfl, _, hspot, rfl⟩ := List.filterMap_eq_cons_iff.1 hlower
  cases spot with
  | row row => cases hspot
  | box fragment box =>
    cases hspot
    obtain ⟨operands, back, rfl, hitems, _, hholds⟩ :=
      hstacked (upper ++ rows) fragment box later (List.append_assoc ..).symm
    refine ⟨operands.flatten.filterMap Spot.fragmentBox?, _, List.filterMap_append, ?_, ?_⟩
    · rw [Spot.map_fst_filterMap_fragmentBox?, List.map_flatten, hitems]
      exact fragment.operands.filterMap_items_fragment? _
    · exact fun inner hinner => hholds inner.1 inner.2 (Spot.mem_filterMap_fragmentBox?.1 hinner)

end Stacked

/-- Spots stand between the cursor before and the one after, the rows one below the other and
    counted. -/
structure Places (grid : Grid ℚ) (before : Cursor ℚ) (spots : List Spot) (after : Cursor ℚ) : Prop where
  le : before.y ≤ after.y
  index : after.index = before.index + (spots.filterMap Spot.row?).length
  numbered : (spots.filterMap Spot.row?).map SignalRow.index =
    List.range' before.index (spots.filterMap Spot.row?).length
  listed : grid.Lists (before.opened.map Prod.fst) → grid.Lists (after.opened.map Prod.fst)
  between : ∀ spot ∈ spots, before.y ≤ spot.top ∧ spot.bottom ≤ after.y
  fits : ∀ spot ∈ spots, grid.Fits spot
  spaced : (spots.filterMap Spot.row?).Pairwise fun row next => row.bottom ≤ next.top
  stacked : grid.Stacked spots

section Places

variable {before middle after : Cursor ℚ}

theorem Places.none (hle : before.y ≤ after.y) (hindex : after.index = before.index)
    (hlisted : grid.Lists (before.opened.map Prod.fst) → grid.Lists (after.opened.map Prod.fst)) :
    grid.Places before [] after :=
  ⟨hle, hindex, rfl, hlisted, List.forall_mem_nil _, List.forall_mem_nil _, .nil,
    fun front _ _ _ hsplit => by simp at hsplit⟩

theorem Places.trans {upper lower : List Spot} (hupper : grid.Places before upper middle)
    (hlower : grid.Places middle lower after) : grid.Places before (upper ++ lower) after := by
  have horder : ∀ spot ∈ upper, ∀ later ∈ lower, spot.bottom ≤ later.top :=
    fun spot hspot later hlater => (hupper.between spot hspot).2.trans (hlower.between later hlater).1
  refine ⟨hupper.le.trans hlower.le, ?_, ?_, hlower.listed ∘ hupper.listed, fun spot hspot => ?_,
    List.forall_mem_append.2 ⟨hupper.fits, hlower.fits⟩, ?_, hupper.stacked.append hlower.stacked horder⟩
  · rw [hlower.index, hupper.index, List.filterMap_append, List.length_append, Nat.add_assoc]
  · rw [List.filterMap_append, List.map_append, hupper.numbered, hlower.numbered, hupper.index,
      List.length_append, List.range'_append_1]
  · obtain hspot | hspot := List.mem_append.1 hspot
    · obtain ⟨htop, hbottom⟩ := hupper.between spot hspot
      exact ⟨htop, hbottom.trans hlower.le⟩
    · obtain ⟨htop, hbottom⟩ := hlower.between spot hspot
      exact ⟨hupper.le.trans htop, hbottom⟩
  · rw [List.filterMap_append, List.pairwise_append]
    refine ⟨hupper.spaced, hlower.spaced, fun row hrow next hnext => ?_⟩
    exact horder _ (Spot.mem_filterMap_row?.1 hrow) _ (Spot.mem_filterMap_row?.1 hnext)

theorem Places.row {row : SignalRow ℚ} (hle : before.y ≤ after.y)
    (hrow : row.index = before.index) (hindex : after.index = before.index + 1)
    (hlisted : grid.Lists (before.opened.map Prod.fst) → grid.Lists (after.opened.map Prod.fst))
    (htop : before.y ≤ row.top) (hbottom : row.bottom ≤ after.y) (hcarries : grid.Carries row) :
    grid.Places before [.row row] after := by
  refine ⟨hle, hindex, congrArg ([·]) hrow, hlisted, ?_, ?_, List.pairwise_singleton _ _,
    fun front fragment box rest hsplit => ?_⟩
  · exact List.forall_mem_singleton.2 ⟨htop, hbottom⟩
  · exact List.forall_mem_singleton.2 hcarries
  · cases front <;> simp at hsplit

/-- What is placed inside a fragment lies below its header and above the end of its box. -/
theorem Places.fragment (husable : grid.Usable) (kind : String) {operands : Operands} {depth : Nat}
    (hlisted : grid.Lists operands.named) {dividers : List (Divider ℚ)} {inside : List (List Spot)}
    (hitems : inside.map (List.map Spot.item) = operands.items (depth + 1))
    (hdivided : Divided true (before.y + Distance.fragmentHeader) dividers inside middle.y)
    (hinner : grid.Places { before with y := before.y + Distance.fragmentHeader } inside.flatten middle) :
    ∃ box, grid.fragmentBox kind operands depth before.y (middle.y + Distance.fragmentBottom)
        dividers (inside.flatten.filterMap Spot.box?) = .ok box ∧
      grid.Places before (.box ⟨depth, kind, operands⟩ box :: inside.flatten)
        { middle with y := middle.y + Distance.fragmentBottom } := by
  obtain ⟨hle, hindex, hnumbered, hopened, hbetween, hfits, hspaced, hstacked⟩ := hinner
  obtain ⟨box, hbox, hy, hbottom, rfl, hframes, hchildren⟩ := fragmentBox_eq_ok husable kind hlisted depth
    before.y (middle.y + Distance.fragmentBottom) dividers (inside.flatten.filterMap Spot.box?)
  change box.bottom = _ at hbottom
  simp only [Distance.fragmentHeader, Distance.fragmentBottom] at hle hbetween hbottom
  have hbelow : ∀ spot ∈ inside.flatten, box.y + 28 ≤ spot.top ∧ spot.bottom + 10 ≤ box.bottom := by
    intro spot hspot
    obtain ⟨htop, hend⟩ := hbetween spot hspot
    constructor <;> linarith
  have hheight : box.bottom = box.y + box.height := rfl
  have hencloses : box.Encloses [] inside [] := by
    refine ⟨?_, fun _ hrow => absurd hrow List.not_mem_nil, fun spot hspot => (hbelow spot hspot).1,
      fun spot hspot => (hbelow spot hspot).2, List.forall_mem_nil _, ?_⟩
    · simp only [Distance.fragmentHeader, Distance.fragmentBottom]
      linarith
    · rw [hy, hbottom, Distance.fragmentBottom, add_sub_cancel_right]
      exact hdivided
  refine ⟨box, hbox, ?_, hindex, hnumbered, hopened,
    List.forall_mem_cons.2 ⟨⟨hy.ge, hbottom.le⟩, fun spot hspot => ?_⟩,
    List.forall_mem_cons.2 ⟨hframes, hfits⟩, hspaced, hstacked.cons hitems hencloses ?_⟩
  · simp only [Distance.fragmentBottom]
    linarith
  · simp only [Distance.fragmentBottom]
    obtain ⟨htop, hend⟩ := hbelow spot hspot
    constructor <;> linarith
  · intro inner child hmem hdepth
    obtain ⟨htop, hend⟩ := hbelow _ hmem
    have hinnerFrames : grid.Frames inner child := hfits _ hmem
    refine ⟨?_, ?_, hframes.sides husable hinnerFrames hlisted hdepth ?_ ?_⟩
    · change box.y < child.y
      change box.y + 28 ≤ child.y at htop
      linarith
    · change child.bottom < box.bottom
      change child.bottom + 10 ≤ box.bottom at hend
      linarith
    · change inner ∈ operands.fragments (depth + 1)
      rw [← Operands.filterMap_items_fragment?, ← hitems, ← List.map_flatten,
        ← Spot.map_fst_filterMap_fragmentBox?]
      exact List.mem_map.2 ⟨(inner, child), Spot.mem_filterMap_fragmentBox?.2 hmem, rfl⟩
    · intro hparticipants
      exact hchildren hparticipants child (Spot.mem_filterMap_box?.2 ⟨inner, hmem⟩)
        (hinnerFrames.depth.trans hdepth)

end Places

theorem placeSignal_eq_ok (husable : grid.Usable) {signal : Signal}
    (hsource : signal.source ∈ grid.participants.map Participant.name)
    (htarget : signal.target ∈ grid.participants.map Participant.name) (cursor : Cursor ℚ) :
    ∃ row after, grid.placeSignal signal cursor = .ok (row, after) ∧ row.message = signal ∧
      grid.Places cursor [.row row] after := by
  have hband := grid.labelBand_eq signal
  have hdescends := husable.descends signal
  rw [← hband] at hdescends
  have hrow := le_max_right grid.spacing.rowHeight (grid.labelBand signal + Distance.labelGap * 2)
  rw [← larger_eq_max] at hrow
  simp only [placeSignal, columnOf_eq_ok hsource, columnOf_eq_ok htarget, bind, Except.bind]
  refine ⟨_, _, rfl, rfl, .row ?_ rfl rfl id ?_ ?_ ⟨hsource, htarget, rfl, rfl, rfl, rfl⟩⟩
  · simp only [Distance.loopRow]
    split <;> linarith
  · simp only [SignalRow.top]
    linarith
  · simp only [SignalRow.bottom]
    split <;> linarith

theorem bar_eq_ok {name : String} (hname : name ∈ grid.participants.map Participant.name)
    (top bottom : ℚ) (level : Nat) :
    grid.bar name top bottom level = .ok ⟨name, grid.center (columnIn grid.participants name) -
      Distance.barWidth / 2 + ofCount level * Distance.barWidth / 2, top, bottom, Distance.barWidth⟩ := by
  rw [bar, columnOf_eq_ok hname]
  rfl

theorem placeActivation_eq_ok {name : String}
    (hname : name ∈ grid.participants.map Participant.name) (starts : Bool) (cursor : Cursor ℚ) :
    ∃ bars after, grid.placeActivation name starts cursor = .ok (bars, after) ∧
      grid.Places cursor [] after := by
  have hset (own : List ℚ) : grid.Places cursor []
      { cursor with opened := cursor.opened.set name own } := by
    refine .none le_rfl rfl fun hlisted other hother => ?_
    obtain rfl | hother := List.mem_cons.1 (OpenBars.map_set_subset name own cursor.opened hother)
    · exact hname
    · exact hlisted other hother
  cases starts with
  | true => exact ⟨_, _, rfl, hset _⟩
  | false =>
    simp only [placeActivation, Bool.false_eq_true, if_false]
    split
    · exact ⟨_, _, rfl, hset []⟩
    · next start outer hown =>
      rw [bar_eq_ok hname]
      exact ⟨_, _, rfl, hset outer⟩

/-- The rows and boxes that are placed are those of the spots, and the spots are those of the items. -/
structure Shows (rows : Rows ℚ) (items : List Item) (spots : List Spot) : Prop where
  items : spots.map Spot.item = items
  signals : spots.filterMap Spot.row? = rows.signals
  boxes : spots.filterMap Spot.box? = rows.boxes

theorem Shows.append {upper lower : Rows ℚ} {items others : List Item} {spots more : List Spot}
    (hupper : Shows upper items spots) (hlower : Shows lower others more) :
    Shows (upper ++ lower) (items ++ others) (spots ++ more) := by
  obtain ⟨rfl, hsignals, hboxes⟩ := hupper
  obtain ⟨rfl, hnextSignals, hnextBoxes⟩ := hlower
  refine ⟨List.map_append, ?_, ?_⟩
  · rw [List.filterMap_append, hsignals, hnextSignals]
    rfl
  · rw [List.filterMap_append, hboxes, hnextBoxes]
    rfl

mutual

theorem placeBody_eq_ok (husable : grid.Usable) (depth : Nat) :
    ∀ (body : Body), grid.Lists body.named → ∀ cursor, ∃ rows after spots,
      grid.placeBody depth body cursor = .ok (rows, after) ∧ Shows rows (body.items depth) spots ∧
        grid.Places cursor spots after
  | .empty, _, cursor => ⟨_, _, [], rfl, ⟨rfl, rfl, rfl⟩, .none le_rfl rfl id⟩
  | .signal message rest, hlisted, cursor => by
    obtain ⟨hsource, hlisted⟩ := List.forall_mem_cons.1 hlisted
    obtain ⟨htarget, hlisted⟩ := List.forall_mem_cons.1 hlisted
    obtain ⟨row, middle, hsignal, hmessage, hupper⟩ := placeSignal_eq_ok husable hsource htarget cursor
    obtain ⟨rows, after, spots, hrest, hshows, hlower⟩ := placeBody_eq_ok husable depth rest hlisted middle
    have hfirst : Shows { signals := [row] } [.signal message] [.row row] :=
      ⟨congrArg (fun message => [Item.signal message]) hmessage, rfl, rfl⟩
    simp only [placeBody, hsignal, hrest, bind, Except.bind]
    exact ⟨_, _, _, rfl, hfirst.append hshows, hupper.trans hlower⟩
  | .activation name starts rest, hlisted, cursor => by
    obtain ⟨hname, hlisted⟩ := List.forall_mem_cons.1 hlisted
    obtain ⟨bars, middle, hactivation, hupper⟩ := placeActivation_eq_ok hname starts cursor
    obtain ⟨rows, after, spots, hrest, hshows, hlower⟩ := placeBody_eq_ok husable depth rest hlisted middle
    have hfirst : Shows { bars := bars } [] [] := ⟨rfl, rfl, rfl⟩
    simp only [placeBody, hactivation, hrest, bind, Except.bind]
    exact ⟨_, _, _, rfl, hfirst.append hshows, hupper.trans hlower⟩
  | .fragment kind operands rest, hlisted, cursor => by
    obtain ⟨hinnerListed, hlisted⟩ := List.forall_mem_append.1 hlisted
    obtain ⟨dividers, inner, middle, inside, hoperands, hitems, hinnerShows, hdivided, hinner⟩ :=
      placeOperands_eq_ok husable (depth + 1) true operands hinnerListed
        { cursor with y := cursor.y + Distance.fragmentHeader }
    obtain ⟨box, hbox, hupper⟩ := hinner.fragment husable kind hinnerListed hitems hdivided
    obtain ⟨rows, after, spots, hrest, hshows, hlower⟩ := placeBody_eq_ok husable depth rest hlisted
      { middle with y := middle.y + Distance.fragmentBottom }
    have hfirst : Shows { inner with boxes := box :: inner.boxes }
        (.fragment ⟨depth, kind, operands⟩ :: (operands.items (depth + 1)).flatten)
        (.box ⟨depth, kind, operands⟩ box :: inside.flatten) :=
      ⟨congrArg (_ :: ·) hinnerShows.items, hinnerShows.signals, congrArg (box :: ·) hinnerShows.boxes⟩
    rw [hinnerShows.boxes] at hbox
    simp only [placeBody, hoperands, hbox, hrest, bind, Except.bind]
    exact ⟨_, _, _, rfl, hfirst.append hshows, hupper.trans hlower⟩

theorem placeOperands_eq_ok (husable : grid.Usable) (depth : Nat) (isFirst : Bool) :
    ∀ (operands : Operands), grid.Lists operands.named → ∀ cursor, ∃ dividers rows after inside,
      grid.placeOperands depth isFirst operands cursor = .ok (dividers, rows, after) ∧
        inside.map (List.map Spot.item) = operands.items depth ∧
        Shows rows (operands.items depth).flatten inside.flatten ∧
        Divided isFirst cursor.y dividers inside after.y ∧ grid.Places cursor inside.flatten after
  | .none, _, cursor => ⟨_, _, _, [], rfl, rfl, ⟨rfl, rfl, rfl⟩, .none _ _ _, .none le_rfl rfl id⟩
  | .cons guard body rest, hlisted, cursor => by
    obtain ⟨hinnerListed, hlisted⟩ := List.forall_mem_append.1 hlisted
    have hstart : cursor.y ≤ if isFirst then cursor.y else cursor.y + Distance.dividerHeight := by
      simp only [Distance.dividerHeight]
      split <;> linarith
    have habove : grid.Places cursor []
        { cursor with y := if isFirst then cursor.y else cursor.y + Distance.dividerHeight } :=
      .none hstart rfl id
    obtain ⟨rows, middle, own, hbody, hshows, hupper⟩ := placeBody_eq_ok husable depth body hinnerListed
      { cursor with y := if isFirst then cursor.y else cursor.y + Distance.dividerHeight }
    obtain ⟨dividers, below, after, inside, hrest, hitems, hothers, hdivided, hlower⟩ :=
      placeOperands_eq_ok husable depth false rest hlisted middle
    simp only [placeOperands, hbody, hrest, bind, Except.bind]
    refine ⟨_, _, _, own :: inside, rfl, congrArg₂ List.cons hshows.items hitems, hshows.append hothers, ?_,
      (habove.trans hupper).trans hlower⟩
    cases isFirst with
    | true => exact .first hupper.le (fun spot hspot => (hupper.between spot hspot).2) hdivided
    | false =>
      exact .next guard hupper.le hlower.le hupper.between
        (fun spot hspot => (hlower.between spot hspot).1) hdivided

end

theorem closeBars_eq_ok {name : String} (hname : name ∈ grid.participants.map Participant.name)
    (y : ℚ) (starts : List ℚ) : ∃ bars, grid.closeBars name y starts = .ok bars := by
  induction starts with
  | nil => exact ⟨[], rfl⟩
  | cons start outer ih =>
    obtain ⟨others, hothers⟩ := ih
    rw [closeBars, hothers, bar_eq_ok hname]
    exact ⟨_, rfl⟩

theorem closeAllBars_eq_ok {opened : OpenBars ℚ} (hlisted : grid.Lists (opened.map Prod.fst)) (y : ℚ) :
    ∃ bars, grid.closeAllBars y opened = .ok bars := by
  induction opened with
  | nil => exact ⟨[], rfl⟩
  | cons entry rest ih =>
    obtain ⟨hname, hrest⟩ := List.forall_mem_cons.1 hlisted
    obtain ⟨own, hown⟩ := closeBars_eq_ok hname y entry.2
    obtain ⟨others, hothers⟩ := ih hrest
    rw [closeAllBars, hown, hothers]
    exact ⟨_, rfl⟩

end Grid

end SequenceChart
