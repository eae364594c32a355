import Mathlib.Order.Bounds.Basic
import Mathlib.Tactic.NormNum
import SequenceChart.Layout.Rows
import SequenceChart.Proofs.Diagram.Contents
import SequenceChart.Proofs.Layout.Columns

namespace SequenceChart

section Inside

variable {fragment : Fragment}

mutual

/-- What lies in a fragment of a body refers to names of the body, and is nested less deeply. -/
theorem Body.inside : ∀ (body : Body) {depth : Nat}, fragment ∈ body.fragments depth →
    fragment.operands.named ⊆ body.named ∧ fragment.operands.depth < body.depth
  | .empty, _, hfragment => by cases hfragment
  | .signal message rest, _, hfragment => by
    obtain ⟨hnamed, hdepth⟩ := Body.inside rest hfragment
    refine ⟨fun name hname => ?_, hdepth⟩
    exact List.mem_cons_of_mem _ (List.mem_cons_of_mem _ (hnamed hname))
  | .activation name starts rest, _, hfragment => by
    obtain ⟨hnamed, hdepth⟩ := Body.inside rest hfragment
    exact ⟨fun name hname => List.mem_cons_of_mem _ (hnamed hname), hdepth⟩
  | .fragment kind operands rest, _, hfragment => by
    simp only [Body.fragments, List.cons_append, List.mem_cons, List.mem_append] at hfragment
    rw [Body.named, Body.depth]
    obtain rfl | hinner | hlater := hfragment
    · exact ⟨List.subset_append_left _ _, le_max_left (operands.depth + 1) rest.depth⟩
    · obtain ⟨hnamed, hdepth⟩ := Operands.inside operands hinner
      exact ⟨List.Subset.trans hnamed (List.subset_append_left _ _), by omega⟩
    · obtain ⟨hnamed, hdepth⟩ := Body.inside rest hlater
      exact ⟨List.Subset.trans hnamed (List.subset_append_right _ _), by omega⟩

theorem Operands.inside : ∀ (operands : Operands) {depth : Nat},
    fragment ∈ operands.fragments depth →
      fragment.operands.named ⊆ operands.named ∧ fragment.operands.depth < operands.depth
  | .none, _, hfragment => by cases hfragment
  | .cons guard body rest, _, hfragment => by
    rw [Operands.fragments, List.mem_append] at hfragment
    rw [Operands.named, Operands.depth]
    obtain hinner | hlater := hfragment
    · obtain ⟨hnamed, hdepth⟩ := Body.inside body hinner
      exact ⟨List.Subset.trans hnamed (List.subset_append_left _ _), by omega⟩
    · obtain ⟨hnamed, hdepth⟩ := Operands.inside rest hlater
      exact ⟨List.Subset.trans hnamed (List.subset_append_right _ _), by omega⟩

end

end Inside

section Involved

variable {participants : List Participant}

mutual

theorem Body.involved_eq_ok : ∀ (body : Body),
    (∀ name ∈ body.named, name ∈ participants.map Participant.name) →
      body.involved participants = .ok (body.named.map (columnIn participants))
  | .empty, _ => rfl
  | .signal message rest, hlisted => by
    obtain ⟨hsource, hlisted⟩ := List.forall_mem_cons.1 hlisted
    obtain ⟨htarget, hlisted⟩ := List.forall_mem_cons.1 hlisted
    rw [Body.involved, columnOf_eq_ok hsource, columnOf_eq_ok htarget, Body.involved_eq_ok rest hlisted]
    rfl
  | .activation name starts rest, hlisted => by
    obtain ⟨hname, hlisted⟩ := List.forall_mem_cons.1 hlisted
    rw [Body.involved, columnOf_eq_ok hname, Body.involved_eq_ok rest hlisted]
    rfl
  | .fragment kind operands rest, hlisted => by
    obtain ⟨hinner, hlater⟩ := List.forall_mem_append.1 hlisted
    rw [Body.involved, Operands.involved_eq_ok operands hinner, Body.involved_eq_ok rest hlater,
      Body.named, List.map_append]
    rfl

theorem Operands.involved_eq_ok : ∀ (operands : Operands),
    (∀ name ∈ operands.named, name ∈ participants.map Participant.name) →
      operands.involved participants = .ok (operands.named.map (columnIn participants))
  | .none, _ => rfl
  | .cons guard body rest, hlisted => by
    obtain ⟨hinner, hlater⟩ := List.forall_mem_append.1 hlisted
    rw [Operands.involved, Body.involved_eq_ok body hinner, Operands.involved_eq_ok rest hlater,
      Operands.named, List.map_append]
    rfl

end

end Involved

namespace Spacing

/-- No row goes upwards, whatever the height of its label. -/
def Descends (spacing : Spacing ℚ) (measure : String → Size ℚ) : Prop :=
  ∀ signal, 0 ≤ larger spacing.rowHeight
    ((Columns.signalSize measure signal).height + Distance.labelGap + Distance.labelGap * 2)

theorem descends_of_rowHeight {spacing : Spacing ℚ} (hrow : 0 ≤ spacing.rowHeight)
    (measure : String → Size ℚ) : spacing.Descends measure := by
  intro signal
  rw [larger_eq_max]
  exact hrow.trans (le_max_left _ _)

theorem descends_of_height (spacing : Spacing ℚ) {measure : String → Size ℚ}
    (hheight : ∀ text, 0 ≤ (measure text).height) : spacing.Descends measure := by
  intro signal
  have hlabel := Columns.signalSize_height_nonneg hheight signal
  rw [larger_eq_max]
  refine le_trans ?_ (le_max_right _ _)
  simp only [Distance.labelGap]
  linarith

end Spacing

namespace Grid

variable {grid : Grid ℚ}

theorem labelBand_eq (grid : Grid ℚ) (signal : Signal) :
    grid.labelBand signal = (Columns.signalSize grid.measure signal).height + Distance.labelGap := by
  rw [labelBand, Columns.signalSize]
  split <;> simp

/-- The columns of the boxes stand in order, and rows do not go upwards. -/
structure Usable (grid : Grid ℚ) : Prop where
  columns : grid.columns.Ordered grid.participants.length
  descends : grid.spacing.Descends grid.measure

/-- Every name is that of a participant. -/
def Lists (grid : Grid ℚ) (names : List String) : Prop :=
  ∀ name ∈ names, name ∈ grid.participants.map Participant.name

/-- The columns that a fragment extends over, but for those between them. -/
def reach (grid : Grid ℚ) (operands : Operands) : List Nat :=
  if operands.named = [] then List.range grid.participants.length
  else operands.named.map (columnIn grid.participants)

theorem lt_of_mem_reach {operands : Operands} (hlisted : grid.Lists operands.named) {i : Nat}
    (hi : i ∈ grid.reach operands) : i < grid.participants.length := by
  unfold reach at hi
  split at hi
  · exact List.mem_range.1 hi
  · obtain ⟨name, hname, rfl⟩ := List.mem_map.1 hi
    exact columnIn_lt (hlisted name hname)

theorem extent?_eq_ok (husable : grid.Usable) {operands : Operands}
    (hlisted : grid.Lists operands.named) :
    ∃ extent, grid.extent? operands = .ok extent ∧
      (extent = none → grid.participants = []) ∧
      ∀ low high, extent = some (low, high) → IsLeast {i | i ∈ grid.reach operands} low ∧
        IsGreatest {i | i ∈ grid.reach operands} high := by
  have hcolumns : (if (operands.named.map (columnIn grid.participants)).isEmpty then
      List.range grid.columns.centers.length else operands.named.map (columnIn grid.participants)) =
      grid.reach operands := by
    rw [husable.columns.centers, reach]
    cases operands.named <;> simp
  simp only [extent?, Operands.involved_eq_ok operands hlisted, bind, Except.bind, hcolumns]
  cases hreach : grid.reach operands with
  | nil =>
    refine ⟨none, rfl, fun _ => ?_, nofun⟩
    unfold reach at hreach
    split at hreach
    · simpa using hreach
    · next hnamed => exact absurd (List.map_eq_nil_iff.1 hreach) hnamed
  | cons first rest =>
    refine ⟨_, rfl, nofun, fun low high hextent => ?_⟩
    cases hextent
    have hmin : (first :: rest).min? = some (rest.foldl min first) := List.min?_cons'
    have hmax : (first :: rest).max? = some (rest.foldl max first) := List.max?_cons'
    exact ⟨List.min?_eq_some_iff.1 hmin, List.max?_eq_some_iff.1 hmax⟩

/-- The edges that a fragment has from where it stands, whatever its header and what lies in it: from
    the columns it extends over, or from its depth in a diagram without columns. -/
def Spans (grid : Grid ℚ) (fragment : Fragment) (left right : ℚ) : Prop :=
  (∃ low high, IsLeast {i | i ∈ grid.reach fragment.operands} low ∧
      IsGreatest {i | i ∈ grid.reach fragment.operands} high ∧
      left = grid.columns.leftEdge low -
        Distance.fragmentPad * ofCount (fragment.operands.depth + 1) ∧
      right = grid.columns.rightEdge high +
        Distance.fragmentPad * ofCount (fragment.operands.depth + 1)) ∨
    grid.participants = [] ∧
      left = grid.spacing.padding + Distance.fragmentPad * ofCount fragment.depth

/-- How far the header of a fragment reaches. -/
def headerEnd (grid : Grid ℚ) (fragment : Fragment) (left : ℚ) : ℚ :=
  left + (grid.measure (Label.header fragment.kind fragment.operands.label)).width +
    Distance.tabPad * 2

/-- A box is that of a fragment. -/
structure Frames (grid : Grid ℚ) (fragment : Fragment) (box : FragmentBox ℚ) : Prop where
  kind : box.kind = fragment.kind
  label : box.label = fragment.operands.label
  depth : box.depth = fragment.depth
  spans : ∃ right, grid.Spans fragment box.x right ∧
    box.x + box.width = max right (grid.headerEnd fragment box.x)

theorem edges_eq_ok (husable : grid.Usable) (kind : String) {operands : Operands}
    (hlisted : grid.Lists operands.named) (depth : Nat) (inner : List (FragmentBox ℚ)) :
    ∃ left right, grid.edges operands depth inner = .ok (left, right) ∧
      grid.Spans ⟨depth, kind, operands⟩ left right ∧
      (grid.participants = [] → ∀ child ∈ inner, child.depth = depth + 1 →
        child.x + child.width + Distance.fragmentPad ≤ right) := by
  obtain ⟨extent, hextent, hnone, hsome⟩ := extent?_eq_ok husable hlisted
  simp only [edges, hextent, bind, Except.bind]
  cases extent with
  | some columns =>
    obtain ⟨low, high⟩ := columns
    obtain ⟨hlow, hhigh⟩ := hsome low high rfl
    refine ⟨_, _, rfl, .inl ⟨low, high, hlow, hhigh, rfl, rfl⟩, fun hparticipants => ?_⟩
    have hlow := lt_of_mem_reach hlisted hlow.1
    rw [hparticipants] at hlow
    cases hlow
  | none =>
    refine ⟨_, _, rfl, .inr ⟨hnone rfl, rfl⟩, fun _ child hchild hdepth => ?_⟩
    have hmem : child ∈ inner.filter fun child => child.depth = depth + 1 :=
      List.mem_filter.2 ⟨hchild, by simpa using hdepth⟩
    exact (foldl_larger_ge (fun child : FragmentBox ℚ => child.x + child.width + Distance.fragmentPad)
      (grid.spacing.padding + Distance.fragmentPad * ofCount depth) _).2 child hmem

theorem fragmentBox_eq_ok (husable : grid.Usable) (kind : String) {operands : Operands}
    (hlisted : grid.Lists operands.named) (depth : Nat) (top bottom : ℚ)
    (dividers : List (Divider ℚ)) (inner : List (FragmentBox ℚ)) :
    ∃ box, grid.fragmentBox kind operands depth top bottom dividers inner = .ok box ∧
      box.y = top ∧ box.y + box.height = bottom ∧ box.dividers = dividers ∧
      grid.Frames ⟨depth, kind, operands⟩ box ∧
      (grid.participants = [] → ∀ child ∈ inner, child.depth = depth + 1 →
        child.x + child.width + Distance.fragmentPad ≤ box.x + box.width) := by
  obtain ⟨left, right, hedges, hspans, hchildren⟩ := edges_eq_ok husable kind hlisted depth inner
  have hwidth (header : ℚ) : left + (larger right header - left) = max right header := by
    rw [add_sub_cancel, larger_eq_max]
  simp only [fragmentBox, hedges, bind, Except.bind]
  refine ⟨_, rfl, rfl, add_sub_cancel _ _, rfl, ⟨rfl, rfl, rfl, right, hspans, hwidth _⟩, ?_⟩
  intro hparticipants child hchild hdepth
  rw [hwidth]
  exact (hchildren hparticipants child hchild hdepth).trans (le_max_left _ _)

/-- The columns that a fragment extends over lie between those that another one extends over. -/
def Covers (grid : Grid ℚ) (outer inner : Fragment) : Prop :=
  ∀ i ∈ grid.reach inner.operands,
    (∃ j ∈ grid.reach outer.operands, j ≤ i) ∧ ∃ j ∈ grid.reach outer.operands, i ≤ j

theorem Spans.left_of_nil {fragment : Fragment} {left right : ℚ}
    (hlisted : grid.Lists fragment.operands.named) (hparticipants : grid.participants = [])
    (hspans : grid.Spans fragment left right) :
    left = grid.spacing.padding + Distance.fragmentPad * ofCount fragment.depth := by
  obtain ⟨low, _, hlow, _⟩ | ⟨_, hleft⟩ := hspans
  · have hcolumn := lt_of_mem_reach hlisted hlow.1
    rw [hparticipants] at hcolumn
    cases hcolumn
  · exact hleft

theorem Spans.of_ne_nil {fragment : Fragment} {left right : ℚ}
    (hparticipants : grid.participants ≠ []) (hspans : grid.Spans fragment left right) :
    ∃ low high, IsLeast {i | i ∈ grid.reach fragment.operands} low ∧
      IsGreatest {i | i ∈ grid.reach fragment.operands} high ∧
      left = grid.columns.leftEdge low -
        Distance.fragmentPad * ofCount (fragment.operands.depth + 1) ∧
      right = grid.columns.rightEdge high +
        Distance.fragmentPad * ofCount (fragment.operands.depth + 1) :=
  hspans.resolve_right fun hnil => hparticipants hnil.1

/-- A box of a fragment that lies directly in another one starts on the right of the start of the box
    of that one, and only its header may keep it from ending on the left of the end. -/
theorem Frames.sides (husable : grid.Usable) {outer inner : Fragment} {box child : FragmentBox ℚ}
    (houter : grid.Frames outer box) (hinner : grid.Frames inner child)
    (hlisted : grid.Lists outer.operands.named) (hdepth : inner.depth = outer.depth + 1)
    (hinside : inner ∈ outer.operands.fragments (outer.depth + 1))
    (halone : grid.participants = [] →
      child.x + child.width + Distance.fragmentPad ≤ box.x + box.width)
    (hcovers : grid.Covers outer inner) :
    box.x < child.x ∧ (child.x + child.width < box.x + box.width ↔
      grid.headerEnd inner child.x < box.x + box.width) := by
  obtain ⟨hnamed, hnesting⟩ := Operands.inside outer.operands hinside
  have hinnerListed : grid.Lists inner.operands.named := fun name hname => hlisted name (hnamed hname)
  obtain ⟨right, hspans, hwidth⟩ := houter.spans
  obtain ⟨innerRight, hinnerSpans, hinnerWidth⟩ := hinner.spans
  have hend : right ≤ box.x + box.width := hwidth ▸ le_max_left _ _
  have hsides : box.x < child.x ∧ innerRight < box.x + box.width := by
    by_cases hparticipants : grid.participants = []
    · have hleft := hspans.left_of_nil hlisted hparticipants
      have hinnerLeft := hinnerSpans.left_of_nil hinnerListed hparticipants
      have hinnerEnd : innerRight ≤ child.x + child.width := hinnerWidth ▸ le_max_left _ _
      have hchild := halone hparticipants
      rw [hdepth] at hinnerLeft
      simp only [Distance.fragmentPad, ofCount_eq_cast, Nat.cast_succ] at hleft hinnerLeft hchild
      constructor <;> linarith
    · obtain ⟨low, high, hlow, hhigh, hleft, hright⟩ := hspans.of_ne_nil hparticipants
      obtain ⟨innerLow, innerHigh, hinnerLow, hinnerHigh, hinnerLeft, hinnerRight⟩ :=
        hinnerSpans.of_ne_nil hparticipants
      obtain ⟨⟨i, hi, hilow⟩, _⟩ := hcovers innerLow hinnerLow.1
      obtain ⟨_, j, hj, hjhigh⟩ := hcovers innerHigh hinnerHigh.1
      have hfirst := husable.columns.left low innerLow ((hlow.2 hi).trans hilow)
        (lt_of_mem_reach hinnerListed hinnerLow.1)
      have hlast := husable.columns.right innerHigh high (hjhigh.trans (hhigh.2 hj))
        (lt_of_mem_reach hlisted hhigh.1)
      have hinset : (inner.operands.depth : ℚ) < outer.operands.depth := Nat.cast_lt.2 hnesting
      simp only [Distance.fragmentPad, ofCount_eq_cast, Nat.cast_succ]
        at hleft hright hinnerLeft hinnerRight
      constructor <;> linarith
  refine ⟨hsides.1, ?_⟩
  rw [hinnerWidth, max_lt_iff]
  exact and_iff_right hsides.2

end Grid

end SequenceChart
