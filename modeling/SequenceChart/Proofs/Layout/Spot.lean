import Mathlib.Algebra.Order.Field.Rat
import Mathlib.Tactic.Linarith
import SequenceChart.Layout.Basic
import SequenceChart.Layout.Spacing
import SequenceChart.Proofs.Diagram.Items

namespace SequenceChart

open Distance

namespace SignalRow

/-- The signal that stands in a row. -/
def message (row : SignalRow ℚ) : Signal where
  source := row.source
  target := row.target
  label := row.label
  style := row.style
  hasHead := row.hasHead

/-- Where a row begins: at the upper edge of the label above its line. -/
def top (row : SignalRow ℚ) : ℚ :=
  row.y - labelGap - row.labelHeight

/-- Where a row ends: below its line, and further below if the signal returns to its source. -/
def bottom (row : SignalRow ℚ) : ℚ :=
  row.y + labelGap * 2 + if row.isSelf then loopRow else 0

theorem y_lt_bottom (row : SignalRow ℚ) : row.y < row.bottom := by
  simp only [bottom, labelGap, loopRow]
  split <;> linarith

end SignalRow

/-- The lower edge of the box of a fragment. -/
def FragmentBox.bottom (box : FragmentBox ℚ) : ℚ :=
  box.y + box.height

/-- A signal in its row, or a fragment in its box. -/
inductive Spot where
  | row (row : SignalRow ℚ)
  | box (fragment : Fragment) (box : FragmentBox ℚ)

namespace Spot

/-- What stands in a spot. -/
def item : Spot → Item
  | .row place => .signal place.message
  | .box fragment _ => .fragment fragment

def row? : Spot → Option (SignalRow ℚ)
  | .row place => some place
  | .box _ _ => none

def box? : Spot → Option (FragmentBox ℚ)
  | .row _ => none
  | .box _ place => some place

def fragmentBox? : Spot → Option (Fragment × FragmentBox ℚ)
  | .row _ => none
  | .box fragment place => some (fragment, place)

/-- The upper end of a spot. -/
def top : Spot → ℚ
  | .row place => place.top
  | .box _ place => place.y

/-- The lower end of a spot. -/
def bottom : Spot → ℚ
  | .row place => place.bottom
  | .box _ place => place.bottom

theorem mem_filterMap_row? {spots : List Spot} {place : SignalRow ℚ} :
    place ∈ spots.filterMap row? ↔ .row place ∈ spots := by
  rw [List.mem_filterMap]
  constructor
  · rintro ⟨spot, hspot, hplace⟩
    cases spot with
    | row other => exact Option.some.inj hplace ▸ hspot
    | box fragment other => cases hplace
  · exact fun hspot => ⟨_, hspot, rfl⟩

theorem mem_filterMap_box? {spots : List Spot} {place : FragmentBox ℚ} :
    place ∈ spots.filterMap box? ↔ ∃ fragment, .box fragment place ∈ spots := by
  rw [List.mem_filterMap]
  constructor
  · rintro ⟨spot, hspot, hplace⟩
    cases spot with
    | row other => cases hplace
    | box fragment other => exact ⟨fragment, Option.some.inj hplace ▸ hspot⟩
  · rintro ⟨fragment, hspot⟩
    exact ⟨_, hspot, rfl⟩

theorem mem_filterMap_fragmentBox? {spots : List Spot} {pair : Fragment × FragmentBox ℚ} :
    pair ∈ spots.filterMap fragmentBox? ↔ .box pair.1 pair.2 ∈ spots := by
  rw [List.mem_filterMap]
  constructor
  · rintro ⟨spot, hspot, hpair⟩
    cases spot with
    | row other => cases hpair
    | box fragment other =>
      cases hpair
      exact hspot
  · exact fun hspot => ⟨_, hspot, rfl⟩

theorem map_message_filterMap_row? (spots : List Spot) :
    (spots.filterMap row?).map SignalRow.message = (spots.map item).filterMap Item.signal? := by
  rw [List.map_filterMap, List.filterMap_map]
  congr 1
  funext spot
  cases spot <;> rfl

theorem map_fst_filterMap_fragmentBox? (spots : List Spot) :
    (spots.filterMap fragmentBox?).map Prod.fst = (spots.map item).filterMap Item.fragment? := by
  rw [List.map_filterMap, List.filterMap_map]
  congr 1
  funext spot
  cases spot <;> rfl

theorem map_snd_filterMap_fragmentBox? (spots : List Spot) :
    (spots.filterMap fragmentBox?).map Prod.snd = spots.filterMap box? := by
  rw [List.map_filterMap]
  congr 1
  funext spot
  cases spot <;> rfl

end Spot

/-- The spots of the operands of a fragment are parted by dividers. All operands have a divider
    above, but for the first one of the fragment. -/
structure Divided (isFirst : Bool) (low : ℚ) (dividers : List (Divider ℚ))
    (operands : List (List Spot)) (high : ℚ) : Prop where
  length : dividers.length = operands.length - isFirst.toNat
  between : ∀ divider ∈ dividers, low ≤ divider.y ∧ divider.y + dividerHeight ≤ high
  increasing : dividers.Pairwise fun upper lower => upper.y < lower.y
  above : ∀ k divider, dividers[k]? = some divider →
    ∀ spot ∈ (operands.take (k + isFirst.toNat)).flatten, spot.bottom ≤ divider.y
  below : ∀ k divider, dividers[k]? = some divider →
    ∀ spot ∈ (operands.drop (k + isFirst.toNat)).flatten, divider.y + dividerHeight ≤ spot.top

namespace Divided

theorem none (isFirst : Bool) (low high : ℚ) : Divided isFirst low [] [] high :=
  ⟨by simp, nofun, .nil, nofun, nofun⟩

variable {low middle high : ℚ} {dividers : List (Divider ℚ)} {own : List Spot}
  {operands : List (List Spot)}

/-- The first operand of a fragment has no divider above. -/
theorem first (hlow : low ≤ middle) (hown : ∀ spot ∈ own, spot.bottom ≤ middle)
    (hrest : Divided false middle dividers operands high) :
    Divided true low dividers (own :: operands) high := by
  obtain ⟨hlength, hbetween, hincreasing, habove, hbelow⟩ := hrest
  refine ⟨hlength, fun divider hdivider => ?_, hincreasing, fun k divider hdivider spot hspot => ?_,
    hbelow⟩
  · exact ⟨hlow.trans (hbetween divider hdivider).1, (hbetween divider hdivider).2⟩
  · change spot ∈ own ++ (operands.take k).flatten at hspot
    obtain hspot | hspot := List.mem_append.1 hspot
    · exact (hown spot hspot).trans (hbetween divider (List.mem_of_getElem? hdivider)).1
    · exact habove k divider hdivider spot hspot

/-- Every other operand begins with its divider. -/
theorem next (guard : String) (hlow : low + dividerHeight ≤ middle) (hhigh : middle ≤ high)
    (hown : ∀ spot ∈ own, low + dividerHeight ≤ spot.top ∧ spot.bottom ≤ middle)
    (hothers : ∀ spot ∈ operands.flatten, middle ≤ spot.top)
    (hrest : Divided false middle dividers operands high) :
    Divided false low (⟨low, guard⟩ :: dividers) (own :: operands) high := by
  obtain ⟨hlength, hbetween, hincreasing, habove, hbelow⟩ := hrest
  have hheight : (0 : ℚ) < dividerHeight := by norm_num [dividerHeight]
  refine ⟨congrArg Nat.succ hlength, List.forall_mem_cons.2 ⟨⟨le_rfl, hlow.trans hhigh⟩, ?_⟩,
    List.pairwise_cons.2 ⟨fun divider hdivider => ?_, hincreasing⟩, ?_, ?_⟩
  · exact fun divider hdivider =>
      ⟨by linarith [(hbetween divider hdivider).1], (hbetween divider hdivider).2⟩
  · linarith [(hbetween divider hdivider).1]
  · rintro (_ | k) divider hdivider spot hspot
    · cases hspot
    · change spot ∈ own ++ (operands.take k).flatten at hspot
      obtain hspot | hspot := List.mem_append.1 hspot
      · exact (hown spot hspot).2.trans (hbetween divider (List.mem_of_getElem? hdivider)).1
      · exact habove k divider hdivider spot hspot
  · rintro (_ | k) divider hdivider spot hspot
    · cases hdivider
      obtain hspot | hspot := List.mem_append.1 hspot
      · exact (hown spot hspot).1
      · exact hlow.trans (hothers spot hspot)
    · exact hbelow k divider hdivider spot hspot

end Divided

/-- The box of a fragment begins below the rows in front of it. It holds the spots of the operands
    of the fragment between its header and its lower edge, parted by its dividers. All other spots
    behind it are below it. -/
structure FragmentBox.Encloses (box : FragmentBox ℚ) (front : List Spot)
    (operands : List (List Spot)) (back : List Spot) : Prop where
  height : fragmentHeader + fragmentBottom ≤ box.height
  front : ∀ row, .row row ∈ front → row.bottom ≤ box.y
  top : ∀ spot ∈ operands.flatten, box.y + fragmentHeader ≤ spot.top
  bottom : ∀ spot ∈ operands.flatten, spot.bottom + fragmentBottom ≤ box.bottom
  back : ∀ spot ∈ back, box.bottom ≤ spot.top
  divided : Divided true (box.y + fragmentHeader) box.dividers operands (box.bottom - fragmentBottom)

end SequenceChart
