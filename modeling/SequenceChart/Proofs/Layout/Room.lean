import Mathlib.Algebra.BigOperators.Intervals
import Mathlib.Algebra.Order.BigOperators.Group.Finset
import SequenceChart.Proofs.Layout.Columns

namespace SequenceChart

open Distance

namespace Columns

section Gaps

/-- The distance that gaps add up to between two columns. -/
def room (gaps : List ℚ) (low high : Nat) : ℚ :=
  ∑ i ∈ Finset.Ico low high, gaps.getD i 0

theorem room_succ (gaps : List ℚ) {low high : Nat} (hle : low ≤ high) :
    room gaps low (high + 1) = room gaps low high + gaps.getD high 0 :=
  Finset.sum_Ico_succ_top hle _

theorem Widened.room_le {narrow wide : List ℚ} (hwidened : Widened narrow wide) (low high : Nat) :
    room narrow low high ≤ room wide low high :=
  Finset.sum_le_sum fun i _ => hwidened.le i

theorem total_eq_sum (xs : List ℚ) : total xs = xs.sum :=
  List.sum_eq_foldl.symm

theorem total_take_drop (gaps : List ℚ) {low high : Nat} (hle : low ≤ high) :
    total ((gaps.drop low).take (high - low)) = room gaps low high := by
  rw [total_eq_sum]
  induction high, hle using Nat.le_induction with
  | base => simp [room]
  | succ high hle ih =>
    rw [room_succ gaps hle, ← ih, Nat.succ_sub hle, List.take_add_one, List.sum_append, List.getElem?_drop,
      Nat.add_sub_cancel' hle, List.getD_eq_getElem?_getD]
    cases gaps[high]? <;> simp

/-- Two columns can be as far apart as a signal between them needs. -/
def Allows (span : Span ℚ) (gaps : List ℚ) : Prop :=
  span.need ≤ room gaps span.low span.high

theorem Allows.mono {span : Span ℚ} {narrow wide : List ℚ} (hwidened : Widened narrow wide)
    (hallows : Allows span narrow) : Allows span wide :=
  hallows.trans (hwidened.room_le span.low span.high)

theorem allows_widen {span : Span ℚ} {gaps : List ℚ} (hlow : span.low < span.high)
    (hhigh : span.high ≤ gaps.length) : Allows span (widen gaps span) := by
  obtain ⟨low, high, need⟩ := span
  obtain ⟨last, rfl⟩ := Nat.exists_eq_succ_of_ne_zero (Nat.ne_zero_of_lt hlow)
  have hle : low ≤ last := Nat.le_of_lt_succ hlow
  simp only [widen, Allows, total_take_drop gaps hlow.le, Nat.succ_eq_add_one, Nat.add_sub_cancel]
  split
  · -- Only the last gap of the span grows, by just what the span lacks.
    have hfront : room (gaps.modify last (· + (need - room gaps low (last + 1)))) low last =
        room gaps low last := by
      refine Finset.sum_congr rfl fun i hi => ?_
      have hne : last ≠ i := (Finset.mem_Ico.1 hi).2.ne'
      simp [List.getD_eq_getElem?_getD, hne]
    have hlast : (gaps.modify last (· + (need - room gaps low (last + 1)))).getD last 0 =
        gaps.getD last 0 + (need - room gaps low (last + 1)) := by
      simp [List.getD_eq_getElem?_getD, List.getElem?_eq_getElem hhigh]
    rw [room_succ _ hle, hfront, hlast, room_succ gaps hle]
    linarith
  · next henough => exact not_lt.1 henough

/-- What one demand brings about is kept by all later ones. -/
theorem allows_foldl {A : Type} {step : List ℚ → A → List ℚ} {span : Span ℚ} {demand : A} {count : Nat}
    (hstep : ∀ gaps demand, Widened gaps (step gaps demand))
    (hdemand : ∀ gaps, gaps.length = count → Allows span (step gaps demand)) {demands : List A}
    (hmem : demand ∈ demands) {gaps : List ℚ} (hlength : gaps.length = count) :
    Allows span (demands.foldl step gaps) := by
  obtain ⟨front, back, rfl⟩ := List.append_of_mem hmem
  have hfront : (front.foldl step gaps).length = count :=
    (widened_foldl hstep gaps front).length.trans hlength
  rw [List.foldl_append, List.foldl_cons]
  exact (hdemand _ hfront).mono (widened_foldl hstep _ back)

theorem allows_gaps (participantGap : ℚ) {widths : List ℚ} {spans : List (Span ℚ)}
    (overhangs : List (Overhang ℚ)) {span : Span ℚ} (hspan : span ∈ spans) (hlow : span.low < span.high)
    (hhigh : span.high < widths.length) :
    Allows span (gaps participantGap widths spans overhangs) := by
  have hlength : (List.zipWith (gapBetween participantGap) widths (widths.drop 1)).length =
      widths.length - 1 := by
    rw [List.length_zipWith, List.length_drop, Nat.min_eq_right (Nat.sub_le _ _)]
  refine (allows_foldl widened_widen (fun gaps hgaps => allows_widen hlow ?_)
    (List.mem_mergeSort.2 hspan) hlength).mono (widened_foldl widened_clear _ _)
  omega

theorem getD_centersFrom_zero (x : ℚ) (gaps : List ℚ) : (centersFrom x gaps).getD 0 0 = x := by
  cases gaps <;> rfl

theorem getD_centersFrom (x : ℚ) (gaps : List ℚ) {low high : Nat} (hle : low ≤ high)
    (hhigh : high ≤ gaps.length) :
    (centersFrom x gaps).getD high 0 = (centersFrom x gaps).getD low 0 + room gaps low high := by
  induction high, hle using Nat.le_induction with
  | base => simp [room]
  | succ high hle ih =>
    rw [centersFrom_succ hhigh, ih (Nat.le_of_succ_le hhigh), room_succ gaps hle, add_assoc]

theorem Allows.le_abs {gaps : List ℚ} {source target : Nat} {need : ℚ}
    (hallows : Allows ⟨min source target, max source target, need⟩ gaps)
    (hhigh : max source target ≤ gaps.length) (x : ℚ) :
    need ≤ |(centersFrom x gaps).getD target 0 - (centersFrom x gaps).getD source 0| := by
  have hcenters := getD_centersFrom x gaps min_le_max hhigh
  simp only [Allows] at hallows
  obtain hle | hle := le_total source target
  · rw [min_eq_left hle, max_eq_right hle] at hcenters hallows
    rw [hcenters, add_sub_cancel_left]
    exact hallows.trans (le_abs_self _)
  · rw [min_eq_right hle, max_eq_left hle] at hcenters hallows
    rw [abs_sub_comm, hcenters, add_sub_cancel_left]
    exact hallows.trans (le_abs_self _)

end Gaps

/-- The centre of the column of a participant. -/
def centerOf (columns : Columns ℚ) (participants : List Participant) (name : String) : ℚ :=
  columns.centers.getD (columnIn participants name) 0

theorem border_nonneg (depth : Nat) : (0 : ℚ) ≤ fragmentPad * ofCount depth := by
  rw [ofCount_eq_cast]
  positivity

/-- On both sides of the columns there is room for borders, on the right also beside the loops of
    signals. Columns are far enough apart for the labels of signals between them. -/
structure Roomy (columns : Columns ℚ) (measure : String → Size ℚ) (padding border : ℚ)
    (diagram : Diagram) : Prop where
  boxes : ∀ i, 0 ≤ columns.widths.getD i 0
  width : padding ≤ columns.right
  left : ∀ i < diagram.participants.length, padding + border ≤ columns.leftEdge i
  right : ∀ i < diagram.participants.length, columns.rightEdge i + border ≤ columns.right
  apart : ∀ signal ∈ diagram.signals, signal.source ≠ signal.target →
    (signalSize measure signal).width + labelPad * 2 ≤
      |columns.centerOf diagram.participants signal.target -
        columns.centerOf diagram.participants signal.source|
  loops : ∀ signal ∈ diagram.signals, signal.source = signal.target →
    columns.centerOf diagram.participants signal.source +
      (loopWidth + labelGap + (signalSize measure signal).width + labelPad) + border ≤ columns.right

section Spread

/-- Columns of some widths from a point to the right, with the gaps that signals demand, and with room
    for borders behind the last column. -/
def spread (start participantGap border : ℚ) (widths : List ℚ) (spans : List (Span ℚ))
    (overhangs : List (Overhang ℚ)) : Columns ℚ :=
  let centers := centersFrom (start + widths.headD 0 / 2) (gaps participantGap widths spans overhangs)
  { widths, centers
    right := overhangs.foldl
      (fun right overhang => larger right (centers.getD overhang.column 0 + overhang.need))
      (centers.getLastD 0 + widths.getLastD 0 / 2) + border }

variable {start participantGap border : ℚ} {widths : List ℚ} {spans : List (Span ℚ)}
  {overhangs : List (Overhang ℚ)}

theorem spread_ordered (hwidths : ∀ width ∈ widths, 0 ≤ width) (hwidths_ne : widths ≠ []) :
    (spread start participantGap border widths spans overhangs).Ordered widths.length :=
  ordered_of_gaps _ _ participantGap hwidths hwidths_ne (widened_gaps _ _ spans overhangs)

theorem spread_leftEdge_zero :
    (spread start participantGap border widths spans overhangs).leftEdge 0 = start := by
  simp only [leftEdge, spread, getD_centersFrom_zero]
  cases widths <;> simp

theorem getLastD_eq_getD (xs : List ℚ) : xs.getLastD 0 = xs.getD (xs.length - 1) 0 := by
  rw [List.getLastD_eq_getLast?, List.getLast?_eq_getElem?, List.getD_eq_getElem?_getD]

theorem spread_rightEdge_le
    (hordered : (spread start participantGap border widths spans overhangs).Ordered widths.length)
    {i : Nat} (hi : i < widths.length) :
    (spread start participantGap border widths spans overhangs).rightEdge i + border ≤
      (spread start participantGap border widths spans overhangs).right := by
  have hlast := hordered.right i _ (Nat.le_sub_one_of_lt hi) (Nat.sub_one_lt_of_lt hi)
  have hcenters := hordered.centers
  have hstart := (foldl_larger_ge (fun overhang : Overhang ℚ =>
    (spread start participantGap border widths spans overhangs).centers.getD overhang.column 0 +
      overhang.need)
    ((spread start participantGap border widths spans overhangs).rightEdge (widths.length - 1))
    overhangs).1
  have hedge : (spread start participantGap border widths spans overhangs).rightEdge (widths.length - 1) =
      (spread start participantGap border widths spans overhangs).centers.getLastD 0 +
        widths.getLastD 0 / 2 := by
    rw [getLastD_eq_getD, getLastD_eq_getD, hordered.centers]
    rfl
  rw [hedge] at hstart hlast
  exact add_le_add_left (hlast.trans hstart) border

theorem spread_loop (start participantGap border : ℚ) (widths : List ℚ) (spans : List (Span ℚ))
    {overhang : Overhang ℚ} (hoverhang : overhang ∈ overhangs) :
    (spread start participantGap border widths spans overhangs).centers.getD overhang.column 0 +
        overhang.need + border ≤
      (spread start participantGap border widths spans overhangs).right :=
  add_le_add_left ((foldl_larger_ge (fun overhang : Overhang ℚ =>
    (spread start participantGap border widths spans overhangs).centers.getD overhang.column 0 +
      overhang.need) _ overhangs).2 overhang hoverhang) border

theorem spread_apart
    (hordered : (spread start participantGap border widths spans overhangs).Ordered widths.length)
    {source target : Nat} {need : ℚ} (hspan : ⟨min source target, max source target, need⟩ ∈ spans)
    (hne : source ≠ target) (hsource : source < widths.length) (htarget : target < widths.length) :
    need ≤ |(spread start participantGap border widths spans overhangs).centers.getD target 0 -
      (spread start participantGap border widths spans overhangs).centers.getD source 0| := by
  have hhigh := max_lt hsource htarget
  have hallows := allows_gaps participantGap overhangs hspan (min_lt_max.2 hne) hhigh
  have hlength := (length_centersFrom _ _).symm.trans hordered.centers
  exact hallows.le_abs (Nat.le_of_lt_succ (hhigh.trans_eq hlength.symm)) _

theorem roomy_spread {measure : String → Size ℚ} {padding : ℚ} {diagram : Diagram}
    (hlisted : ∀ signal ∈ diagram.signals,
      signal.source ∈ diagram.names ∧ signal.target ∈ diagram.names)
    (hdemanded : ∀ signal ∈ diagram.signals, Demanded measure spans overhangs signal
      (columnIn diagram.participants signal.source) (columnIn diagram.participants signal.target))
    (hcount : widths.length = diagram.participants.length) (hwidths : ∀ width ∈ widths, 0 ≤ width)
    (hwidths_ne : widths ≠ []) (hborder : 0 ≤ border) :
    (spread (padding + border) participantGap border widths spans overhangs).Roomy measure padding
      border diagram := by
  have hcolumn {name : String} (hname : name ∈ diagram.names) :
      columnIn diagram.participants name < widths.length := hcount ▸ columnIn_lt hname
  have hordered : (spread (padding + border) participantGap border widths spans overhangs).Ordered
      widths.length := spread_ordered hwidths hwidths_ne
  have hstart : (spread (padding + border) participantGap border widths spans overhangs).leftEdge 0 =
      padding + border := spread_leftEdge_zero
  have hfirst := spread_rightEdge_le hordered (List.length_pos_iff.2 hwidths_ne)
  refine ⟨getD_nonneg hwidths, ?_, fun i hi => ?_, fun i hi => spread_rightEdge_le hordered (hcount ▸ hi),
    fun signal hsignal hne => ?_, fun signal hsignal heq => ?_⟩
  · have hwidth := getD_nonneg hwidths 0
    simp only [leftEdge, rightEdge, spread] at hstart hfirst ⊢
    linarith
  · exact hstart.symm.trans_le (hordered.left 0 i i.zero_le (hcount ▸ hi))
  · obtain ⟨hsource, htarget⟩ := hlisted signal hsignal
    have hcolumns := mt (columnIn_inj hsource htarget).1 hne
    have hspan := hdemanded signal hsignal
    rw [Demanded, if_neg hcolumns] at hspan
    exact spread_apart hordered hspan hcolumns (hcolumn hsource) (hcolumn htarget)
  · obtain ⟨hsource, htarget⟩ := hlisted signal hsignal
    have hoverhang := hdemanded signal hsignal
    rw [Demanded, if_pos ((columnIn_inj hsource htarget).2 heq)] at hoverhang
    have hloop := spread_loop (padding + border) participantGap border widths spans hoverhang
    exact hloop

end Spread

/-- The columns of a diagram can be placed if its signals are between participants. They stand side
    by side, with enough room. -/
theorem ofDiagram_eq_ok (measure : String → Size ℚ) (spacing : Spacing ℚ) {diagram : Diagram}
    (hsignals : ∀ signal ∈ diagram.signals,
      signal.source ∈ diagram.names ∧ signal.target ∈ diagram.names) :
    ∃ columns, ofDiagram measure spacing diagram = .ok columns ∧
      columns.Ordered diagram.participants.length ∧
      columns.Roomy measure spacing.padding (fragmentPad * ofCount diagram.content.body.depth)
        diagram := by
  obtain ⟨spans, overhangs, hneeds, hdemanded⟩ := demands_eq_ok measure hsignals
  have hwidths : ∀ width ∈ diagram.participants.map (boxWidthOf measure), 0 ≤ width := by
    intro width hwidth
    obtain ⟨participant, _, rfl⟩ := List.mem_map.1 hwidth
    exact boxWidthOf_nonneg measure participant
  have hcount : (diagram.participants.map (boxWidthOf measure)).length = diagram.participants.length :=
    List.length_map _
  simp only [ofDiagram, hneeds, bind, Except.bind]
  cases hmap : diagram.participants.map (boxWidthOf measure) with
  | nil =>
    rw [hmap] at hcount
    have hnone {i : Nat} (hi : i < diagram.participants.length) : False := by simp [← hcount] at hi
    have hsilent : diagram.signals = [] := by
      refine List.eq_nil_iff_forall_not_mem.2 fun signal hsignal => ?_
      exact hnone (columnIn_lt (hsignals signal hsignal).1)
    refine ⟨_, rfl, ⟨hcount, fun _ _ _ hj => (hnone hj).elim, fun _ _ _ hj => (hnone hj).elim⟩,
      getD_nonneg (List.forall_mem_nil _), le_rfl,
      fun _ hi => (hnone hi).elim, fun _ hi => (hnone hi).elim, ?_, ?_⟩
    all_goals
      rw [hsilent]
      exact List.forall_mem_nil _
  | cons first others =>
    rw [hmap] at hwidths hcount
    have hborder := border_nonneg diagram.content.body.depth
    refine ⟨spread (spacing.padding + fragmentPad * ofCount diagram.content.body.depth)
      spacing.participantGap (fragmentPad * ofCount diagram.content.body.depth) (first :: others) spans
      overhangs, rfl, ?_, ?_⟩
    · rw [← hcount]
      exact spread_ordered hwidths (List.cons_ne_nil _ _)
    · exact roomy_spread hsignals hdemanded hcount hwidths (List.cons_ne_nil _ _) hborder

end Columns

end SequenceChart
