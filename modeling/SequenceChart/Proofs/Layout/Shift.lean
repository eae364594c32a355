import Mathlib.Data.List.Forall2
import Mathlib.Tactic.Ring
import SequenceChart.Layout.Rows
import SequenceChart.Proofs.Layout.Columns

namespace SequenceChart

/-- How far places move in one direction, if they all move equally far. -/
abbrev Shift := Option ℚ

namespace Shift

variable (shift : Shift)

/-- A place that moves by a shift. Without one it may be anywhere. -/
def Moves (place other : ℚ) : Prop :=
  ∀ distance ∈ shift, other = place + distance

/-- An extent that a shift keeps. Without a shift it may be any. -/
def Keeps (extent other : ℚ) : Prop :=
  ∀ _ ∈ shift, other = extent

/-- The shift by twice the distance. -/
def twice : Shift :=
  shift.map (2 * ·)

variable {shift} {place other near far extent same low high : ℚ}

theorem Keeps.refl (shift : Shift) (extent : ℚ) : shift.Keeps extent extent :=
  fun _ _ => rfl

theorem Keeps.map (f : ℚ → ℚ) (hkeeps : shift.Keeps extent same) : shift.Keeps (f extent) (f same) :=
  fun distance hshift => congrArg f (hkeeps distance hshift)

theorem moves_by (distance place : ℚ) : Moves (some distance) place (place + distance) := by
  rintro _ ⟨rfl⟩
  rfl

theorem moves_zero (place : ℚ) : Moves (some 0) place place := by
  rintro _ ⟨rfl⟩
  exact (add_zero place).symm

theorem Moves.add (hplace : shift.Moves place other) (hextent : shift.Keeps extent same) :
    shift.Moves (place + extent) (other + same) := by
  intro distance hshift
  rw [hplace distance hshift, hextent distance hshift]
  ring

theorem Moves.sub (hplace : shift.Moves place other) (hextent : shift.Keeps extent same) :
    shift.Moves (place - extent) (other - same) := by
  intro distance hshift
  rw [hplace distance hshift, hextent distance hshift]
  ring

/-- What lies between two places that move together is kept. -/
theorem Moves.between (hplace : shift.Moves place other) (hnear : shift.Moves near far) :
    shift.Keeps (place - near) (other - far) := by
  intro distance hshift
  rw [hplace distance hshift, hnear distance hshift]
  ring

theorem Moves.add_moves (hplace : shift.Moves place other) (hnear : shift.Moves near far) :
    shift.twice.Moves (place + near) (other + far) := by
  rintro _ htwice
  obtain ⟨distance, hshift, rfl⟩ := Option.mem_map.1 htwice
  rw [hplace distance hshift, hnear distance hshift]
  ring

/-- An extent between two paddings. -/
theorem Moves.padded (hplace : shift.Moves place other) (extent : ℚ) :
    shift.twice.Moves (extent + place * 2) (extent + other * 2) := by
  rintro _ htwice
  obtain ⟨distance, hshift, rfl⟩ := Option.mem_map.1 htwice
  rw [hplace distance hshift]
  ring

theorem Moves.half (hplace : shift.twice.Moves place other) (extent : ℚ) :
    shift.Moves ((place - extent) / 2) ((other - extent) / 2) := by
  intro distance hshift
  rw [hplace (2 * distance) (Option.mem_map_of_mem _ hshift)]
  ring

/-- The order of two places that move together stays, and decides in the same way. -/
theorem Moves.ite_lt (hplace : shift.Moves place other) (hnear : shift.Moves near far)
    {first second third fourth : ℚ} (hfirst : shift.Moves first second)
    (hthird : shift.Moves third fourth) :
    shift.Moves (if place < near then first else third) (if other < far then second else fourth) := by
  intro distance hshift
  rw [hplace distance hshift, hnear distance hshift, hfirst distance hshift, hthird distance hshift]
  -- Both sides of the comparison have moved by the same distance, which cancels.
  simp only [add_lt_add_iff_right]
  split <;> rfl

theorem Moves.larger (hplace : shift.Moves place other) (hnear : shift.Moves near far) :
    shift.Moves (larger place near) (larger other far) :=
  hplace.ite_lt hnear hnear hplace

theorem Moves.getD (hplace : shift.Moves place other) {first second : Option ℚ}
    (hoption : Option.Rel shift.Moves first second) :
    shift.Moves (first.getD place) (second.getD other) := by
  cases hoption with
  | none => exact hplace
  | some hsome => exact hsome

theorem Moves.foldl_larger {A B : Type} {f : A → ℚ} {g : B → ℚ} {items : List A} {others : List B}
    (hitems : List.Forall₂ (fun item other => shift.Moves (f item) (g other)) items others)
    (hplace : shift.Moves place other) :
    shift.Moves (items.foldl (fun right item => SequenceChart.larger right (f item)) place)
      (others.foldl (fun right item => SequenceChart.larger right (g item)) other) := by
  induction hitems generalizing place other with
  | nil => exact hplace
  | cons hitem _ ih => exact ih (hplace.larger hitem)

variable {places others : List ℚ}

theorem Moves.getLastD (hplace : shift.Moves place other)
    (hplaces : List.Forall₂ shift.Moves places others) :
    shift.Moves (places.getLastD place) (others.getLastD other) := by
  induction hplaces generalizing place other with
  | nil => exact hplace
  | cons hnext _ ih =>
    rw [List.getLastD_cons, List.getLastD_cons]
    exact ih hnext

theorem moves_getD (hplaces : List.Forall₂ shift.Moves places others) {i : Nat}
    (hi : i < places.length) : shift.Moves (places.getD i 0) (others.getD i 0) := by
  have hother : i < others.length := hplaces.length_eq ▸ hi
  rw [List.getD_eq_getElem?_getD, List.getD_eq_getElem?_getD, List.getElem?_eq_getElem hi,
    List.getElem?_eq_getElem hother]
  exact hplaces.get hi hother

end Shift

/-- How far everything in a layout moves to the right and down. -/
structure Drift where
  across : Shift
  down : Shift

section Parts

variable (drift : Drift)

/-- A title that moves, and nothing else about it changes. -/
structure TitleBox.Drifts (box other : TitleBox ℚ) : Prop where
  x : drift.across.Moves box.x other.x
  y : drift.down.Moves box.y other.y
  same : other = { box with x := other.x, y := other.y }

/-- A participant that moves, and nothing else about it changes. -/
structure ParticipantBox.Drifts (box other : ParticipantBox ℚ) : Prop where
  x : drift.across.Moves box.x other.x
  y : drift.down.Moves box.y other.y
  same : other = { box with x := other.x, y := other.y }

/-- A lifeline that moves, and nothing else about it changes. -/
structure Lifeline.Drifts (line other : Lifeline ℚ) : Prop where
  x : drift.across.Moves line.x other.x
  top : drift.down.Moves line.top other.top
  bottom : drift.down.Moves line.bottom other.bottom
  same : other = { line with x := other.x, top := other.top, bottom := other.bottom }

/-- A signal that moves, and nothing else about it changes. -/
structure SignalRow.Drifts (row other : SignalRow ℚ) : Prop where
  startX : drift.across.Moves row.startX other.startX
  endX : drift.across.Moves row.endX other.endX
  y : drift.down.Moves row.y other.y
  same : other = { row with startX := other.startX, endX := other.endX, y := other.y }

/-- An activation that moves, and nothing else about it changes. -/
structure ActivationBar.Drifts (bar other : ActivationBar ℚ) : Prop where
  x : drift.across.Moves bar.x other.x
  top : drift.down.Moves bar.top other.top
  bottom : drift.down.Moves bar.bottom other.bottom
  same : other = { bar with x := other.x, top := other.top, bottom := other.bottom }

/-- A divider that moves, and nothing else about it changes. -/
structure Divider.Drifts (divider other : Divider ℚ) : Prop where
  y : drift.down.Moves divider.y other.y
  same : other = { divider with y := other.y }

/-- A fragment that moves with its dividers, and nothing else about it changes. Its extent need only
    be kept in a direction in which everything moves equally far. -/
structure FragmentBox.Drifts (box other : FragmentBox ℚ) : Prop where
  x : drift.across.Moves box.x other.x
  y : drift.down.Moves box.y other.y
  width : drift.across.Keeps box.width other.width
  height : drift.down.Keeps box.height other.height
  dividers : List.Forall₂ (Divider.Drifts drift) box.dividers other.dividers
  same : other = { box with
    x := other.x, y := other.y, width := other.width, height := other.height
    dividers := other.dividers }

variable {drift} in
theorem FragmentBox.Drifts.depth {box other : FragmentBox ℚ} (hbox : box.Drifts drift other) :
    other.depth = box.depth := by
  rw [hbox.same]

/-- A layout in which everything moves and nothing else changes. Its extents change by twice the
    shift, since the padding is on both sides. -/
structure Layout.Drifts (layout other : Layout ℚ) : Prop where
  width : drift.across.twice.Moves layout.width other.width
  height : drift.down.twice.Moves layout.height other.height
  title : Option.Rel (TitleBox.Drifts drift) layout.title other.title
  participants : List.Forall₂ (ParticipantBox.Drifts drift) layout.participants other.participants
  lifelines : List.Forall₂ (Lifeline.Drifts drift) layout.lifelines other.lifelines
  signals : List.Forall₂ (SignalRow.Drifts drift) layout.signals other.signals
  activations : List.Forall₂ (ActivationBar.Drifts drift) layout.activations other.activations
  fragments : List.Forall₂ (FragmentBox.Drifts drift) layout.fragments other.fragments

end Parts

end SequenceChart
