import SequenceChart.Proofs.Layout.Shift
import SequenceChart.Proofs.Layout.Traced

namespace SequenceChart

/-- The same error, or results that are related. -/
inductive Agree {E A B : Type} (R : A → B → Prop) : Except E A → Except E B → Prop where
  | error (error : E) : Agree R (.error error) (.error error)
  | ok {a : A} {b : B} (hrelated : R a b) : Agree R (.ok a) (.ok b)

namespace Agree

variable {E A B C D : Type} {R : A → B → Prop} {S : C → D → Prop} {x : Except E A} {y : Except E B}

theorem bind (hagree : Agree R x y) {f : A → Except E C} {g : B → Except E D}
    (hnext : ∀ a b, R a b → Agree S (f a) (g b)) : Agree S (x >>= f) (y >>= g) := by
  cases hagree with
  | error error => exact .error error
  | ok hrelated => exact hnext _ _ hrelated

theorem self {P : A → Prop} (hx : ∀ a, x = .ok a → P a) : Agree (fun a b => b = a ∧ P a) x x := by
  cases x with
  | error error => exact .error error
  | ok a => exact .ok ⟨rfl, hx a rfl⟩

theorem of_ok (hagree : Agree R x y) {a : A} (hx : x = .ok a) : ∃ b, y = .ok b ∧ R a b := by
  cases hagree with
  | error error => cases hx
  | ok hrelated =>
    cases hx
    exact ⟨_, rfl, hrelated⟩

end Agree

theorem agree_columnOf (participants : List Participant) (name : String) :
    Agree (fun i j => j = i ∧ i < participants.length) (columnOf participants name)
      (columnOf participants name) :=
  .self fun _ hcolumn => column?_lt (column?_of_columnOf hcolumn)

/-- Distances that let everything drift: what is not in the padding changes only in a direction in
    which places may be anywhere. -/
structure Spacing.Drifts (drift : Drift) (spacing other : Spacing ℚ) : Prop where
  across : drift.across.Moves spacing.padding other.padding
  down : drift.down.Moves spacing.padding other.padding
  participantGap : drift.across.Keeps spacing.participantGap other.participantGap
  rowHeight : drift.down.Keeps spacing.rowHeight other.rowHeight

/-- Columns that move. -/
structure Columns.Drifts (drift : Drift) (columns other : Columns ℚ) : Prop where
  centers : List.Forall₂ drift.across.Moves columns.centers other.centers
  right : drift.across.Moves columns.right other.right
  same : other.widths = columns.widths

variable {drift : Drift}

namespace Columns

theorem demands_columns {measure : String → Size ℚ} {participants : List Participant}
    {signals : List Signal} {spans : List (Span ℚ)} {overhangs : List (Overhang ℚ)}
    (hdemands : demands measure participants signals = .ok (spans, overhangs)) :
    ∀ overhang ∈ overhangs, overhang.column < participants.length := by
  induction signals generalizing spans overhangs with
  | nil =>
    cases hdemands
    exact List.forall_mem_nil _
  | cons signal rest ih =>
    obtain ⟨source, hsource, hdemands⟩ := bind_eq_ok_iff.1 hdemands
    obtain ⟨target, -, hdemands⟩ := bind_eq_ok_iff.1 hdemands
    obtain ⟨⟨others, more⟩, hrest, hdemands⟩ := bind_eq_ok_iff.1 hdemands
    dsimp only at hdemands
    split at hdemands
    · cases hdemands
      exact List.forall_mem_cons.2 ⟨column?_lt (column?_of_columnOf hsource), ih hrest⟩
    · cases hdemands
      exact ih hrest

theorem centersFrom_drifts {shift : Shift} {x y : ℚ} (hstart : shift.Moves x y) {gaps others : List ℚ}
    (hgaps : List.Forall₂ shift.Keeps gaps others) :
    List.Forall₂ shift.Moves (centersFrom x gaps) (centersFrom y others) := by
  induction hgaps generalizing x y with
  | nil => exact .cons hstart .nil
  | cons hgap _ ih => exact .cons hstart (ih (hstart.add hgap))

/-- Without a shift the gaps between columns still are as many. -/
theorem gaps_drifts {shift : Shift} {participantGap other : ℚ}
    (hgap : shift.Keeps participantGap other) (widths : List ℚ) (spans : List (Span ℚ))
    (overhangs : List (Overhang ℚ)) :
    List.Forall₂ shift.Keeps (gaps participantGap widths spans overhangs)
      (gaps other widths spans overhangs) := by
  cases shift with
  | none =>
    refine List.forall₂_iff_get.2 ⟨?_, fun _ _ _ => nofun⟩
    rw [length_gaps, length_gaps]
  | some distance =>
    obtain rfl := hgap distance rfl
    exact List.forall₂_same.2 fun gap _ => .refl _ gap

theorem getLastD_centersFrom (x other : ℚ) (gaps : List ℚ) :
    (centersFrom x gaps).getLastD other = (centersFrom x gaps).getLastD x := by
  cases gaps <;> rfl

/-- The columns of a diagram move with the padding. -/
theorem ofDiagram_agree (measure : String → Size ℚ) {spacing other : Spacing ℚ}
    (hspacing : spacing.Drifts drift other) (diagram : Diagram) :
    Agree (fun columns copy => Drifts drift columns copy ∧
        columns.centers.length = diagram.participants.length)
      (ofDiagram measure spacing diagram) (ofDiagram measure other diagram) := by
  refine (Agree.self fun needs => demands_columns).bind ?_
  rintro ⟨spans, overhangs⟩ _ ⟨rfl, hcolumns⟩
  cases hparticipants : diagram.participants with
  | nil => exact .ok ⟨⟨.nil, hspacing.across, rfl⟩, rfl⟩
  | cons participant rest =>
    have hstart := (hspacing.across.add (.refl _ (Distance.fragmentPad *
      ofCount diagram.content.body.depth))).add (.refl _ (boxWidthOf measure participant / 2))
    have hcenters := centersFrom_drifts hstart (gaps_drifts hspacing.participantGap
      ((participant :: rest).map (boxWidthOf measure)) spans overhangs)
    have hlast := hstart.getLastD hcenters
    rw [← getLastD_centersFrom _ 0, ← getLastD_centersFrom _ 0] at hlast
    refine .ok ⟨⟨hcenters, ?_, rfl⟩, ?_⟩
    · refine (Shift.Moves.foldl_larger ?_ (hlast.add (.refl _ _))).add (.refl _ _)
      refine List.forall₂_same.2 fun overhang hoverhang => ?_
      refine (Shift.moves_getD hcenters ?_).add (.refl _ overhang.need)
      simpa [length_centersFrom, length_gaps, hparticipants] using
        hcolumns overhang hoverhang
    · simp [length_centersFrom, length_gaps]

end Columns

mutual

theorem Body.involved_lt (participants : List Participant) : ∀ (body : Body) {columns : List Nat},
    body.involved participants = .ok columns → ∀ column ∈ columns, column < participants.length
  | .empty, _, hinvolved => by
    cases hinvolved
    exact List.forall_mem_nil _
  | .signal message rest, _, hinvolved => by
    obtain ⟨source, hsource, hinvolved⟩ := bind_eq_ok_iff.1 hinvolved
    obtain ⟨target, htarget, hinvolved⟩ := bind_eq_ok_iff.1 hinvolved
    obtain ⟨others, hrest, hinvolved⟩ := bind_eq_ok_iff.1 hinvolved
    cases hinvolved
    exact List.forall_mem_cons.2 ⟨column?_lt (column?_of_columnOf hsource),
      List.forall_mem_cons.2 ⟨column?_lt (column?_of_columnOf htarget),
        rest.involved_lt participants hrest⟩⟩
  | .activation name starts rest, _, hinvolved => by
    obtain ⟨column, hcolumn, hinvolved⟩ := bind_eq_ok_iff.1 hinvolved
    obtain ⟨others, hrest, hinvolved⟩ := bind_eq_ok_iff.1 hinvolved
    cases hinvolved
    exact List.forall_mem_cons.2 ⟨column?_lt (column?_of_columnOf hcolumn),
      rest.involved_lt participants hrest⟩
  | .fragment kind operands rest, _, hinvolved => by
    obtain ⟨inner, hinner, hinvolved⟩ := bind_eq_ok_iff.1 hinvolved
    obtain ⟨others, hrest, hinvolved⟩ := bind_eq_ok_iff.1 hinvolved
    cases hinvolved
    exact List.forall_mem_append.2 ⟨operands.involved_lt participants hinner,
      rest.involved_lt participants hrest⟩

theorem Operands.involved_lt (participants : List Participant) : ∀ (operands : Operands)
    {columns : List Nat},
    operands.involved participants = .ok columns → ∀ column ∈ columns, column < participants.length
  | .none, _, hinvolved => by
    cases hinvolved
    exact List.forall_mem_nil _
  | .cons guard body rest, _, hinvolved => by
    obtain ⟨inner, hinner, hinvolved⟩ := bind_eq_ok_iff.1 hinvolved
    obtain ⟨others, hrest, hinvolved⟩ := bind_eq_ok_iff.1 hinvolved
    cases hinvolved
    exact List.forall_mem_append.2 ⟨body.involved_lt participants hinner,
      rest.involved_lt participants hrest⟩

end

end SequenceChart
