import Mathlib
import SequenceChart.Font
import SequenceChart.Proofs.Diagram.WellFormed
import SequenceChart.Proofs.Layout.Composed

namespace SequenceChart

/-- A fragment refers to a participant, or else the one around it extends over all columns. -/
def Diagram.Reaches (diagram : Diagram) (outer inner : Fragment) : Prop :=
  inner.operands.named ≠ [] ∨ outer.operands.named = [] ∨
    ∃ first last, diagram.names.head? = some first ∧ diagram.names.getLast? = some last ∧
      first ∈ outer.operands.named ∧ last ∈ outer.operands.named

theorem Diagram.Reaches.covers {diagram : Diagram} {outer inner : Fragment} {grid : Grid ℚ}
    (hreaches : diagram.Reaches outer inner) (hgrid : grid.participants = diagram.participants)
    (hdistinct : diagram.names.Nodup) (hlisted : grid.Lists inner.operands.named)
    (hnamed : inner.operands.named ⊆ outer.operands.named) : grid.Covers outer inner := by
  intro i hi
  have hlt := Grid.lt_of_mem_reach hlisted hi
  obtain hsome | hnone | ⟨first, last, hfirst, hlast, hfirstNamed, hlastNamed⟩ := hreaches
  · -- The columns of what the inner fragment refers to are among those of the outer one.
    have houter : outer.operands.named ≠ [] := fun hnil =>
      hsome (List.subset_nil.1 (hnil ▸ hnamed))
    have hmem : i ∈ grid.reach outer.operands := by
      rw [Grid.reach, if_neg hsome] at hi
      rw [Grid.reach, if_neg houter]
      exact List.map_subset _ hnamed hi
    exact ⟨⟨i, hmem, le_rfl⟩, i, hmem, le_rfl⟩
  · have hmem : i ∈ grid.reach outer.operands := by
      rw [Grid.reach, if_pos hnone]
      exact List.mem_range.2 hlt
    exact ⟨⟨i, hmem, le_rfl⟩, i, hmem, le_rfl⟩
  · have hmem {name : String} (hname : name ∈ outer.operands.named) :
        columnIn grid.participants name ∈ grid.reach outer.operands := by
      rw [Grid.reach, if_neg (List.ne_nil_of_mem hname)]
      exact List.mem_map_of_mem hname
    rw [Diagram.names, ← hgrid] at hfirst hlast hdistinct
    refine ⟨⟨_, hmem hfirstNamed, ?_⟩, _, hmem hlastNamed, ?_⟩
    · obtain ⟨participant, rest, hparticipants⟩ := List.exists_cons_of_length_pos (Nat.zero_lt_of_lt hlt)
      rw [hparticipants] at hfirst hdistinct ⊢
      obtain rfl : participant.name = first := by simpa using hfirst
      rw [columnIn_head hdistinct]
      exact Nat.zero_le i
    · obtain hnil | ⟨front, participant, hparticipants⟩ := List.eq_nil_or_concat grid.participants
      · simp [hnil] at hlt
      · rw [hparticipants, List.concat_eq_append] at hlast hlt ⊢
        obtain rfl : participant.name = last := by simpa using hlast
        rw [columnIn_last]
        rw [List.length_append, List.length_singleton] at hlt
        omega

namespace Layout

/-- In the layout of every text the box of a fragment comes in front of the boxes of those inside it,
    and holds the boxes of those that lie in it directly: it begins above and ends below them. If
    such a fragment refers to a participant, or else the one around it extends over all columns, the
    box also begins on the left, and ends on the right unless the header of the fragment inside is
    too long for it. -/
theorem ofText_nested (measure : String → Size ℚ) (text : String) :
    ∃ diagram problems layout placed, Diagram.ofText text = .ok (diagram, problems) ∧
      ofDiagram measure (Spacing.ofOptions {}) diagram = .ok layout ∧ layout.Draws diagram placed ∧
      ∀ front outer rest, placed = front ++ outer :: rest → ∃ inside back, rest = inside ++ back ∧
        inside.map Prod.fst = outer.1.operands.fragments (outer.1.depth + 1) ∧
        ∀ inner ∈ inside, inner.1.depth = outer.1.depth + 1 →
          outer.2.y < inner.2.y ∧
          inner.2.y + inner.2.height < outer.2.y + outer.2.height ∧
          (diagram.Reaches outer.1 inner.1 → outer.2.x < inner.2.x ∧
            (inner.2.x + inner.2.width < outer.2.x + outer.2.width ↔
              inner.2.x + (measure (Label.header inner.2.kind inner.2.label)).width + 32 <
                outer.2.x + outer.2.width)) := by
  let diagram := ((TokenLine.statements (TokenLine.ofText text)).foldl Builder.after
    (Builder.ofDiagram {})).diagram
  have hformed : diagram.WellFormed := Diagram.foldl_after_ofText_wellFormed text
  have hrow : 0 ≤ (Spacing.ofOptions ({} : Options ℚ)).rowHeight := by norm_num [Spacing.ofOptions]
  obtain ⟨layout, placed, columns, hlayout, hdraws, hnested⟩ :=
    ofDiagram_eq_ok measure hrow hformed.refers
  refine ⟨diagram, _, layout, placed, Diagram.ofText_eq_ok text, hlayout, hdraws, ?_⟩
  intro front outer rest hsplit
  obtain ⟨inside, back, rfl, hinside, hholds⟩ := hnested front outer rest hsplit
  refine ⟨inside, back, rfl, hinside, fun inner hmem hdepth => ?_⟩
  obtain ⟨hbelow, habove, hsides⟩ := hholds inner hmem hdepth
  refine ⟨hbelow, habove, fun hreaches => ?_⟩
  have houter : outer.1 ∈ diagram.content.body.fragments 0 := by
    rw [← hdraws.fragments, hsplit]
    simp
  have hinner : inner.1 ∈ outer.1.operands.fragments (outer.1.depth + 1) := by
    rw [← hinside]
    exact List.mem_map_of_mem hmem
  have hnamed := (Operands.inside outer.1.operands hinner).1
  have hlisted : ∀ name ∈ inner.1.operands.named, name ∈ diagram.names := fun name hname =>
    hformed.refers name ((Body.inside diagram.content.body houter).1 (hnamed hname))
  obtain ⟨hleft, hright⟩ := hsides (hreaches.covers rfl hformed.distinct hlisted hnamed)
  obtain ⟨hkind, hlabel, _⟩ := hdraws.same inner (by simp [hsplit, hmem])
  have hheader : inner.2.x + (measure (Label.header inner.2.kind inner.2.label)).width + 32 =
      Grid.headerEnd ⟨diagram.participants, columns, Spacing.ofOptions {}, measure⟩ inner.1 inner.2.x := by
    rw [hkind, hlabel, Grid.headerEnd]
    norm_num [Distance.tabPad]
  rw [hheader]
  exact ⟨hleft, hright⟩

set_option maxRecDepth 4000 in
/-- The header of a fragment can be so long that its box ends on the right of the one around it. -/
theorem ofText_nested_longHeader :
    ∃ diagram layout outer inner, Diagram.ofText
        "loop\nopt a condition that takes many words to say\nA -> B\nend\nend" = .ok (diagram, []) ∧
      (∀ text, 0 ≤ (evenSize (7 : ℚ) 15 text).width ∧ 0 ≤ (evenSize (7 : ℚ) 15 text).height) ∧
      ofDiagram (evenSize (7 : ℚ) 15) (Spacing.ofOptions {}) diagram = .ok layout ∧
      layout.fragments = [outer, inner] ∧ inner.depth = outer.depth + 1 ∧
      outer.x + outer.width < inner.x + inner.width := by
  let signal : Signal := ⟨"A", "B", "", .solid, true⟩
  let inside : Operands := .cons "a condition that takes many words to say" (.signal signal .empty) .none
  let diagram : Diagram :=
    { participants := [⟨"A", "A"⟩, ⟨"B", "B"⟩]
      content := ⟨"", .fragment "loop" (.cons "" (.fragment "opt" inside .empty) .none) .empty⟩ }
  let outer : FragmentBox ℚ := ⟨"loop", "", 30, 80, 260, 116, 0, []⟩
  let inner : FragmentBox ℚ :=
    ⟨"opt", "a condition that takes many words to say", 40, 108, 354, 78, 1, []⟩
  have hdiagram : Diagram.ofText
      "loop\nopt a condition that takes many words to say\nA -> B\nend\nend" = .ok (diagram, []) := by
    cbv
  have hboxes : (ofDiagram (evenSize (7 : ℚ) 15) (Spacing.ofOptions {}) diagram).map fragments =
      .ok [outer, inner] := by
    cbv
  cases hlayout : ofDiagram (evenSize (7 : ℚ) 15) (Spacing.ofOptions {}) diagram with
  | error error =>
    rw [hlayout] at hboxes
    cases hboxes
  | ok layout =>
    rw [hlayout] at hboxes
    refine ⟨diagram, layout, outer, inner, hdiagram, fun text => ?_, hlayout, Except.ok.inj hboxes,
      rfl, by norm_num [outer, inner]⟩
    simp only [evenSize, ofCount_eq_cast]
    constructor <;> positivity

end Layout

end SequenceChart
