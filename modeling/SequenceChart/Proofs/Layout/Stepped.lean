import SequenceChart.Proofs.Layout.Slack

namespace SequenceChart

open Distance

theorem columnIn_of_map_eq_append {participants : List Participant}
    (hdistinct : (participants.map Participant.name).Nodup) {before behind : List String} {name : String}
    (hnames : participants.map Participant.name = before ++ name :: behind) :
    columnIn participants name = before.length := by
  have hown : (participants[before.length]?).map Participant.name = some name := by
    rw [← List.getElem?_map, hnames]
    simp
  obtain ⟨participant, hparticipant, rfl⟩ := Option.map_eq_some_iff.1 hown
  exact columnIn_of_getElem? hdistinct hparticipant

/-- From each column to the next one there is at least the gap that is asked for. -/
theorem Columns.Spacious.centers_add_mul_le {columns : Columns ℚ} {measure : String → Size ℚ}
    {participantGap : ℚ} {diagram : Diagram} (hspacious : columns.Spacious measure participantGap diagram)
    {i : Nat} (count : Nat) (hlast : i + count < diagram.participants.length) :
    columns.centers.getD i 0 + participantGap * count ≤ columns.centers.getD (i + count) 0 := by
  induction count with
  | zero => simp
  | succ count ih =>
    have hbefore := ih (Nat.lt_of_succ_lt hlast)
    have hnext := hspacious.gaps (i + count) hlast
    rw [Nat.cast_succ, mul_add_one, ← add_assoc]
    exact (add_le_add_left hbefore participantGap).trans hnext

namespace Layout

/-- The room on the two sides of the lifelines. In front of each there are half a box and the padding, and
    behind it also the gaps up to the last one. -/
def HasRoom (layout : Layout ℚ) (spacing : Spacing ℚ) (names : List String) : Prop :=
  ∀ before name behind, names = before ++ name :: behind → ∀ line, layout.lifeline? name = some line →
    spacing.padding + boxWidth / 2 ≤ line.x ∧
      line.x + (spacing.participantGap * behind.length + boxWidth / 2 + spacing.padding) ≤ layout.width

/-- The bar of an activity stays on the canvas on the left. On the right it does so if the steps up to its
    level, each of half a bar, and one more for the bar itself fit into the room behind its lifeline. That
    room is wide enough for fourteen levels on the last lifeline, and on a lifeline in front of others for
    twenty-eight more for each of these. -/
structure StepsRight (layout : Layout ℚ) (names : List String) (activity : Activity)
    (bar : ActivationBar ℚ) : Prop where
  left : 0 ≤ bar.x
  right : ∃ line, layout.lifeline? activity.name = some line ∧
    (bar.x + bar.width ≤ layout.width ↔ 5 * ((activity.level : ℚ) + 1) ≤ layout.width - line.x)
  shallow : ∀ before behind, names = before ++ activity.name :: behind →
    activity.level < 14 + 28 * behind.length → bar.x + bar.width ≤ layout.width

theorem Charts.hasRoom {layout : Layout ℚ} {columns : Columns ℚ} {spacing : Spacing ℚ}
    {measure : String → Size ℚ} {diagram : Diagram} {top bottom : ℚ} {course : List Event}
    (hcharts : layout.Charts ⟨diagram.participants, columns, spacing, measure⟩ top course bottom)
    (hframed : layout.Framed ⟨diagram.participants, columns, spacing, measure⟩)
    (hroomy : columns.Roomy measure spacing.padding (fragmentPad * ofCount diagram.content.body.depth)
      diagram)
    (hspacious : columns.Spacious measure spacing.participantGap diagram)
    (hdistinct : diagram.names.Nodup) : layout.HasRoom spacing diagram.names := by
  intro before name behind hnames line hline
  have hcount : before.length + behind.length < diagram.participants.length := by
    have hlength := congrArg List.length hnames
    rw [Diagram.names, List.length_map, List.length_append, List.length_cons] at hlength
    omega
  have hname : name ∈ diagram.names := by simp [hnames]
  cases hline.symm.trans (hcharts.lifeline?_eq hdistinct hname)
  rw [columnIn_of_map_eq_append hdistinct hnames, Grid.center]
  have hborder := Columns.border_nonneg diagram.content.body.depth
  constructor
  · have hleft := hroomy.left before.length (by omega)
    have hbox := hspacious.boxWidth_le (i := before.length) (by omega)
    rw [Columns.leftEdge] at hleft
    linarith
  · have hright := hroomy.right _ hcount
    have hbox := hspacious.boxWidth_le hcount
    have hgaps := hspacious.centers_add_mul_le behind.length hcount
    have hwidth := hframed.width
    rw [Columns.rightEdge] at hright
    linarith

theorem Depicts.stepsRight {layout : Layout ℚ} {rowHeight : ℚ} {course : List Event}
    {activity : Activity} {bar : ActivationBar ℚ} {names : List String}
    (hdepicts : layout.Depicts rowHeight course activity bar)
    (hroom : layout.HasRoom (Spacing.ofOptions {}) names) (hname : activity.name ∈ names) :
    layout.StepsRight names activity bar := by
  obtain ⟨line, hline, hx, -⟩ := hdepicts.placed
  have hwidth := hdepicts.width
  have hfits : bar.x + bar.width ≤ layout.width ↔
      5 * ((activity.level : ℚ) + 1) ≤ layout.width - line.x := by
    rw [hx, hwidth]
    constructor <;> intro hle <;> linarith
  refine ⟨?_, ⟨line, hline, hfits⟩, fun before behind hnames hlevel => hfits.2 ?_⟩
  · obtain ⟨before, behind, hnames⟩ := List.append_of_mem hname
    obtain ⟨hleft, -⟩ := hroom before _ behind hnames line hline
    have hlevel : (0 : ℚ) ≤ activity.level := Nat.cast_nonneg _
    simp only [Spacing.ofOptions, Option.getD_none, boxWidth] at hleft
    linarith
  · obtain ⟨-, hright⟩ := hroom before _ behind hnames line hline
    have hlevel : (activity.level : ℚ) + 1 ≤ 14 + 28 * behind.length := by exact_mod_cast hlevel
    simp only [Spacing.ofOptions, Option.getD_none, boxWidth] at hright
    linarith

/-- The room on the right is made for the boxes, the loops and the fragments, and not for the bars, which
    step as far to the right as activations are nested. -/
theorem ofText_stepsRight (measure : String → Size ℚ) (text : String) :
    ∃ diagram problems layout, ∃ bar : Activity → ActivationBar ℚ,
      Diagram.ofText text = .ok (diagram, problems) ∧
      ofDiagram measure (Spacing.ofOptions {}) diagram = .ok layout ∧
      layout.activations.Perm ((Activity.inCourse [] diagram.content.body.events).map bar) ∧
      ∀ activity ∈ Activity.inCourse [] diagram.content.body.events,
        layout.Depicts 40 diagram.content.body.events activity (bar activity) ∧
        layout.StepsRight diagram.names activity (bar activity) := by
  obtain ⟨diagram, problems, layout, columns, top, bottom, hdiagram, hformed, hcolumns, -, hroomy, hlayout,
    hcharts⟩ := ofText_plotted measure (Spacing.ofOptions {}) text
  refine ⟨diagram, problems, layout, _, hdiagram, hlayout, hcharts.bars, fun activity hactivity => ?_⟩
  have hlasts := Activity.lasts_of_mem_inCourse hactivity
  have hname : activity.name ∈ diagram.names := hformed.refers _ hlasts.name_mem_named
  have hdepicts := hcharts.depicts hformed.distinct hlasts hname
  have hparticipants : diagram.participants ≠ [] :=
    mt List.map_eq_nil_iff.2 (List.ne_nil_of_mem hname)
  have hspacious := Columns.ofDiagram_spacious hcolumns hparticipants
    (Diagram.signals_listed hformed.refers)
  have hroom := hcharts.hasRoom (ofDiagram_framed hlayout hparticipants hcolumns) hroomy hspacious
    hformed.distinct
  exact ⟨hdepicts, hdepicts.stepsRight hroom hname⟩

set_option maxRecDepth 4000 in
/-- The bar of an activation inside fourteen others of the only participant ends behind the canvas. -/
theorem ofText_stepsRight_fifteen :
    ∃ diagram layout bar,
      Diagram.ofText (String.join (List.replicate 15 "activate A\n")) = .ok (diagram, []) ∧
      (∀ text, 0 ≤ (evenSize (7 : ℚ) 15 text).width ∧ 0 ≤ (evenSize (7 : ℚ) 15 text).height) ∧
      ofDiagram (evenSize (7 : ℚ) 15) (Spacing.ofOptions {}) diagram = .ok layout ∧
      bar ∈ layout.activations ∧ layout.width < bar.x + bar.width := by
  let diagram : Diagram :=
    { participants := [⟨"A", "A"⟩], content := ⟨"", (Body.activation "A" true)^[15] .empty⟩ }
  let bar : ActivationBar ℚ := ⟨"A", 135, 80, 80, 10⟩
  let line (i : Nat) : TokenLine :=
    ⟨[⟨.keyword .activate, "activate", i + 1, 1, 11 * i, 8⟩, ⟨.name, "A", i + 1, 10, 11 * i + 9, 1⟩],
      ⟨.lineBreak, "\n", i + 1, 11, 11 * i + 10, 1⟩⟩
  have hlines : TokenLine.ofText (String.join (List.replicate 15 "activate A\n")) =
      (List.range 15).map line ++ [⟨[], ⟨.endOfInput, "", 16, 1, 165, 0⟩⟩] := by
    cbv
  have hdiagram : Diagram.ofText (String.join (List.replicate 15 "activate A\n")) =
      .ok (diagram, []) := by
    rw [Diagram.ofText_eq_ok, hlines]
    decide +kernel
  have hplaced : (ofDiagram (evenSize (7 : ℚ) 15) (Spacing.ofOptions {}) diagram).map
      (fun layout => (layout.width, decide (bar ∈ layout.activations))) = .ok (140, true) := by
    decide +kernel
  obtain ⟨layout, hlayout, hplaced⟩ := map_eq_ok_iff.1 hplaced
  obtain ⟨hwidth, hbar⟩ := Prod.mk.inj hplaced
  refine ⟨diagram, layout, bar, hdiagram, fun text => ?_, hlayout, of_decide_eq_true hbar, ?_⟩
  · simp only [evenSize, ofCount_eq_cast]
    constructor <;> positivity
  · rw [hwidth]
    decide +kernel

end Layout

end SequenceChart
