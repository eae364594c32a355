import SequenceChart.Proofs.Drawing.Rendering

namespace SequenceChart

variable {α σ ε : Type}

namespace Surface

/-- A surface that also notes every call, those that fail included. -/
def noted (surface : Surface α σ ε) : Surface α (σ × List (Call α)) ε := fun call =>
  ExceptT.mk fun (state, issued) =>
    let answered := (surface call).run state
    (answered.1, answered.2, issued ++ [call])

/-- A program issues calls that a test lets through in the order of the given ones, as far as it comes.
    If it comes to its end, it has issued exactly the given ones. -/
def Issues {A : Type} (keeps : Call α → Bool) (calls : List (Call α))
    (program : ExceptT ε (StateM (σ × List (Call α))) A) : Prop :=
  ∀ start earlier, ∃ result after issued,
    program.run (start, earlier) = (result, after, earlier ++ issued) ∧
      issued.filter keeps <+: calls.filter keeps ∧ (result.isOk = true → issued = calls)

variable {surface : Surface α σ ε} {keeps : Call α → Bool} {calls more : List (Call α)}

theorem noted_run (surface : Surface α σ ε) (call : Call α) (state : σ) (issued : List (Call α)) :
    (surface.noted call).run (state, issued) =
      (((surface call).run state).1, ((surface call).run state).2, issued ++ [call]) :=
  rfl

theorem Issues.done : Issues keeps [] (pure () : ExceptT ε (StateM (σ × List (Call α))) Unit) :=
  fun start _ => ⟨.ok (), start, [], congrArg (Prod.mk _ ∘ Prod.mk _) (List.append_nil _).symm,
    List.nil_prefix, fun _ => rfl⟩

theorem Issues.call (surface : Surface α σ ε) (keeps : Call α → Bool) (call : Call α) :
    Issues keeps [call] (surface.noted call) :=
  fun start _ => ⟨((surface call).run start).1, ((surface call).run start).2, [call], rfl,
    List.prefix_rfl, fun _ => rfl⟩

theorem Issues.bind {A B : Type} {first : ExceptT ε (StateM (σ × List (Call α))) A}
    {next : A → ExceptT ε (StateM (σ × List (Call α))) B} (hfirst : Issues keeps calls first)
    (hnext : ∀ a, Issues keeps more (next a)) : Issues keeps (calls ++ more) (first >>= next) := by
  intro start earlier
  obtain ⟨result, middle, issued, hrun, hbegins, hok⟩ := hfirst start earlier
  rw [Drawing.run_bind, hrun]
  cases result with
  | error error =>
    refine ⟨.error error, middle, issued, rfl, ?_, nofun⟩
    rw [List.filter_append]
    exact hbegins.trans (List.prefix_append ..)
  | ok a =>
    obtain ⟨result, after, others, hrun, hbegins, hlast⟩ := hnext a middle (earlier ++ issued)
    refine ⟨result, after, issued ++ others, ?_, ?_, fun hdone => ?_⟩
    · simp only [hrun, List.append_assoc]
    · rw [hok rfl, List.filter_append, List.filter_append]
      exact (List.prefix_append_right_inj _).2 hbegins
    · rw [hok rfl, hlast hdone]

/-- Under a moved origin the call that moves it back is issued in any case. The test must not let it
    through, since it may come in place of others that a failure leaves out. -/
theorem Issues.within (hpop : keeps .pop = false) (surface : Surface α σ ε) (dx dy : α)
    {body : ExceptT ε (StateM (σ × List (Call α))) Unit} (hbody : Issues keeps calls body) :
    Issues keeps (.push dx dy :: calls ++ [.pop]) (surface.noted.within dx dy body) := by
  have hscope (inner : List (Call α)) : (Call.push dx dy :: inner ++ [Call.pop]).filter keeps =
      [Call.push dx dy].filter keeps ++ inner.filter keeps := by
    have hlast : [Call.pop].filter keeps = [] := by simp [hpop]
    rw [List.filter_append, hlast, List.append_nil, ← List.filter_append, List.singleton_append]
  intro start earlier
  rw [within_run, noted_run]
  rcases (surface (.push dx dy)).run start with ⟨_ | _, inside⟩
  · refine ⟨_, inside, [.push dx dy], rfl, ?_, nofun⟩
    rw [hscope]
    exact List.prefix_append ..
  · obtain ⟨result, ended, issued, hrun, hbegins, hok⟩ := hbody inside (earlier ++ [.push dx dy])
    simp only [hrun, noted_run]
    have hissued : (Call.push dx dy :: issued ++ [Call.pop]).filter keeps <+:
        (Call.push dx dy :: calls ++ [Call.pop]).filter keeps := by
      rw [hscope, hscope]
      exact (List.prefix_append_right_inj _).2 hbegins
    rcases (surface .pop).run ended with ⟨error | _, outside⟩
    · exact ⟨.error error, outside, .push dx dy :: issued ++ [.pop], by simp, hissued, nofun⟩
    · exact ⟨result, outside, .push dx dy :: issued ++ [.pop], by simp, hissued,
        fun hdone => by rw [hok hdone]⟩

theorem noted_answers {start after : σ} {calls : List (Call α)}
    (hanswers : surface.Answers start calls after) (earlier : List (Call α)) :
    surface.noted.Answers (start, earlier) calls (after, earlier ++ calls) := by
  induction calls generalizing start earlier with
  | nil => simpa [Answers] using hanswers
  | cons call rest ih =>
    obtain ⟨middle, hcall, hrest⟩ := hanswers
    refine ⟨(middle, earlier ++ [call]), by rw [noted_run, hcall], ?_⟩
    simpa using ih hrest (earlier ++ [call])

end Surface

/-- A drawing issues its calls. -/
theorem Drawing.run_issues (surface : Surface α σ ε) {keeps : Call α → Bool} (hpop : keeps .pop = false)
    (drawing : Drawing α) : Surface.Issues keeps drawing.calls (drawing.run surface.noted) := by
  induction drawing with
  | done => exact .done
  | call c rest ih => exact (Surface.Issues.call surface keeps c).bind fun _ => ih
  | within dx dy body rest ihBody ihRest =>
    rw [calls, List.append_cons]
    exact (ihBody.within hpop surface dx dy).bind fun _ => ihRest

namespace Diagram

variable [Add α] [Sub α] [Mul α] [Div α] [LT α] [DecidableLT α] [∀ n, OfNat α n] [Coordinate α]
  {measure : String → Size α} {options : Options α} {diagram : Diagram} {layout : Layout α}

theorem render_issues (surface : Surface α σ ε) (keeps : Call α → Bool) (hpop : keeps .pop = false)
    (hlayout : Layout.ofDiagram measure (Spacing.ofOptions options) diagram = .ok layout)
    {palette : Palette α} (hpalette : Palette.ofOptions options = .ok palette) :
    Surface.Issues keeps (diagram.rendering measure palette layout).calls
      (diagram.render surface.noted measure options) := by
  intro start earlier
  obtain ⟨result, after, issued, hrun, hbegins, hok⟩ :=
    (diagram.rendering measure palette layout).run_issues surface hpop start earlier
  rw [render_run hlayout hpalette, hrun]
  cases result with
  | error error => exact ⟨_, after, issued, rfl, hbegins, nofun⟩
  | ok _ => exact ⟨_, after, issued, rfl, hbegins, fun _ => hok rfl⟩

/-- With options that are rejected no more than questions are issued, and the end is not reached. -/
theorem render_issues_rejected (surface : Surface α σ ε) (keeps : Call α → Bool)
    (hpop : keeps .pop = false)
    (hlayout : Layout.ofDiagram measure (Spacing.ofOptions options) diagram = .ok layout)
    {problem : PaletteError} (hpalette : Palette.ofOptions options = .error problem) :
    ∀ start earlier, ∃ error after issued,
      (diagram.render surface.noted measure options).run (start, earlier) =
        (.error error, after, earlier ++ issued) ∧
      issued.filter keeps <+: diagram.questions.filter keeps := by
  intro start earlier
  obtain ⟨result, after, issued, hrun, hbegins, -⟩ :=
    ((Drawing.ofCalls (diagram.measuredTexts.map .measure)).run_issues surface hpop) start earlier
  rw [Drawing.calls_ofCalls] at hbegins
  simp only [render, Drawing.run_bind, run_adapt, Surface.measureAll, hrun, hlayout, hpalette,
    run_mk_pure, Except.mapError]
  cases result with
  | error error => exact ⟨_, after, issued, rfl, hbegins⟩
  | ok _ => exact ⟨_, after, issued, rfl, hbegins⟩

end Diagram

end SequenceChart
