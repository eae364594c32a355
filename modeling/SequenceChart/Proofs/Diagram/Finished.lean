import SequenceChart.Proofs.Diagram.Calls

namespace SequenceChart

namespace Builder

/-- The problem that a call records without a look at whether the builder is finished: one that its
    caller reports, or the end of an activation that is not open. -/
def Call.unguarded? (active : List String) : Call → Option Diagnostic
  | .report token problem => token.map (⟨·, problem⟩)
  | .deactivate name token => if name ∈ active then none else token.map (⟨·, .notActive name⟩)
  | .apply (.activation keyword name) =>
    if keyword.value = Keyword.activate.word ∨ name.value ∈ active then none
    else some ⟨keyword, .notActive name.value⟩
  | _ => none

/-- The problems that calls record in that way, one after the other. -/
def unguarded (builder : Builder) : List Call → List Diagnostic
  | [] => []
  | call :: rest =>
    (call.unguarded? builder.active).toList ++ (builder.next call).unguarded rest

/-- The builder as if it were not finished. -/
def reopened (builder : Builder) : Builder :=
  { builder with isFinished := false }

/-- The builder with these open activations, and with a further problem if there is one. -/
def late (builder : Builder) (active : List String) (problem : Option Diagnostic) : Builder :=
  { builder with active, problems := builder.problems ++ problem.toList }

theorem late_self (builder : Builder) : builder.late builder.active none = builder := by
  simp [late]

theorem late_late (builder : Builder) (first last : List String) (problem : Option Diagnostic) :
    (builder.late first none).late last problem = builder.late last problem := by
  simp [late]

end Builder

namespace Building

variable {builder after : Builder}

/-- When a builder is finished, it answers with the problems that it holds from then on. -/
theorem finish_eq_ok {problems : List Diagnostic}
    (hfinish : finish.run.run builder = (.ok problems, after)) :
    after.isFinished = true ∧ after.problems = problems := by
  obtain ⟨_, _, _, hfinish⟩ := run_bind_eq_ok hfinish
  rw [run_get_bind] at hfinish
  obtain ⟨_, middle, _, hfinish⟩ := run_bind_eq_ok hfinish
  rw [run_bind_ok run_modify, run_get_bind] at hfinish
  cases hfinish
  exact ⟨rfl, rfl⟩

end Building

namespace Builder

variable {builder finished : Builder} {A B : Type}

/-- How a finished builder answers: it refuses the call because it is finished, or it answers as it
    would if it were not. Nothing changes but the open activations, and nothing is recorded but the
    given problem. -/
def AnswersLate (builder : Builder) (problem : Option Diagnostic) (call : Building A) : Prop :=
  ∃ answer active, call.run.run builder = (answer, builder.late active problem) ∧
    (answer = .error .finished ∧ problem = none ∨
      call.run.run builder.reopened = (answer, builder.reopened.late active problem))

namespace AnswersLate

theorem refuses {call : Building A} (hcall : call.run.run builder = (.error .finished, builder)) :
    builder.AnswersLate none call :=
  ⟨_, builder.active, by rw [hcall, late_self], .inl ⟨rfl, rfl⟩⟩

/-- A call that leaves the builder as it is. -/
theorem idle {call : Building A} {answer : Except BuildError A}
    (hcall : call.run.run builder = (answer, builder))
    (hreopened : call.run.run builder.reopened = (answer, builder.reopened)) :
    builder.AnswersLate none call :=
  ⟨answer, builder.active, by rw [hcall, late_self],
    .inr (hreopened.trans (by rw [late, reopened, Option.toList_none, List.append_nil]))⟩

/-- The second of two calls meets other open activations, but the same builder otherwise. -/
theorem bind {call : Building A} {next : A → Building B} (hcall : builder.AnswersLate none call)
    (hnext : ∀ a active, (builder.late active none).AnswersLate none (next a)) :
    builder.AnswersLate none (call >>= next) := by
  obtain ⟨answer, active, hrun, hanswer⟩ := hcall
  cases answer with
  | error error =>
    refine ⟨.error error, active, Building.run_bind_error hrun, ?_⟩
    obtain ⟨hrefused, _⟩ | hreopened := hanswer
    · cases hrefused
      exact .inl ⟨rfl, rfl⟩
    · exact .inr (Building.run_bind_error hreopened)
  | ok a =>
    obtain ⟨hrefused, _⟩ | hreopened := hanswer
    · cases hrefused
    obtain ⟨answer, last, hlast, hanswer⟩ := hnext a active
    refine ⟨answer, last, ?_, ?_⟩
    · rw [Building.run_bind_ok hrun, hlast, late_late]
    · rw [Building.run_bind_ok hreopened, ← late_late builder.reopened active last]
      exact hanswer

/-- A look at the builder, if it is not for whether the builder is finished. -/
theorem look {next : Builder → Building A} {problem : Option Diagnostic}
    (hsame : next builder.reopened = next builder)
    (hnext : builder.AnswersLate problem (next builder)) :
    builder.AnswersLate problem (get >>= next) := by
  obtain ⟨answer, active, hrun, hanswer⟩ := hnext
  refine ⟨answer, active, Building.run_get_bind.trans hrun, hanswer.imp_right fun hreopened => ?_⟩
  rw [Building.run_get_bind, hsame, hreopened]

end AnswersLate

theorem modify_answersLate (builder : Builder) (f : List String → List String) :
    builder.AnswersLate none
      (modify fun builder => { builder with active := f builder.active } : Building Unit) := by
  refine ⟨.ok (), f builder.active, ?_, .inr ?_⟩ <;>
    rw [Building.run_modify, late, Option.toList_none, List.append_nil]
  rfl

theorem report_answersLate (builder : Builder) (token : Option Token) (problem : Problem) :
    builder.AnswersLate (token.map (⟨·, problem⟩)) (Building.report token problem) := by
  cases token with
  | none => exact .idle rfl rfl
  | some token => exact ⟨.ok (), builder.active, rfl, .inr rfl⟩

theorem ignore_answersLate {call : Building A} (hcall : builder.AnswersLate none call) :
    builder.AnswersLate none (do let _ ← call) :=
  hcall.bind fun _ _ => .idle rfl rfl

section Finished

variable (hfinished : builder.isFinished = true)

include hfinished

/-- A call that looks first at whether the builder is finished. -/
theorem guarded_answersLate (call : Unit → Building A) :
    builder.AnswersLate none (Building.checkOpen >>= call) :=
  .refuses (Building.refused hfinished call)

theorem ensure_answersLate (name : String) : builder.AnswersLate none (Building.ensure name) := by
  refine .look rfl ?_
  split
  · exact .idle rfl rfl
  · exact guarded_answersLate hfinished _

theorem addSignal_answersLate (element : Option Element) :
    builder.AnswersLate none (Building.addSignal element) := by
  cases element with
  | none => exact .idle rfl rfl
  | some element => exact guarded_answersLate hfinished _

/-- The activation is open from then on, although it is refused. -/
theorem activate_answersLate (name : String) : builder.AnswersLate none (Building.activate name) := by
  refine (ensure_answersLate hfinished name).bind fun _ active => ?_
  refine (modify_answersLate _ (name :: ·)).bind fun _ last => ?_
  exact @guarded_answersLate ((builder.late active none).late last none) _ hfinished _

/-- The activation is not open any more, although the end of it is refused. -/
theorem deactivate_answersLate (name : String) (token : Option Token) :
    builder.AnswersLate (if name ∈ builder.active then none else token.map (⟨·, .notActive name⟩))
      (Building.deactivate name token) := by
  refine .look rfl ?_
  split
  · refine (modify_answersLate builder (·.erase name)).bind fun _ active => ?_
    exact @guarded_answersLate (builder.late active none) _ hfinished _
  · exact report_answersLate builder token (.notActive name)

theorem setTitle_answersLate (title : Option String) :
    builder.AnswersLate none (Building.setTitle title) := by
  cases title with
  | none => exact .idle rfl rfl
  | some title => exact guarded_answersLate hfinished _

theorem declare_answersLate (name : Token) (label : Option Token) :
    builder.AnswersLate none (Building.apply (.declare name label)) := by
  refine .look rfl ?_
  split
  · exact ignore_answersLate (guarded_answersLate hfinished _)
  · split
    · exact .idle rfl rfl
    · exact ignore_answersLate (guarded_answersLate hfinished _)

theorem signal_answersLate (source arrow target : Token) (label : Option Token) :
    builder.AnswersLate none (Building.apply (.signal source arrow target label)) := by
  refine (ensure_answersLate hfinished source.value).bind fun _ active => ?_
  refine (@ensure_answersLate (builder.late active none) hfinished target.value).bind fun _ last => ?_
  exact @addSignal_answersLate ((builder.late active none).late last none) hfinished _

theorem activation_answersLate (keyword name : Token) :
    builder.AnswersLate (Call.unguarded? builder.active (.apply (.activation keyword name)))
      (Building.apply (.activation keyword name)) := by
  rw [Building.apply, Call.unguarded?]
  by_cases hkeyword : keyword.value = Keyword.activate.word
  · rw [if_pos hkeyword, if_pos (.inl hkeyword)]
    exact activate_answersLate hfinished name.value
  · simp only [hkeyword, false_or, if_false]
    exact deactivate_answersLate hfinished name.value (some keyword)

/-- What a finished builder can answer to a call, whatever the call is. -/
theorem perform_answersLate (call : Call) :
    builder.AnswersLate (call.unguarded? builder.active) call.perform := by
  cases call with
  | find name => exact .idle rfl rfl
  | create | relabel | finish => exact ignore_answersLate (guarded_answersLate hfinished _)
  | ensure name => exact ignore_answersLate (ensure_answersLate hfinished name)
  | add | openFragment | nextOperand | closeFragment => exact guarded_answersLate hfinished _
  | addSignal element => exact addSignal_answersLate hfinished element
  | activate name => exact activate_answersLate hfinished name
  | deactivate name token => exact deactivate_answersLate hfinished name token
  | setTitle title => exact setTitle_answersLate hfinished title
  | report token problem => exact report_answersLate builder token problem
  | apply statement =>
    cases statement with
    | setTitle keyword title => exact setTitle_answersLate hfinished title
    | declare name label => exact declare_answersLate hfinished name label
    | mention name => exact ignore_answersLate (ensure_answersLate hfinished name.value)
    | signal source arrow target label => exact signal_answersLate hfinished source arrow target label
    | activation keyword name => exact activation_answersLate hfinished keyword name
    | openFragment | nextOperand | closeFragment => exact guarded_answersLate hfinished _
    | unknown => exact .idle rfl rfl

theorem next_late (call : Call) :
    ∃ active, builder.next call = builder.late active (call.unguarded? builder.active) := by
  obtain ⟨_, active, hrun, _⟩ := perform_answersLate hfinished call
  exact ⟨active, congrArg Prod.snd hrun⟩

theorem answer_finish : builder.answer .finish = .error .finished :=
  congrArg Prod.fst (Building.run_bind_error (Building.refused hfinished _))

/-- A call is refused because the builder is finished, or it records only what is not guarded. -/
theorem answer_or_records (call : Call) : builder.answer call = .error .finished ∨
    (builder.reopened.next call).problems =
      builder.problems ++ (call.unguarded? builder.active).toList := by
  obtain ⟨answer, active, hrun, ⟨rfl, _⟩ | hreopened⟩ := perform_answersLate hfinished call
  · exact .inl (congrArg Prod.fst hrun)
  · exact .inr (congrArg (·.2.problems) hreopened)

/-- A finished builder stays finished, and keeps its diagram. -/
theorem afterCalls_finished (calls : List Call) :
    (builder.afterCalls calls).isFinished = true ∧
      (builder.afterCalls calls).diagram = builder.diagram := by
  refine afterCalls_keeps (P := fun later => later.isFinished = true ∧
    later.diagram = builder.diagram) ?_ ⟨hfinished, rfl⟩ calls
  rintro later call ⟨hlater, hdiagram⟩
  obtain ⟨active, hnext⟩ := next_late hlater call
  rw [hnext]
  exact ⟨hlater, hdiagram⟩

theorem afterCalls_problems (calls : List Call) :
    (builder.afterCalls calls).problems = builder.problems ++ builder.unguarded calls := by
  induction calls generalizing builder with
  | nil => exact (List.append_nil _).symm
  | cons call rest ih =>
    obtain ⟨active, hnext⟩ := next_late hfinished call
    have hstill : (builder.next call).isFinished = true := (afterCalls_finished hfinished [call]).1
    rw [afterCalls_cons, ih hstill, unguarded, hnext, late, List.append_assoc]

end Finished

/-- Once a builder has been finished, its diagram stays as it is, whatever is asked of the builder. It
    cannot be finished again. -/
theorem finish_diagram {problems : List Diagnostic}
    (hfinish : Building.finish.run.run builder = (.ok problems, finished)) (calls : List Call) :
    (finished.afterCalls calls).diagram = finished.diagram ∧
      (finished.afterCalls calls).answer .finish = .error .finished := by
  obtain ⟨hfinished, _⟩ := Building.finish_eq_ok hfinish
  obtain ⟨hstill, hdiagram⟩ := afterCalls_finished hfinished calls
  exact ⟨hdiagram, answer_finish hstill⟩

/-- The later calls include some that change the open activations before they are refused, and one
    that is answered. -/
theorem finish_diagram_activation :
    let token : Token := ⟨.keyword (.fragment .loop), "loop", 1, 1, 0, 4⟩
    let builder := (ofDiagram {}).afterCalls [.openFragment "loop" "" (some token), .activate "A"]
    let finished := builder.next .finish
    let calls : List Call := [.deactivate "A" (some token), .activate "A", .activate "B", .ensure "A",
      .apply (.declare ⟨.name, "A", 1, 1, 0, 1⟩ (some ⟨.text, "B", 1, 6, 5, 1⟩)), .closeFragment none]
    Building.finish.run.run builder = (.ok [⟨token, .unclosedFragment "loop"⟩], finished) ∧
      (finished.afterCalls calls).diagram = finished.diagram ∧
      (finished.afterCalls calls).answer .finish = .error .finished := by
  intro token builder finished calls
  have hfinish : Building.finish.run.run builder =
      (.ok [⟨token, .unclosedFragment "loop"⟩], finished) := rfl
  exact ⟨hfinish, finish_diagram hfinish calls⟩

/-- After a builder has been finished, its problems are those that it answered with, and behind them
    those that calls have recorded without a look at whether it is finished. Every other call that
    would record a problem is refused. -/
theorem finish_problems {problems : List Diagnostic}
    (hfinish : Building.finish.run.run builder = (.ok problems, finished)) (calls : List Call) :
    (finished.afterCalls calls).problems = problems ++ finished.unguarded calls ∧
      ∀ call, (finished.afterCalls calls).answer call = .error .finished ∨
        ((finished.afterCalls calls).reopened.next call).problems =
          (finished.afterCalls calls).problems ++
            (call.unguarded? (finished.afterCalls calls).active).toList := by
  obtain ⟨hfinished, hproblems⟩ := Building.finish_eq_ok hfinish
  refine ⟨?_, answer_or_records (afterCalls_finished hfinished calls).1⟩
  rw [afterCalls_problems hfinished, hproblems]

theorem finish_problems_closing :
    let token : Token := ⟨.keyword (.fragment .loop), "loop", 1, 1, 0, 4⟩
    let builder := (ofDiagram {}).afterCalls [.openFragment "loop" "" (some token), .activate "A"]
    let finished := builder.next .finish
    let calls : List Call := [.closeFragment (some token), .deactivate "A" (some token),
      .nextOperand "" (some token), .deactivate "A" (some token)]
    Building.finish.run.run builder = (.ok [⟨token, .unclosedFragment "loop"⟩], finished) ∧
      (finished.afterCalls calls).problems =
        [⟨token, .unclosedFragment "loop"⟩] ++ finished.unguarded calls ∧
      ∀ call, (finished.afterCalls calls).answer call = .error .finished ∨
        ((finished.afterCalls calls).reopened.next call).problems =
          (finished.afterCalls calls).problems ++
            (call.unguarded? (finished.afterCalls calls).active).toList := by
  intro token builder finished calls
  have hfinish : Building.finish.run.run builder =
      (.ok [⟨token, .unclosedFragment "loop"⟩], finished) := rfl
  exact ⟨hfinish, finish_problems hfinish calls⟩

/-- The end of an activation that is not open is recorded by a builder that has been finished. -/
theorem finish_problems_inactive :
    let token : Token := ⟨.keyword .deactivate, "deactivate", 1, 1, 0, 10⟩
    let finished := (ofDiagram {}).next .finish
    Building.finish.run.run (ofDiagram {}) = (.ok [], finished) ∧
      finished.answer (.deactivate "A" (some token)) = .ok () ∧
      (finished.next (.deactivate "A" (some token))).problems = [⟨token, .notActive "A"⟩] :=
  ⟨rfl, rfl, rfl⟩

end Builder

end SequenceChart
