import SequenceChart.Proofs.Diagram.Course
import SequenceChart.Proofs.Diagram.Finished
import SequenceChart.Proofs.Diagram.Ways

namespace SequenceChart

/-- The fragments around a place, the innermost first: those abandoned there, and then each open one
    with those that are abandoned around it. -/
def Builder.around (abandoned : List Enclosure) (opened : List OpenFragment) : List Enclosure :=
  abandoned ++ opened.flatMap fun fragment => fragment.enclosure :: fragment.abandoned

/-- The way to the operand in which an open fragment was opened, given the open ones around it. -/
def OpenFragment.parent (fragment : OpenFragment) (outer : List OpenFragment) : Way :=
  Enclosure.way (Builder.around fragment.abandoned outer)

/-- The ways to the operands in which fragments were opened that are still open. -/
def OpenFragment.parents : List OpenFragment → List Way
  | [] => []
  | fragment :: outer => fragment.parent outer :: parents outer

namespace Builder

open Building (run_bind_ok run_bind_error run_get_bind)

variable {builder after : Builder} {A B : Type}

/-- The way to the operand that new elements are added to. -/
def way (builder : Builder) : Way :=
  Enclosure.way (around builder.abandoned builder.opened)

/-- An open fragment stands with these operands in the operand in which it was opened. -/
def Stands (builder : Builder) (fragment : OpenFragment) (outer : List OpenFragment)
    (operands : Operands) : Prop :=
  ∃ body, builder.content.reach? (fragment.parent outer) = some body ∧
    body.fragment? fragment.enclosure.before.length = some (fragment.enclosure.kind, operands)

/-- The ways to the operands in which the open fragments were opened, the innermost first. -/
def parents (builder : Builder) : List Way :=
  OpenFragment.parents builder.opened

/-- New elements are added to the last operand of the innermost open fragment, or to the content of
    the diagram if no fragment is open. -/
def Anchored (builder : Builder) : Prop :=
  match builder.opened with
  | [] => builder.way = []
  | fragment :: outer => ∃ operands, builder.Stands fragment outer operands ∧
      builder.way = fragment.parent outer ++
        [(fragment.enclosure.before.length, operands.length - 1)]

theorem around_append (abandoned : List Enclosure) (inner outer : List OpenFragment)
    (fragment : OpenFragment) :
    around abandoned (inner ++ fragment :: outer) =
      (around abandoned inner ++ [fragment.enclosure]) ++ around fragment.abandoned outer := by
  simp [around]

theorem content_eq (builder : Builder) :
    builder.content = Enclosure.fillAll (around builder.abandoned builder.opened) builder.body := by
  rw [content, around, Enclosure.fillAll_append]
  -- Each open fragment is closed around what has been closed before, so the induction is on any body.
  generalize Enclosure.fillAll builder.abandoned builder.body = body
  induction builder.opened generalizing body with
  | nil => rfl
  | cons fragment outer ih =>
    rw [List.foldl_cons, ih, List.flatMap_cons, Enclosure.fillAll_append]
    rfl

/-- The way leads to the current operand. -/
theorem reach?_way (builder : Builder) : builder.content.reach? builder.way = some builder.body := by
  have hreach := Enclosure.reach?_fillAll (around builder.abandoned builder.opened) builder.body []
  rwa [List.append_nil, ← content_eq] at hreach

/-- What is added goes to the end of the operand to which the way leads. -/
theorem push_content (builder : Builder) (element : Element) :
    (builder.push element).content = builder.content.insert element builder.way := by
  have hinsert := Enclosure.insert_fillAll element (around builder.abandoned builder.opened)
    builder.body []
  rw [List.append_nil] at hinsert
  rw [content_eq, content_eq, way, hinsert]
  rfl

theorem add_content (builder : Builder) (element : Element) : builder.isFinished = true ∨
    (builder.next (.add element)).content = builder.content.insert element builder.way := by
  cases hfinished : builder.isFinished with
  | true => exact .inl rfl
  | false =>
    rw [← push_content, next, Call.perform, Building.add_run hfinished]
    exact .inr rfl

/-- Every open fragment stands where it was opened, and its current operand is the last one. -/
theorem opened_stands {inner outer : List OpenFragment} {fragment : OpenFragment}
    (hopened : builder.opened = inner ++ fragment :: outer) :
    ∃ operands, builder.Stands fragment outer operands ∧
      operands.length = fragment.enclosure.finished.length + 1 := by
  have hcontent : builder.content = Enclosure.fillAll (around fragment.abandoned outer)
      (fragment.enclosure.fill (Enclosure.fillAll (around builder.abandoned inner) builder.body)) := by
    rw [content_eq, hopened, around_append, Enclosure.fillAll_append, Enclosure.fillAll_append]
    rfl
  have hreach := Enclosure.reach?_fillAll (around fragment.abandoned outer)
    (fragment.enclosure.fill (Enclosure.fillAll (around builder.abandoned inner) builder.body)) []
  rw [List.append_nil, ← hcontent] at hreach
  exact ⟨_, ⟨_, hreach, Enclosure.fragment?_fill _ _⟩, Operands.length_push _ _ _⟩

theorem way_of_opened {fragment : OpenFragment} {outer : List OpenFragment}
    (hopened : builder.opened = fragment :: outer) :
    builder.way = fragment.parent outer ++ fragment.enclosure.step :: Enclosure.way builder.abandoned := by
  simp [way, hopened, around, OpenFragment.parent, Enclosure.way]

/-- New elements go to the right place exactly if no fragment is abandoned around it. -/
theorem anchored_iff : builder.Anchored ↔ builder.abandoned = [] := by
  rw [Anchored]
  split
  · next hopened => simp [way, hopened, around, Enclosure.way]
  · next fragment outer hopened =>
    rw [way_of_opened hopened]
    constructor
    · rintro ⟨operands, _, hway⟩
      have hlength := congrArg List.length hway
      simpa [Enclosure.way] using hlength
    · intro habandoned
      obtain ⟨operands, hstands, hlength⟩ := @opened_stands builder [] outer fragment hopened
      refine ⟨operands, hstands, ?_⟩
      rw [hlength, habandoned, Nat.add_sub_cancel]
      rfl

/-- What one call does to the open fragments: it leaves them as they are, opens one, goes on to the
    next operand of the innermost one, or closes that. -/
inductive Moves (builder after : Builder) : Prop
  | stays (hopened : after.opened = builder.opened) (habandoned : after.abandoned = builder.abandoned)
  | enters (fragment : OpenFragment) (hopened : after.opened = fragment :: builder.opened)
      (hfragment : fragment.abandoned = builder.abandoned) (habandoned : after.abandoned = [])
  | turns (fragment next : OpenFragment) (outer : List OpenFragment)
      (hbefore : builder.opened = fragment :: outer) (hopened : after.opened = next :: outer)
      (hnext : next.abandoned = fragment.abandoned) (habandoned : after.abandoned = [])
  | leaves (fragment : OpenFragment) (outer : List OpenFragment)
      (hbefore : builder.opened = fragment :: outer) (hopened : after.opened = outer)
      (habandoned : after.abandoned = fragment.abandoned)

theorem Moves.settled (hmoves : builder.Moves after) (hsettled : builder.Settled) : after.Settled := by
  obtain ⟨hnone, hopened⟩ := hsettled
  cases hmoves with
  | stays hsame habandoned => exact ⟨habandoned.trans hnone, hsame ▸ hopened⟩
  | enters fragment hafter hfragment habandoned =>
    refine ⟨habandoned, ?_⟩
    rw [hafter]
    exact List.forall_mem_cons.2 ⟨hfragment.trans hnone, hopened⟩
  | turns fragment next outer hbefore hafter hnext habandoned =>
    rw [hbefore] at hopened
    obtain ⟨hfragment, houter⟩ := List.forall_mem_cons.1 hopened
    refine ⟨habandoned, ?_⟩
    rw [hafter]
    exact List.forall_mem_cons.2 ⟨hnext.trans hfragment, houter⟩
  | leaves fragment outer hbefore hafter habandoned =>
    rw [hbefore] at hopened
    obtain ⟨hfragment, houter⟩ := List.forall_mem_cons.1 hopened
    exact ⟨habandoned.trans hfragment, hafter ▸ houter⟩

theorem parents_suffix {outer opened : List OpenFragment} (hsuffix : outer <:+ opened) :
    OpenFragment.parents outer <:+ OpenFragment.parents opened := by
  obtain ⟨inner, rfl⟩ := hsuffix
  induction inner with
  | nil => exact List.suffix_rfl
  | cons fragment rest ih => exact ih.trans (List.suffix_cons _ _)

/-- A fragment is opened in the operand that new elements are added to. While it is open, it stays
    in that operand. -/
theorem Moves.parents (hmoves : builder.Moves after) :
    after.parents = builder.way :: builder.parents ∨ after.parents <:+ builder.parents := by
  unfold Builder.parents
  cases hmoves with
  | stays hsame habandoned =>
    rw [hsame]
    exact .inr List.suffix_rfl
  | enters fragment hafter hfragment habandoned =>
    rw [hafter, OpenFragment.parents, OpenFragment.parent, hfragment]
    exact .inl rfl
  | turns fragment next outer hbefore hafter hnext habandoned =>
    rw [hbefore, hafter, OpenFragment.parents, OpenFragment.parents, OpenFragment.parent, hnext]
    exact .inr List.suffix_rfl
  | leaves fragment outer hbefore hafter habandoned =>
    rw [hbefore, hafter]
    exact .inr (List.suffix_cons _ _)

/-- A call that leaves the open fragments of every builder as they are, whether it is refused or not. -/
def Stays (call : Building A) : Prop :=
  ∀ builder, (call.run.run builder).2.opened = builder.opened ∧
    (call.run.run builder).2.abandoned = builder.abandoned

namespace Stays

theorem bind {call : Building A} {next : A → Building B} (hcall : Stays call)
    (hnext : ∀ a, Stays (next a)) : Stays (call >>= next) := by
  intro builder
  obtain ⟨hopened, habandoned⟩ := hcall builder
  rcases hrun : call.run.run builder with ⟨_ | a, middle⟩ <;> rw [hrun] at hopened habandoned
  · rw [run_bind_error hrun]
    exact ⟨hopened, habandoned⟩
  · rw [run_bind_ok hrun]
    exact ⟨(hnext a middle).1.trans hopened, (hnext a middle).2.trans habandoned⟩

theorem done (a : A) : Stays (pure a : Building A) :=
  fun _ => ⟨rfl, rfl⟩

theorem refusal (error : BuildError) : Stays (throw error : Building A) :=
  fun _ => ⟨rfl, rfl⟩

theorem look : Stays (get : Building Builder) :=
  fun _ => ⟨rfl, rfl⟩

theorem edit {f : Builder → Builder} (hopened : ∀ builder, (f builder).opened = builder.opened)
    (habandoned : ∀ builder, (f builder).abandoned = builder.abandoned) :
    Stays (modify f : Building Unit) :=
  fun builder => ⟨hopened builder, habandoned builder⟩

theorem edit_bind {f : Builder → Builder} {next : Unit → Building A}
    (hopened : ∀ builder, (f builder).opened = builder.opened)
    (habandoned : ∀ builder, (f builder).abandoned = builder.abandoned)
    (hnext : Stays (next ())) : Stays (modify f >>= next) :=
  (edit hopened habandoned).bind fun _ => hnext

theorem ignore {call : Building A} (hcall : Stays call) : Stays (do let _ ← call) :=
  hcall.bind fun _ => done ()

theorem checkOpen : Stays Building.checkOpen := by
  refine look.bind fun builder => ?_
  split
  · exact refusal _
  · exact done _

theorem create (name : String) (label : Option String) : Stays (Building.create name label) := by
  refine checkOpen.bind fun _ => ?_
  split
  · exact refusal _
  · exact edit_bind (fun _ => rfl) (fun _ => rfl) (done _)

theorem ensure (name : String) : Stays (Building.ensure name) := by
  refine look.bind fun builder => ?_
  split
  · exact done _
  · exact create name none

theorem relabel (name label : String) : Stays (Building.relabel name label) := by
  refine checkOpen.bind fun _ => look.bind fun builder => ?_
  split
  · exact refusal _
  · exact edit_bind (fun _ => rfl) (fun _ => rfl) (done _)

theorem add (element : Element) : Stays (Building.add element) :=
  checkOpen.bind fun _ => edit (fun _ => rfl) fun _ => rfl

theorem addSignal (element : Option Element) : Stays (Building.addSignal element) := by
  cases element with
  | none => exact refusal _
  | some element => exact add element

theorem report (token : Option Token) (problem : Problem) : Stays (Building.report token problem) := by
  cases token with
  | none => exact refusal _
  | some token => exact edit (fun _ => rfl) fun _ => rfl

theorem activate (name : String) : Stays (Building.activate name) :=
  (ensure name).bind fun _ => edit_bind (fun _ => rfl) (fun _ => rfl) (add _)

theorem deactivate (name : String) (token : Option Token) : Stays (Building.deactivate name token) := by
  refine look.bind fun builder => ?_
  split
  · exact edit_bind (fun _ => rfl) (fun _ => rfl) (add _)
  · exact report token (.notActive name)

theorem setTitle (title : Option String) : Stays (Building.setTitle title) := by
  cases title with
  | none => exact refusal _
  | some title => exact checkOpen.bind fun _ => edit (fun _ => rfl) fun _ => rfl

theorem declare (name : Token) (label : Option Token) :
    Stays (Building.apply (.declare name label)) := by
  refine look.bind fun builder => ?_
  split
  · exact ignore (create name.value _)
  · split
    · exact done ()
    · exact ignore (relabel name.value _)

theorem signal (source arrow target : Token) (label : Option Token) :
    Stays (Building.apply (.signal source arrow target label)) :=
  (ensure source.value).bind fun _ => (ensure target.value).bind fun _ => addSignal _

theorem activation (keyword name : Token) : Stays (Building.apply (.activation keyword name)) := by
  rw [Building.apply]
  split
  · exact activate name.value
  · exact deactivate name.value (some keyword)

theorem moves {call : Building A} (hcall : Stays call) (builder : Builder) :
    builder.Moves (call.run.run builder).2 :=
  .stays (hcall builder).1 (hcall builder).2

end Stays

/-- A call that looks first at whether the builder is finished changes only one that is not. -/
theorem guarded_moves {call : Unit → Building A}
    (hcall : builder.Moves ((call ()).run.run builder).2) :
    builder.Moves ((Building.checkOpen >>= call).run.run builder).2 := by
  cases hfinished : builder.isFinished with
  | true =>
    rw [Building.refused hfinished]
    exact .stays rfl rfl
  | false =>
    rw [run_bind_ok (Building.checkOpen_run hfinished)]
    exact hcall

theorem openFragment_moves (builder : Builder) (kind guard : String) (token : Option Token) :
    builder.Moves ((Building.openFragment kind guard token).run.run builder).2 :=
  guarded_moves (.enters _ rfl rfl rfl)

theorem nextOperand_moves (builder : Builder) (guard : String) (token : Option Token) :
    builder.Moves ((Building.nextOperand guard token).run.run builder).2 := by
  refine guarded_moves ?_
  rw [run_get_bind]
  split
  · cases token with
    | none => exact .stays rfl rfl
    | some token => exact (Stays.report (some token) .outsideFragment).moves builder
  · next fragment outer hopened => exact .turns fragment _ outer hopened rfl rfl rfl

theorem closeFragment_moves (builder : Builder) (token : Option Token) :
    builder.Moves ((Building.closeFragment token).run.run builder).2 := by
  refine guarded_moves ?_
  rw [run_get_bind]
  split
  · exact (Stays.report token .unmatchedClose).moves builder
  · next fragment outer hopened => exact .leaves fragment outer hopened rfl rfl

theorem next_moves (builder : Builder) {call : Call} (hcall : call ≠ .finish) :
    builder.Moves (builder.next call) := by
  cases call with
  | find name => exact .stays rfl rfl
  | create name label => exact (Stays.ignore (Stays.create name label)).moves builder
  | ensure name => exact (Stays.ignore (Stays.ensure name)).moves builder
  | relabel name label => exact (Stays.ignore (Stays.relabel name label)).moves builder
  | add element => exact (Stays.add element).moves builder
  | addSignal element => exact (Stays.addSignal element).moves builder
  | activate name => exact (Stays.activate name).moves builder
  | deactivate name token => exact (Stays.deactivate name token).moves builder
  | openFragment kind guard token => exact openFragment_moves builder kind guard token
  | nextOperand guard token => exact nextOperand_moves builder guard token
  | closeFragment token => exact closeFragment_moves builder token
  | setTitle title => exact (Stays.setTitle title).moves builder
  | report token problem => exact (Stays.report token problem).moves builder
  | finish => exact absurd rfl hcall
  | apply statement =>
    cases statement with
    | setTitle keyword title => exact (Stays.setTitle title).moves builder
    | declare name label => exact (Stays.declare name label).moves builder
    | mention name => exact (Stays.ignore (Stays.ensure name.value)).moves builder
    | signal source arrow target label => exact (Stays.signal source arrow target label).moves builder
    | activation keyword name => exact (Stays.activation keyword name).moves builder
    | openFragment keyword label => exact openFragment_moves builder _ _ (some keyword)
    | nextOperand keyword label => exact nextOperand_moves builder _ (some keyword)
    | closeFragment keyword => exact closeFragment_moves builder (some keyword)
    | unknown => exact .stays rfl rfl

/-- To leave the open fragments ends with none of them open, or at one without a token: that one has
    been abandoned, and only fragments around it are still open. -/
theorem leaveAll_cases (builder : Builder) :
    ∃ after, (Building.leaveAll builder.opened).run.run builder = (.ok (), after) ∧
        after.opened = [] ∧ (builder.Settled → after.Settled) ∨
      (Building.leaveAll builder.opened).run.run builder = (.error (.missing .token), after) ∧
        after.opened <:+ builder.opened ∧ after.abandoned ≠ [] := by
  generalize hopened : builder.opened = opened
  induction opened generalizing builder with
  | nil => exact ⟨builder, .inl ⟨rfl, hopened, id⟩⟩
  | cons fragment outer ih =>
    rw [Building.leaveAll]
    cases htoken : fragment.token with
    | none => exact ⟨builder.abandon fragment outer,
        .inr ⟨rfl, List.suffix_cons fragment outer, by simp [abandon]⟩⟩
    | some token =>
      -- Leaving this fragment is one of the moves, and the rest are left by the builder after it.
      let left := (builder.record token (.unclosedFragment fragment.enclosure.kind)).leave fragment outer
      have hmoves : builder.Moves left := .leaves fragment outer hopened rfl rfl
      obtain ⟨after, ⟨hrun, hafter, hsettled⟩ | ⟨hrun, hafter, habandoned⟩⟩ := ih left rfl
      · exact ⟨after, .inl ⟨hrun, hafter, hsettled ∘ hmoves.settled⟩⟩
      · exact ⟨after, .inr ⟨hrun, hafter.trans (List.suffix_cons fragment outer), habandoned⟩⟩

/-- A call to finish is refused because it has been finished, or leaves all open fragments, or ends
    at one that it abandons. -/
theorem finish_cases (builder : Builder) :
    builder.answer .finish = .error .finished ∧ builder.next .finish = builder ∨
      builder.answer .finish = .ok () ∧ (builder.next .finish).opened = [] ∧
        (builder.Settled → (builder.next .finish).Settled) ∨
      builder.answer .finish = .error (.missing .token) ∧
        (builder.next .finish).opened <:+ builder.opened ∧ (builder.next .finish).abandoned ≠ [] := by
  cases hfinished : builder.isFinished with
  | true => exact .inl ⟨answer_finish hfinished, congrArg Prod.snd
      (Building.run_bind_error (Building.refused hfinished _))⟩
  | false =>
    have hfinish : (Call.perform .finish).run.run builder =
        ((Building.leaveAll builder.opened >>= fun _ =>
          modify fun left => { left with isFinished := true }).run.run builder) := by
      simp only [Call.perform, Building.finish, bind_assoc]
      rw [run_bind_ok (Building.checkOpen_run hfinished), run_get_bind]
      rcases hrun : (Building.leaveAll builder.opened).run.run builder with ⟨_ | _, left⟩
      · rw [run_bind_error hrun, run_bind_error hrun]
      · rw [run_bind_ok hrun, run_bind_ok hrun]
        rfl
    rw [answer, next, hfinish]
    obtain ⟨after, ⟨hrun, hopened, hsettled⟩ | ⟨hrun, hopened, habandoned⟩⟩ := leaveAll_cases builder
    · rw [run_bind_ok hrun]
      exact .inr (.inl ⟨rfl, hopened, hsettled⟩)
    · rw [run_bind_error hrun]
      exact .inr (.inr ⟨rfl, hopened, habandoned⟩)

/-- Finishing opens no fragment, and leaves those around the ones it closes in their operands. -/
theorem finish_parents (builder : Builder) : (builder.next .finish).parents <:+ builder.parents := by
  refine parents_suffix ?_
  obtain ⟨_, hsame⟩ | ⟨_, hopened, _⟩ | ⟨_, hopened, _⟩ := finish_cases builder
  · exact ⟨[], congrArg Builder.opened hsame⟩
  · exact hopened ▸ List.nil_suffix
  · exact hopened

theorem next_parents (builder : Builder) (call : Call) :
    (builder.next call).parents = builder.way :: builder.parents ∨
      (builder.next call).parents <:+ builder.parents := by
  by_cases hcall : call = .finish
  · exact .inr (hcall ▸ finish_parents builder)
  · exact (next_moves builder hcall).parents

/-- A fragment can only be abandoned when the builder fails to be finished. -/
theorem next_settled (hsettled : builder.Settled) {call : Call}
    (hcall : call = .finish → builder.answer .finish ≠ .error (.missing .token)) :
    (builder.next call).Settled := by
  by_cases hfinish : call = .finish
  · subst hfinish
    obtain ⟨_, hsame⟩ | ⟨_, _, hkept⟩ | ⟨hfailed, _⟩ := finish_cases builder
    · rwa [hsame]
    · exact hkept hsettled
    · exact absurd hfailed (hcall rfl)
  · exact (next_moves builder hfinish).settled hsettled

/-- The operand for new elements is the right one all the time, exactly if the builder never fails to
    be finished for want of a token. -/
theorem anchored_prefixes_iff (hsettled : builder.Settled) (calls : List Call) :
    (∀ front, front <+: calls → (builder.afterCalls front).Anchored) ↔
      ∀ front, front ++ [.finish] <+: calls →
        (builder.afterCalls front).answer .finish ≠ .error (.missing .token) := by
  constructor
  · intro hanchored front hfront hfailed
    -- The failed attempt itself has abandoned a fragment, so the place is wrong right after it.
    have hafter := anchored_iff.1 (hanchored _ hfront)
    rw [afterCalls_append, afterCalls_cons, afterCalls_nil] at hafter
    obtain ⟨hrefused, _⟩ | ⟨hfinished, _⟩ | ⟨_, _, habandoned⟩ := finish_cases (builder.afterCalls front)
    · cases hrefused.symm.trans hfailed
    · cases hfinished.symm.trans hfailed
    · exact habandoned hafter
  · intro hfinish front hfront
    suffices hkept : (builder.afterCalls front).Settled from anchored_iff.2 hkept.1
    induction calls generalizing builder front with
    | nil =>
      rw [List.prefix_nil.1 hfront]
      exact hsettled
    | cons call rest ih =>
      cases front with
      | nil => exact hsettled
      | cons first front =>
        obtain ⟨rfl, hrest⟩ := List.cons_prefix_cons.1 hfront
        have hnext : (builder.next first).Settled := next_settled hsettled fun hfirst =>
          hfinish [] (by simp [hfirst])
        exact ih hnext (fun later hlater =>
          hfinish (first :: later) (List.cons_prefix_cons.2 ⟨rfl, hlater⟩)) front hrest

/-- Whatever is asked of a new builder, new elements go to the end of the operand to which its way
    leads, and every open fragment stands in the operand to which the way led when it was opened. That
    way leads to the current operand of the innermost open fragment, or to the content of the diagram if
    no fragment is open, exactly as long as the builder does not fail to be finished because an open
    fragment has no token. -/
theorem afterCalls_insertion (start : Diagram) (calls : List Call) :
    let builder := (ofDiagram start).afterCalls calls
    (builder.content.reach? builder.way = some builder.body ∧ ∀ element, builder.isFinished = true ∨
        (builder.next (.add element)).content = builder.content.insert element builder.way) ∧
      (∀ inner fragment outer, builder.opened = inner ++ fragment :: outer →
        ∃ operands, builder.Stands fragment outer operands) ∧
      (∀ call, (builder.next call).parents = builder.way :: builder.parents ∨
        (builder.next call).parents <:+ builder.parents) ∧
      ((∀ front, front <+: calls → ((ofDiagram start).afterCalls front).Anchored) ↔
        ∀ front, front ++ [.finish] <+: calls →
          ((ofDiagram start).afterCalls front).answer .finish ≠ .error (.missing .token)) :=
  ⟨⟨reach?_way _, add_content _⟩, fun _ _ _ hopened => (opened_stands hopened).imp fun _ hstands => hstands.1,
    next_parents _, anchored_prefixes_iff (ofDiagram_settled start) calls⟩

/-- The fragment without a token is not open any more after the attempt to finish: it cannot be closed.
    But what is added then goes into it. -/
theorem afterCalls_insertion_tokenless :
    let token : Token := ⟨.keyword .close, "end", 1, 1, 0, 3⟩
    let message : Signal := ⟨"A", "B", "", .solid, true⟩
    let failed := (ofDiagram {}).afterCalls [.openFragment "loop" "" none, .finish]
    let later := failed.next (.closeFragment (some token))
    failed.opened = [] ∧ ¬ failed.Anchored ∧ later.problems = [⟨token, .unmatchedClose⟩] ∧
      (later.next (.add (.signal message))).content =
        .fragment "loop" (.cons "" (.signal message .empty) .none) .empty := by
  refine ⟨rfl, ?_, rfl, rfl⟩
  rw [anchored_iff]
  decide

end Builder

end SequenceChart
