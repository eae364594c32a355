import Mathlib
import SequenceChart.Drawing.Recorder

namespace SequenceChart

variable {α σ ε : Type}

namespace Surface

/-- From one state on, a surface answers calls one after the other, which leads to another state. -/
def Answers (surface : Surface α σ ε) : σ → List (Call α) → σ → Prop
  | start, [], after => start = after
  | start, call :: rest, after =>
    ∃ middle, (surface call).run start = (.ok (), middle) ∧ surface.Answers middle rest after

/-- A surface that also keeps the calls it has completed. -/
def recorded (surface : Surface α σ ε) : Surface α (σ × List (Call α)) ε := fun call =>
  ExceptT.mk fun (state, completed) =>
    match (surface call).run state with
    | (.ok (), next) => (.ok (), next, completed ++ [call])
    | (.error error, next) => (.error error, next, completed)

variable {surface : Surface α σ ε}

theorem answers_append {start after : σ} {front back : List (Call α)} :
    surface.Answers start (front ++ back) after ↔
      ∃ middle, surface.Answers start front middle ∧ surface.Answers middle back after := by
  induction front generalizing start with
  | nil => simp [Answers]
  | cons call front ih =>
    simp only [List.cons_append, Answers, ih]
    constructor
    · rintro ⟨next, hcall, middle, hfront, hback⟩
      exact ⟨middle, ⟨next, hcall, hfront⟩, hback⟩
    · rintro ⟨middle, ⟨next, hcall, hfront⟩, hback⟩
      exact ⟨next, hcall, middle, hfront, hback⟩

theorem recorded_run_ok {call : Call α} {before after : σ}
    (hcall : (surface call).run before = (.ok (), after)) (completed : List (Call α)) :
    (surface.recorded call).run (before, completed) = (.ok (), after, completed ++ [call]) := by
  simp [recorded, hcall]

theorem recorded_run_error {call : Call α} {before after : σ} {error : ε}
    (hcall : (surface call).run before = (.error error, after)) (completed : List (Call α)) :
    (surface.recorded call).run (before, completed) = (.error error, after, completed) := by
  simp [recorded, hcall]

theorem run_of_recorded {call : Call α} {before after : σ} {completed kept : List (Call α)}
    (hcall : (surface.recorded call).run (before, completed) = (.ok (), after, kept)) :
    (surface call).run before = (.ok (), after) ∧ kept = completed ++ [call] := by
  rcases hresult : (surface call).run before with ⟨_ | _, next⟩
  · rw [recorded_run_error hresult] at hcall
    cases hcall
  · rw [recorded_run_ok hresult] at hcall
    cases hcall
    exact ⟨rfl, rfl⟩

theorem recorded_answers {start after : σ} {calls : List (Call α)}
    (hanswers : surface.Answers start calls after) (completed : List (Call α)) :
    surface.recorded.Answers (start, completed) calls (after, completed ++ calls) := by
  induction calls generalizing start completed with
  | nil => simpa [Answers] using hanswers
  | cons call rest ih =>
    obtain ⟨middle, hcall, hrest⟩ := hanswers
    refine ⟨_, recorded_run_ok hcall completed, ?_⟩
    simpa using ih hrest (completed ++ [call])

theorem answers_of_recorded {start : σ} {completed calls : List (Call α)}
    {after : σ × List (Call α)} (hanswers : surface.recorded.Answers (start, completed) calls after) :
    surface.Answers start calls after.1 ∧ after.2 = completed ++ calls := by
  induction calls generalizing start completed with
  | nil =>
    obtain rfl : (start, completed) = after := hanswers
    exact ⟨rfl, (List.append_nil _).symm⟩
  | cons call rest ih =>
    obtain ⟨⟨middle, kept⟩, hcall, hrest⟩ := hanswers
    obtain ⟨hanswered, hkept⟩ := run_of_recorded hcall
    obtain ⟨hrest, hafter⟩ := ih hrest
    exact ⟨⟨middle, hanswered, hrest⟩, by simp [hafter, hkept]⟩

end Surface

namespace Call

/-- Whether a call moves the origin. -/
def moves (call : Call α) : Bool :=
  call.descent ≠ 0

/-- The calls that move the origin back from where earlier ones have left it: one pop if more pushes
    than pops are among them. -/
def releases (earlier : List (Call α)) : List (Call α) :=
  if (earlier.map kind).count .pop < (earlier.map kind).count .push then [.pop] else []

theorem kind_of_unmoved {call : Call α} (hcall : call.moves = false) :
    call.kind ≠ .push ∧ call.kind ≠ .pop := by
  cases call with
  | line dashed => cases dashed <;> simp [kind]
  | arrow dashed => cases dashed <;> simp [kind]
  | push | pop => simp [moves, descent] at hcall
  | _ => simp [kind]

theorem count_kind_cons {call : Call α} (hcall : call.moves = false) (rest : List (Call α)) :
    ((call :: rest).map kind).count .push = (rest.map kind).count .push ∧
      ((call :: rest).map kind).count .pop = (rest.map kind).count .pop := by
  obtain ⟨hpush, hpop⟩ := kind_of_unmoved hcall
  exact ⟨List.count_cons_of_ne hpush, List.count_cons_of_ne hpop⟩

theorem count_kind_of_unmoved {calls : List (Call α)} (hcalls : ∀ call ∈ calls, call.moves = false) :
    (calls.map kind).count .push = 0 ∧ (calls.map kind).count .pop = 0 := by
  induction calls with
  | nil => exact ⟨rfl, rfl⟩
  | cons call rest ih =>
    obtain ⟨hcall, hrest⟩ := List.forall_mem_cons.1 hcalls
    rw [(count_kind_cons hcall rest).1, (count_kind_cons hcall rest).2]
    exact ih hrest

theorem releases_cons_of_unmoved {call : Call α} (hcall : call.moves = false)
    (rest : List (Call α)) : releases (call :: rest) = releases rest := by
  simp only [releases, count_kind_cons hcall]

theorem releases_of_unmoved {calls : List (Call α)} (hcalls : ∀ call ∈ calls, call.moves = false) :
    releases calls = [] := by
  obtain ⟨hpush, hpop⟩ := count_kind_of_unmoved hcalls
  simp [releases, hpush, hpop]

theorem releases_inside {dx dy : α} {body : List (Call α)}
    (hbody : ∀ call ∈ body, call.moves = false) : releases (.push dx dy :: body) = [.pop] := by
  obtain ⟨hpush, hpop⟩ := count_kind_of_unmoved hbody
  simp [releases, kind, hpush, hpop]

theorem releases_scope {dx dy : α} {body : List (Call α)}
    (hbody : ∀ call ∈ body, call.moves = false) (rest : List (Call α)) :
    releases (.push dx dy :: (body ++ .pop :: rest)) = releases rest := by
  obtain ⟨hpush, hpop⟩ := count_kind_of_unmoved hbody
  simp [releases, kind, hpush, hpop]

/-- As many pushes as pops. -/
def Balanced (calls : List (Call α)) : Prop :=
  (calls.map kind).count .push = (calls.map kind).count .pop

theorem balanced_cons_iff {call : Call α} (hcall : call.moves = false) {rest : List (Call α)} :
    Balanced (call :: rest) ↔ Balanced rest := by
  simp only [Balanced, count_kind_cons hcall]

theorem balanced_scope_iff {dx dy : α} {body : List (Call α)}
    (hbody : ∀ call ∈ body, call.moves = false) {rest : List (Call α)} :
    Balanced (.push dx dy :: (body ++ .pop :: rest)) ↔ Balanced rest := by
  obtain ⟨hpush, hpop⟩ := count_kind_of_unmoved hbody
  simp [Balanced, kind, hpush, hpop]

end Call

namespace Drawing

/-- The calls of a drawing, in order, those at both ends of its scopes included. -/
def calls : Drawing α → List (Call α)
  | done => []
  | call c rest => c :: rest.calls
  | within dx dy body rest => .push dx dy :: body.calls ++ .pop :: rest.calls

/-- The origin is moved by scopes only, and by one at a time. -/
def Flat : Drawing α → Prop
  | done => True
  | call c rest => c.moves = false ∧ rest.Flat
  | within _ _ body rest => (∀ c ∈ body.calls, c.moves = false) ∧ rest.Flat

theorem run_bind {A B : Type} (first : ExceptT ε (StateM σ) A) (next : A → ExceptT ε (StateM σ) B)
    (start : σ) :
    (first >>= next).run start =
      match first.run start with
      | (.error error, after) => (.error error, after)
      | (.ok a, middle) => (next a).run middle := by
  rcases hfirst : first start with ⟨result, middle⟩
  simp only [ExceptT.run, bind, ExceptT.bind, ExceptT.mk, StateT.bind, hfirst]
  cases result <;> rfl

variable {surface : Surface α σ ε}

/-- A drawing is performed exactly if its calls are answered one after the other. -/
theorem run_eq_ok_iff {drawing : Drawing α} {start after : σ} :
    (drawing.run surface).run start = (.ok (), after) ↔
      surface.Answers start drawing.calls after := by
  induction drawing generalizing start after with
  | done => exact ⟨fun hrun => (Prod.mk.inj hrun).2, fun hsame => congrArg _ hsame⟩
  | call c rest ih =>
    simp only [run, run_bind, calls, Surface.Answers, ← ih]
    constructor
    · intro hrun
      split at hrun
      · cases hrun
      · next middle hcall => exact ⟨middle, hcall, hrun⟩
    · rintro ⟨middle, hcall, hrest⟩
      simp only [hcall, hrest]
  | within dx dy body rest ihBody ihRest =>
    simp only [run, run_bind, Surface.within_run, calls, List.cons_append, Surface.Answers,
      Surface.answers_append, ← ihBody, ← ihRest]
    constructor
    · intro hrun
      split at hrun
      · cases hrun
      · next outside hwithin =>
        split at hwithin
        · cases hwithin
        · next inside hpush =>
          split at hwithin
          · cases hwithin
          · next hpop =>
            obtain ⟨hbody, rfl⟩ := Prod.mk.inj hwithin
            exact ⟨inside, hpush, _, Prod.ext hbody rfl, _, hpop, hrun⟩
    · rintro ⟨inside, hpush, ended, hbody, outside, hpop, hrest⟩
      simp only [hpush, hbody, hpop, hrest]

theorem flat_of_unmoved {drawing : Drawing α} (hcalls : ∀ c ∈ drawing.calls, c.moves = false) :
    drawing.Flat := by
  induction drawing with
  | done => trivial
  | call c rest ih =>
    obtain ⟨hcall, hrest⟩ := List.forall_mem_cons.1 hcalls
    exact ⟨hcall, ih hrest⟩
  | within dx dy body rest =>
    exact absurd (hcalls (.push dx dy) List.mem_cons_self) (by simp [Call.moves, Call.descent])

/-- A drawing whose next call fails is performed up to that call. The scope that the call is in, if it
    is in one, is still left, and the error is that of the call. -/
theorem run_broken {drawing : Drawing α} (hflat : drawing.Flat) {front back : List (Call α)}
    {broken : Call α} (hcalls : drawing.calls = front ++ broken :: back) (hpop : broken.kind ≠ .pop)
    {start middle failed after : σ} {error : ε} (hfront : surface.Answers start front middle)
    (hbroken : (surface broken).run middle = (.error error, failed))
    (hrelease : surface.Answers failed (Call.releases front) after) :
    (drawing.run surface).run start = (.error error, after) := by
  induction drawing generalizing start front back after with
  | done => simp [calls] at hcalls
  | call c rest ih =>
    obtain ⟨hunmoved, hflat⟩ := hflat
    cases front with
    | nil =>
      obtain ⟨rfl, -⟩ := List.cons.inj hcalls
      obtain rfl : start = middle := hfront
      obtain rfl : failed = after := hrelease
      simp only [run, run_bind, hbroken]
    | cons first front =>
      obtain ⟨rfl, hrest⟩ := List.cons.inj hcalls
      obtain ⟨next, hfirst, hfront⟩ := hfront
      rw [Call.releases_cons_of_unmoved hunmoved] at hrelease
      simp only [run, run_bind, hfirst, ih hflat hrest hfront hrelease]
  | within dx dy body rest ihBody ihRest =>
    obtain ⟨hbody, hflat⟩ := hflat
    cases front with
    | nil =>
      obtain ⟨rfl, -⟩ := List.cons.inj hcalls
      obtain rfl : start = middle := hfront
      obtain rfl : failed = after := hrelease
      simp only [run, run_bind, Surface.within_run, hbroken]
    | cons first inside =>
      obtain ⟨rfl, hrest⟩ := List.cons.inj hcalls
      obtain ⟨pushed, hpush, hinside⟩ := hfront
      rcases List.append_eq_append_iff.1 hrest with ⟨more, rfl, hmore⟩ | ⟨more, heq, hmore⟩
      · -- The scope has been left.
        cases more with
        | nil => exact absurd (congrArg Call.kind (List.cons.inj hmore).1).symm hpop
        | cons last front =>
          obtain ⟨rfl, hnext⟩ := List.cons.inj hmore
          obtain ⟨ended, hdone, outside, hleft, hfront⟩ := Surface.answers_append.1 hinside
          rw [Call.releases_scope hbody] at hrelease
          have hwithin : (surface.within dx dy (body.run surface)).run start = (.ok (), outside) := by
            simp only [Surface.within_run, hpush, run_eq_ok_iff.2 hdone, hleft]
          simp only [run, run_bind, hwithin, ihRest hflat hnext hfront hrelease]
      · -- The scope is the one that the failing call is in.
        cases more with
        | nil => exact absurd (congrArg Call.kind (List.cons.inj hmore).1) hpop
        | cons last more =>
          obtain ⟨rfl, -⟩ := List.cons.inj hmore
          have hunmoved : ∀ c ∈ inside, c.moves = false := fun c hc =>
            hbody c (heq ▸ List.mem_append_left _ hc)
          rw [Call.releases_inside hunmoved] at hrelease
          obtain ⟨outside, hleft, rfl⟩ := hrelease
          have hreleased : surface.Answers failed (Call.releases inside) failed := by
            rw [Call.releases_of_unmoved hunmoved]
            rfl
          have hfailed := ihBody (flat_of_unmoved hbody) heq hinside hreleased
          simp only [run, run_bind, Surface.within_run, hpush, hfailed, hleft]

/-- Up to each of its calls, a drawing has moved the origin back but for what the releases do. -/
theorem balanced_releases {drawing : Drawing α} (hflat : drawing.Flat) {front back : List (Call α)}
    (hcalls : drawing.calls = front ++ back) : Call.Balanced (front ++ Call.releases front) := by
  induction drawing generalizing front with
  | done =>
    obtain ⟨rfl, -⟩ := List.append_eq_nil_iff.1 hcalls.symm
    rfl
  | call c rest ih =>
    obtain ⟨hunmoved, hflat⟩ := hflat
    cases front with
    | nil => rfl
    | cons first front =>
      obtain ⟨rfl, hrest⟩ := List.cons.inj hcalls
      rw [Call.releases_cons_of_unmoved hunmoved, List.cons_append, Call.balanced_cons_iff hunmoved]
      exact ih hflat hrest
  | within dx dy body rest _ ihRest =>
    obtain ⟨hbody, hflat⟩ := hflat
    cases front with
    | nil => rfl
    | cons first inside =>
      obtain ⟨rfl, hrest⟩ := List.cons.inj hcalls
      have hinside (hunmoved : ∀ c ∈ inside, c.moves = false) :
          Call.Balanced (.push dx dy :: inside ++ Call.releases (.push dx dy :: inside)) := by
        rw [Call.releases_inside hunmoved]
        exact (Call.balanced_scope_iff hunmoved).2 rfl
      rcases List.append_eq_append_iff.1 hrest with ⟨more, rfl, hmore⟩ | ⟨more, heq, -⟩
      · cases more with
        | nil => exact hinside (by simpa using hbody)
        | cons last front =>
          obtain ⟨rfl, hnext⟩ := List.cons.inj hmore
          rw [Call.releases_scope hbody, List.cons_append, List.append_assoc, List.cons_append,
            Call.balanced_scope_iff hbody]
          exact ihRest hflat hnext
      · exact hinside fun c hc => hbody c (heq ▸ List.mem_append_left _ hc)

end Drawing

end SequenceChart
