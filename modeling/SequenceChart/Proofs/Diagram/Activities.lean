import SequenceChart.Proofs.Diagram.Contents
import SequenceChart.Proofs.Nesting

namespace SequenceChart

namespace Nesting

variable {A : Type} (nesting : A → Nesting)

/-- The members of a sequence up to the one that closes what is open around a number of other open
    things, and whether there is such a member. -/
def untilClosed (depth : Nat) : List A → List A × Bool
  | [] => ([], false)
  | x :: rest =>
    match nesting x, depth with
    | .closing, 0 => ([], true)
    | .closing, depth + 1 => (untilClosed depth rest).map (x :: ·) id
    | .opening, depth => (untilClosed (depth + 1) rest).map (x :: ·) id
    | .neutral, depth => (untilClosed depth rest).map (x :: ·) id

/-- What follows the members up to the closing one begins with that one, or is nothing. -/
theorem untilClosed_append (depth : Nat) (sequence : List A) :
    ∃ back, sequence = (untilClosed nesting depth sequence).1 ++ back ∧
      if (untilClosed nesting depth sequence).2 then ∃ x rest, back = x :: rest ∧ nesting x = .closing
      else back = [] := by
  induction sequence generalizing depth with
  | nil => exact ⟨[], rfl, rfl⟩
  | cons x rest ih =>
    have hlater (depth : Nat) : ∃ back,
        x :: rest = x :: (untilClosed nesting depth rest).1 ++ back ∧
          if (untilClosed nesting depth rest).2 then
            ∃ y later, back = y :: later ∧ nesting y = .closing
          else back = [] := by
      obtain ⟨back, hback, hclosing⟩ := ih depth
      exact ⟨back, congrArg (x :: ·) hback, hclosing⟩
    cases hx : nesting x with
    | opening => simpa [untilClosed, hx] using hlater (depth + 1)
    | neutral => simpa [untilClosed, hx] using hlater depth
    | closing =>
      cases depth with
      | zero => exact ⟨x :: rest, by simp [untilClosed, hx]⟩
      | succ depth => simpa [untilClosed, hx] using hlater depth

/-- Up to the closing member, no more is closed than was open, and all of that if there is one. -/
theorem surplus_untilClosed (depth : Nat) (sequence : List A) :
    surplus nesting (untilClosed nesting depth sequence).1 ≤ depth := by
  induction sequence generalizing depth with
  | nil => exact Nat.zero_le depth
  | cons x rest ih =>
    cases hx : nesting x with
    | opening =>
      have hinner := ih (depth + 1)
      simp only [untilClosed, hx, Prod.map_fst, surplus]
      omega
    | neutral => simpa [untilClosed, hx, surplus] using ih depth
    | closing =>
      cases depth with
      | zero => simp [untilClosed, hx, surplus]
      | succ depth => simpa [untilClosed, hx, surplus] using ih depth

theorem leftOpen_untilClosed {depth : Nat} {sequence : List A}
    (hclosed : (untilClosed nesting depth sequence).2 = true) :
    leftOpen nesting (untilClosed nesting depth sequence).1 = [] ∧
      surplus nesting (untilClosed nesting depth sequence).1 = depth := by
  induction sequence generalizing depth with
  | nil => cases hclosed
  | cons x rest ih =>
    cases hx : nesting x with
    | opening =>
      simp only [untilClosed, hx, Prod.map_fst, Prod.map_snd, id_eq] at hclosed ⊢
      obtain ⟨hopen, hsurplus⟩ := ih hclosed
      simp [leftOpen, surplus, hx, hopen, hsurplus]
    | neutral =>
      simp only [untilClosed, hx, Prod.map_fst, Prod.map_snd, id_eq] at hclosed ⊢
      obtain ⟨hopen, hsurplus⟩ := ih hclosed
      simp [leftOpen, surplus, hx, hopen, hsurplus]
    | closing =>
      cases depth with
      | zero => simp [untilClosed, hx, leftOpen, surplus]
      | succ depth =>
        simp only [untilClosed, hx, Prod.map_fst, Prod.map_snd, id_eq] at hclosed ⊢
        obtain ⟨hopen, hsurplus⟩ := ih hclosed
        simp [leftOpen, surplus, hx, hopen, hsurplus]

end Nesting

/-- Whether an event begins or ends an activation of a participant. -/
def Event.nesting (name : String) : Event → Nesting
  | .activation other starts =>
    if other = name then if starts then .opening else .closing else .neutral
  | _ => .neutral

theorem Event.nesting_eq_opening {name : String} {event : Event} :
    event.nesting name = .opening ↔ event = .activation name true := by
  cases event with
  | activation other starts => by_cases hother : other = name <;> cases starts <;> simp [nesting, hother]
  | _ => simp [nesting]

theorem Event.nesting_eq_closing {name : String} {event : Event} :
    event.nesting name = .closing ↔ event = .activation name false := by
  cases event with
  | activation other starts => by_cases hother : other = name <;> cases starts <;> simp [nesting, hother]
  | _ => simp [nesting]

/-- A participant is active: what happens in front of the activation, what happens while it lasts, and
    whether it is ended or lasts to the end. -/
structure Activity where
  name : String
  front : List Event
  during : List Event
  ended : Bool

namespace Activity

/-- The activity of a participant that begins between two parts of a course. It is ended by the first
    event that ends more activations than have begun since. -/
def between (name : String) (front rest : List Event) : Activity :=
  let during := Nesting.untilClosed (Event.nesting name) 0 rest
  ⟨name, front, during.1, during.2⟩

/-- The activities of a participant that begin in a course of events behind other ones. -/
def ofCourse (name : String) (front : List Event) : List Event → List Activity
  | [] => []
  | event :: rest =>
    (if event = .activation name true then [between name front rest] else []) ++
      ofCourse name (front ++ [event]) rest

/-- The activities of all participants that begin in a course of events behind other ones, one for each
    event that begins an activation. -/
def inCourse (front : List Event) : List Event → List Activity
  | [] => []
  | event :: rest =>
    (match event with
      | .activation name true => [between name front rest]
      | _ => []) ++ inCourse (front ++ [event]) rest

/-- How many activations of its participant are open where an activity begins. -/
def level (activity : Activity) : Nat :=
  (Nesting.leftOpen (Event.nesting activity.name) activity.front).length

/-- An activity lasts from where a participant is activated to where it is deactivated, or to the end of
    the course. In between, as many activations have ended as have begun, or at least not more. -/
structure Lasts (activity : Activity) (course : List Event) : Prop where
  split : ∃ back, course =
      activity.front ++ .activation activity.name true :: (activity.during ++ back) ∧
    if activity.ended then back.head? = some (.activation activity.name false) else back = []
  staysOpen : Nesting.StaysOpen (Event.nesting activity.name) activity.during
  matched : activity.ended = true → ¬ Nesting.OpenAfter (Event.nesting activity.name) activity.during

theorem lasts_between (name : String) (front rest : List Event) :
    (between name front rest).Lasts (front ++ .activation name true :: rest) := by
  obtain ⟨back, hback, hclosing⟩ := Nesting.untilClosed_append (Event.nesting name) 0 rest
  refine ⟨⟨back, congrArg (front ++ .activation name true :: ·) hback, ?_⟩, ?_, fun hended => ?_⟩
  · change if (Nesting.untilClosed (Event.nesting name) 0 rest).2 then _ else _
    split at hclosing
    · next hended =>
      obtain ⟨last, later, rfl, hlast⟩ := hclosing
      rw [if_pos hended, List.head?_cons, Event.nesting_eq_closing.1 hlast]
      rfl
    · next hended => rwa [if_neg hended]
  · rw [Nesting.staysOpen_iff]
    exact Nat.le_zero.1 (Nesting.surplus_untilClosed (Event.nesting name) 0 rest)
  · rw [Nesting.openAfter_iff]
    exact fun hopen => hopen (Nesting.leftOpen_untilClosed (Event.nesting name) hended).1

theorem lasts_of_mem {name : String} {activity : Activity} {front course : List Event}
    (hactivity : activity ∈ ofCourse name front course) :
    activity.name = name ∧ activity.Lasts (front ++ course) := by
  induction course generalizing front with
  | nil => cases hactivity
  | cons event rest ih =>
    obtain hfirst | hlater := List.mem_append.1 hactivity
    · split at hfirst
      · next hevent =>
        rw [List.mem_singleton.1 hfirst, hevent]
        exact ⟨rfl, lasts_between name front rest⟩
      · cases hfirst
    · simpa using ih hlater

theorem filter_inCourse (name : String) (front course : List Event) :
    (inCourse front course).filter (·.name = name) = ofCourse name front course := by
  induction course generalizing front with
  | nil => rfl
  | cons event rest ih =>
    cases event with
    | activation other starts =>
      cases starts with
      | false => simp [inCourse, ofCourse, ih]
      | true =>
        by_cases hother : other = name
        · subst hother
          simp [inCourse, ofCourse, ih, between]
        · simp [inCourse, ofCourse, ih, between, hother]
    | _ => simp [inCourse, ofCourse, ih]

theorem lasts_of_mem_inCourse {activity : Activity} {front course : List Event}
    (hactivity : activity ∈ inCourse front course) : activity.Lasts (front ++ course) := by
  have hown : activity ∈ (inCourse front course).filter (·.name = activity.name) :=
    List.mem_filter.2 ⟨hactivity, decide_eq_true rfl⟩
  rw [filter_inCourse] at hown
  exact (lasts_of_mem hown).2

/-- Who is active in a body is named in it. -/
theorem Lasts.name_mem_named {activity : Activity} {body : Body} (hlasts : activity.Lasts body.events) :
    activity.name ∈ body.named := by
  obtain ⟨back, hcourse, -⟩ := hlasts.split
  rw [Body.named_eq, hcourse]
  simp [Event.names]

end Activity

end SequenceChart
