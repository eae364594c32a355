import SequenceChart.Proofs.Xml.References

namespace SequenceChart.Xml

/-- A tag, of which only its name is looked at: whether it starts an element or ends one. -/
inductive Tag where
  | opening (name : String)
  | closing (name : String)
  deriving DecidableEq

def Tag.name : Tag → String
  | opening name => name
  | closing name => name

@[simp] theorem Tag.name_opening (name : String) : (opening name).name = name := rfl

@[simp] theorem Tag.name_closing (name : String) : (closing name).name = name := rfl

/-- The tag that a `<` begins, in front of the given characters. -/
def tagAt : List Char → Tag
  | '/' :: rest => .closing (String.ofList (rest.takeWhile continuesName))
  | rest => .opening (String.ofList (rest.takeWhile continuesName))

def tagsOf : List Char → List Tag
  | [] => []
  | c :: rest => if c = '<' then tagAt rest :: tagsOf rest else tagsOf rest

/-- The tags of a text, one for each `<` in it. -/
def tags (text : String) : List Tag :=
  tagsOf text.toList

/-- Characters with which no name goes on, and no tag that has just begun. -/
def Apart (text : List Char) : Prop :=
  ∀ c ∈ text.head?, c ≠ '/' ∧ continuesName c = false

section Tags

variable {front back : List Char} {name text rest : String}

theorem apart_nil : Apart [] := by simp [Apart]

theorem apart_append {mark : String} (hmark : mark ∈ ["\n", " ", ">", "'"]) (rest : String) :
    Apart (mark ++ rest).toList := by
  have hfirst (c : Char) (hc : c ≠ '/' ∧ continuesName c = false) (cs : List Char) :
      Apart (c :: cs) := by
    rintro d ⟨⟩
    exact hc
  rw [String.toList_append]
  simp only [List.mem_cons, List.not_mem_nil, or_false] at hmark
  obtain rfl | rfl | rfl | rfl := hmark
  · exact hfirst '\n' ⟨by decide, rfl⟩ _
  · exact hfirst ' ' ⟨by decide, rfl⟩ _
  · exact hfirst '>' ⟨by decide, rfl⟩ _
  · exact hfirst '\'' ⟨by decide, rfl⟩ _

theorem takeWhile_apart (hback : Apart back) :
    (front ++ back).takeWhile continuesName = front.takeWhile continuesName := by
  induction front with
  | nil =>
    cases back with
    | nil => rfl
    | cons c back => simp [(hback c rfl).2]
  | cons c front ih => rw [List.cons_append, List.takeWhile_cons, List.takeWhile_cons, ih]

theorem tagAt_of_ne {c : Char} (hc : c ≠ '/') :
    tagAt (c :: back) = .opening (String.ofList ((c :: back).takeWhile continuesName)) := by
  unfold tagAt
  split
  · next heq => exact absurd (List.cons.inj heq).1 hc
  · rfl

theorem tagAt_append (hback : Apart back) : tagAt (front ++ back) = tagAt front := by
  have hwhile (front : List Char) :
      (front ++ back).takeWhile continuesName = front.takeWhile continuesName :=
    takeWhile_apart hback
  cases front with
  | nil =>
    cases back with
    | nil => rfl
    | cons c back =>
      rw [List.nil_append, tagAt_of_ne (hback c rfl).1, ← List.nil_append (c :: back), hwhile]
      rfl
  | cons c front =>
    by_cases hc : c = '/'
    · subst hc
      rw [List.cons_append, tagAt, tagAt, hwhile]
    · rw [List.cons_append, tagAt_of_ne hc, tagAt_of_ne hc, ← List.cons_append, hwhile]

theorem tagsOf_append (hback : Apart back) : tagsOf (front ++ back) = tagsOf front ++ tagsOf back := by
  induction front with
  | nil => rfl
  | cons c front ih =>
    rw [List.cons_append, tagsOf, tagsOf, ih, tagAt_append hback]
    split <;> rfl

theorem tagsOf_of_notMem (hfront : '<' ∉ front) : tagsOf (front ++ back) = tagsOf back := by
  induction front with
  | nil => rfl
  | cons c front ih =>
    obtain ⟨hc, hfront⟩ := not_or.1 (mt List.mem_cons.2 hfront)
    rw [List.cons_append, tagsOf, if_neg (Ne.symm hc), ih hfront]

theorem tagAt_mem_tagsOf : tagAt back ∈ tagsOf (front ++ '<' :: back) := by
  induction front with
  | nil =>
    rw [List.nil_append, tagsOf, if_pos rfl]
    exact List.mem_cons_self
  | cons c front ih =>
    rw [List.cons_append, tagsOf]
    split
    · exact List.mem_cons_of_mem _ ih
    · exact ih

theorem tags_append (hrest : Apart rest.toList) : tags (text ++ rest) = tags text ++ tags rest := by
  rw [tags, String.toList_append, tagsOf_append hrest]
  rfl

theorem tags_append_of_notMem (htext : '<' ∉ text.toList) : tags (text ++ rest) = tags rest := by
  rw [tags, String.toList_append, tagsOf_of_notMem htext]
  rfl

theorem tags_of_notMem (htext : '<' ∉ text.toList) : tags text = [] := by
  rw [← String.append_empty (s := text), tags_append_of_notMem htext]
  rfl

theorem takeWhile_name (hname : isName name) (hback : Apart back) :
    String.ofList ((name.toList ++ back).takeWhile continuesName) = name := by
  have hall : name.toList.takeWhile continuesName = name.toList :=
    List.takeWhile_eq_self_iff.2 fun _ hc => continuesName_of_isName hname hc
  rw [takeWhile_apart hback, hall, String.ofList_toList]

theorem prefix_takeWhile_name (hname : isName name) (back : List Char) :
    name.toList <+: (String.ofList ((name.toList ++ back).takeWhile continuesName)).toList := by
  rw [String.toList_ofList,
    List.takeWhile_append_of_pos fun _ hc => continuesName_of_isName hname hc]
  exact List.prefix_append _ _

theorem lt_notMem_name (hname : isName name) : '<' ∉ name.toList :=
  fun hmem => absurd (continuesName_of_isName hname hmem) (by decide)

theorem tags_startTag (hname : isName name) (hrest : Apart rest.toList) :
    tags ("<" ++ name ++ rest) = .opening name :: tags rest := by
  have hchars : ("<" ++ name ++ rest).toList = '<' :: (name.toList ++ rest.toList) := by simp
  have hfirst : tagAt (name.toList ++ rest.toList) = .opening name := by
    have hwhole := takeWhile_name hname hrest
    cases hcs : name.toList with
    | nil => simp [isName, hcs] at hname
    | cons c cs =>
      have hc : c ≠ '/' := by
        rintro rfl
        exact absurd (continuesName_of_isName hname (hcs ▸ List.mem_cons_self)) (by decide)
      rw [hcs] at hwhole
      rw [List.cons_append, tagAt_of_ne hc, ← List.cons_append, hwhole]
  rw [tags, hchars, tagsOf, if_pos rfl, hfirst, tagsOf_of_notMem (lt_notMem_name hname)]
  rfl

end Tags

/-- Tags among which every element of a name that is started is ended, and no other one. -/
inductive Nested (name : String) : List Tag → Prop where
  | nil : Nested name []
  | other {tag : Tag} {rest : List Tag} (hother : tag.name ≠ name) (hrest : Nested name rest) :
      Nested name (tag :: rest)
  | element {inner rest : List Tag} (hinner : Nested name inner) (hrest : Nested name rest) :
      Nested name (.opening name :: inner ++ .closing name :: rest)

/-- The number of elements of a name that are open behind a tag, given that in front of it. An element
    that has not been started cannot be ended. -/
def Tag.openAfter (name : String) (depth : Nat) : Tag → Option Nat
  | opening other => if other = name then some (depth + 1) else some depth
  | closing other =>
    if other = name then (if depth = 0 then none else some (depth - 1)) else some depth

def openAfter (name : String) (depth : Nat) (tags : List Tag) : Option Nat :=
  tags.foldlM (Tag.openAfter name) depth

section Nested

variable {name : String} {front back rest : List Tag}

theorem openAfter_append (depth : Nat) (front back : List Tag) :
    openAfter name depth (front ++ back) =
      (openAfter name depth front).bind fun deeper => openAfter name deeper back :=
  List.foldlM_append

theorem openAfter_other {tag : Tag} (hother : tag.name ≠ name) (depth : Nat) :
    openAfter name depth (tag :: rest) = openAfter name depth rest := by
  have hsame : tag.openAfter name depth = some depth := by
    cases tag with
    | opening other => exact if_neg hother
    | closing other => exact if_neg hother
  rw [openAfter, List.foldlM_cons, hsame]
  rfl

theorem openAfter_opening (depth : Nat) :
    openAfter name depth (.opening name :: rest) = openAfter name (depth + 1) rest := by
  rw [openAfter, List.foldlM_cons, Tag.openAfter, if_pos rfl]
  rfl

theorem openAfter_closing (depth : Nat) :
    openAfter name depth (.closing name :: rest) =
      if depth = 0 then none else openAfter name (depth - 1) rest := by
  rw [openAfter, List.foldlM_cons, Tag.openAfter, if_pos rfl]
  split <;> rfl

/-- Nested elements leave the depth as it is. -/
theorem Nested.openAfter {tags : List Tag} (htags : Nested name tags) (depth : Nat) :
    openAfter name depth tags = some depth := by
  induction htags generalizing depth with
  | nil => rfl
  | other hother _ ih => rw [openAfter_other hother, ih]
  | element _ _ ihInner ihRest =>
    rw [List.cons_append, openAfter_opening, openAfter_append, ihInner, Option.bind_some,
      openAfter_closing, if_neg (Nat.succ_ne_zero depth), Nat.add_sub_cancel, ihRest]

/-- Tags that end a number of elements which were open in front of them. -/
inductive Closes (name : String) : Nat → List Tag → Prop where
  | nested {tags : List Tag} (htags : Nested name tags) : Closes name 0 tags
  | closed {depth : Nat} {inner rest : List Tag} (hinner : Nested name inner)
      (hrest : Closes name depth rest) : Closes name (depth + 1) (inner ++ .closing name :: rest)

theorem Closes.other {tag : Tag} {depth : Nat} (hother : tag.name ≠ name)
    (hrest : Closes name depth rest) : Closes name depth (tag :: rest) := by
  cases hrest with
  | nested htags => exact .nested (.other hother htags)
  | closed hinner hrest => exact .closed (.other hother hinner) hrest

theorem Nested.append (hfront : Nested name front) (hback : Nested name back) :
    Nested name (front ++ back) := by
  induction hfront with
  | nil => exact hback
  | other hother _ ih => exact .other hother ih
  | element hinner _ _ ih =>
    rw [List.append_assoc]
    exact .element hinner ih

/-- One more element is open in front of what a started element follows. -/
theorem Closes.opening {depth : Nat} (hrest : Closes name (depth + 1) rest) :
    Closes name depth (.opening name :: rest) := by
  obtain ⟨inner, outer, rfl, hinner, houter⟩ : ∃ inner outer, rest = inner ++ .closing name :: outer ∧
      Nested name inner ∧ Closes name depth outer := by
    cases hrest with
    | closed hinner hrest => exact ⟨_, _, rfl, hinner, hrest⟩
  cases houter with
  | nested htags => exact .nested (.element hinner htags)
  | @closed depth within outer hwithin houter =>
    have hfront : Nested name (.opening name :: inner ++ .closing name :: within) :=
      .element hinner hwithin
    have hsame : Tag.opening name :: (inner ++ .closing name :: (within ++ .closing name :: outer)) =
        (.opening name :: inner ++ .closing name :: within) ++ .closing name :: outer := by simp
    rw [hsame]
    exact .closed hfront houter

theorem closes_of_openAfter {depth : Nat} {tags : List Tag}
    (htags : openAfter name depth tags = some 0) : Closes name depth tags := by
  induction tags generalizing depth with
  | nil =>
    obtain rfl : depth = 0 := Option.some.inj htags
    exact .nested .nil
  | cons tag rest ih =>
    by_cases hname : tag.name = name
    · cases tag with
      | opening other =>
        obtain rfl : other = name := hname
        rw [openAfter_opening] at htags
        exact (ih htags).opening
      | closing other =>
        obtain rfl : other = name := hname
        rw [openAfter_closing] at htags
        cases depth with
        | zero => cases htags
        | succ depth => exact .closed .nil (ih htags)
    · rw [openAfter_other hname] at htags
      exact (ih htags).other hname

/-- Elements are nested if and only if counting the open ones ends where it began. -/
theorem nested_iff {tags : List Tag} : Nested name tags ↔ openAfter name 0 tags = some 0 := by
  refine ⟨fun htags => htags.openAfter 0, fun htags => ?_⟩
  cases closes_of_openAfter htags with
  | nested htags => exact htags

instance (tags : List Tag) : Decidable (Nested name tags) :=
  decidable_of_iff _ nested_iff.symm

theorem nested_append_iff (hback : Nested name back) :
    Nested name (front ++ back) ↔ Nested name front := by
  rw [nested_iff, nested_iff, openAfter_append]
  cases openAfter name 0 front with
  | none => exact Iff.rfl
  | some depth => rw [Option.bind_some, hback.openAfter]

theorem nested_cons_iff {tag : Tag} (hother : tag.name ≠ name) :
    Nested name (tag :: rest) ↔ Nested name rest := by
  rw [nested_iff, nested_iff, openAfter_other hother]

theorem Nested.of_others {tags : List Tag} (htags : ∀ tag ∈ tags, tag.name ≠ name) :
    Nested name tags := by
  induction tags with
  | nil => exact .nil
  | cons tag rest ih =>
    obtain ⟨htag, hrest⟩ := List.forall_mem_cons.1 htags
    exact .other htag (ih hrest)

end Nested

end SequenceChart.Xml
