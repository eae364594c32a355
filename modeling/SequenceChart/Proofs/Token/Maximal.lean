import SequenceChart.Proofs.Statement.Origins

namespace SequenceChart

open Text Lexeme

/-- A character that belongs to no run without meaning: white space, a character that starts a name,
    or one of four marks. -/
def Text.EndsRun (c : Char) : Prop :=
  isBlank c = true ∨ startsName c = true ∨ c ∈ [':', '-', '"', '#']

namespace Token

/-- Whether a token is a name or a keyword that stands in a text without quote marks. -/
def Unquoted (text : List Char) (token : Token) : Prop :=
  (token.kind = .name ∨ ∃ keyword, token.kind = .keyword keyword) ∧
    (token.slice text).head? ≠ some '"'

/-- Whether a token is a run of characters of a text without meaning, and not a name that lacks its
    second quote mark. -/
def IsRun (text : List Char) (token : Token) : Prop :=
  token.kind = .invalid ∧ (token.slice text).head? ≠ some '"'

/-- Every token is as long as it can be. A word goes on up to the first character that is neither one
    that may start a name nor a combining mark, an arrow is the longest that stands at its place, and
    a run without meaning goes on up to a character or a comment that ends it, so that none stands
    right behind another one. -/
structure Maximal (text : List Char) (tokens : List Token) : Prop where
  word : ∀ token ∈ tokens, token.Unquoted text →
    (∃ c body, token.slice text = c :: body ∧ startsName c = true ∧
      ∀ d ∈ body, startsName d = true ∨ isMark d = true) ∧
    ∀ d ∈ (token.behind text).head?, startsName d = false ∧ isMark d = false
  arrow : ∀ token ∈ tokens, token.kind = .arrow → token.value.toList ∈ arrows ∧
    token.value.toList <+: text.drop token.offset.toNat ∧
    ∀ other ∈ arrows, other <+: text.drop token.offset.toNat →
      other.length ≤ token.value.toList.length
  run : ∀ token ∈ tokens, token.IsRun text →
    (∀ c ∈ token.slice text, ¬ EndsRun c) ∧ ¬ ['/', '/'] <:+: token.slice text ∧
    (token.behind text = [] ∨ (∃ c ∈ (token.behind text).head?, EndsRun c) ∨
      ['/', '/'] <+: token.behind text)
  unsplit : ∀ first ∈ tokens, ∀ second ∈ tokens, first.kind = .invalid → second.IsRun text →
    first.offset + first.length ≠ second.offset

end Token

theorem endsInvalid_iff {c : Char} {rest : List Char} :
    endsInvalid c rest = true ↔ EndsRun c ∨ ['/', '/'] <+: c :: rest := by
  have hcomment : ['/', '/'] <+: c :: rest ↔ c = '/' ∧ rest.head? = some '/' := by
    rw [List.cons_prefix_cons, eq_comm (b := c)]
    cases rest with
    | nil => simp
    | cons d rest => simp [List.cons_prefix_cons, eq_comm (b := d)]
  simp only [endsInvalid, startsComment, EndsRun, hcomment, Bool.or_eq_true, Bool.and_eq_true,
    decide_eq_true_eq, List.mem_cons, List.not_mem_nil, or_false]
  tauto

namespace Lexeme

open Token

variable {seen : List TokenKind} {kind : TokenKind} {value covered rest : List Char}

theorem Reads.word_spec (hreads : Reads seen (.token kind value covered) rest)
    (hkind : kind = .name ∨ ∃ keyword, kind = .keyword keyword) (hquote : covered.head? ≠ some '"') :
    (∃ c body, covered = c :: body ∧ startsName c = true ∧ ∀ d ∈ body, continuesName d = true) ∧
      ∀ d ∈ rest.head?, continuesName d = false := by
  cases hreads with
  | quoted hname => exact absurd rfl hquote
  | @word c body _ hstart hbody hend => exact ⟨⟨c, body, rfl, hstart, hbody⟩, hend⟩
  | _ => simp at hkind

theorem Reads.arrow_spec (hreads : Reads seen (.token .arrow value covered) rest) :
    covered = value ∧ value ∈ arrows ∧
      ∀ other ∈ arrows, other <+: value ++ rest → other.length ≤ value.length := by
  generalize hkind : TokenKind.arrow = kind at hreads
  cases hreads with
  | arrow harrow hlongest => exact ⟨rfl, harrow, hlongest⟩
  | word => exact absurd hkind.symm (wordKind_ne _ _ (by simp) (by simp))
  | _ => cases hkind

/-- A token without meaning is a name that lacks its second quote mark and takes the rest of its
    line, or a run of characters of which none ends it but the one behind it. -/
theorem Reads.invalid_cases (hreads : Reads seen (.token .invalid value covered) rest) :
    covered.head? = some '"' ∧ AtLineEnd rest ∨
      covered ≠ [] ∧
        (∀ front c back, covered = front ++ c :: back → endsInvalid c (back ++ rest) = false) ∧
        ∀ c tail, rest = c :: tail → endsInvalid c tail = true := by
  generalize hkind : TokenKind.invalid = kind at hreads
  cases hreads with
  | unterminated hbody hend => exact .inl ⟨rfl, hend⟩
  | word => exact absurd hkind.symm (wordKind_ne _ _ (by simp) (by simp))
  | invalid hne hrun hend => exact .inr ⟨hne, hrun, hend⟩
  | _ => cases hkind

/-- What ends a token without meaning also ends a run without meaning. -/
theorem Reads.endsInvalid_of_behind {c : Char}
    (hreads : Reads seen (.token .invalid value covered) (c :: rest)) : endsInvalid c rest = true := by
  obtain ⟨_, hend⟩ | ⟨_, _, hend⟩ := hreads.invalid_cases
  · simp [endsInvalid, isBlank_of_breaksLine (hend c rest rfl)]
  · exact hend c rest rfl

/-- A run without meaning holds nothing that ends it, and ends at the first such thing. -/
theorem Reads.run_spec (hreads : Reads seen (.token .invalid value covered) rest)
    (hquote : covered.head? ≠ some '"') :
    (∀ c ∈ covered, ¬ EndsRun c) ∧ ¬ ['/', '/'] <:+: covered ∧
      (rest = [] ∨ (∃ c ∈ rest.head?, EndsRun c) ∨ ['/', '/'] <+: rest) := by
  obtain ⟨hname, _⟩ | ⟨_, hrun, hend⟩ := hreads.invalid_cases
  · exact absurd hname hquote
  · have hinside {front back : List Char} {c : Char} (hcovered : covered = front ++ c :: back) :
        ¬ EndsRun c ∧ ¬ ['/', '/'] <+: c :: (back ++ rest) := by
      rw [← not_or, ← endsInvalid_iff, hrun front c back hcovered]
      exact Bool.false_ne_true
    refine ⟨fun c hc => ?_, ?_, ?_⟩
    · obtain ⟨front, back, hcovered⟩ := List.append_of_mem hc
      exact (hinside hcovered).1
    · rintro ⟨front, back, hcovered⟩
      have hslash : covered = front ++ '/' :: ('/' :: back) := by simp [← hcovered]
      exact (hinside hslash).2 ⟨back ++ rest, rfl⟩
    · cases rest with
      | nil => exact .inl rfl
      | cons c tail => exact .inr ((endsInvalid_iff.1 (hend c tail rfl)).imp_left fun hc => ⟨c, rfl, hc⟩)

end Lexeme

namespace Token

open TokenLine

/-- The tokens of every text are as long as they can be. -/
theorem ofText_maximal (text : String) : Maximal text.toList (ofText text) := by
  refine ⟨?_, ?_, ?_, ?_⟩
  · rintro token htoken ⟨hkind, hquote⟩
    have hinside : token.kind ≠ .lineBreak ∧ token.kind ≠ .endOfInput := by
      obtain hkind | ⟨keyword, hkind⟩ := hkind <;> simp [hkind]
    obtain ⟨_, _, _, _, _, _, _, _, hreads⟩ := exists_reads_of_mem htoken hinside.1 hinside.2
    rw [hreads.slice_eq] at hquote
    obtain ⟨hword, hend⟩ := hreads.reads.word_spec hkind hquote
    rw [hreads.slice_eq, hreads.behind_eq]
    simpa only [continuesName, Bool.or_eq_true, Bool.or_eq_false_iff] using And.intro hword hend
  · intro token htoken hkind
    obtain ⟨_, _, _, _, _, _, _, _, hreads⟩ :=
      exists_reads_of_mem htoken (by simp [hkind]) (by simp [hkind])
    obtain ⟨rfl, harrow, hlongest⟩ := (hkind ▸ hreads.reads).arrow_spec
    rw [hreads.value_eq, String.toList_ofList, hreads.drop_offset]
    exact ⟨harrow, List.prefix_append .., hlongest⟩
  · rintro token htoken ⟨hkind, hquote⟩
    obtain ⟨_, _, _, _, _, _, _, _, hreads⟩ :=
      exists_reads_of_mem htoken (by simp [hkind]) (by simp [hkind])
    rw [hreads.slice_eq] at hquote
    rw [hreads.slice_eq, hreads.behind_eq]
    exact (hkind ▸ hreads.reads).run_spec hquote
  · rintro first hfirst second hsecond hinvalid ⟨hkind, hquote⟩ hadjacent
    obtain ⟨_, _, _, _, _, _, _, _, hreads⟩ :=
      exists_reads_of_mem hfirst (by simp [hinvalid]) (by simp [hinvalid])
    obtain ⟨_, _, _, _, _, _, _, _, hrun⟩ :=
      exists_reads_of_mem hsecond (by simp [hkind]) (by simp [hkind])
    rw [hrun.slice_eq] at hquote
    obtain ⟨hname, _⟩ | ⟨hfilled, hinside, _⟩ := (hkind ▸ hrun.reads).invalid_cases
    · exact hquote hname
    · -- The first character of the run would have to end the token in front of it.
      obtain ⟨c, body, rfl⟩ := List.exists_cons_of_ne_nil hfilled
      have hbehind := hreads.behind_eq
      rw [behind, hadjacent, hrun.drop_offset, List.cons_append] at hbehind
      have hbefore := hreads.reads
      rw [hinvalid, ← hbehind] at hbefore
      have hends := hbefore.endsInvalid_of_behind
      rw [hinside [] c body rfl] at hends
      cases hends

end Token

end SequenceChart
