import SequenceChart.Proofs.Svg.Values
import SequenceChart.Proofs.Xml.Tags
import SequenceChart.Svg.Document

namespace SequenceChart.Svg

open Xml Text

section Lines

variable {lines : List String}

theorem joinLines_cons (first : String) (rest : List String) :
    joinLines (first :: rest) = first ++ String.join (rest.map ("\n" ++ ·)) := by
  induction rest generalizing first with
  | nil => simp [joinLines]
  | cons second rest ih =>
    have hsecond := ih second
    rw [joinLines] at hsecond ⊢
    rw [String.intercalate_cons_cons, hsecond, List.map_cons, String.join_cons]
    simp only [String.append_assoc]

/-- A break apart from the line in front of it, and nothing otherwise. -/
theorem apart_join : Apart (String.join (lines.map ("\n" ++ ·))).toList := by
  cases lines with
  | nil =>
    rw [List.map_nil, String.join_nil]
    exact apart_nil
  | cons line rest =>
    rw [List.map_cons, String.join_cons, String.append_assoc]
    exact apart_append (by decide) _

theorem tags_join : tags (String.join (lines.map ("\n" ++ ·))) = lines.flatMap tags := by
  have hbreak : '<' ∉ "\n".toList := by decide
  induction lines with
  | nil => exact tags_of_notMem (by simp)
  | cons line rest ih =>
    rw [List.map_cons, String.join_cons, String.append_assoc, tags_append_of_notMem hbreak,
      tags_append apart_join, ih, List.flatMap_cons]

/-- No tag goes over the end of a line. -/
theorem tags_joinLines : tags (joinLines lines) = lines.flatMap tags := by
  cases lines with
  | nil => rfl
  | cons first rest => rw [joinLines_cons, tags_append apart_join, tags_join, List.flatMap_cons]

theorem allowed_joinLines {lines : List String} :
    Allowed (joinLines lines) ↔ ∀ line ∈ lines, Allowed line := by
  cases lines with
  | nil => simp [joinLines, Allowed]
  | cons first rest =>
    rw [joinLines_cons, allowed_append, List.forall_mem_cons]
    refine and_congr_right fun _ => ?_
    have hbreak : Allowed "\n" := by decide
    induction rest with
    | nil => exact iff_of_true (by decide) (List.forall_mem_nil _)
    | cons second rest ih =>
      rw [List.map_cons, String.join_cons, allowed_append, allowed_append, List.forall_mem_cons]
      exact and_congr (and_iff_right hbreak) ih

end Lines

/-- The style sheet of a family up to the quote in front of its name. -/
def sheetFront (family : String) : String :=
  joinLines ["",
    "  @import url('https://fonts.googleapis.com/css2?family=" ++ percentEncoded family ++
      ":wght@400;500;600;700&amp;display=swap');",
    "  text \x7b font-family: '"]

/-- The style sheet of a family from behind the quote that ends its name. -/
def sheetBack : String :=
  joinLines [", system-ui, sans-serif; \x7d", ""]

section Block

variable (family : String)

theorem styleBlock_eq : styleBlock family =
    "<style>" ++ (sheetFront family ++ family ++ "'" ++ sheetBack) ++ "</style>" := by
  have hrule : "', system-ui, sans-serif; \x7d" = "'" ++ ", system-ui, sans-serif; \x7d" := rfl
  simp only [styleBlock, sheetFront, sheetBack, joinLines_cons, List.map_cons, List.map_nil,
    String.join_cons, String.join_nil, hrule, String.append_assoc, String.append_empty,
    String.empty_append]

theorem address_percentEncoded :
    ∀ c ∈ (percentEncoded family).toList, isUnreserved c.toNat ∨ c = '%' := by
  have hbytes : ∀ n ∈ List.range 256, (percentByte n).all fun c => isUnreserved c.toNat ∨ c = '%' := by
    decide +kernel
  rw [percentEncoded, String.toList_ofList, List.forall_mem_flatMap]
  exact fun byte _ c hc =>
    of_decide_eq_true (List.all_eq_true.1 (hbytes _ (List.mem_range.2 byte.toNat_lt)) c hc)

theorem notMem_percentEncoded {c : Char} (hc : c ∈ ['<', '&']) :
    c ∉ (percentEncoded family).toList := by
  have hmarks : ∀ c ∈ ['<', '&'], ¬ (isUnreserved c.toNat ∨ c = '%') := by simp [isUnreserved]
  exact fun hmem => hmarks c hc (address_percentEncoded family c hmem)

theorem lt_notMem_sheetFront : '<' ∉ (sheetFront family).toList := by
  have haddress := notMem_percentEncoded family (show '<' ∈ ['<', '&'] by simp)
  simp [sheetFront, joinLines_cons, haddress]

theorem lt_notMem_sheetBack : '<' ∉ sheetBack.toList := by
  simp [sheetBack, joinLines_cons]

/-- A style block has its two tags, and between them those that are in the family. -/
theorem tags_styleBlock :
    tags (styleBlock family) = .opening "style" :: (tags family ++ [.closing "style"]) := by
  have hname : isName "style" := by decide
  have hmark : '<' ∉ ">".toList ∧ '<' ∉ "'".toList := by decide
  have hend : tags "</style>" = [.closing "style"] := by decide
  have hblock : styleBlock family =
      "<" ++ "style" ++ (">" ++ (sheetFront family ++ (family ++ ("'" ++ (sheetBack ++ "</style>"))))) := by
    rw [styleBlock_eq]
    simp only [String.append_assoc]
    rfl
  rw [hblock, tags_startTag hname (apart_append (by decide) _), tags_append_of_notMem hmark.1,
    tags_append_of_notMem (lt_notMem_sheetFront family), tags_append (apart_append (by decide) _),
    tags_append_of_notMem hmark.2, tags_append_of_notMem lt_notMem_sheetBack, hend]

end Block

variable {family : String}

theorem content_styleBlock (hfamily : Plain family) : Content (styleBlock family) := by
  have hbreak : Data "\n" := Plain.data (by decide)
  have hweights : Data ":wght@400;500;600;700&amp;display=swap');" := by
    have hfront : Data ":wght@400;500;600;700" := Plain.data (by decide)
    have hback : Data "display=swap');" := Plain.data (by decide)
    exact hfront.append (.reference (@Reference.entity "amp" (by decide)) hback)
  have haddress : Data ("  @import url('https://fonts.googleapis.com/css2?family=" ++
      Text.percentEncoded family) := by
    refine Plain.data (plain_append.2 ⟨?_, Text.plain_percentEncoded family⟩)
    decide
  have hrule : Data ("  text \x7b font-family: '" ++ family ++ "', system-ui, sans-serif; \x7d") := by
    refine Plain.data ?_
    simp only [plain_append, hfamily]
    decide
  have hinner := (hbreak.append (haddress.append hweights)).append ((hbreak.append hrule).append hbreak)
  have hcontent := Content.element (show isName "style" by decide) (@Attributes.none "" (by decide))
    (.of_data hinner) .empty
  have hbegin : "<style>" = "<" ++ ("style" ++ ("" ++ ">")) := rfl
  have hend : "</style>" = "</" ++ ("style" ++ ">") := rfl
  simp only [styleBlock, joinLines_cons, List.map_cons, List.map_nil, String.join_cons, String.join_nil,
    hbegin, hend]
  simpa only [String.append_assoc] using hcontent

theorem allowed_styleBlock (hfamily : Plain family) : Allowed (styleBlock family) := by
  simp only [styleBlock, joinLines_cons, List.map_cons, List.map_nil, String.join_cons, String.join_nil,
    allowed_append, hfamily.allowed, (Text.plain_percentEncoded family).allowed]
  decide

end SequenceChart.Svg
