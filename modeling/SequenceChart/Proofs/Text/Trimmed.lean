import Mathlib.Data.List.DropRight
import SequenceChart.Text.Blank

namespace SequenceChart.Text

variable {skip margin : Char → Bool} {cs : List Char}

theorem trimEnd_eq_rdropWhile (skip : Char → Bool) (cs : List Char) :
    trimEnd skip cs = cs.rdropWhile skip := rfl

theorem dropWhile_of_head? (hcs : ∀ c ∈ cs.head?, skip c = false) : cs.dropWhile skip = cs := by
  cases cs with
  | nil => rfl
  | cons c cs => exact List.dropWhile_cons_of_neg (by simp [hcs c rfl])

theorem trim_of_forall (hcs : ∀ c ∈ cs, skip c = false) : trim skip cs = cs := by
  rw [trim, dropWhile_of_head? fun c hc => hcs c (List.mem_of_head? hc), trimEnd_eq_rdropWhile,
    List.rdropWhile_eq_self_iff]
  exact fun hfilled => by simp [hcs _ (List.getLast_mem hfilled)]

theorem trim_eq_nil_iff : trim skip cs = [] ↔ ∀ c ∈ cs, skip c = true := by
  rw [trim, trimEnd_eq_rdropWhile, List.rdropWhile_eq_nil_iff]
  constructor
  · intro hrest c hc
    rw [← List.takeWhile_append_dropWhile (p := skip) (l := cs)] at hc
    obtain hc | hc := List.mem_append.1 hc
    · exact List.mem_takeWhile_imp hc
    · exact hrest c hc
  · intro hcs c hc
    exact hcs c ((List.dropWhile_suffix skip).subset hc)

/-- What is skipped in front of a text may go before the text is trimmed. -/
theorem trim_dropWhile (hmargin : ∀ c, margin c = true → skip c = true) :
    trim skip (cs.dropWhile margin) = trim skip cs := by
  have hstart : ∀ c ∈ cs.takeWhile margin, skip c = true := fun c hc =>
    hmargin c (List.mem_takeWhile_imp hc)
  have hdrop : (cs.takeWhile margin ++ cs.dropWhile margin).dropWhile skip =
      (cs.dropWhile margin).dropWhile skip := List.dropWhile_append_of_pos hstart
  rw [List.takeWhile_append_dropWhile] at hdrop
  rw [trim, trim, hdrop]

theorem head?_trimEnd (hfilled : trimEnd skip cs ≠ []) : (trimEnd skip cs).head? = cs.head? := by
  obtain ⟨back, hback⟩ := List.rdropWhile_prefix skip cs
  rw [← trimEnd_eq_rdropWhile] at hback
  obtain ⟨c, rest, htrim⟩ := List.exists_cons_of_ne_nil hfilled
  rw [htrim, ← hback, htrim]
  rfl

/-- A text need only be trimmed at its end exactly if nothing is to be skipped at its start, unless
    all of it is skipped. -/
theorem trimEnd_eq_trim_iff (hfilled : trimEnd skip cs ≠ []) :
    trimEnd skip cs = trim skip cs ↔ ∀ c ∈ cs.head?, skip c = false := by
  constructor
  · intro heq c hc
    have htrim : trimEnd skip (cs.dropWhile skip) ≠ [] := by
      rw [← trim, ← heq]
      exact hfilled
    have hhead : (cs.dropWhile skip).head? = some c := by
      rw [← head?_trimEnd htrim, ← trim, ← heq, head?_trimEnd hfilled]
      exact hc
    have hstop := List.head?_dropWhile_not skip cs
    rw [hhead] at hstop
    simpa using hstop
  · intro hcs
    rw [trim, dropWhile_of_head? hcs]

end SequenceChart.Text
