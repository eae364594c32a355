import Mathlib.Tactic.Common
import SequenceChart.Theme.Palette

namespace SequenceChart

theorem exists_bind_eq_ok_iff {E A B : Type} {x : Except E A} {f : A → Except E B} :
    (∃ b, (x >>= f) = .ok b) ↔ ∃ a, x = .ok a ∧ ∃ b, f a = .ok b := by
  cases x <;> simp [bind, Except.bind]

theorem exists_mapError_eq_ok_iff {E F A : Type} {x : Except E A} {f : E → F} :
    (∃ a, x.mapError f = .ok a) ↔ ∃ a, x = .ok a := by
  cases x <;> simp [Except.mapError]

section

variable (α : Type) [Div α] [∀ n, OfNat α n] [Coordinate α]

/-- A text that is a colour. -/
def Color.Readable (text : String) : Prop :=
  ∃ color : Color α, Color.ofHex text = .ok color

/-- A colour that is left out, or that can be read. -/
def Color.Accepted (given : Option String) : Prop :=
  ∀ text ∈ nonempty? given, Color.Readable α text

end

variable {α : Type} [Div α] [∀ n, OfNat α n] [Coordinate α]

/-- The options name a theme that there is not, or give a colour that cannot be read. -/
def Options.Rejected (options : Options α) : Prop :=
  (∃ name ∈ options.theme, Colors.themes.lookup name = none) ∨
    ∃ given ∈ [options.background, options.foreground, options.muted, options.line, options.accent,
      options.surface, options.border], ∃ text ∈ nonempty? given, ¬ Color.Readable α text

theorem Options.not_rejected_iff {options : Options α} :
    ¬ options.Rejected ↔ (∀ name ∈ options.theme, Colors.themes.lookup name ≠ none) ∧
      Color.Accepted α options.background ∧ Color.Accepted α options.foreground ∧
      Color.Accepted α options.muted ∧ Color.Accepted α options.line ∧
      Color.Accepted α options.accent ∧ Color.Accepted α options.surface ∧
      Color.Accepted α options.border := by
  simp [Rejected, Color.Accepted]

theorem nonempty?_eq_some {text : String} {given : Option String}
    (hgiven : nonempty? given = some text) : nonempty? (some text) = some text := by
  rw [nonempty?, Option.filter_eq_some_iff] at hgiven ⊢
  exact ⟨rfl, hgiven.2⟩

namespace Color

/-- An explicit colour laid over a readable one. -/
theorem readable_overlay_iff {base : String} (hbase : Readable α base) {given : Option String} :
    Readable α ((nonempty? given).getD base) ↔ Accepted α given := by
  rw [Accepted]
  cases nonempty? given <;> simp [hbase]

theorem accepted_overlay_iff {base : Option String} (hbase : Accepted α base)
    {given : Option String} :
    Accepted α ((nonempty? given).or base) ↔ Accepted α given := by
  cases hgiven : nonempty? given with
  | none => simpa [Accepted, hgiven] using hbase
  | some text => simp [Accepted, hgiven, nonempty?_eq_some hgiven]

end Color

namespace Palette

variable [Add α] [Sub α] [Mul α]

theorem pick_eq_ok_iff {foreground background : Color α} {explicit : Option String} {percent : α} :
    (∃ color, pick foreground background explicit percent = .ok color) ↔
      Color.Accepted α explicit := by
  rw [pick, Color.Accepted]
  cases nonempty? explicit <;> simp [Color.Readable]

/-- Colours make a palette if each of them can be read. -/
theorem ofColors_eq_ok_iff {colors : Colors} :
    (∃ palette : Palette α, ofColors colors = .ok palette) ↔
      Color.Readable α colors.background ∧ Color.Readable α colors.foreground ∧
        Color.Accepted α colors.muted ∧ Color.Accepted α colors.line ∧
        Color.Accepted α colors.accent ∧ Color.Accepted α colors.surface ∧
        Color.Accepted α colors.border := by
  have hpure (palette : Palette α) : ∃ other, (pure palette : Except ColorError _) = .ok other :=
    ⟨palette, rfl⟩
  simp only [ofColors, exists_bind_eq_ok_iff, hpure, and_true, pick_eq_ok_iff, exists_and_right]
  exact Iff.rfl

theorem ofColors_theme : ∀ colors ∈ Colors.default :: Colors.themes.map Prod.snd,
    ∃ palette : Palette α, ofColors colors = .ok palette := by
  simp only [Colors.themes, List.map_cons, List.map_nil, List.forall_mem_cons]
  and_intros
  all_goals first | exact ⟨_, rfl⟩ | exact List.forall_mem_nil _

theorem ofTheme_mem {theme : Option String} {colors : Colors}
    (htheme : Colors.ofTheme theme = .ok colors) :
    colors ∈ Colors.default :: Colors.themes.map Prod.snd := by
  cases theme with
  | none =>
    obtain rfl := Except.ok.inj htheme
    exact List.mem_cons_self
  | some name =>
    rw [Colors.ofTheme] at htheme
    split at htheme
    · next hlookup =>
      obtain rfl := Except.ok.inj htheme
      obtain ⟨front, back, hthemes, -⟩ := List.lookup_eq_some_iff.1 hlookup
      rw [hthemes]
      simp
    · cases htheme

theorem ofTheme_eq_ok_iff {theme : Option String} :
    (∃ colors, Colors.ofTheme theme = .ok colors) ↔
      ∀ name ∈ theme, Colors.themes.lookup name ≠ none := by
  cases theme with
  | none => simp [Colors.ofTheme]
  | some name =>
    simp only [Colors.ofTheme, Option.mem_def, Option.some.injEq, forall_eq']
    cases Colors.themes.lookup name <;> simp

/-- The colours of a theme can be read, so that those laid over them decide. -/
theorem ofColors_overlay_iff {base : Colors}
    (hbase : base ∈ Colors.default :: Colors.themes.map Prod.snd) {options : Options α} :
    (∃ palette : Palette α, ofColors (base.overlay options) = .ok palette) ↔
      Color.Accepted α options.background ∧ Color.Accepted α options.foreground ∧
        Color.Accepted α options.muted ∧ Color.Accepted α options.line ∧
        Color.Accepted α options.accent ∧ Color.Accepted α options.surface ∧
        Color.Accepted α options.border := by
  obtain ⟨hbackground, hforeground, hmuted, hline, haccent, hsurface, hborder⟩ :=
    ofColors_eq_ok_iff.1 (ofColors_theme (α := α) base hbase)
  simp only [ofColors_eq_ok_iff, Colors.overlay, Color.readable_overlay_iff hbackground,
    Color.readable_overlay_iff hforeground, Color.accepted_overlay_iff hmuted,
    Color.accepted_overlay_iff hline, Color.accepted_overlay_iff haccent,
    Color.accepted_overlay_iff hsurface, Color.accepted_overlay_iff hborder]

/-- The options make a palette exactly if they are not rejected. -/
theorem ofOptions_eq_ok_iff {options : Options α} :
    (∃ palette, ofOptions options = .ok palette) ↔ ¬ options.Rejected := by
  rw [Options.not_rejected_iff, ← ofTheme_eq_ok_iff, ofOptions, Colors.ofOptions]
  cases htheme : Colors.ofTheme options.theme with
  | error name => simp [bind, Except.bind, Except.mapError]
  | ok base =>
    have hknown : ∃ colors, (Except.ok base : Except String Colors) = .ok colors := ⟨base, rfl⟩
    rw [and_iff_right hknown, ← ofColors_overlay_iff (ofTheme_mem htheme)]
    exact exists_mapError_eq_ok_iff

end Palette

end SequenceChart
