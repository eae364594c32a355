import SequenceChart.Proofs.Color.Mixed

namespace SequenceChart

/-- What a colour of a palette is for. -/
inductive Role where
  | background
  | text
  | mutedText
  | line
  | arrow
  | nodeFill
  | nodeStroke
  | fragmentHeader
  | activationFill

namespace Role

/-- The enrichment colour that the options give for a role. -/
def given {α : Type} (options : Options α) : Role → Option String
  | mutedText => nonempty? options.muted
  | line => nonempty? options.line
  | arrow => nonempty? options.accent
  | nodeFill => nonempty? options.surface
  | nodeStroke => nonempty? options.border
  | background | text | fragmentHeader | activationFill => none

/-- The enrichment colour that a theme gives for a role. -/
def enriched (colors : Colors) : Role → Option String
  | mutedText => colors.muted
  | line => colors.line
  | arrow => colors.accent
  | nodeFill => colors.surface
  | nodeStroke => colors.border
  | background | text | fragmentHeader | activationFill => none

/-- The percentage of the foreground in the colour of a role that no enrichment colour is given for.
    The background itself has nothing of it, and text has nothing else. -/
def percent : Role → ℚ
  | background => 0
  | text => 100
  | mutedText => 60
  | line => 30
  | arrow => 60
  | nodeFill => 3
  | nodeStroke => 20
  | fragmentHeader => 5
  | activationFill => 8

theorem percent_bounds (role : Role) : 0 ≤ role.percent ∧ role.percent ≤ 100 := by
  cases role <;> norm_num [percent]

theorem enriched_overlay {α : Type} (base : Colors) (options : Options α) (role : Role) :
    role.enriched (base.overlay options) = (role.given options).or (role.enriched base) := by
  cases role <;> rfl

end Role

/-- All colours that are given are documented ones. -/
structure Colors.Documented (colors : Colors) : Prop where
  background : Color.Documented colors.background
  foreground : Color.Documented colors.foreground
  enriched : ∀ role : Role, ∀ text ∈ role.enriched colors, Color.Documented text

/-- The colour of a role. -/
def Palette.color {α : Type} (palette : Palette α) : Role → Color α
  | .background => palette.background
  | .text => palette.text
  | .mutedText => palette.mutedText
  | .line => palette.line
  | .arrow => palette.arrow
  | .nodeFill => palette.nodeFill
  | .nodeStroke => palette.nodeStroke
  | .fragmentHeader => palette.fragmentHeader
  | .activationFill => palette.activationFill

theorem Color.documented_iff {text : String} :
    Documented text ↔ (stripped text).length ∈ [3, 6, 8] ∧
      (stripped text).all (decide <| Text.IsHexDigit ·) = true := by
  simp [Documented]

namespace Palette

open Color

/-- The palette of options that are laid over a theme, in range. Its background, its text and the
    roles that the options or else the theme enrich have the colours that are given for them. All
    colours are proper and written with six digits, and those that are not enriched lie between the
    foreground and the background. It does not matter which of these two is mixed into the other
    one. -/
structure InRange (options : Options ℚ) (theme : Colors) (palette : Palette ℚ) : Prop where
  background : ofHex ((nonempty? options.background).getD theme.background) = .ok palette.background
  foreground : ofHex ((nonempty? options.foreground).getD theme.foreground) = .ok palette.text
  enriched : ∀ role : Role, ∀ text ∈ (role.given options).or (role.enriched theme),
    ofHex text = .ok (palette.color role)
  proper : ∀ role, (palette.color role).Proper
  written : ∀ role, IsHexText (palette.color role).toHex
  between : ∀ role : Role, role.given options = none → role.enriched theme = none →
    Between palette.text palette.background (palette.color role)
  mixed : ∀ percent, palette.text.mix palette.background percent =
    palette.background.mix palette.text (100 - percent)

/-- The colours of a palette, each of which is picked for its role. -/
theorem ofColors_color {colors : Colors} {palette : Palette ℚ}
    (hpalette : ofColors colors = .ok palette) :
    ofHex colors.background = .ok palette.background ∧ ofHex colors.foreground = .ok palette.text ∧
      ∀ role : Role, pick palette.text palette.background (role.enriched colors) role.percent =
        .ok (palette.color role) := by
  simp only [ofColors, bind_eq_ok_iff] at hpalette
  obtain ⟨background, hbackground, text, htext, muted, hmuted, line, hline, arrow, harrow, fill, hfill,
    stroke, hstroke, hpalette⟩ := hpalette
  obtain rfl := Except.ok.inj hpalette
  refine ⟨hbackground, htext, fun role => ?_⟩
  cases role with
  | background => exact congrArg Except.ok (mix_zero text background)
  | text => exact congrArg Except.ok (mix_hundred text background)
  | mutedText => exact hmuted
  | line => exact hline
  | arrow => exact harrow
  | nodeFill => exact hfill
  | nodeStroke => exact hstroke
  | fragmentHeader => rfl
  | activationFill => rfl

theorem exists_ofColors {colors : Colors} (hcolors : colors.Documented) :
    ∃ palette : Palette ℚ, ofColors colors = .ok palette := by
  have haccepted (role : Role) : Accepted ℚ (role.enriched colors) := by
    intro text htext
    exact (hcolors.enriched role text (Option.filter_eq_some_iff.1 htext).1).readable
  rw [ofColors_eq_ok_iff]
  exact ⟨hcolors.background.readable, hcolors.foreground.readable, haccepted .mutedText,
    haccepted .line, haccepted .arrow, haccepted .nodeFill, haccepted .nodeStroke⟩

section

variable {colors : Colors} {palette : Palette ℚ}

/-- A colour that is not enriched lies between the two that it is mixed of. -/
theorem between_of_ofColors (hpalette : ofColors colors = .ok palette) {role : Role}
    (hrole : role.enriched colors = none) :
    Between palette.text palette.background (palette.color role) := by
  obtain ⟨-, -, hpick⟩ := ofColors_color hpalette
  have hcolor := hpick role
  rw [hrole] at hcolor
  have hmix : palette.text.mix palette.background role.percent = palette.color role :=
    Except.ok.inj hcolor
  rw [← hmix]
  exact mix_between _ _ role.percent_bounds.1 role.percent_bounds.2

theorem ofHex_of_enriched (hcolors : colors.Documented) (hpalette : ofColors colors = .ok palette)
    {role : Role} {text : String} (htext : text ∈ role.enriched colors) :
    ofHex text = .ok (palette.color role) := by
  obtain ⟨-, -, hpick⟩ := ofColors_color hpalette
  have hcolor := hpick role
  have hgiven : nonempty? (role.enriched colors) = some text := by
    refine Option.filter_eq_some_iff.2 ⟨htext, decide_eq_true ?_⟩
    rintro rfl
    have hdigits := (documented_iff.1 (hcolors.enriched role "" htext)).1
    exact absurd hdigits (by decide)
  rw [pick, hgiven] at hcolor
  exact hcolor

theorem proper_of_ofColors (hcolors : colors.Documented) (hpalette : ofColors colors = .ok palette)
    (role : Role) : (palette.color role).Proper := by
  obtain ⟨hbackground, htext, hpick⟩ := ofColors_color hpalette
  have hcolor := hpick role
  rw [pick] at hcolor
  split at hcolor
  · next text hgiven =>
    have hrole := (Option.filter_eq_some_iff.1 hgiven).1
    exact (hcolors.enriched role text hrole).proper hcolor
  · have hmix : palette.text.mix palette.background role.percent = palette.color role :=
      Except.ok.inj hcolor
    rw [← hmix]
    exact (hcolors.foreground.proper htext).of_between (hcolors.background.proper hbackground)
      (mix_between _ _ role.percent_bounds.1 role.percent_bounds.2)

end

end Palette

namespace Colors

/-- The colours of the themes are documented ones. -/
theorem documented_of_theme {colors : Colors} (hcolors : colors ∈ default :: themes.map Prod.snd) :
    colors.Documented := by
  have hgrounds : ∀ colors ∈ default :: themes.map Prod.snd,
      Color.Documented colors.background ∧ Color.Documented colors.foreground := by
    simp only [Color.documented_iff]
    decide +kernel
  have hroles (role : Role) : ∀ colors ∈ default :: themes.map Prod.snd,
      ∀ text ∈ role.enriched colors, Color.Documented text := by
    simp only [Color.documented_iff]
    cases role <;> decide +kernel
  obtain ⟨hbackground, hforeground⟩ := hgrounds colors hcolors
  exact ⟨hbackground, hforeground, fun role => hroles role colors hcolors⟩

theorem documented_overlay {base : Colors} (hbase : base.Documented) {options : Options ℚ}
    (hgiven : ∀ given ∈ [options.background, options.foreground, options.line, options.accent,
      options.muted, options.surface, options.border], ∀ text ∈ nonempty? given, Color.IsHex text) :
    (base.overlay options).Documented := by
  simp only [List.forall_mem_cons] at hgiven
  obtain ⟨hbackground, hforeground, hline, haccent, hmuted, hsurface, hborder, -⟩ := hgiven
  have hlaid {given : Option String} (hgiven : ∀ text ∈ nonempty? given, Color.IsHex text)
      {text : String} (htext : Color.Documented text) :
      Color.Documented ((nonempty? given).getD text) := by
    cases hoption : nonempty? given with
    | none => exact htext
    | some other => exact (hgiven other hoption).documented
  refine ⟨hlaid hbackground hbase.background, hlaid hforeground hbase.foreground,
    fun role text htext => ?_⟩
  rw [Role.enriched_overlay, Option.mem_def, Option.or_eq_some_iff] at htext
  obtain htext | ⟨-, htext⟩ := htext
  · refine Color.IsHex.documented ?_
    cases role with
    | mutedText => exact hmuted text htext
    | line => exact hline text htext
    | arrow => exact haccent text htext
    | nodeFill => exact hsurface text htext
    | nodeStroke => exact hborder text htext
    | _ => cases htext
  · exact hbase.enriched role text htext

end Colors

namespace Palette

/-- Options that name no unknown theme, and whose colours are documented ones, give a palette in range.
    An empty text is not a colour, but counts as none. -/
theorem ofOptions_inRange (options : Options ℚ)
    (htheme : ∀ name ∈ options.theme, name ∈ Colors.themes.map Prod.fst)
    (hgiven : ∀ given ∈ [options.background, options.foreground, options.line, options.accent,
      options.muted, options.surface, options.border], ∀ text ∈ nonempty? given, Color.IsHex text) :
    ∃ theme palette, Colors.ofTheme options.theme = .ok theme ∧ ofOptions options = .ok palette ∧
      InRange options theme palette := by
  obtain ⟨theme, htheme⟩ : ∃ theme, Colors.ofTheme options.theme = .ok theme := by
    refine ofTheme_eq_ok_iff.2 fun name hname hnone => ?_
    obtain ⟨⟨other, colors⟩, hmem, rfl⟩ := List.mem_map.1 (htheme name hname)
    simpa using List.lookup_eq_none_iff.1 hnone _ hmem
  have hcolors := Colors.documented_overlay (Colors.documented_of_theme (ofTheme_mem htheme)) hgiven
  obtain ⟨palette, hpalette⟩ := exists_ofColors hcolors
  obtain ⟨hbackground, hforeground, -⟩ := ofColors_color hpalette
  have hproper := proper_of_ofColors hcolors hpalette
  have hoptions : ofOptions options = .ok palette := by
    rw [ofOptions, Colors.ofOptions, htheme]
    simp only [bind, Except.bind, pure, Except.pure, Except.mapError, hpalette]
  refine ⟨theme, palette, htheme, hoptions, ?_⟩
  constructor
  case background => exact hbackground
  case foreground => exact hforeground
  case enriched =>
    intro role text htext
    rw [← Role.enriched_overlay] at htext
    exact ofHex_of_enriched hcolors hpalette htext
  case proper => exact hproper
  case written => exact fun role => (hproper role).isHexText
  case between =>
    intro role hoption hrole
    refine between_of_ofColors hpalette ?_
    rw [Role.enriched_overlay, hoption, hrole]
    rfl
  case mixed => exact Color.mix_comm _ _

/-- Three digits and a colour with an opacity are laid over a theme that has an accent of its own. -/
theorem ofOptions_inRange_tokyoNight :
    let options : Options ℚ :=
      { theme := some "tokyo-night", foreground := some "abc", accent := some "#12345678"
        border := some "" }
    (∀ name ∈ options.theme, name ∈ Colors.themes.map Prod.fst) ∧
      (∀ given ∈ [options.background, options.foreground, options.line, options.accent,
        options.muted, options.surface, options.border], ∀ text ∈ nonempty? given,
          Color.IsHex text) ∧
      ∃ theme palette, Colors.ofTheme options.theme = .ok theme ∧ ofOptions options = .ok palette ∧
        InRange options theme palette ∧ palette.background = ⟨26, 27, 38, 1⟩ ∧
        palette.text = ⟨170, 187, 204, 1⟩ ∧ palette.line = ⟨61, 89, 161, 1⟩ ∧
        palette.arrow = ⟨18, 52, 86, 120 / 255⟩ ∧
        Color.Between ⟨170, 187, 204, 1⟩ ⟨26, 27, 38, 1⟩ palette.nodeStroke := by
  intro options
  have htheme : ∀ name ∈ options.theme, name ∈ Colors.themes.map Prod.fst := by decide
  have hshort : Color.IsHex "abc" := ⟨['a', 'b', 'c'], .inl rfl, by decide, by simp [Text.IsHexDigit]⟩
  have hlong : Color.IsHex "#12345678" :=
    ⟨['1', '2', '3', '4', '5', '6', '7', '8'], .inr rfl, by decide, by simp [Text.IsHexDigit]⟩
  have hgiven : ∀ given ∈ [options.background, options.foreground, options.line, options.accent,
      options.muted, options.surface, options.border], ∀ text ∈ nonempty? given,
        Color.IsHex text := by
    simp [options, nonempty?, hshort, hlong]
  obtain ⟨theme, palette, hfound, hpalette, hrange⟩ := ofOptions_inRange options htheme hgiven
  obtain rfl := Except.ok.inj hfound
  have hread {text : String} {first second : Color ℚ} (hfirst : Color.ofHex text = .ok first)
      (hsecond : Color.ofHex text = .ok second) : second = first :=
    Except.ok.inj (hsecond.symm.trans hfirst)
  have hbackground : palette.background = ⟨26, 27, 38, 1⟩ := hread (by decide +kernel) hrange.background
  have htext : palette.text = ⟨170, 187, 204, 1⟩ := hread (by decide +kernel) hrange.foreground
  have hstroke := hrange.between .nodeStroke rfl rfl
  rw [hbackground, htext] at hstroke
  exact ⟨htheme, hgiven, _, palette, rfl, hpalette, hrange, hbackground, htext,
    hread (by decide +kernel) (hrange.enriched .line "#3d59a1" rfl),
    hread (by decide +kernel) (hrange.enriched .arrow "#12345678" rfl), hstroke⟩

end Palette

end SequenceChart
