import SequenceChart.Options

namespace SequenceChart

/-- The colours that a diagram starts from, as texts. Two of them suffice for a drawing in one
    tone, and the others enrich it. -/
structure Colors where
  background : String
  foreground : String
  line : Option String := none
  accent : Option String := none
  muted : Option String := none
  surface : Option String := none
  border : Option String := none
  deriving DecidableEq

namespace Colors

/-- The colours of a drawing without a theme. -/
def default : Colors where
  background := "#FFFFFF"
  foreground := "#27272A"

/-- The themes and their names. -/
def themes : List (String × Colors) :=
  [("zinc-dark", { background := "#18181B", foreground := "#FAFAFA" }),
   ("tokyo-night",
    { background := "#1a1b26", foreground := "#a9b1d6", line := some "#3d59a1"
      accent := some "#7aa2f7", muted := some "#565f89" }),
   ("catppuccin-latte",
    { background := "#eff1f5", foreground := "#4c4f69", line := some "#9ca0b0"
      accent := some "#8839ef", muted := some "#9ca0b0" }),
   ("nord",
    { background := "#2e3440", foreground := "#d8dee9", line := some "#4c566a"
      accent := some "#88c0d0", muted := some "#616e88" }),
   ("github-light",
    { background := "#ffffff", foreground := "#1f2328", line := some "#d1d9e0"
      accent := some "#0969da", muted := some "#59636e" }),
   ("github-dark",
    { background := "#0d1117", foreground := "#e6edf3", line := some "#3d444d"
      accent := some "#4493f8", muted := some "#9198a1" }),
   ("solarized-light",
    { background := "#fdf6e3", foreground := "#657b83", line := some "#93a1a1"
      accent := some "#268bd2", muted := some "#93a1a1" })]

/-- The colours of a theme, or the default ones if no theme is named. A name that no theme has is
    returned as the error. -/
def ofTheme : Option String → Except String Colors
  | none => .ok default
  | some name =>
    match themes.lookup name with
    | some colors => .ok colors
    | none => .error name

/-- Colours with the explicit ones of the options laid over them. An empty text lays nothing. -/
def overlay {α : Type} (base : Colors) (options : Options α) : Colors where
  background := (nonempty? options.background).getD base.background
  foreground := (nonempty? options.foreground).getD base.foreground
  line := (nonempty? options.line).or base.line
  accent := (nonempty? options.accent).or base.accent
  muted := (nonempty? options.muted).or base.muted
  surface := (nonempty? options.surface).or base.surface
  border := (nonempty? options.border).or base.border

/-- The colours that the options ask for. -/
def ofOptions {α : Type} (options : Options α) : Except String Colors := do
  let base ← ofTheme options.theme
  return base.overlay options

end Colors

end SequenceChart
