import SequenceChart.Color.Basic
import SequenceChart.Text.Blank
import SequenceChart.Text.Digit
import SequenceChart.Text.Quoted

namespace SequenceChart

/-- Why a text is no colour: it has the wrong number of digits, or a channel is no number. -/
inductive ColorError where
  | wrongLength (text : String)
  | badChannel (piece : String)
  deriving DecidableEq

open Text

/-- The words of the complaint, which shows the whole text or the bad channel. -/
def ColorError.message : ColorError → String
  | wrongLength text => "Invalid hex colour: " ++ quoted text
  | badChannel piece => "invalid literal for int() with base 16: " ++ quoted piece

namespace Color

/-- The value of a non-empty run of hexadecimal digits. -/
def hexNat? (digits : List Char) : Option Nat :=
  if digits.isEmpty then none
  else digits.foldlM (fun value c => (hexValue? c).map (16 * value + ·)) 0

/-- The value of a channel: hexadecimal digits, which may have a sign in front and white space
    around them. -/
def channel? (piece : List Char) : Option Int :=
  match trim isNumeralBlank piece with
  | '-' :: digits => (hexNat? digits).map fun n => -(n : Int)
  | '+' :: digits => (hexNat? digits).map fun n => (n : Int)
  | digits => (hexNat? digits).map fun n => (n : Int)

/-- The value of the channel written with two characters. -/
def channel (first second : Char) : Except ColorError Int :=
  match channel? [first, second] with
  | some value => .ok value
  | none => .error (.badChannel (String.ofList [first, second]))

/-- The digits of a colour: its text without the white space around it and the number signs in
    front. Of three digits each stands for two. -/
def hexPieces (text : String) : List Char :=
  match (trim isBlank text.toList).dropWhile (· = '#') with
  | [r, g, b] => [r, r, g, g, b, b]
  | digits => digits

variable {α : Type} [Div α] [∀ n, OfNat α n] [Coordinate α]

/-- The colour written with three, six or eight hexadecimal digits. The last two of eight are the
    opacity, which is full if they are absent. -/
def ofHex (text : String) : Except ColorError (Color α) :=
  match hexPieces text with
  | [r₁, r₂, g₁, g₂, b₁, b₂] => do
    let red ← channel r₁ r₂
    let green ← channel g₁ g₂
    let blue ← channel b₁ b₂
    return ⟨red, green, blue, 1⟩
  | [r₁, r₂, g₁, g₂, b₁, b₂, a₁, a₂] => do
    let red ← channel r₁ r₂
    let green ← channel g₁ g₂
    let blue ← channel b₁ b₂
    let opacity ← channel a₁ a₂
    return ⟨red, green, blue, Coordinate.ofInt opacity / 255⟩
  | _ => .error (.wrongLength text)

/-- A channel in hexadecimal digits, at least two characters wide. -/
def channelHex (value : Int) : List Char :=
  if value < 0 then '-' :: hexDigits 1 value.natAbs else hexDigits 2 value.natAbs

/-- The channels of a colour in hexadecimal digits. The opacity is not written. -/
def toHex {α : Type} (color : Color α) : String :=
  String.ofList ('#' :: (channelHex color.red ++ channelHex color.green ++ channelHex color.blue))

end Color

end SequenceChart
