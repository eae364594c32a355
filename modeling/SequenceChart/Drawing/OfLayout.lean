import SequenceChart.Drawing.Basic
import SequenceChart.Label
import SequenceChart.Layout.Basic
import SequenceChart.Layout.Spacing
import SequenceChart.Theme.Palette

namespace SequenceChart

namespace Drawing

open Distance

variable {α : Type} [Add α] [Sub α] [Mul α] [Div α] [LT α] [DecidableLT α] [∀ n, OfNat α n]

/-- The width of all lines. -/
def strokeWidth : α :=
  3 / 4

/-- The extent of the head of an arrow along the arrow. -/
def headLength : α :=
  8

/-- The extent of the head of an arrow across the arrow. -/
def headWidth : α :=
  48 / 10

/-- The title in the middle of its box. -/
def ofTitle (palette : Palette α) (title : TitleBox α) : Drawing α :=
  ofCalls [.text title.text .center .center ⟨title.x, title.y⟩ ⟨title.width, title.height⟩
    palette.text]

/-- A divider of a fragment and its text, below the origin of the fragment. -/
def ofDivider (palette : Palette α) (fragment : FragmentBox α) (divider : Divider α) :
    Drawing α :=
  let y := divider.y - fragment.y
  let text := Label.divider divider.label
  ofCalls (.line true ⟨0, y⟩ ⟨fragment.width, y⟩ strokeWidth palette.line ::
    if text = "" then []
    else [.text text .start .center ⟨8, y⟩ ⟨fragment.width - 16, dividerHeight⟩
      palette.mutedText])

/-- The tab in the corner of a fragment, which holds the header. -/
def tabSize (header : Size α) (fragmentWidth : α) : Size α where
  width := smaller (header.width + tabPad) fragmentWidth
  height := smaller (larger header.height 18) fragmentHeader

/-- The border of a fragment, its tab and its dividers. -/
def ofFragment (measure : String → Size α) (palette : Palette α) (fragment : FragmentBox α) :
    Drawing α :=
  let header := Label.header fragment.kind fragment.label
  let tab := tabSize (measure header) fragment.width
  let box := ofCalls [
    .rectangle ⟨0, 0⟩ ⟨fragment.width, fragment.height⟩ palette.nodeStroke,
    .fill ⟨0, 0⟩ tab palette.fragmentHeader,
    .rectangle ⟨0, 0⟩ tab palette.nodeStroke,
    .text header .center .center ⟨0, 0⟩ tab palette.mutedText]
  call (.measure header)
    (within fragment.x fragment.y (box ++ forAll (ofDivider palette fragment) fragment.dividers)
      done)

/-- A lifeline as a dashed line. -/
def ofLifeline (palette : Palette α) (lifeline : Lifeline α) : Drawing α :=
  ofCalls [.line true ⟨lifeline.x, lifeline.top⟩ ⟨lifeline.x, lifeline.bottom⟩ strokeWidth
    palette.line]

/-- An activation as a filled box with a border. -/
def ofActivation (palette : Palette α) (bar : ActivationBar α) : Drawing α :=
  let corner : Point α := ⟨bar.x, bar.top⟩
  let size : Size α := ⟨bar.width, bar.bottom - bar.top⟩
  ofCalls [.fill corner size palette.activationFill, .rectangle corner size palette.nodeStroke]

/-- A part of a signal. Only a part with a head has the colour of arrows. -/
def segment (palette : Palette α) (dashed hasHead : Bool) (start stop : Point α) : Call α :=
  if hasHead then .arrow dashed start stop strokeWidth palette.arrow headLength headWidth
  else .line dashed start stop strokeWidth palette.line

/-- The line of a signal, or the loop of a signal to its source. -/
def signalLines (palette : Palette α) (signal : SignalRow α) : List (Call α) :=
  let dashed := signal.style = .dashed
  if signal.isSelf then
    let start : Point α := ⟨signal.startX, signal.y⟩
    let top : Point α := ⟨signal.startX + loopWidth, signal.y⟩
    let bottom : Point α := ⟨signal.startX + loopWidth, signal.y + loopHeight⟩
    let stop : Point α := ⟨signal.startX, signal.y + loopHeight⟩
    [segment palette dashed false start top, segment palette dashed false top bottom,
      segment palette dashed signal.hasHead bottom stop]
  else
    [segment palette dashed signal.hasHead ⟨signal.startX, signal.y⟩ ⟨signal.endX, signal.y⟩]

/-- The label of a signal above its line, or beside the loop of a signal to its source. -/
def signalLabel (palette : Palette α) (signal : SignalRow α) : Call α :=
  if signal.isSelf then
    .text signal.label .start .center
      ⟨signal.startX + loopWidth + labelGap,
        signal.y + loopHeight / 2 - signal.labelHeight / 2⟩
      ⟨signal.labelWidth, signal.labelHeight⟩ palette.mutedText
  else
    let left := smaller signal.startX signal.endX
    let right := larger signal.startX signal.endX
    .text signal.label .center .finish ⟨left, signal.y - labelGap - signal.labelHeight⟩
      ⟨right - left, signal.labelHeight⟩ palette.mutedText

/-- The line of a signal, and its label if it has one. -/
def ofSignal (palette : Palette α) (signal : SignalRow α) : Drawing α :=
  ofCalls (signalLines palette signal ++
    if signal.label = "" then [] else [signalLabel palette signal])

/-- The box of a participant with its label in the middle. -/
def ofParticipant (palette : Palette α) (participant : ParticipantBox α) : Drawing α :=
  let size : Size α := ⟨participant.width, participant.height⟩
  within (participant.x - participant.width / 2) participant.y
    (ofCalls [.fill ⟨0, 0⟩ size palette.nodeFill, .rectangle ⟨0, 0⟩ size palette.nodeStroke,
      .text participant.label .center .center ⟨0, 0⟩ size palette.text])
    done

/-- The drawing of a layout, from back to front. Participants come last, so that their boxes cover
    lifelines and borders. -/
def ofLayout (measure : String → Size α) (palette : Palette α) (layout : Layout α) : Drawing α :=
  forAll (ofTitle palette) layout.title.toList ++
    (forAll (ofFragment measure palette) layout.fragments ++
      (forAll (ofLifeline palette) layout.lifelines ++
        (forAll (ofActivation palette) layout.activations ++
          (forAll (ofSignal palette) layout.signals ++
            forAll (ofParticipant palette) layout.participants))))

end Drawing

end SequenceChart
