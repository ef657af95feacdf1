/-!
# The vocabulary of plans

The closed sets of words that a plan may use: transitions between clips, camera
movements, color filters, places for captions and fades of the music.  Each is
a type with a `Vocabulary` instance, which lists the words in a fixed order and
spells them; `Vocabulary.find?` reads a spelling back.
-/

namespace Montage

/-- A closed set of words. -/
class Vocabulary (α : Type) where
  /-- All of them, in the order in which they are listed. -/
  all : List α
  /-- The spelling. -/
  word : α → String

namespace Vocabulary

/-- The word with a spelling. -/
def find? {α : Type} [Vocabulary α] (text : String) : Option α :=
  all.find? fun a => word a == text

end Vocabulary

/-- How a clip enters or leaves the picture. -/
inductive Transition
  | fade
  | fadeSlow
  | fadeFast
  | reveal
  | wipeLeft
  | wipeRight
  | slideLeft
  | slideRight
  | slideUp
  | slideDown
  | zoom
  deriving DecidableEq

instance : Vocabulary Transition where
  all := [.fade, .fadeSlow, .fadeFast, .reveal, .wipeLeft, .wipeRight, .slideLeft, .slideRight,
    .slideUp, .slideDown, .zoom]
  word
    | .fade => "fade"
    | .fadeSlow => "fadeSlow"
    | .fadeFast => "fadeFast"
    | .reveal => "reveal"
    | .wipeLeft => "wipeLeft"
    | .wipeRight => "wipeRight"
    | .slideLeft => "slideLeft"
    | .slideRight => "slideRight"
    | .slideUp => "slideUp"
    | .slideDown => "slideDown"
    | .zoom => "zoom"

/-- A camera movement over the length of a clip. -/
inductive Effect
  | zoomIn
  | zoomInSlow
  | zoomOut
  | zoomOutSlow
  | slideLeft
  | slideRight
  | slideUp
  | slideDown
  deriving DecidableEq

instance : Vocabulary Effect where
  all := [.zoomIn, .zoomInSlow, .zoomOut, .zoomOutSlow, .slideLeft, .slideRight, .slideUp,
    .slideDown]
  word
    | .zoomIn => "zoomIn"
    | .zoomInSlow => "zoomInSlow"
    | .zoomOut => "zoomOut"
    | .zoomOutSlow => "zoomOutSlow"
    | .slideLeft => "slideLeft"
    | .slideRight => "slideRight"
    | .slideUp => "slideUp"
    | .slideDown => "slideDown"

/-- A color treatment of a whole clip. -/
inductive Filter
  | boost
  | contrast
  | darken
  | greyscale
  | lighten
  | muted
  deriving DecidableEq

instance : Vocabulary Filter where
  all := [.boost, .contrast, .darken, .greyscale, .lighten, .muted]
  word
    | .boost => "boost"
    | .contrast => "contrast"
    | .darken => "darken"
    | .greyscale => "greyscale"
    | .lighten => "lighten"
    | .muted => "muted"

/-- Where on the picture a caption stands. -/
inductive Position
  | top
  | center
  | bottom
  deriving DecidableEq

instance : Vocabulary Position where
  all := [.top, .center, .bottom]
  word
    | .top => "top"
    | .center => "center"
    | .bottom => "bottom"

/-- Which edges of the music fade. -/
inductive SoundtrackEffect
  | fadeIn
  | fadeOut
  | fadeInFadeOut
  deriving DecidableEq

instance : Vocabulary SoundtrackEffect where
  all := [.fadeIn, .fadeOut, .fadeInFadeOut]
  word
    | .fadeIn => "fadeIn"
    | .fadeOut => "fadeOut"
    | .fadeInFadeOut => "fadeInFadeOut"

namespace SoundtrackEffect

/-- Whether the music fades in. -/
def fadesIn : SoundtrackEffect → Bool
  | .fadeOut => false
  | _ => true

/-- Whether the music fades out. -/
def fadesOut : SoundtrackEffect → Bool
  | .fadeIn => false
  | _ => true

end SoundtrackEffect

/-- The transitions at the two edges of a clip. -/
structure TransitionPair where
  entry : Transition
  exit : Transition
  deriving DecidableEq

/-- The same transition at both edges. -/
def TransitionPair.symmetric (transition : Transition) : TransitionPair :=
  ⟨transition, transition⟩

end Montage
