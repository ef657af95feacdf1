import Montage.Compiler
import Montage.Proofs.Layout

/-!
# The ways through the compiler

Every way through the compiler fails as the layout fails, and otherwise reshapes
it.  The equivalences here say so for each of them, so that a fact about a layout
is a fact about every payload.
-/

namespace Montage

namespace Compiler

variable {α : Type} [Scalar α] {compiler : Compiler α} {plan : Plan α}
  {modeKey platformKey : String}

/-- A plan has a payload in seconds when it has a layout, and it is that of the layout. -/
theorem tracksAs_eq_ok_iff {payload : TrackPayload α} :
    compiler.tracksAs plan modeKey platformKey = .ok payload ↔
      ∃ layout, compiler.layoutAs plan modeKey platformKey = .ok layout ∧
        compiler.tracksOf layout = payload := by
  unfold tracksAs
  cases compiler.layoutAs plan modeKey platformKey with
  | error fault => simp [bind, Except.bind]
  | ok layout => simp [bind, Except.bind, pure, Except.pure]

/-- A plan has a payload in frames when it has a layout, and it is that of the layout. -/
theorem framesAs_eq_ok_iff {payload : FramePayload α} :
    compiler.framesAs plan modeKey platformKey = .ok payload ↔
      ∃ layout, compiler.layoutAs plan modeKey platformKey = .ok layout ∧
        compiler.framesOf layout = payload := by
  unfold framesAs
  cases compiler.layoutAs plan modeKey platformKey with
  | error fault => simp [bind, Except.bind]
  | ok layout => simp [bind, Except.bind, pure, Except.pure]

/-- Both payloads come from the one layout of the plan. -/
theorem both_eq_ok_iff {payloads : TrackPayload α × FramePayload α} :
    compiler.both plan = .ok payloads ↔
      ∃ layout, compiler.layout plan = .ok layout ∧
        (compiler.tracksOf layout, compiler.framesOf layout) = payloads := by
  unfold both
  cases compiler.layout plan with
  | error fault => simp [bind, Except.bind]
  | ok layout => simp [bind, Except.bind, pure, Except.pure]

/-- A result that passes a test is a result. -/
theorem exists_of_any {ε β : Type} {outcome : Except ε β} {test : β → Bool}
    (h : outcome.toOption.any test = true) :
    ∃ result, outcome = .ok result ∧ test result = true := by
  cases outcome with
  | error fault => cases h
  | ok result => exact ⟨result, rfl, h⟩

/-- The clock of a compiler runs at the rate of its settings. -/
theorem clock_fps (compiler : Compiler α) : compiler.clock.fps = compiler.config.fps :=
  Nat.max_eq_left (CompilerConfig.fps_pos compiler.sound)

/-- The compiler with the standard settings, as the program runs it. -/
def standard : Compiler Float where
  config := .standard
  sound := Option.isNone_iff_eq_none.mp (by decide +kernel)

/-- The compiler with the standard settings, in exact arithmetic. -/
def standardExact : Compiler Exact where
  config := .standard
  sound := Option.isNone_iff_eq_none.mp (by decide +kernel)

end Compiler

/-- A plan of three clips, with two captions that cannot stay where they are: one
asks for no time at all, the other begins behind the end. -/
def Plan.sample (α : Type) [Scalar α] : Plan α where
  mode := "vlog"
  platform := "tiktok"
  clips := [.ofLength "arrival" 4.2, .ofLength "walk" 3.75, .ofLength "sunset" 5.1]
  overlays := [⟨"Day one", -1 / 0, 0 / 0, .top⟩, ⟨"The end", 30, 2.5, .bottom⟩]
  music := some (.ofReference "song")

end Montage
