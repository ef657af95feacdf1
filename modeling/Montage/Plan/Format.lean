import Montage.Json.Printer
import Montage.Json.Reader
import Montage.Plan

/-!
# The text of a plan

A plan is written as a JSON object.  Absent effects, filters, transitions,
hints, music and volumes leave no trace; the list of captions is always
written.  `Plan.parse` reads the text back, and accepts what other hands write:
members in any order, members it does not know, defaults that are left out.
-/

namespace Montage

/-! ## Writing -/

section Writing

variable {α : Type}

/-- A word as a JSON string. -/
def wordJson {β : Type} [Vocabulary β] (b : β) : Json α := .str (Vocabulary.word b)

def TransitionPair.toJson (pair : TransitionPair) : Json α :=
  .obj [("in", wordJson pair.entry), ("out", wordJson pair.exit)]

def Clip.toJson (clip : Clip α) : Json α :=
  .present [
    ("sourceReference", some (.str clip.sourceReference)),
    ("trimStart", some (.real clip.trimStart)),
    ("length", some (.real clip.length)),
    ("effect", clip.effect.map wordJson),
    ("filter", clip.filter.map wordJson),
    ("transition", clip.transition.map TransitionPair.toJson),
    ("hints", clip.hints)]

def Overlay.toJson (overlay : Overlay α) : Json α :=
  .obj [
    ("text", .str overlay.text),
    ("start", .real overlay.start),
    ("duration", .real overlay.duration),
    ("position", wordJson overlay.position)]

def Music.toJson (music : Music α) : Json α :=
  .present [
    ("sourceReference", some (.str music.sourceReference)),
    ("volume", music.volume.map .real)]

def Plan.toJson (plan : Plan α) : Json α :=
  .present [
    ("mode", some (.str plan.mode)),
    ("platform", some (.str plan.platform)),
    ("clips", some (.arr (plan.clips.map Clip.toJson))),
    ("overlays", some (.arr (plan.overlays.map Overlay.toJson))),
    ("music", plan.music.map Music.toJson)]

end Writing

/-! ## Reading -/

open Json in
/-- The two words of a pair of transitions. -/
def TransitionPair.schema : Schema TransitionPair where
  title := "TransitionPair"
  blank := .symmetric .fade
  fields := [
    .of "in" true readWord fun entry pair => { pair with entry },
    .of "out" true readWord fun exit pair => { pair with exit }]

open Json in
/-- The fields of a clip; footage begins at the head of its file unless
something else is said. -/
def Clip.schema : Schema (Clip Float) where
  title := "ClipSegment"
  blank := Clip.ofLength "" 0
  fields := [
    .of "sourceReference" true (readText "a string")
      fun sourceReference clip => { clip with sourceReference },
    .of "trimStart" false readReal fun trimStart clip => { clip with trimStart },
    .of "length" true readReal fun length clip => { clip with length },
    .of "effect" false (readOptional readWord) fun effect clip => { clip with effect },
    .of "filter" false (readOptional readWord) fun filter clip => { clip with filter },
    .of "transition" false (readOptional TransitionPair.schema.read)
      fun transition clip => { clip with transition },
    .of "hints" false (readOptional readAny) fun hints clip => { clip with hints }]

open Json in
/-- The fields of a caption; it stands in the middle unless something else is
said. -/
def Overlay.schema : Schema (Overlay Float) where
  title := "TextOverlay"
  blank := Overlay.ofSpan "" 0 0
  fields := [
    .of "text" true (readText "a string") fun text overlay => { overlay with text },
    .of "start" true readReal fun start overlay => { overlay with start },
    .of "duration" true readReal fun duration overlay => { overlay with duration },
    .of "position" false readWord fun position overlay => { overlay with position }]

open Json in
/-- The fields of the music. -/
def Music.schema : Schema (Music Float) where
  title := "MusicTrack"
  blank := Music.ofReference ""
  fields := [
    .of "sourceReference" true (readText "a string")
      fun sourceReference music => { music with sourceReference },
    .of "volume" false (readOptional readReal) fun volume music => { music with volume }]

open Json in
/-- The fields of a plan. -/
def Plan.schema : Schema (Plan Float) where
  title := "EditPlan"
  blank := Plan.empty "" ""
  fields := [
    .of "mode" true (readText "a string") fun mode plan => { plan with mode },
    .of "platform" true (readText "a string") fun platform plan => { plan with platform },
    .of "clips" true (readList Clip.schema.read) fun clips plan => { plan with clips },
    .of "overlays" false (readList Overlay.schema.read)
      fun overlays plan => { plan with overlays },
    .of "music" false (readOptional Music.schema.read) fun music plan => { plan with music }]

/-- Reads the text of a plan. -/
def Plan.parse (text : String) : Except Json.Fault (Plan Float) :=
  Json.parse Plan.schema.read text

end Montage
