import Mathlib.Data.List.DropRight
import Mathlib.Data.List.Forall2
import Montage.Profile

/-!
# Keys that people type

A key is trimmed first and folded then.  `SameKey` says which differences that leaves out,
without a word about how it is done: blanks at both ends, the case of ASCII letters, and which
of three separators stands between words.  `foldKey_eq_iff` proves that these are all: letters
beyond ASCII and blanks inside a key that are not spaces stay what they are.

The order of the two passes matters.  A separator becomes `_`, which is not blank, so a space
at an end has to go before it is folded.  Folding makes no blank of anything else
(`isBlank_foldKeyChar`), and so a folded key is folded for good.

A lookup is a table of folded names behind this.  `Unambiguous` is what makes a table one: no
name stands in it twice.
-/

namespace Montage

section Statement

/-- The characters that may stand between the words of a key. -/
def separators : List Char := ['-', ' ', '_']

/-- The letters of ASCII, small beside capital. -/
def letters : List (Char × Char) :=
  "abcdefghijklmnopqrstuvwxyz".toList.zip "ABCDEFGHIJKLMNOPQRSTUVWXYZ".toList

/-- Characters that may stand in a key for one another. -/
inductive Exchangeable : Char → Char → Prop
  | same (c : Char) : Exchangeable c c
  | small {a b : Char} : (a, b) ∈ letters → Exchangeable a b
  | capital {a b : Char} : (b, a) ∈ letters → Exchangeable a b
  | separator {a b : Char} : a ∈ separators → b ∈ separators → Exchangeable a b

/-- A text without the blanks at both of its ends. -/
structure Trimmed (cs core : List Char) : Prop where
  split : ∃ front back, cs = front ++ core ++ back ∧ (∀ c ∈ front, isBlank c = true) ∧
    ∀ c ∈ back, isBlank c = true
  first : ∀ c ∈ core.head?, isBlank c = false
  last : ∀ c ∈ core.getLast?, isBlank c = false

/-- Keys that differ in no way that matters. -/
def SameKey (key key' : String) : Prop :=
  ∃ core core', Trimmed key.toList core ∧ Trimmed key'.toList core' ∧
    List.Forall₂ Exchangeable core core'

variable {α : Type} [Vocabulary α]

/-- A lookup that finds every word of a vocabulary under its spelling and its aliases, and takes
every other key for the standard word. -/
structure Lenient (aliases : α → List String) (standard : α) (lookup? : String → Option α)
    (resolve : String → α) : Prop where
  same : ∀ {key key' : String}, SameKey key key' → lookup? key = lookup? key'
  eq_some_iff : ∀ {key : String} {a : α},
    lookup? key = some a ↔ foldKey key ∈ Vocabulary.word a :: aliases a
  isSome_iff : ∀ {key : String}, (lookup? key).isSome = true ↔
    ∃ a ∈ (Vocabulary.all : List α), foldKey key ∈ Vocabulary.word a :: aliases a
  found : ∀ {key : String} {a : α}, lookup? key = some a →
    resolve key = a ∧ lookup? (Vocabulary.word a) = lookup? key
  unknown : ∀ {key : String}, lookup? key = none → resolve key = standard

end Statement

/-! ## Trimming -/

/-- Trimming leaves the text between the blanks at both ends. -/
theorem trimmed_trimBlanks (cs : List Char) : Trimmed cs (trimBlanks cs) := by
  have hback : trimBlanks cs = (cs.dropWhile isBlank).rdropWhile isBlank := rfl
  refine ⟨⟨cs.takeWhile isBlank, (cs.dropWhile isBlank).rtakeWhile isBlank, ?_, ?_, ?_⟩, ?_, ?_⟩
  · rw [hback, List.append_assoc, List.rdropWhile_append_rtakeWhile,
      List.takeWhile_append_dropWhile]
  · intro c hc
    exact List.mem_takeWhile_imp hc
  · intro c hc
    exact List.mem_rtakeWhile_imp hc
  · intro c hc
    obtain ⟨back, hsplit⟩ := List.rdropWhile_prefix isBlank (cs.dropWhile isBlank)
    have hhead : (cs.dropWhile isBlank).head? = some c := by
      rw [← hsplit, List.head?_append, ← hback, hc, Option.some_or]
    simpa [hhead] using List.head?_dropWhile_not isBlank cs
  · intro c hc
    obtain ⟨hne, rfl⟩ := List.mem_getLast?_eq_getLast hc
    exact Bool.eq_false_iff.mpr (List.rdropWhile_last_not isBlank _ hne)

/-- There is no other text between the blanks. -/
theorem Trimmed.eq_trimBlanks {cs core : List Char} (h : Trimmed cs core) :
    trimBlanks cs = core := by
  obtain ⟨⟨front, back, rfl, hfront, hback⟩, hfirst, hlast⟩ := h
  rw [trimBlanks, List.append_assoc, List.dropWhile_append_of_pos hfront]
  -- Without a core the first pass does not stop at its end, and takes the blanks behind it too.
  cases core with
  | nil =>
      rw [List.nil_append, List.dropWhile_eq_nil_iff.mpr hback]
      rfl
  | cons c rest =>
      have hbegins : isBlank c = false := hfirst c rfl
      rw [List.cons_append, List.dropWhile_cons_of_neg (by simp [hbegins]), ← List.cons_append,
        List.reverse_append, List.dropWhile_append_of_pos (by simpa using hback)]
      have hends : (c :: rest).rdropWhile isBlank = c :: rest := by
        rw [List.rdropWhile_eq_self_iff]
        intro hne
        simp [hlast _ (List.getLast?_eq_some_getLast hne)]
      exact hends

/-! ## Folding -/

/-- Folding makes an underscore of a dash and of a blank, and a small letter of a capital
one. -/
theorem toNat_foldKeyChar (c : Char) :
    (foldKeyChar c).toNat =
      if c.toNat = 45 ∨ c.toNat = 32 then 95
      else if 65 ≤ c.toNat ∧ c.toNat ≤ 90 then c.toNat + 32 else c.toNat := by
  have hseparator : (c = '-' ∨ c = ' ') ↔ c.toNat = 45 ∨ c.toNat = 32 := by
    simp only [← Char.toNat_inj]
    rfl
  have hcapital : (c.val ≥ 'A'.val ∧ c.val ≤ 'Z'.val) ↔ 65 ≤ c.toNat ∧ c.toNat ≤ 90 := by
    rw [ge_iff_le, UInt32.le_iff_toNat_le, UInt32.le_iff_toNat_le]
    rfl
  unfold foldKeyChar
  by_cases hc : c = '-' ∨ c = ' '
  · rw [if_pos hc, if_pos (hseparator.mp hc)]
    rfl
  · rw [if_neg hc, if_neg (mt hseparator.mpr hc)]
    by_cases hcap : c.val ≥ 'A'.val ∧ c.val ≤ 'Z'.val
    · have hlower : c.toLower.val = c.val + 32 := congrArg Char.val (dif_pos hcap)
      have hle : c.val.toNat ≤ 90 := (hcapital.mp hcap).2
      rw [if_pos (hcapital.mp hcap), ← Char.toNat_val, hlower, UInt32.toNat_add,
        show (32 : UInt32).toNat = 32 from rfl]
      exact Nat.mod_eq_of_lt (by omega)
    · have hlower : c.toLower = c := dif_neg hcap
      rw [if_neg (mt hcapital.mpr hcap), hlower]

theorem mem_separators_iff {c : Char} :
    c ∈ separators ↔ c.toNat = 45 ∨ c.toNat = 32 ∨ c.toNat = 95 := by
  simp [separators, ← Char.toNat_inj]

/-- A capital letter of ASCII and its small one are thirty-two code points apart. -/
theorem mem_letters_iff {a b : Char} :
    (a, b) ∈ letters ↔ 65 ≤ b.toNat ∧ b.toNat ≤ 90 ∧ a.toNat = b.toNat + 32 := by
  have hcodes : ∀ pair ∈ letters, 65 ≤ pair.2.toNat ∧ pair.2.toNat ≤ 90 ∧
      pair.1.toNat = pair.2.toNat + 32 := by decide
  have hall : ∀ i < 26, (Char.ofNat (65 + i + 32), Char.ofNat (65 + i)) ∈ letters := by decide
  constructor
  · exact hcodes (a, b)
  · rintro ⟨hlow, hhigh, hsmall⟩
    have hmem := hall (b.toNat - 65) (by omega)
    rwa [show 65 + (b.toNat - 65) = b.toNat by omega, ← hsmall, Char.ofNat_toNat,
      Char.ofNat_toNat] at hmem

/-- Characters are folded to the same exactly when they may stand for one another. -/
theorem foldKeyChar_eq_iff {a b : Char} : foldKeyChar a = foldKeyChar b ↔ Exchangeable a b := by
  constructor
  · intro h
    have hcodes := congrArg Char.toNat h
    rw [toNat_foldKeyChar, toNat_foldKeyChar] at hcodes
    have hcases : a.toNat = b.toNat ∨
        (65 ≤ b.toNat ∧ b.toNat ≤ 90 ∧ a.toNat = b.toNat + 32) ∨
        (65 ≤ a.toNat ∧ a.toNat ≤ 90 ∧ b.toNat = a.toNat + 32) ∨
        ((a.toNat = 45 ∨ a.toNat = 32 ∨ a.toNat = 95) ∧
          (b.toNat = 45 ∨ b.toNat = 32 ∨ b.toNat = 95)) := by
      split_ifs at hcodes <;> omega
    rcases hcases with hsame | hsmall | hcapital | ⟨ha, hb⟩
    · obtain rfl := Char.toNat_inj.mp hsame
      exact .same a
    · exact .small (mem_letters_iff.mpr hsmall)
    · exact .capital (mem_letters_iff.mpr hcapital)
    · exact .separator (mem_separators_iff.mpr ha) (mem_separators_iff.mpr hb)
  · intro h
    rw [← Char.toNat_inj, toNat_foldKeyChar, toNat_foldKeyChar]
    cases h with
    | same => rfl
    | small h =>
        have := mem_letters_iff.mp h
        split_ifs <;> omega
    | capital h =>
        have := mem_letters_iff.mp h
        split_ifs <;> omega
    | separator ha hb =>
        have := mem_separators_iff.mp ha
        have := mem_separators_iff.mp hb
        split_ifs <;> omega

theorem foldKeyChar_foldKeyChar (c : Char) : foldKeyChar (foldKeyChar c) = foldKeyChar c := by
  rw [← Char.toNat_inj, toNat_foldKeyChar, toNat_foldKeyChar]
  split_ifs <;> omega

/-- Folding makes no blank of anything else. -/
theorem isBlank_foldKeyChar {c : Char} (h : isBlank c = false) :
    isBlank (foldKeyChar c) = false := by
  simp only [isBlank, Bool.or_eq_false_iff, Bool.and_eq_false_iff, beq_eq_false_iff_ne,
    decide_eq_false_iff_not, toNat_foldKeyChar] at h ⊢
  split_ifs <;> omega

theorem toList_foldKey (key : String) :
    (foldKey key).toList = (trimBlanks key.toList).map foldKeyChar := String.toList_ofList

/-- **What folding leaves out**: nothing but the differences that do not matter. -/
theorem foldKey_eq_iff {key key' : String} : foldKey key = foldKey key' ↔ SameKey key key' := by
  have hfolded : foldKey key = foldKey key' ↔
      List.Forall₂ Exchangeable (trimBlanks key.toList) (trimBlanks key'.toList) := by
    rw [← String.toList_inj, toList_foldKey, toList_foldKey, ← List.forall₂_eq_eq_eq,
      List.forall₂_map_left_iff, List.forall₂_map_right_iff]
    simp only [foldKeyChar_eq_iff]
  rw [hfolded]
  constructor
  · intro h
    exact ⟨_, _, trimmed_trimBlanks _, trimmed_trimBlanks _, h⟩
  · rintro ⟨core, core', hcore, hcore', h⟩
    rwa [hcore.eq_trimBlanks, hcore'.eq_trimBlanks]

/-- A folded key has no blanks at its ends. -/
theorem trimBlanks_foldKey (key : String) :
    trimBlanks (foldKey key).toList = (foldKey key).toList := by
  obtain ⟨-, hfirst, hlast⟩ := trimmed_trimBlanks key.toList
  refine Trimmed.eq_trimBlanks ⟨⟨[], [], by simp, by simp, by simp⟩, ?_, ?_⟩
  · intro c hc
    rw [toList_foldKey, List.head?_map] at hc
    obtain ⟨b, hb, rfl⟩ := Option.map_eq_some_iff.mp hc
    exact isBlank_foldKeyChar (hfirst b hb)
  · intro c hc
    rw [toList_foldKey, List.getLast?_map] at hc
    obtain ⟨b, hb, rfl⟩ := Option.map_eq_some_iff.mp hc
    exact isBlank_foldKeyChar (hlast b hb)

theorem foldKey_foldKey (key : String) : foldKey (foldKey key) = foldKey key := by
  rw [← String.toList_inj, toList_foldKey, trimBlanks_foldKey, toList_foldKey, List.map_map]
  exact List.map_congr_left fun c _ => foldKeyChar_foldKeyChar c

/-! ## Tables of names -/

/-- In a table without doubles, what is found is what stands in it. -/
theorem lookup_eq_some_iff_mem {β : Type} {entries : List (String × β)} {name : String}
    {b : β} (h : (entries.map Prod.fst).Nodup) :
    entries.lookup name = some b ↔ (name, b) ∈ entries := by
  induction entries with
  | nil => simp
  | cons entry entries ih =>
      obtain ⟨name', b'⟩ := entry
      rw [List.map_cons, List.nodup_cons] at h
      by_cases hname : name = name'
      · subst hname
        have hgone : (name, b) ∉ entries := fun hb => h.1 (List.mem_map.mpr ⟨_, hb, rfl⟩)
        simp [hgone, eq_comm]
      · have hother : (name == name') = false := beq_eq_false_iff_ne.mpr hname
        simp [List.lookup_cons, hother, hname, ih h.2]

section Tables

variable {α : Type} [Vocabulary α]

/-- All words with their aliases, each beside what it names. -/
def namesOf (aliases : α → List String) : List (String × α) :=
  Vocabulary.all.flatMap fun a => (Vocabulary.word a :: aliases a).map fun name => (name, a)

/-- A vocabulary whose names can be looked up. -/
structure Unambiguous (aliases : α → List String) : Prop where
  complete : ∀ a : α, a ∈ (Vocabulary.all : List α)
  folded : ∀ a : α, foldKey (Vocabulary.word a) = Vocabulary.word a
  apart : ((namesOf aliases).map Prod.fst).Nodup

/-- A name stands in the table when it is the word of a row or one of its aliases. -/
theorem mem_namesOf_iff {aliases : α → List String} {name : String} {a : α} :
    (name, a) ∈ namesOf aliases ↔
      a ∈ (Vocabulary.all : List α) ∧ name ∈ Vocabulary.word a :: aliases a := by
  simp only [namesOf, List.mem_flatMap, List.mem_map, Prod.mk.injEq]
  constructor
  · rintro ⟨b, hb, name', hname, rfl, rfl⟩
    exact ⟨hb, hname⟩
  · rintro ⟨ha, hname⟩
    exact ⟨a, ha, name, hname, rfl, rfl⟩

/-- A lookup in a table of names that does not confuse them is lenient. -/
theorem Unambiguous.lenient {aliases : α → List String} (h : Unambiguous aliases) (standard : α) :
    Lenient aliases standard (fun key => (namesOf aliases).lookup (foldKey key))
      fun key => ((namesOf aliases).lookup (foldKey key)).getD standard := by
  have hfound : ∀ {name : String} {a : α},
      (namesOf aliases).lookup name = some a ↔ name ∈ Vocabulary.word a :: aliases a := by
    intro name a
    rw [lookup_eq_some_iff_mem h.apart, mem_namesOf_iff, and_iff_right (h.complete a)]
  refine ⟨?_, hfound, ?_, ?_, ?_⟩
  · intro key key' hsame
    rw [foldKey_eq_iff.mpr hsame]
  · intro key
    rw [Option.isSome_iff_exists]
    constructor
    · rintro ⟨a, ha⟩
      exact ⟨a, h.complete a, hfound.mp ha⟩
    · rintro ⟨a, -, ha⟩
      exact ⟨a, hfound.mpr ha⟩
  · intro key a ha
    have hword : (namesOf aliases).lookup (foldKey (Vocabulary.word a)) = some a := by
      rw [h.folded]
      exact hfound.mpr List.mem_cons_self
    rw [ha, hword]
    exact ⟨rfl, rfl⟩
  · intro key hnone
    rw [hnone]
    rfl

end Tables

/-- The other names of a mode. -/
def Mode.aliases : Mode → List String
  | .energetic => ["hype"]
  | .documentary => ["doc"]
  | _ => []

/-- The other names of a platform. -/
def Platform.aliases : Platform → List String
  | .youtubeShorts => ["shorts"]
  | .tiktok => ["tik_tok"]
  | .instagramReels => ["reels", "instagram"]
  | .instagramFeed => ["feed"]
  | .youtube => ["yt"]

/-- No two modes share a name. -/
theorem Mode.unambiguous : Unambiguous Mode.aliases where
  complete mode := by cases mode <;> decide
  folded mode := by cases mode <;> rfl
  apart := by decide

/-- No two platforms share a name. -/
theorem Platform.unambiguous : Unambiguous Platform.aliases where
  complete platform := by cases platform <;> decide
  folded platform := by cases platform <;> rfl
  apart := by decide

/-- **Lenient keys.**  Two keys are folded to the same exactly when they are the same but for
blanks at the ends, the case of ASCII letters and the choice of separators, and a folded key
is folded for good.  Modes and platforms are looked up by folded keys: a key is accepted exactly
when it is folded to one of the listed names or aliases, and any other is taken for the standard
mode or the standard platform. -/
theorem keys_lenient :
    (∀ key key' : String, foldKey key = foldKey key' ↔ SameKey key key') ∧
      (∀ key : String, foldKey (foldKey key) = foldKey key) ∧
      Lenient Mode.aliases .cinematic Mode.lookup? Mode.resolve ∧
      Lenient Platform.aliases .youtube Platform.lookup? Platform.resolve :=
  ⟨fun _ _ => foldKey_eq_iff, foldKey_foldKey, Mode.unambiguous.lenient .cinematic,
    Platform.unambiguous.lenient .youtube⟩

/-- A separator at an end is no blank, and is not trimmed. -/
example : Platform.lookup? "\tYouTube-Shorts " = some .youtubeShorts ∧
    Platform.lookup? "-youtube" = none := by decide

end Montage
