import Montage.Proofs.Json.Numerals

/-!
# The tokens of a written value

A value is written token by token, with blanks between the tokens.  `Json.tokensOf` lists
the tokens of a value, and cutting its text gives them back, whatever the blanks are
(`tokens_render`).
-/

namespace Montage

namespace Json

/-! ## Strings -/

/-- What the escape of a character is read as. -/
def pieceOf (c : Char) : Piece :=
  if c.toNat < 32 ∧ c.toNat ≠ 8 ∧ c ≠ '\t' ∧ c ≠ '\n' ∧ c.toNat ≠ 12 ∧ c ≠ '\r' then .unit c.toNat
  else .char c

theorem unitOf?_hexDigit : ∀ n < 32,
    unitOf? '0' '0' (hexDigit (n / 16)) (hexDigit n) = some n := by
  decide

/-- An escaped character is read as one piece of the string. -/
theorem stringPieces_escape (c : Char) (width : ℕ) (before : List Piece) (rest : List Char) :
    stringPieces width before (escape c ++ rest)
      = stringPieces (width + (escape c).length) (pieceOf c :: before) rest := by
  -- one case for each character with an escape of its own, and two for all others
  unfold escape
  split
  · subst_vars
    rfl
  split
  · subst_vars
    rfl
  split
  · rename_i h
    obtain rfl : c = Char.ofNat 8 := by rw [← h, Char.ofNat_toNat]
    rfl
  split
  · subst_vars
    rfl
  split
  · subst_vars
    rfl
  split
  · rename_i h
    obtain rfl : c = Char.ofNat 12 := by rw [← h, Char.ofNat_toNat]
    rfl
  split
  · subst_vars
    rfl
  split
  · rename_i hquote hbackslash h8 htab hline h12 hreturn hlow
    have hpiece : pieceOf c = .unit c.toNat :=
      if_pos ⟨hlow, h8, htab, hline, h12, hreturn⟩
    simp only [List.cons_append, List.nil_append, stringPieces, unitOf?_hexDigit c.toNat hlow,
      hpiece]
    rfl
  · rename_i hquote hbackslash h8 htab hline h12 hreturn hlow
    have hpiece : pieceOf c = .char c := if_neg fun h => hlow h.1
    rw [List.cons_append, List.nil_append, stringPieces.eq_def]
    split <;> simp_all

/-- The pieces of a string in quotes are those of its characters. -/
theorem stringPieces_flatMap (cs : List Char) (width : ℕ) (before : List Piece)
    (rest : List Char) : stringPieces width before (cs.flatMap escape ++ '"' :: rest)
      = .ok (before.reverse ++ cs.map pieceOf, width + (cs.flatMap escape).length + 1) := by
  induction cs generalizing width before with
  | nil => simp [stringPieces]
  | cons c cs ih =>
      rw [List.flatMap_cons, List.append_assoc, stringPieces_escape, ih]
      simp only [List.reverse_cons, List.map_cons, List.append_assoc, List.singleton_append,
        List.length_append]
      congr 2
      omega

/-- A unit that is no half of a pair spells a character of its own. -/
theorem spell_unit {u : ℕ} (h : u < 0xD800) (rest : List Piece) :
    spell (.unit u :: rest) = (spell rest).map (Char.ofNat u :: ·) := by
  have hleading : isLeading u = false := by simp [isLeading, Nat.not_le.mpr h]
  have htrailing : isTrailing u = false := by
    simp only [isTrailing, Bool.and_eq_false_iff, decide_eq_false_iff_not]
    omega
  cases rest with
  | nil => simp [spell, hleading, htrailing]
  | cons piece rest => cases piece <;> simp [spell, hleading, htrailing]

/-- The pieces of a text spell it. -/
theorem spell_pieces (cs : List Char) : spell (cs.map pieceOf) = some cs := by
  induction cs with
  | nil => rfl
  | cons c cs ih =>
      rw [List.map_cons, pieceOf]
      split
      · rename_i h
        rw [spell_unit (by omega), ih, Char.ofNat_toNat]
        rfl
      · rw [spell, ih]
        rfl

/-! ## Cutting -/

/-- The characters of a token that has been found are passed over. -/
theorem tokensBehind_skip (before : List Token) (word rest : List Char) :
    tokensBehind before word.length (word ++ rest) = tokensBehind before 0 rest := by
  induction word with
  | nil => rfl
  | cons c word ih => exact ih

/-- Blanks between tokens are passed over. -/
theorem tokensBehind_gap (before : List Token) {gap : List Char} (h : ∀ c ∈ gap, isGap c = true)
    (rest : List Char) : tokensBehind before 0 (gap ++ rest) = tokensBehind before 0 rest := by
  induction gap with
  | nil => rfl
  | cons c gap ih =>
      rw [List.cons_append, tokensBehind, if_pos (h c List.mem_cons_self)]
      exact ih fun d hd => h d (List.mem_cons_of_mem c hd)

/-- A token that reaches over `word` is cut off behind it. -/
theorem tokensBehind_token (before : List Token) {c : Char} {word rest : List Char} {token : Token}
    (hgap : isGap c = false) (htoken : tokenAt c (word ++ rest) = (token, word.length))
    (hlast : token.isLast = false) :
    tokensBehind before 0 (c :: word ++ rest) = tokensBehind (token :: before) 0 rest := by
  rw [List.cons_append, tokensBehind, hgap, htoken]
  simp only [Bool.false_eq_true, ↓reduceIte, hlast]
  exact tokensBehind_skip _ _ _

/-- A quoted text is cut off as one string. -/
theorem tokensBehind_quote (before : List Token) (s : String) (rest : List Char) :
    tokensBehind before 0 (quote s ++ rest)
      = tokensBehind (.string (some s) :: before) 0 rest := by
  have hpieces := stringPieces_flatMap s.toList 0 [] rest
  have htoken : tokenAt '"' ((s.toList.flatMap escape ++ ['"']) ++ rest)
      = (.string (some s), (s.toList.flatMap escape ++ ['"']).length) := by
    have hbody : (s.toList.flatMap escape ++ ['"']) ++ rest
        = s.toList.flatMap escape ++ '"' :: rest := by simp
    rw [hbody]
    simp [tokenAt, hpieces, spell_pieces]
  exact tokensBehind_token before rfl htoken rfl

/-- A digit is none of the characters that are no digits. -/
theorem ne_of_isDigit {c d : Char} (hc : c.isDigit = true) (hd : d.isDigit = false) : c ≠ d := by
  rintro rfl
  rw [hc] at hd
  cases hd

/-- A digit begins a number. -/
theorem tokenAt_digit {c : Char} (h : c.isDigit = true) (rest : List Char) :
    tokenAt c rest = numberToken 0 (c :: rest) := by
  have hne : ∀ d : Char, d.isDigit = false → c ≠ d := fun d hd => ne_of_isDigit h hd
  simp only [tokenAt, hne '[' rfl, hne ']' rfl, hne '{' rfl, hne '}' rfl, hne ',' rfl, hne ':' rfl,
    hne 'n' rfl, hne 't' rfl, hne 'f' rfl, hne '-' rfl, h, ↓reduceIte]

/-- A digit is no blank. -/
theorem isGap_of_isDigit {c : Char} (h : c.isDigit = true) : isGap c = false := by
  have hne : ∀ d : Char, d.isDigit = false → c ≠ d := fun d hd => ne_of_isDigit h hd
  simp only [isGap, hne ' ' rfl, hne '\n' rfl, hne '\t' rfl, hne '\r' rfl, decide_false,
    Bool.or_self]

/-- A number with its sign. -/
theorem tokensBehind_number (before : List Token) {s : Spelling} (h : s.Proper) (negative : Bool)
    {rest : List Char} (hrest : Ends rest) :
    tokensBehind before 0 ((if negative then ['-'] else []) ++ s.chars ++ rest)
      = tokensBehind (.number (s.numeral negative) :: before) 0 rest := by
  cases negative with
  | true =>
      have hnumeral := unsignedNumeral_chars h true hrest
      have htoken : tokenAt '-' (s.chars ++ rest) = (.number (s.numeral true), s.chars.length) := by
        change numberToken 1 (s.chars ++ rest) = _
        simp only [numberToken, decide_true, hnumeral]
        congr 1
        omega
      exact tokensBehind_token before rfl htoken rfl
  | false =>
      have hnumeral := unsignedNumeral_chars h false hrest
      obtain ⟨c, whole, hwhole⟩ := List.exists_cons_of_ne_nil h.nonempty
      have hdigit : c.isDigit = true := h.whole c (by rw [hwhole]; exact List.mem_cons_self)
      obtain ⟨word, hword⟩ : ∃ word, s.chars = c :: word :=
        ⟨whole ++ s.point ++ Spelling.powerChars s.power, by simp [Spelling.chars, hwhole]⟩
      rw [hword] at hnumeral
      have htoken : tokenAt c (word ++ rest) = (.number (s.numeral false), word.length) := by
        rw [tokenAt_digit hdigit, ← List.cons_append]
        simp only [numberToken, Nat.zero_ne_one, decide_false, hnumeral, List.length_cons]
        congr 1
        omega
      rw [hword]
      exact tokensBehind_token before (isGap_of_isDigit hdigit) htoken rfl

/-! ## Values -/

mutual

/-- The tokens of a value. -/
def tokensOf : Json Float → List Token
  | .null => [.null]
  | .bool value => [.boolean value]
  | .int i => [.number (intNumeral i)]
  | .real x => match Binary64.ofFloat? x with
    | some p => [.number (realNumeral p)]
    | none => [.null]
  | .str s => [.string (some s)]
  | .arr [] => [.openArray, .closeArray]
  | .arr (item :: items) =>
    .openArray :: tokensOf item ++ itemTokens items ++ [.closeArray]
  | .obj [] => [.openObject, .closeObject]
  | .obj ((key, value) :: members) =>
    .openObject :: .string (some key) :: .colon :: tokensOf value ++ memberTokens members
      ++ [.closeObject]

/-- The tokens of the items after the first. -/
def itemTokens : List (Json Float) → List Token
  | [] => []
  | item :: items => .comma :: tokensOf item ++ itemTokens items

/-- The tokens of the members after the first. -/
def memberTokens : List (String × Json Float) → List Token
  | [] => []
  | (key, value) :: members =>
    .comma :: .string (some key) :: .colon :: tokensOf value ++ memberTokens members

end

/-- A whole number is printed as its sign and the spelling of its size. -/
theorem intChars_eq (i : ℤ) :
    intChars i = (if decide (i < 0) then ['-'] else []) ++ (wholeSpelling i.natAbs).chars := by
  have hdigits : (wholeSpelling i.natAbs).chars = Nat.toDigits 10 i.natAbs := by
    simp [wholeSpelling, Spelling.chars, Spelling.point, Spelling.powerChars]
  rw [hdigits, intChars]
  by_cases h : i < 0
  · simp [h]
  · simp [h]

/-- A spacing that holds nothing but blanks. -/
structure Spacing.Blank (spacing : Spacing) : Prop where
  line : ∀ level, ∀ c ∈ spacing.line level, isGap c = true
  afterColon : ∀ c ∈ spacing.afterColon, isGap c = true

theorem Spacing.blank_compact : Spacing.compact.Blank := ⟨by simp [compact], by simp [compact]⟩

/-- Only blanks stand between the tokens of an indented text. -/
theorem Spacing.blank_pretty : Spacing.pretty.Blank := by
  refine ⟨fun level c hc => ?_, fun c hc => ?_⟩
  · rcases List.mem_cons.mp hc with rfl | hc
    · rfl
    · rw [List.eq_of_mem_replicate hc]
      rfl
  · obtain rfl := List.mem_singleton.mp hc
    rfl

theorem ends_nil : Ends [] := by
  intro c hc
  cases hc

/-- A number ends at a blank, a comma or a closing bracket. -/
theorem ends_cons {c : Char} {rest : List Char}
    (h : isGap c = true ∨ c = ',' ∨ c = ']' ∨ c = '}') : Ends (c :: rest) := by
  intro d hd
  cases hd
  exact h

/-- Blanks in front of something that can stand behind a value can stand there too. -/
theorem ends_gap {gap rest : List Char} (h : ∀ c ∈ gap, isGap c = true) (hrest : Ends rest) :
    Ends (gap ++ rest) := by
  cases gap with
  | nil => exact hrest
  | cons c gap => exact ends_cons (Or.inl (h c List.mem_cons_self))

/-- Behind an item of a list a number has ended. -/
theorem ends_itemChars (spacing : Spacing) (level : ℕ) (items : List (Json Float))
    {rest : List Char} (hrest : Ends rest) : Ends (itemChars spacing level items ++ rest) := by
  cases items with
  | nil => exact hrest
  | cons item items =>
      rw [itemChars]
      exact ends_cons (Or.inr (Or.inl rfl))

/-- Behind a member of an object a number has ended. -/
theorem ends_memberChars (spacing : Spacing) (level : ℕ) (members : List (String × Json Float))
    {rest : List Char} (hrest : Ends rest) : Ends (memberChars spacing level members ++ rest) := by
  cases members with
  | nil => exact hrest
  | cons member members =>
      rw [memberChars]
      exact ends_cons (Or.inr (Or.inl rfl))

/-- One character that is a token by itself. -/
theorem tokensBehind_mark (before : List Token) {c : Char} {rest : List Char} {token : Token}
    (hgap : isGap c = false) (htoken : tokenAt c rest = (token, 0)) (hlast : token.isLast = false) :
    tokensBehind before 0 (c :: rest) = tokensBehind (token :: before) 0 rest :=
  @tokensBehind_token before c [] rest token hgap htoken hlast

section

variable {spacing : Spacing} (hspacing : spacing.Blank)

include hspacing

mutual

/-- The text of a value is cut into its tokens, whatever has been read before and whatever
follows that ends a number. -/
theorem tokensBehind_chars (level : ℕ) (before : List Token) {rest : List Char}
    (hrest : Ends rest) : ∀ value : Json Float,
    tokensBehind before 0 (chars spacing level value ++ rest)
      = tokensBehind ((tokensOf value).reverse ++ before) 0 rest
  | .null => tokensBehind_token before rfl rfl rfl
  | .bool true => tokensBehind_token before rfl rfl rfl
  | .bool false => tokensBehind_token before rfl rfl rfl
  | .int i => by
      rw [chars, intChars_eq]
      exact tokensBehind_number before (proper_wholeSpelling _) _ hrest
  | .real x => by
      rw [chars, realChars, tokensOf]
      cases hx : Binary64.ofFloat? x with
      | none => exact tokensBehind_token before rfl rfl rfl
      | some p =>
          have hproper := proper_realSpelling (Binary64.exact_of_ofFloat? hx).1
          simp only [json_chars]
          exact tokensBehind_number before hproper _ hrest
  | .str s => tokensBehind_quote before s rest
  | .arr [] => by
      rw [chars, List.cons_append, tokensBehind_mark before rfl rfl rfl]
      exact tokensBehind_mark _ rfl rfl rfl
  | .arr (item :: items) => by
      have hclose : Ends (spacing.line level ++ ']' :: rest) :=
        ends_gap (hspacing.line level) (ends_cons (Or.inr (Or.inr (Or.inl rfl))))
      -- a number ends where the rest of the list begins, be it a comma or the bracket
      have hitem := ends_itemChars spacing (level + 1) items hclose
      simp only [chars, tokensOf, List.cons_append, List.append_assoc, List.reverse_cons,
        List.reverse_append, List.nil_append]
      rw [tokensBehind_mark before rfl rfl rfl, tokensBehind_gap _ (hspacing.line (level + 1)),
        tokensBehind_chars (level + 1) _ hitem item,
        tokensBehind_itemChars (level + 1) _ hclose items,
        tokensBehind_gap _ (hspacing.line level), tokensBehind_mark _ rfl rfl rfl]
      rfl
  | .obj [] => by
      rw [chars, List.cons_append, tokensBehind_mark before rfl rfl rfl]
      exact tokensBehind_mark _ rfl rfl rfl
  | .obj ((key, value) :: members) => by
      have hclose : Ends (spacing.line level ++ '}' :: rest) :=
        ends_gap (hspacing.line level) (ends_cons (Or.inr (Or.inr (Or.inr rfl))))
      have hvalue := ends_memberChars spacing (level + 1) members hclose
      simp only [chars, tokensOf, List.cons_append, List.append_assoc, List.reverse_cons,
        List.reverse_append, List.nil_append]
      rw [tokensBehind_mark before rfl rfl rfl, tokensBehind_gap _ (hspacing.line (level + 1)),
        tokensBehind_quote, tokensBehind_mark _ rfl rfl rfl,
        tokensBehind_gap _ hspacing.afterColon, tokensBehind_chars (level + 1) _ hvalue value,
        tokensBehind_memberChars (level + 1) _ hclose members,
        tokensBehind_gap _ (hspacing.line level), tokensBehind_mark _ rfl rfl rfl]
      rfl

/-- So are the items of a list behind its first one. -/
theorem tokensBehind_itemChars (level : ℕ) (before : List Token) {rest : List Char}
    (hrest : Ends rest) : ∀ items : List (Json Float),
    tokensBehind before 0 (itemChars spacing level items ++ rest)
      = tokensBehind ((itemTokens items).reverse ++ before) 0 rest
  | [] => rfl
  | item :: items => by
      have hends := ends_itemChars spacing level items hrest
      simp only [itemChars, itemTokens, List.cons_append, List.append_assoc, List.reverse_cons,
        List.reverse_append, List.nil_append]
      rw [tokensBehind_mark before rfl rfl rfl, tokensBehind_gap _ (hspacing.line level),
        tokensBehind_chars level _ hends item, tokensBehind_itemChars level _ hrest items]

/-- So are the members of an object behind its first one. -/
theorem tokensBehind_memberChars (level : ℕ) (before : List Token) {rest : List Char}
    (hrest : Ends rest) : ∀ members : List (String × Json Float),
    tokensBehind before 0 (memberChars spacing level members ++ rest)
      = tokensBehind ((memberTokens members).reverse ++ before) 0 rest
  | [] => rfl
  | (key, value) :: members => by
      have hvalue := ends_memberChars spacing level members hrest
      simp only [memberChars, memberTokens, List.cons_append, List.append_assoc,
        List.reverse_cons, List.reverse_append, List.nil_append]
      rw [tokensBehind_mark before rfl rfl rfl, tokensBehind_gap _ (hspacing.line level),
        tokensBehind_quote, tokensBehind_mark _ rfl rfl rfl,
        tokensBehind_gap _ hspacing.afterColon, tokensBehind_chars level _ hvalue value,
        tokensBehind_memberChars level _ hrest members]

end

/-- The text of a value is cut into its tokens. -/
theorem tokens_render (value : Json Float) : tokens (value.render spacing) = tokensOf value := by
  have hchars := tokensBehind_chars hspacing 0 [] ends_nil value
  rw [List.append_nil, List.append_nil] at hchars
  rw [tokens, render, String.toList_ofList, hchars, tokensBehind, List.reverse_reverse]

end

end Json

end Montage
