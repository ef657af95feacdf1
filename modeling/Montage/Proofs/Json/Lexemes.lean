import Mathlib.Data.List.Chain
import Mathlib.Data.List.TakeWhile
import Montage.Proofs.Failing
import Montage.Proofs.Json.Tokens

/-!
# The words of a text

A token reaches over some characters and depends on no others: what follows can be replaced,
but for a number, which must be followed by something that can stand behind a value
(`exists_word_of_tokenAt`).  So a token has words that spell it, wherever they stand
(`Lexeme`).
-/

namespace Montage

namespace Json

/-! ## Strings -/

/-- The pieces of a string depend on the characters up to its closing quote. -/
theorem exists_word_of_stringPieces {width reach : ℕ} {before pieces : List Piece} {cs : List Char}
    (h : stringPieces width before cs = .ok (pieces, reach)) :
    ∃ word rest, cs = word ++ rest ∧ reach = width + word.length ∧
      ∀ other, stringPieces width before (word ++ other) = .ok (pieces, reach) := by
  fun_induction stringPieces width before cs with
  | case1 => cases h
  | case2 width before rest =>
      cases h
      exact ⟨['"'], rest, rfl, rfl, fun _ => rfl⟩
  | case3 => cases h
  | case4 width before a b c d rest unit hunit ih =>
      obtain ⟨word, more, rfl, rfl, hword⟩ := ih h
      refine ⟨'\\' :: 'u' :: a :: b :: c :: d :: word, more, rfl, ?_, fun other => ?_⟩
      · simp only [List.length_cons]
        omega
      · simp only [List.cons_append, stringPieces, hunit]
        exact hword other
  | case5 => cases h
  | case6 => cases h
  | case7 width before c rest _ hunit e he ih =>
      obtain ⟨word, more, rfl, rfl, hword⟩ := ih h
      refine ⟨'\\' :: c :: word, more, rfl, ?_, fun other => ?_⟩
      · simp only [List.length_cons]
        omega
      · rw [List.cons_append, List.cons_append,
          stringPieces.eq_6 _ _ _ _ (fun _ _ _ _ _ hc _ => hunit hc) hunit, he]
        exact hword other
  | case8 => cases h
  | case9 => cases h
  | case10 width before c rest hquote hend _ _ hescape hlow ih =>
      obtain ⟨word, more, rfl, rfl, hword⟩ := ih h
      -- a backslash that escapes nothing has failed above, so this is a plain character
      have hbackslash : c ≠ '\\' := by
        intro hc
        rcases hmore : word ++ more with _ | ⟨d, after⟩
        · exact hend hc hmore
        · exact hescape d after hc hmore
      refine ⟨c :: word, more, rfl, ?_, fun other => ?_⟩
      · simp only [List.length_cons]
        omega
      · rw [List.cons_append, stringPieces.eq_7 _ _ _ _ hquote (fun hc _ => hbackslash hc)
          (fun _ _ _ _ _ hc _ => hbackslash hc) (fun _ hc _ => hbackslash hc)
          (fun _ _ hc _ => hbackslash hc), if_neg hlow]
        exact hword other

/-! ## Numbers -/

/-- What has neither a digit nor a point at its front. -/
def Halts (cs : List Char) : Prop := ∀ c ∈ cs.head?, c.isDigit = false ∧ c ≠ '.'

/-- What cannot go on a number cannot go on its digits. -/
theorem Ends.halts {rest : List Char} (h : Ends rest) : Halts rest := by
  cases rest with
  | nil => exact fun _ hc => nomatch hc
  | cons c rest =>
      intro d hd
      cases hd
      exact ⟨h.head.1, h.head.2.1⟩

/-- The digits of a number end where none follows. -/
theorem takeWhile_of_halts {digits cs : List Char} (hdigits : ∀ c ∈ digits, c.isDigit = true)
    (h : Halts cs) : (digits ++ cs).takeWhile Char.isDigit = digits :=
  takeWhile_digits hdigits fun c hc => (h c hc).1

/-- The digits at the front, and what stands behind them. -/
theorem exists_digits (cs : List Char) :
    ∃ digits rest, cs = digits ++ rest ∧ cs.takeWhile Char.isDigit = digits ∧
      (∀ c ∈ digits, c.isDigit = true) :=
  ⟨cs.takeWhile Char.isDigit, cs.dropWhile Char.isDigit, List.takeWhile_append_dropWhile.symm, rfl,
    fun _ hc => List.mem_takeWhile_imp hc⟩

/-- Where a number ends it has no exponent. -/
theorem exponentPart_of_ends {other : List Char} (h : Ends other) :
    exponentPart other = .ok (none, 0) := by
  cases other with
  | nil => rfl
  | cons c rest => exact if_neg (not_or.mpr h.head.2.2)

/-- The sign of an exponent, if digits follow. -/
theorem exists_sign {cs rest : List Char} {negative : Bool} {width : ℕ}
    (h : exponentSign cs = (negative, width, rest)) :
    ∃ sign, cs = sign ++ rest ∧ sign.length = width ∧ ∀ (d : Char) (more : List Char),
      d.isDigit = true → exponentSign (sign ++ d :: more) = (negative, width, d :: more) := by
  unfold exponentSign at h
  split at h
  · cases h
    exact ⟨['-'], rfl, rfl, fun _ _ _ => rfl⟩
  · cases h
    exact ⟨['+'], rfl, rfl, fun _ _ _ => rfl⟩
  · cases h
    refine ⟨[], rfl, rfl, fun d more hd => ?_⟩
    exact exponentSign.eq_3 _ (fun _ heq => ne_of_isDigit hd rfl (List.cons.inj heq).1)
      (fun _ heq => ne_of_isDigit hd rfl (List.cons.inj heq).1)

/-- The exponent depends on its own characters. -/
theorem exists_word_of_exponentPart {cs : List Char} {power : Option ℤ} {width : ℕ}
    (h : exponentPart cs = .ok (power, width)) :
    ∃ word rest, cs = word ++ rest ∧ width = word.length ∧
      ∀ other, Ends other → Halts (word ++ other) ∧
        exponentPart (word ++ other) = .ok (power, width) := by
  -- without an exponent nothing is taken, in three of the cases below
  have habsent : power = none → width = 0 → ∃ word rest, cs = word ++ rest ∧ width = word.length ∧
      ∀ other, Ends other → Halts (word ++ other) ∧
        exponentPart (word ++ other) = .ok (power, width) := by
    rintro rfl rfl
    exact ⟨[], cs, rfl, rfl, fun other hother => ⟨hother.halts, exponentPart_of_ends hother⟩⟩
  cases cs with
  | nil =>
      cases h
      exact habsent rfl rfl
  | cons c after =>
      rw [exponentPart] at h
      split at h
      · rename_i hc
        obtain ⟨⟨negative, signWidth, behind⟩, hsign⟩ : ∃ found, exponentSign after = found :=
          ⟨_, rfl⟩
        obtain ⟨sign, rfl, rfl, hagain⟩ := exists_sign hsign
        obtain ⟨digits, rest, rfl, hdigits, hall⟩ := exists_digits behind
        simp only [hsign, hdigits] at h
        split at h
        · cases h
        · rename_i hsome
          obtain ⟨d, more, rfl⟩ := List.exists_cons_of_ne_nil hsome
          refine ⟨c :: sign ++ (d :: more), rest, by simp, ?_, fun other hother => ⟨?_, ?_⟩⟩
          · cases h
            simp only [List.cons_append, List.length_cons, List.length_append]
            omega
          · intro e he
            cases he
            rcases hc with rfl | rfl <;> decide
          · have hfound : exponentSign (sign ++ (d :: more ++ other))
                = (negative, sign.length, d :: more ++ other) :=
              hagain d (more ++ other) (hall d List.mem_cons_self)
            have hword :
                c :: sign ++ (d :: more) ++ other = c :: (sign ++ (d :: more ++ other)) := by
              simp
            rw [hword, exponentPart, if_pos hc, hfound]
            simp only [takeWhile_of_halts hall hother.halts]
            exact h
      · cases h
        exact habsent rfl rfl

/-- The digits behind a point depend on no more than that. -/
theorem exists_word_of_fractionDigits {cs fraction : List Char}
    (h : fractionDigits cs = .ok fraction) :
    ∃ word rest, cs = word ++ rest ∧
      word.length = (if fraction.isEmpty then 0 else 1 + fraction.length) ∧
      ∀ other, Halts other → (∀ c ∈ (word ++ other).head?, c.isDigit = false) ∧
        fractionDigits (word ++ other) = .ok fraction := by
  unfold fractionDigits at h
  split at h
  · rename_i behind
    obtain ⟨digits, rest, rfl, hdigits, hall⟩ := exists_digits behind
    rw [hdigits] at h
    split at h
    · cases h
    · rename_i hsome
      cases h
      refine ⟨'.' :: fraction, rest, rfl, ?_, fun other hother => ⟨fun c hc => ?_, ?_⟩⟩
      · rw [List.isEmpty_eq_false_iff.mpr hsome]
        simp only [List.length_cons, Bool.false_eq_true, ↓reduceIte]
        omega
      · cases hc
        rfl
      · simp only [List.cons_append, fractionDigits, takeWhile_of_halts hall hother]
  · cases h
    refine ⟨[], cs, rfl, rfl, fun other hother => ⟨fun c hc => (hother c hc).1, ?_⟩⟩
    refine fractionDigits.eq_2 _ fun rest heq => ?_
    have hpoint : other.head? = some '.' := congrArg List.head? heq
    exact (hother '.' hpoint).2 rfl

/-- A number depends on its own characters, if something follows that can stand behind a
value. -/
theorem exists_word_of_unsignedNumeral {negative : Bool} {body : List Char} {numeral : Numeral}
    {width : ℕ} (h : unsignedNumeral negative body = .ok (numeral, width)) :
    ∃ c word rest, body = c :: word ++ rest ∧ width = word.length + 1 ∧ c.isDigit = true ∧
      ∀ other, Ends other →
        unsignedNumeral negative (c :: word ++ other) = .ok (numeral, width) := by
  obtain ⟨whole, behind, rfl, hwhole, hall⟩ := exists_digits body
  unfold unsignedNumeral at h
  rw [hwhole] at h
  split at h
  · cases h
  · cases h
  · rename_i hsome hzero
    obtain ⟨fraction, hfraction, h⟩ := exists_of_bind_eq_ok h
    rw [List.drop_left] at hfraction
    obtain ⟨point, after, rfl, hpoint, hfractionAgain⟩ := exists_word_of_fractionDigits hfraction
    obtain ⟨⟨power, powerWidth⟩, hpower, h⟩ := exists_of_bind_eq_ok h
    rw [List.drop_left, ← hpoint, List.drop_left] at hpower
    obtain ⟨exponent, rest, rfl, rfl, hpowerAgain⟩ := exists_word_of_exponentPart hpower
    obtain ⟨c, more, rfl⟩ := List.exists_cons_of_ne_nil hsome
    refine ⟨c, more ++ point ++ exponent, rest, by simp, ?_, hall c List.mem_cons_self,
      fun other hother => ?_⟩
    · cases h
      rw [← hpoint]
      simp only [List.length_append, List.length_cons]
      omega
    · obtain ⟨hhalts, hexponent⟩ := hpowerAgain other hother
      obtain ⟨hdigit, hpoints⟩ := hfractionAgain (exponent ++ other) hhalts
      have hword : c :: (more ++ point ++ exponent) ++ other
          = c :: more ++ (point ++ (exponent ++ other)) := by
        simp
      have hfront :
          (c :: more ++ (point ++ (exponent ++ other))).takeWhile Char.isDigit = c :: more :=
        takeWhile_digits hall hdigit
      unfold unsignedNumeral
      rw [hword, hfront]
      split
      · rename_i heq
        cases heq
      · rename_i heq
        exact absurd heq (hzero _ _)
      · simp only [List.drop_left, hpoints, bind, Except.bind, ← hpoint, hexponent]
        rw [← hpoint] at h
        exact h

/-! ## Tokens -/

/-- A word is recognized by its letters, whatever follows. -/
theorem wordToken_append (token : Token) (word other : List Char) :
    wordToken token word (word ++ other) = token := by
  induction word with
  | nil => rfl
  | cons c word ih => rw [List.cons_append, wordToken, if_pos rfl, ih]

/-- Only the letters of a word are taken for it. -/
theorem exists_of_wordToken {token found : Token} {word cs : List Char}
    (h : wordToken token word cs = found) (hlast : found.isLast = false) :
    found = token ∧ ∃ rest, cs = word ++ rest := by
  induction word generalizing cs with
  | nil => exact ⟨h.symm, cs, rfl⟩
  | cons c word ih =>
      cases cs with
      | nil =>
          cases h
          cases hlast
      | cons d rest =>
          rw [wordToken] at h
          split at h
          · rename_i hd
            obtain ⟨hfound, more, rfl⟩ := ih h
            exact ⟨hfound, more, by rw [hd]; rfl⟩
          · cases h
            cases hlast

/-- Tokens that can stand behind a value. -/
def Token.endsValue : Token → Bool
  | .comma => true
  | .closeArray => true
  | .closeObject => true
  | _ => false

/-- What decides about a token that begins with a character. -/
inductive Begins (c : Char) : Prop
  | mark (token : Token) (h : ∀ cs, tokenAt c cs = (token, 0))
      (ends : token.endsValue = true → c = ',' ∨ c = ']' ∨ c = '}')
  | word (token : Token) (word : List Char) (ends : token.endsValue = false)
      (h : ∀ cs, tokenAt c cs = (wordToken token word cs, word.length))
  | minus (h : ∀ cs, tokenAt c cs = numberToken 1 cs)
  | digit (h : ∀ cs, tokenAt c cs = numberToken 0 (c :: cs))
  | quote (h : c = '"')

/-- Every character begins a token in one way or is refused. -/
theorem begins (c : Char) : Begins c := by
  by_cases hc : c ∈ ['[', ']', '{', '}', ',', ':', 'n', 't', 'f', '-', '"']
  · simp only [List.mem_cons, List.not_mem_nil, or_false] at hc
    rcases hc with rfl | rfl | rfl | rfl | rfl | rfl | rfl | rfl | rfl | rfl | rfl
    · exact .mark .openArray (fun _ => rfl) nofun
    · exact .mark .closeArray (fun _ => rfl) (by decide)
    · exact .mark .openObject (fun _ => rfl) nofun
    · exact .mark .closeObject (fun _ => rfl) (by decide)
    · exact .mark .comma (fun _ => rfl) (by decide)
    · exact .mark .colon (fun _ => rfl) nofun
    · exact .word .null ['u', 'l', 'l'] rfl fun _ => rfl
    · exact .word (.boolean true) ['r', 'u', 'e'] rfl fun _ => rfl
    · exact .word (.boolean false) ['a', 'l', 's', 'e'] rfl fun _ => rfl
    · exact .minus fun _ => rfl
    · exact .quote rfl
  · cases hdigit : c.isDigit with
    | true => exact .digit fun cs => tokenAt_digit hdigit cs
    | false =>
        refine .mark .stray (fun cs => ?_) nofun
        simp only [List.mem_cons, List.not_mem_nil, or_false, not_or] at hc
        obtain ⟨h1, h2, h3, h4, h5, h6, h7, h8, h9, h10, h11⟩ := hc
        simp only [tokenAt, if_neg h1, if_neg h2, if_neg h3, if_neg h4, if_neg h5, if_neg h6,
          if_neg h7, if_neg h8, if_neg h9, if_neg h10, if_neg h11, hdigit, Bool.false_eq_true,
          ↓reduceIte]

theorem tokenAt_quote (cs : List Char) : tokenAt '"' cs = match stringPieces 0 [] cs with
    | .ok (pieces, reach) => (.string ((spell pieces).map String.ofList), reach)
    | .error cause => (.broken cause true, 0) := rfl

/-- A token depends on its own characters, and a number also on that something follows that
can stand behind a value. -/
theorem exists_word_of_tokenAt {c : Char} {cs : List Char} {token : Token} {width : ℕ}
    (h : tokenAt c cs = (token, width)) (hlast : token.isLast = false) :
    ∃ body rest, cs = body ++ rest ∧ width = body.length ∧
      ∀ other, ((∃ numeral, token = .number numeral) → Ends other) →
        tokenAt c (body ++ other) = (token, width) := by
  -- the first character decides which rule looks ahead, and only numbers look behind their end
  cases begins c with
  | mark mark hmark _ =>
      rw [hmark] at h
      cases h
      exact ⟨[], cs, rfl, rfl, fun other _ => hmark other⟩
  | word token' word _ hword =>
      rw [hword] at h
      obtain ⟨hfound, rfl⟩ := Prod.mk.inj h
      obtain ⟨heq, rest, rfl⟩ := exists_of_wordToken hfound hlast
      refine ⟨word, rest, rfl, rfl, fun other _ => ?_⟩
      rw [hword, wordToken_append, ← heq]
  | minus hminus =>
      rw [hminus, numberToken] at h
      split at h
      · rename_i numeral reach hnumeral
        cases h
        obtain ⟨d, word, rest, rfl, rfl, -, hagain⟩ := exists_word_of_unsignedNumeral hnumeral
        refine ⟨d :: word, rest, rfl, ?_, fun other hother => ?_⟩
        · simp only [List.length_cons]
          omega
        · rw [hminus, numberToken, hagain other (hother ⟨numeral, rfl⟩)]
      · cases h
        cases hlast
  | digit hdigit =>
      rw [hdigit, numberToken] at h
      split at h
      · rename_i numeral reach hnumeral
        cases h
        obtain ⟨d, word, rest, heq, rfl, -, hagain⟩ := exists_word_of_unsignedNumeral hnumeral
        obtain ⟨rfl, rfl⟩ := List.cons.inj heq
        refine ⟨word, rest, rfl, ?_, fun other hother => ?_⟩
        · omega
        · rw [hdigit, numberToken, ← List.cons_append, hagain other (hother ⟨numeral, rfl⟩)]
      · cases h
        cases hlast
  | quote hquote =>
      rw [hquote, tokenAt_quote] at h
      split at h
      · rename_i pieces reach hpieces
        cases h
        obtain ⟨word, rest, rfl, rfl, hagain⟩ := exists_word_of_stringPieces hpieces
        refine ⟨word, rest, rfl, Nat.zero_add _, fun other _ => ?_⟩
        rw [hquote, tokenAt_quote, hagain other]
      · cases h
        cases hlast

/-- Only some characters begin a token that can stand behind a value. -/
theorem begins_of_endsValue {c : Char} {cs : List Char} {token : Token} {width : ℕ}
    (h : tokenAt c cs = (token, width)) (hends : token.endsValue = true) :
    c = ',' ∨ c = ']' ∨ c = '}' := by
  cases begins c with
  | mark mark hmark ends =>
      rw [hmark] at h
      cases h
      exact ends hends
  | word token' word ends hword =>
      rw [hword] at h
      obtain ⟨hfound, -⟩ := Prod.mk.inj h
      have hlast : token.isLast = false := by
        cases token <;> first | rfl | cases hends
      rw [(exists_of_wordToken hfound hlast).1, ends] at hends
      cases hends
  | minus hminus =>
      rw [hminus, numberToken] at h
      split at h <;> cases h <;> cases hends
  | digit hdigit =>
      rw [hdigit, numberToken] at h
      split at h <;> cases h <;> cases hends
  | quote hquote =>
      rw [hquote, tokenAt_quote] at h
      split at h <;> cases h <;> cases hends

/-! ## Texts -/

/-- A word that is cut off as a token wherever it stands. -/
structure Lexeme (token : Token) (c : Char) (body : List Char) : Prop where
  solid : isGap c = false
  sound : token.isLast = false
  token : tokenAt c body = (token, body.length)

/-- A spelling is cut off as its token, whatever follows; behind a number its end must be
seen. -/
theorem Lexeme.tokenAt_append {token : Token} {c : Char} {body : List Char}
    (h : Lexeme token c body) {rest : List Char}
    (hrest : (∃ numeral, token = .number numeral) → Ends rest) :
    tokenAt c (body ++ rest) = (token, body.length) := by
  obtain ⟨word, more, hbody, hlength, hagain⟩ := exists_word_of_tokenAt h.token h.sound
  have hmore : more = [] := by
    have hlengths := congrArg List.length hbody
    rw [List.length_append, hlength] at hlengths
    exact List.length_eq_zero_iff.mp (by omega)
  rw [hmore, List.append_nil] at hbody
  rw [hbody]
  exact hbody ▸ hagain rest hrest

/-- A text that spells tokens: a word for each, and blanks wherever one likes. -/
inductive Spells : List Token → List Char → Prop
  | done {gap : List Char} (blank : ∀ c ∈ gap, isGap c = true) : Spells [] gap
  | token {gap : List Char} {c : Char} {body rest : List Char} {token : Token}
      {tokens : List Token} (blank : ∀ c ∈ gap, isGap c = true) (lexeme : Lexeme token c body)
      (spells : Spells tokens rest) : Spells (token :: tokens) (gap ++ (c :: body ++ rest))

/-- Tokens among which a number is followed only by what can stand behind a value. -/
def Apart (tokens : List Token) : Prop :=
  tokens.IsChain fun token next => (∃ numeral, token = .number numeral) → next.endsValue = true

/-- What spells tokens that can stand behind a value can itself. -/
theorem Spells.ends {tokens : List Token} {cs : List Char} (h : Spells tokens cs)
    (hfirst : ∀ token ∈ tokens.head?, token.endsValue = true) : Ends cs := by
  cases h with
  | done blank =>
      have hends := ends_gap blank ends_nil
      rwa [List.append_nil] at hends
  | token blank lexeme _ =>
      exact ends_gap blank (ends_cons (.inr (begins_of_endsValue lexeme.token (hfirst _ rfl))))

/-- A text that spells tokens is cut into them. -/
theorem tokensBehind_of_spells {tokens : List Token} {cs : List Char} (h : Spells tokens cs)
    (hapart : Apart tokens) (before : List Token) :
    tokensBehind before 0 cs = before.reverse ++ tokens := by
  induction h generalizing before with
  | done blank =>
      have hgap := tokensBehind_gap before blank []
      rw [List.append_nil] at hgap
      rw [hgap, tokensBehind, List.append_nil]
  | @token gap c body rest token tokens blank lexeme spells ih =>
      have hrest : (∃ numeral, token = .number numeral) → Ends rest := by
        intro hnumber
        refine spells.ends fun next hnext => ?_
        cases tokens with
        | nil => cases hnext
        | cons first more =>
            cases hnext
            exact (List.isChain_cons_cons.mp hapart).1 hnumber
      rw [tokensBehind_gap before blank,
        tokensBehind_token before lexeme.solid (lexeme.tokenAt_append hrest) lexeme.sound,
        ih (List.isChain_of_isChain_cons hapart), List.reverse_cons, List.append_assoc,
        List.singleton_append]

/-- A text that spells tokens is cut into them, if no two numbers meet. -/
theorem tokens_of_spells {tokens : List Token} {text : String} (h : Spells tokens text.toList)
    (hapart : Apart tokens) : Json.tokens text = tokens :=
  tokensBehind_of_spells h hapart []

/-- A blank in front does not change which tokens are spelled. -/
theorem Spells.gap {tokens : List Token} {c : Char} {cs : List Char} (hc : isGap c = true)
    (h : Spells tokens cs) : Spells tokens (c :: cs) := by
  cases h with
  | done blank => exact .done (List.forall_mem_cons.mpr ⟨hc, blank⟩)
  | @token gap d body rest token tokens blank lexeme spells =>
      have hgap : ∀ other ∈ c :: gap, isGap other = true := List.forall_mem_cons.mpr ⟨hc, blank⟩
      exact .token hgap lexeme spells

/-- A text that is cut to its end spells its tokens. -/
theorem exists_of_tokensBehind (before : List Token) (cs : List Char) :
    ∃ tokens, tokensBehind before 0 cs = before.reverse ++ tokens ∧
      ((∀ token ∈ tokens, token.isLast = false) → Spells tokens cs) := by
  obtain ⟨size, hsize⟩ : ∃ size, cs.length ≤ size := ⟨_, le_rfl⟩
  -- a token takes several characters at once, so the induction is on a bound of their number
  induction size generalizing before cs with
  | zero =>
      obtain rfl := List.length_eq_zero_iff.mp (Nat.le_zero.mp hsize)
      exact ⟨[], (List.append_nil _).symm, fun _ => .done (by simp)⟩
  | succ size ih =>
      cases cs with
      | nil => exact ⟨[], (List.append_nil _).symm, fun _ => .done (by simp)⟩
      | cons c cs =>
          rw [List.length_cons] at hsize
          cases hgap : isGap c with
          | true =>
              obtain ⟨tokens, htokens, hspells⟩ := ih before cs (by omega)
              refine ⟨tokens, ?_, fun h => (hspells h).gap hgap⟩
              rw [tokensBehind, if_pos hgap, htokens]
          | false =>
              obtain ⟨⟨token, width⟩, htoken⟩ : ∃ found, tokenAt c cs = found := ⟨_, rfl⟩
              cases hlast : token.isLast with
              | true =>
                  refine ⟨[token], ?_, fun h => ?_⟩
                  · rw [tokensBehind, hgap, htoken]
                    simp only [Bool.false_eq_true, ↓reduceIte, hlast, List.reverse_cons]
                  · rw [h token List.mem_cons_self] at hlast
                    cases hlast
              | false =>
                  -- the token is found again without what stands behind it, which makes it a lexeme
                  obtain ⟨body, rest, rfl, rfl, hagain⟩ := exists_word_of_tokenAt htoken hlast
                  rw [List.length_append] at hsize
                  obtain ⟨tokens, htokens, hspells⟩ := ih (token :: before) rest (by omega)
                  have hlexeme : Lexeme token c body := by
                    refine ⟨hgap, hlast, ?_⟩
                    have halone := hagain [] fun _ => ends_nil
                    rwa [List.append_nil] at halone
                  refine ⟨token :: tokens, ?_, fun h => ?_⟩
                  · rw [← List.cons_append, tokensBehind_token before hgap htoken hlast, htokens,
                      List.reverse_cons, List.append_assoc, List.singleton_append]
                  · have hgap : ∀ other ∈ ([] : List Char), isGap other = true := by simp
                    exact .token hgap hlexeme
                      (hspells fun other hother => h other (List.mem_cons_of_mem token hother))

/-- A text that can be cut to its end spells the tokens it is cut into. -/
theorem spells_tokens {text : String} (h : ∀ token ∈ tokens text, token.isLast = false) :
    Spells (tokens text) text.toList := by
  obtain ⟨found, hfound, hspells⟩ := exists_of_tokensBehind [] text.toList
  have htokens : tokens text = found := hfound
  rw [htokens] at h ⊢
  exact hspells h

end Json

end Montage
