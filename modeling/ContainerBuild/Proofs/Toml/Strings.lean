import ContainerBuild.Toml.Printer
import ContainerBuild.Toml.Strings
import Mathlib.Data.List.Basic

/-!
# TOML strings are read back

Whatever style a string is written in, it is read back (`string?_renderString`), with
what follows it left over, unless that begins with a quote.

The body of a string is made of *pieces*, each of which stands for one character
(`Piece`). In a string of several lines there are also quotes that stand for
themselves, at most two in a row (`Lined`). That is all a reader needs: a run of one or
two quotes does not close the string, and of a longer run the last three do.
-/

namespace ContainerBuild.Toml

open StringStep

variable {quote c : Char} {step : List Char → Option StringStep} {piece body text rest : List Char}

/-! ### Reading up to the closing quotes -/

/-- The steps through a body add a text, close the string and leave a rest. -/
inductive Closes (step : List Char → Option StringStep) :
    List Char → List Char → List Char → Prop
  | close {body text rest : List Char} :
    step body = some { text, closes := true, rest } → rest.length < body.length →
    Closes step body text rest
  | more {c : Char} {body body' text rest : List Char} :
    step body = some (char c body') → body'.length < body.length →
    Closes step body' text rest → Closes step body (c :: text) rest

theorem stringRest_of_closes (h : Closes step body text rest) {budget : Nat}
    (hbudget : body.length ≤ budget) : stringRest step budget body = some (text, rest) := by
  induction h generalizing budget with
  | close hstep hlt =>
    obtain ⟨budget, rfl⟩ : ∃ n, budget = n + 1 := Nat.exists_eq_add_one.2 (by omega)
    rw [stringRest, hstep]
    rfl
  | more hstep hlt _ ih =>
    obtain ⟨budget, rfl⟩ : ∃ n, budget = n + 1 := Nat.exists_eq_add_one.2 (by omega)
    rw [stringRest, hstep, Option.bind_eq_bind, Option.bind_some, char]
    dsimp only
    rw [if_neg Bool.false_ne_true, ih (by omega)]
    rfl

/-- A piece of a body stands for a character, and does not begin with a quote. -/
structure Piece (quote : Char) (step : List Char → Option StringStep) (piece : List Char)
    (c : Char) : Prop where
  read : ∀ rest, step (piece ++ rest) = some (char c rest)
  begins : ∃ a tail, piece = a :: tail ∧ a ≠ quote

theorem Piece.closes (h : Piece quote step piece c) (hbody : Closes step body text rest) :
    Closes step (piece ++ body) (c :: text) rest := by
  refine .more (h.read body) ?_ hbody
  obtain ⟨a, tail, rfl, _⟩ := h.begins
  rw [List.length_append, List.length_cons]
  omega

/-- A body of pieces up to the closing quote of a string of one line. -/
theorem closes_flatMap {write : Char → List Char}
    (hclose : ∀ rest, step (quote :: rest) = some { text := [], closes := true, rest })
    (h : ∀ c ∈ text, Piece quote step (write c) c) (rest : List Char) :
    Closes step (text.flatMap write ++ quote :: rest) text rest := by
  induction text with
  | nil => exact .close (hclose rest) (Nat.lt_succ_self _)
  | cons c text ih =>
    rw [List.forall_mem_cons] at h
    rw [List.flatMap_cons, List.append_assoc]
    exact h.1.closes (ih h.2)

/-! ### Quotes in a string of several lines -/

/-- A body, after some quotes in a row, is made of pieces and of quotes, of which no
    three are in a row. -/
inductive Lined (quote : Char) (step : List Char → Option StringStep) :
    Nat → List Char → List Char → Prop
  | nil {quotes : Nat} : quotes ≤ 2 → Lined quote step quotes [] []
  | quote {quotes : Nat} {body text : List Char} :
    Lined quote step (quotes + 1) body text →
    Lined quote step quotes (quote :: body) (quote :: text)
  | piece {quotes : Nat} {c : Char} {piece body text : List Char} :
    quotes ≤ 2 → Piece quote step piece c → Lined quote step 0 body text →
    Lined quote step quotes (piece ++ body) (c :: text)

theorem takeWhile_run (n : Nat) (h : quote ∉ rest.head?) :
    (List.replicate n quote ++ rest).takeWhile (· = quote) = List.replicate n quote := by
  have hrest : rest.takeWhile (· = quote) = [] := by
    cases rest with
    | nil => rfl
    | cons a rest => exact List.takeWhile_cons_of_neg (by simpa [eq_comm] using h)
  rw [List.takeWhile_append_of_pos (by simp), hrest, List.append_nil]

theorem quotes_short {n : Nat} (hn : n < 2) (h : quote ∉ rest.head?) :
    quotes quote (List.replicate n quote ++ rest) =
      char quote (List.replicate n quote ++ rest) := by
  have hrun := takeWhile_run (n + 1) h
  rw [List.replicate_succ, List.cons_append] at hrun
  rw [quotes, hrun]
  exact if_pos (by rw [List.length_cons, List.length_replicate]; omega)

theorem quotes_long {n : Nat} (hn : n ≤ 2) (h : quote ∉ rest.head?) :
    quotes quote (List.replicate (n + 2) quote ++ rest) =
      { text := List.replicate n quote, closes := true, rest } := by
  have hrun := takeWhile_run (n + 3) h
  rw [List.replicate_succ, List.cons_append] at hrun
  rw [quotes, hrun]
  dsimp only
  rw [List.length_cons, List.length_replicate, if_neg (by omega),
    show min (n + 2 + 1 - 3) 2 = n by omega, List.drop_left' List.length_replicate]

/-- One or two quotes before something else stand for themselves. -/
theorem closes_run (hquotes : ∀ rest, step (quote :: rest) = some (quotes quote rest)) {n : Nat}
    (hn : n ≤ 2) (h : quote ∉ body.head?) (hbody : Closes step body text rest) :
    Closes step (List.replicate n quote ++ body) (List.replicate n quote ++ text) rest := by
  induction n with
  | zero => exact hbody
  | succ n ih =>
    rw [List.replicate_succ, List.cons_append, List.cons_append]
    refine .more ?_ (Nat.lt_succ_self _) (ih (by omega))
    rw [hquotes, quotes_short (by omega) h]

theorem closes_of_lined (hquotes : ∀ rest, step (quote :: rest) = some (quotes quote rest))
    {n : Nat} (h : Lined quote step n body text) (hrest : quote ∉ rest.head?) :
    Closes step (List.replicate n quote ++ (body ++ (tripleQuotes quote ++ rest)))
      (List.replicate n quote ++ text) rest := by
  induction h with
  | @nil n hn =>
    -- The quotes at the end of the body and the closing ones are one run.
    have heq : List.replicate n quote ++ ([] ++ (tripleQuotes quote ++ rest)) =
        quote :: (List.replicate (n + 2) quote ++ rest) := by
      rw [List.nil_append, ← List.append_assoc, tripleQuotes, ← List.cons_append,
        ← List.replicate_succ, List.replicate_add n 3]
      rfl
    rw [heq, List.append_nil]
    refine .close ?_ ?_
    · rw [hquotes, quotes_long hn hrest]
    · rw [List.length_cons, List.length_append]
      omega
  | @quote n body text _ ih =>
    have hmove : ∀ l : List Char,
        List.replicate (n + 1) quote ++ l = List.replicate n quote ++ quote :: l := fun l => by
      rw [List.replicate_succ', List.append_assoc, List.singleton_append]
    rw [hmove, hmove] at ih
    exact ih
  | @piece n c piece body text hn hpiece _ ih =>
    rw [List.append_assoc]
    refine closes_run hquotes hn ?_ (hpiece.closes ih)
    obtain ⟨a, tail, rfl, ha⟩ := hpiece.begins
    simpa using ha

/-! ### Characters in basic strings -/

/-- A character is written as itself or as an escape. -/
inductive EscapedAs (c : Char) : List Char → Prop
  | plain : isPlain c → c ≠ '"' → c ≠ '\\' → EscapedAs c [c]
  | escape {e : Char} {tail : List Char} :
    e ∉ [' ', '\t', '\n', '\r'] → (∀ rest, escape? (e :: tail ++ rest) = some (c, rest)) →
    EscapedAs c ('\\' :: e :: tail)

theorem isPlain_of_not_needsEscape (h : ¬needsEscape c) (hfeed : c ≠ '\n') : isPlain c := by
  simp only [needsEscape, isPlain, Bool.or_eq_true, Bool.and_eq_true, decide_eq_true_eq] at h ⊢
  by_cases htab : c = '\t'
  · exact .inl htab
  · simp only [htab, hfeed, ne_eq, not_false_eq_true, and_true] at h
    exact .inr (by omega)

theorem not_isPlain_feed : ¬isPlain '\n' := by decide

theorem not_isPlain_return : ¬isPlain '\r' := by decide

/-- The digits of a code below 128 are read as the code. -/
theorem codePoint?_hexPadded : ∀ code < 0x80, ∃ a b c d,
    (Text.hexPadded 4 code).map Char.toUpper = [a, b, c, d] ∧
      [a, b, c, d].mapM Text.hexDigit? = some [0, 0, code / 16, code % 16] := by
  intro code hcode
  refine ⟨'0', '0', (Nat.digitChar (code / 16)).toUpper, (Nat.digitChar (code % 16)).toUpper, ?_⟩
  revert code
  decide

theorem escape?_code (h : c.toNat < 0x80) (rest : List Char) :
    escape? ('u' :: (Text.hexPadded 4 c.toNat).map Char.toUpper ++ rest) = some (c, rest) := by
  obtain ⟨x, y, z, w, hdigits, hread⟩ := codePoint?_hexPadded c.toNat h
  have hcode : Text.ofDigits 16 [0, 0, c.toNat / 16, c.toNat % 16] = c.toNat := by
    simp only [Text.ofDigits, List.foldl_cons, List.foldl_nil]
    omega
  have hvalid : c.toNat.isValidChar := c.valid
  rw [hdigits]
  change codePoint? 4 (x :: y :: z :: w :: rest) = _
  rw [codePoint?]
  simp only [List.take_succ_cons, List.take_zero, List.drop_succ_cons, List.drop_zero, hread,
    Option.bind_eq_bind, Option.bind_some, hcode, hvalid, List.length_cons, List.length_nil,
    and_self, if_true, Char.ofNat_toNat]

theorem escapedAs_escapeChar (c : Char) : EscapedAs c (escapeChar c) := by
  unfold escapeChar
  split_ifs with hbackspace htab hfeed hform hreturn hmarked hcontrol
  · subst c
    exact .escape (by decide) fun _ => rfl
  · subst c
    exact .escape (by decide) fun _ => rfl
  · subst c
    exact .escape (by decide) fun _ => rfl
  · subst c
    exact .escape (by decide) fun _ => rfl
  · subst c
    exact .escape (by decide) fun _ => rfl
  · simp only [Bool.or_eq_true, decide_eq_true_eq] at hmarked
    rcases hmarked with rfl | rfl
    · exact .escape (by decide) fun _ => rfl
    · exact .escape (by decide) fun _ => rfl
  · refine .escape (by decide) fun rest => escape?_code ?_ rest
    simp only [needsEscape, Bool.or_eq_true, Bool.and_eq_true, decide_eq_true_eq] at hcontrol
    omega
  · simp only [Bool.or_eq_true, decide_eq_true_eq, not_or] at hmarked
    obtain ⟨hquote, hbackslash⟩ := hmarked
    exact .plain (isPlain_of_not_needsEscape hcontrol hfeed) hquote hbackslash

theorem EscapedAs.basic (h : EscapedAs c piece) : Piece '"' basic? piece c := by
  cases h with
  | plain hplain hquote hbackslash =>
    refine ⟨fun rest => ?_, c, [], rfl, hquote⟩
    rw [List.singleton_append, basic?, if_neg hquote, if_neg hbackslash, plain?, if_pos hplain]
  | @escape e tail _ hread =>
    refine ⟨fun rest => ?_, '\\', e :: tail, rfl, by decide⟩
    rw [List.cons_append, basic?, if_neg (by decide), if_pos rfl, escaped?, hread]
    rfl

/-! ### Characters in strings of several lines -/

theorem afterNewline?_eq_none (h : ∀ a ∈ text.head?, a ≠ '\n' ∧ a ≠ '\r') :
    afterNewline? text = none := by
  cases text with
  | nil => rfl
  | cons a text =>
    obtain ⟨hfeed, hreturn⟩ := h a rfl
    rw [afterNewline?]
    · exact fun _ heq => hfeed (List.cons.inj heq).1
    · exact fun _ heq => hreturn (List.cons.inj heq).1

theorem line?_plain (h : isPlain c) (rest : List Char) : line? c rest = some (char c rest) := by
  rw [line?, afterNewline?_eq_none, plain?]
  · exact if_pos h
  · rintro _ ⟨⟩
    refine ⟨?_, ?_⟩
    · rintro rfl
      exact not_isPlain_feed h
    · rintro rfl
      exact not_isPlain_return h

theorem EscapedAs.multiBasic (h : EscapedAs c piece) : Piece '"' multiBasic? piece c := by
  cases h with
  | plain hplain hquote hbackslash =>
    refine ⟨fun rest => ?_, c, [], rfl, hquote⟩
    rw [List.singleton_append, multiBasic?, if_neg hquote, if_neg hbackslash, line?_plain hplain]
  | @escape e tail he hread =>
    refine ⟨fun rest => ?_, '\\', e :: tail, rfl, by decide⟩
    -- Only a backslash before white space takes the end of the line away.
    simp only [List.mem_cons, List.not_mem_nil, or_false, not_or] at he
    have hspace : isSpace e = false := by simp [isSpace, he]
    have hfold : fold? (e :: tail ++ rest) = escaped? (e :: tail ++ rest) := by
      rw [fold?, List.cons_append, List.dropWhile_cons_of_neg (by simp [hspace]),
        afterNewline?_eq_none]
      rintro _ ⟨⟩
      exact ⟨he.2.2.1, he.2.2.2⟩
    rw [List.cons_append, multiBasic?, if_neg (by decide), if_pos rfl, hfold, escaped?, hread]
    rfl

theorem piece_multiBasic_feed : Piece '"' multiBasic? ['\n'] '\n' :=
  ⟨fun _ => rfl, '\n', [], rfl, by decide⟩

theorem lined_escapeLines {n : Nat} (hn : n ≤ 2) (text : List Char) :
    Lined '"' multiBasic? n (escapeLines n text) text := by
  induction text generalizing n with
  | nil => exact .nil hn
  | cons c text ih =>
    rw [escapeLines]
    split_ifs with hquote hshort hfeed
    · subst c
      exact .quote (ih (by omega))
    · subst c
      exact .piece hn (escapedAs_escapeChar '"').multiBasic (ih (by omega))
    · subst c
      exact .piece hn piece_multiBasic_feed (ih (by omega))
    · exact .piece hn (escapedAs_escapeChar c).multiBasic (ih (by omega))

theorem piece_multiLiteral (h : isPlain c ∨ c = '\n') (hquote : c ≠ '\'') :
    Piece '\'' multiLiteral? [c] c := by
  refine ⟨fun rest => ?_, c, [], rfl, hquote⟩
  rw [List.singleton_append, multiLiteral?, if_neg hquote]
  rcases h with h | rfl
  · exact line?_plain h rest
  · rfl

theorem tripled_of_append {before : List Char} (h : tripled quote text) :
    tripled quote (before ++ text) := by
  induction before with
  | nil => exact h
  | cons a before ih =>
    rw [List.cons_append]
    match hrest : before ++ text, ih with
    | [], ih => exact absurd ih (by simp [tripled])
    | [_], ih => exact absurd ih (by simp [tripled])
    | b :: c :: rest, ih => rw [tripled, ih, Bool.or_true]

/-- A text without three quotes in a row stands for itself. -/
theorem lined_literal {n : Nat} (h : ¬tripled '\'' (List.replicate n '\'' ++ text))
    (hn : n ≤ 2) (hplain : ∀ c ∈ text, isPlain c ∨ c = '\n') :
    Lined '\'' multiLiteral? n text text := by
  induction text generalizing n with
  | nil => exact .nil hn
  | cons c text ih =>
    rw [List.forall_mem_cons] at hplain
    by_cases hquote : c = '\''
    · subst c
      have hmove : List.replicate n '\'' ++ '\'' :: text =
          List.replicate (n + 1) '\'' ++ text := by
        rw [List.replicate_succ', List.append_assoc, List.singleton_append]
      rw [hmove] at h
      refine .quote (ih h ?_ hplain.2)
      by_contra hlong
      obtain rfl : n = 2 := by omega
      exact h rfl
    · refine .piece hn (piece_multiLiteral hplain.1 hquote) (ih ?_ (by omega) hplain.2)
      rw [← List.singleton_append, ← List.append_assoc] at h
      exact mt tripled_of_append h

/-! ### Strings -/

/-- A style in which a text can be written so that it is read back. In the basic styles
    everything can. -/
inductive Fits (text : List Char) : Style → Prop
  | basic : Fits text .basic
  | literal : (∀ c ∈ text, isPlain c ∧ c ≠ '\'') → Fits text .literal
  | multiBasic : Fits text .multiBasic
  | multiLiteral : (∀ c ∈ text, isPlain c ∨ c = '\n') → ¬tripled '\'' text →
    Fits text .multiLiteral

theorem fits_styleOf (text : List Char) : Fits text (styleOf text) := by
  have hescaped : Fits text (if text.contains '\n' then .multiBasic else .basic) := by
    split_ifs
    · exact .multiBasic
    · exact .basic
  unfold styleOf
  dsimp only
  by_cases hcontrol : text.any needsEscape
  · rw [if_pos hcontrol]
    exact hescaped
  rw [if_neg hcontrol]
  have hplain : ∀ c ∈ text, c ≠ '\n' → isPlain c := fun c hc =>
    isPlain_of_not_needsEscape fun hneeds => hcontrol (List.any_eq_true.2 ⟨c, hc, hneeds⟩)
  split
  · exact .basic
  split
  · next hliteral =>
    simp only [Bool.and_eq_true, Bool.not_eq_true', List.contains_eq_mem, decide_eq_false_iff_not]
      at hliteral
    exact .literal fun c hc => ⟨hplain c hc fun heq => hliteral.2 (heq ▸ hc),
      fun heq => hliteral.1 (heq ▸ hc)⟩
  split
  · exact .multiBasic
  split
  · next htripled =>
    refine .multiLiteral (fun c hc => ?_) (by simpa using htripled)
    exact (em (c = '\n')).symm.imp_left (hplain c hc)
  · exact hescaped

/-- Only three quotes at once open a string of several lines. -/
theorem string?_eq_lineString? (h : ∀ quote, ¬tripleQuotes quote <+: text) :
    string? text = lineString? text := by
  unfold string?
  split
  · next rest => exact absurd ⟨rest, rfl⟩ (h '"')
  · next rest => exact absurd ⟨rest, rfl⟩ (h '\'')
  · rfl

theorem not_opened_by_triple {write : Char → List Char}
    (h : ∀ c ∈ text, Piece quote step (write c) c) (hrest : quote ∉ rest.head?) (other : Char) :
    ¬tripleQuotes other <+: quote :: (text.flatMap write ++ quote :: rest) := by
  rw [tripleQuotes, List.cons_prefix_cons]
  rintro ⟨rfl, hprefix⟩
  cases text with
  | nil =>
    rw [List.flatMap_nil, List.nil_append, List.cons_prefix_cons] at hprefix
    obtain ⟨more, rfl⟩ := hprefix.2
    exact hrest rfl
  | cons c text =>
    obtain ⟨a, tail, hpiece, ha⟩ := (h c List.mem_cons_self).begins
    rw [List.flatMap_cons, hpiece, List.cons_append, List.cons_append, List.cons_prefix_cons]
      at hprefix
    exact ha hprefix.1.symm

/-- The body of a string of several lines begins on a line of its own if the text has
    any line feed, and otherwise with no line ending. -/
theorem linesString?_eq (hlined : Lined quote step 0 body text)
    (hquotes : ∀ rest, step (quote :: rest) = some (quotes quote rest))
    (hfeed : quote ≠ '\n') (hreturn : quote ≠ '\r')
    (hbody : '\n' ∉ text → ∀ a ∈ body.head?, a ≠ '\n' ∧ a ≠ '\r') (hrest : quote ∉ rest.head?) :
    linesString? step ((if text.contains '\n' then ['\n'] else []) ++
      (body ++ (tripleQuotes quote ++ rest))) = some (String.ofList text, rest) := by
  have hdrop : dropNewline ((if text.contains '\n' then ['\n'] else []) ++
      (body ++ (tripleQuotes quote ++ rest))) = body ++ (tripleQuotes quote ++ rest) := by
    split_ifs with hmem
    · rfl
    · rw [List.nil_append, dropNewline, afterNewline?_eq_none]
      · rfl
      · cases body with
        | nil =>
          rintro _ ⟨⟩
          exact ⟨hfeed, hreturn⟩
        | cons a body => exact hbody fun h => hmem (List.contains_iff_mem.2 h)
  have hcloses := closes_of_lined hquotes hlined hrest
  rw [List.replicate_zero, List.nil_append, List.nil_append] at hcloses
  rw [linesString?, hdrop]
  dsimp only
  rw [stringRest_of_closes hcloses (Nat.le_refl _)]
  rfl

theorem head?_escapeLines (h : '\n' ∉ text) :
    ∀ a ∈ (escapeLines 0 text).head?, a ≠ '\n' ∧ a ≠ '\r' := by
  cases text with
  | nil => exact fun _ ha => absurd ha (by simp [escapeLines])
  | cons c text =>
    have hc : c ≠ '\n' := fun heq => h (heq ▸ List.mem_cons_self)
    rw [escapeLines, if_neg hc, if_pos (Nat.zero_lt_two)]
    by_cases hquote : c = '"'
    · subst c
      rintro _ ⟨⟩
      decide
    · rw [if_neg hquote]
      have hescaped := escapedAs_escapeChar c
      generalize escapeChar c = piece at hescaped
      cases hescaped with
      | plain hplain =>
        rintro _ ⟨⟩
        exact ⟨hc, fun heq => not_isPlain_return (heq ▸ hplain)⟩
      | escape =>
        rintro _ ⟨⟩
        decide

/-- A text written in a style that fits it is read back. -/
theorem string?_render {style : Style} (h : Fits text style) (hquote : '"' ∉ rest.head?)
    (hsingle : '\'' ∉ rest.head?) :
    string? (style.render text ++ rest) = some (String.ofList text, rest) := by
  cases h with
  | basic =>
    have hpieces : ∀ c ∈ text, Piece '"' basic? (escapeChar c) c := fun c _ =>
      (escapedAs_escapeChar c).basic
    rw [Style.render, List.cons_append, List.cons_append, List.append_assoc,
      List.singleton_append,
      string?_eq_lineString? (not_opened_by_triple hpieces hquote), lineString?]
    dsimp only
    have hcloses := closes_flatMap (fun _ => rfl) hpieces rest
    rw [if_pos rfl, stringRest_of_closes hcloses (Nat.le_refl _)]
    rfl
  | literal hplain =>
    have hpieces : ∀ c ∈ text, Piece '\'' literal? [c] c := by
      intro c hc
      obtain ⟨hplain, hquote⟩ := hplain c hc
      refine ⟨fun rest => ?_, c, [], rfl, hquote⟩
      rw [List.singleton_append, literal?, if_neg hquote, plain?, if_pos hplain]
    have hbody : text = text.flatMap fun c => [c] := (List.flatMap_singleton' text).symm
    rw [Style.render, List.cons_append, List.cons_append, List.append_assoc,
      List.singleton_append]
    nth_rewrite 1 [hbody]
    rw [string?_eq_lineString? (not_opened_by_triple hpieces hsingle), lineString?]
    dsimp only
    rw [if_neg (by decide), if_pos rfl,
      stringRest_of_closes (closes_flatMap (fun _ => rfl) hpieces rest) (Nat.le_refl _)]
    rfl
  | multiBasic =>
    rw [Style.render, multiline, List.append_assoc, List.append_assoc, List.append_assoc]
    exact linesString?_eq (lined_escapeLines (Nat.zero_le 2) text) (fun _ => rfl) (by decide)
      (by decide) head?_escapeLines hquote
  | multiLiteral hplain htripled =>
    rw [Style.render, multiline, List.append_assoc, List.append_assoc, List.append_assoc]
    refine linesString?_eq (lined_literal htripled (Nat.zero_le 2) hplain) (fun _ => rfl)
      (by decide) (by decide) (fun hfeed a ha => ?_) hsingle
    have hmem : a ∈ text := List.mem_of_mem_head? ha
    have hne : a ≠ '\n' := fun heq => hfeed (heq ▸ hmem)
    refine ⟨hne, fun heq => not_isPlain_return ?_⟩
    exact heq ▸ (hplain a hmem).resolve_right hne

/-- A string that has been written is read back. -/
theorem string?_renderString (s : String) (hquote : '"' ∉ rest.head?)
    (hsingle : '\'' ∉ rest.head?) :
    string? ((renderString s).toList ++ rest) = some (s, rest) := by
  rw [renderString, String.toList_ofList, string?_render (fits_styleOf s.toList) hquote hsingle,
    String.ofList_toList]

/-- A string begins with a quote. -/
theorem exists_renderString (s : String) :
    ∃ quote body, (renderString s).toList = quote :: body ∧ (quote = '"' ∨ quote = '\'') := by
  rw [renderString, String.toList_ofList]
  cases styleOf s.toList with
  | basic => exact ⟨'"', _, rfl, .inl rfl⟩
  | literal => exact ⟨'\'', _, rfl, .inr rfl⟩
  | multiBasic => exact ⟨'"', _, rfl, .inl rfl⟩
  | multiLiteral => exact ⟨'\'', _, rfl, .inr rfl⟩

end ContainerBuild.Toml
