import ContainerBuild.Docker.Transcript
import ContainerBuild.Proofs.Outcome
import ContainerBuild.Proofs.Text.Decimal
import ContainerBuild.Proofs.Text.Lines

/-!
# The output in a transcript

A line is a header or a line of a step if it matches the pattern of one
(`Header.Matches`, `StepLine.Matches`), whatever way there is to match it: the
reader finds the only one (`header?_eq_some_iff`, `stepLine?_eq_some_iff`).

The lines of a transcript have a `Block` if a `RUN` header with a complete progress
stands behind lines that are passed over, and one more line, lines with payloads and
a last line follow it.

* `search_eq_ok_iff`: the search finds the payloads of a block, and finds none
  without a block;
* `output_eq_ok_iff`: so does the output of a transcript, and payloads that are
  written into a block are its output.
-/

namespace ContainerBuild.Transcript

variable {line rest mark payload : List Char}

/-! ### Patterns of lines -/

/-- A line `#<digits> ` with a text behind it. -/
def Numbered (rest line : List Char) : Prop :=
  ∃ number, line = '#' :: number ++ ' ' :: rest ∧ number ≠ [] ∧
    ∀ c ∈ number, Text.isDecimalDigit c

/-- A word: characters that are not blank. -/
def IsWord (text : List Char) : Prop :=
  text ≠ [] ∧ ∀ c ∈ text, ¬Text.isBlank c

/-- The pattern `#<digits> <mark>[ <payload>]`. -/
inductive StepLine.Matches : StepLine → List Char → Prop
  | bare {mark line : List Char} : IsWord mark → Numbered mark line → Matches ⟨mark, none⟩ line
  | full {mark payload line : List Char} : IsWord mark →
    Numbered (mark ++ ' ' :: payload) line → Matches ⟨mark, some payload⟩ line

/-- The pattern `#<digits> [<words> <progress>] <verb>`. The words, of which there
    need not be any, have no closing bracket and end with a blank, and nothing that
    could be a part of the verb follows it. -/
inductive Header.Matches : Header → List Char → Prop
  | intro {words progress verb rest line : List Char} :
    ']' ∉ words → (∀ c ∈ words.getLast?, Text.isBlank c) →
    IsWord progress → verb ≠ [] → (∀ c ∈ verb, isCapital c) →
    (∀ c ∈ rest.head?, ¬Text.isWordCharacter c) →
    Numbered ('[' :: (words ++ progress ++ ']' :: ' ' :: (verb ++ rest))) line →
    Matches ⟨progress, verb⟩ line

theorem afterNumber?_eq_some_iff : afterNumber? line = some rest ↔ Numbered rest line := by
  constructor
  · intro h
    unfold afterNumber? at h
    split at h
    · split at h
      · next hspan =>
        cases h
        obtain ⟨rfl, hdigits, -⟩ := Text.span_eq_iff.1 hspan
        exact ⟨_, rfl, List.cons_ne_nil _ _, hdigits⟩
      · cases h
    · cases h
  · rintro ⟨number, rfl, hne, hdigits⟩
    have hspan : (number ++ ' ' :: rest).span Text.isDecimalDigit = (number, ' ' :: rest) :=
      Text.span_eq_iff.2 ⟨rfl, hdigits, by simp; decide⟩
    obtain ⟨d, number, rfl⟩ := List.exists_cons_of_ne_nil hne
    rw [List.cons_append, afterNumber?, hspan]
    rfl

theorem isBlank_space : Text.isBlank ' ' := by decide

theorem isWord_iff {text : List Char} :
    IsWord text ↔ text ≠ [] ∧ ∀ c ∈ text, (!Text.isBlank c) = true := by
  simp only [IsWord, Bool.not_eq_true, Bool.not_eq_true']

theorem stepLine?_eq_some_iff {l : StepLine} : stepLine? line = some l ↔ l.Matches line := by
  constructor
  · intro h
    obtain ⟨rest, hnumber, h⟩ := Option.bind_eq_some_iff.1 h
    rw [afterNumber?_eq_some_iff] at hnumber
    split at h
    · cases h
    · next mark hne hspan =>
      cases h
      obtain ⟨rfl, hmark, -⟩ := Text.span_eq_iff.1 hspan
      rw [List.append_nil] at hnumber
      exact .bare (isWord_iff.2 ⟨hne, hmark⟩) hnumber
    · next mark payload hne hspan =>
      cases h
      obtain ⟨rfl, hmark, -⟩ := Text.span_eq_iff.1 hspan
      exact .full (isWord_iff.2 ⟨hne, hmark⟩) hnumber
    · cases h
  · intro h
    cases h with
    | @bare mark _ hmark hnumber =>
      rw [isWord_iff] at hmark
      have hspan : mark.span (fun c => !Text.isBlank c) = (mark, []) :=
        Text.span_eq_iff.2 ⟨(List.append_nil _).symm, hmark.2, nofun⟩
      obtain ⟨c, mark, rfl⟩ := List.exists_cons_of_ne_nil hmark.1
      rw [stepLine?, afterNumber?_eq_some_iff.2 hnumber, Option.bind_eq_bind, Option.bind_some, hspan]
    | @full mark payload _ hmark hnumber =>
      rw [isWord_iff] at hmark
      have hspan : (mark ++ ' ' :: payload).span (fun c => !Text.isBlank c) =
          (mark, ' ' :: payload) :=
        Text.span_eq_iff.2 ⟨rfl, hmark.2, by simp [isBlank_space]⟩
      obtain ⟨c, mark, rfl⟩ := List.exists_cons_of_ne_nil hmark.1
      rw [stepLine?, afterNumber?_eq_some_iff.2 hnumber, Option.bind_eq_bind, Option.bind_some, hspan]
      rfl

theorem isWordCharacter_of_isCapital {c : Char} (h : isCapital c) : Text.isWordCharacter c := by
  rw [isCapital, Bool.and_eq_true, decide_eq_true_eq, decide_eq_true_eq] at h
  have hmem : (0x41, 0x5A) ∈ Text.alphabetics := List.mem_cons_self
  have hc : (0x41 ≤ c.toNat && c.toNat ≤ 0x5A) = true := by
    rw [Bool.and_eq_true, decide_eq_true_eq, decide_eq_true_eq]
    exact h
  have halphabetic : Text.isAlphabetic c := List.any_eq_true.2 ⟨_, hmem, hc⟩
  rw [Text.isWordCharacter, halphabetic]
  rfl

theorem verb?_eq_some_iff {text verb : List Char} : verb? text = some verb ↔
    ∃ rest, text = verb ++ rest ∧ verb ≠ [] ∧ (∀ c ∈ verb, isCapital c) ∧
      ∀ c ∈ rest.head?, ¬Text.isWordCharacter c := by
  constructor
  · intro h
    unfold verb? at h
    split at h
    · cases h
    · next hne hspan =>
      cases h
      obtain ⟨rfl, hverb, -⟩ := Text.span_eq_iff.1 hspan
      exact ⟨[], rfl, hne, hverb, nofun⟩
    · next c rest hne hspan =>
      split_ifs at h with hc
      cases h
      obtain ⟨rfl, hverb, -⟩ := Text.span_eq_iff.1 hspan
      exact ⟨c :: rest, rfl, hne, hverb, fun d hd => Option.some.inj hd ▸ hc⟩
  · rintro ⟨rest, rfl, hne, hverb, hrest⟩
    have hspan : (verb ++ rest).span isCapital = (verb, rest) :=
      Text.span_eq_iff.2 ⟨rfl, hverb, fun c hc => mt isWordCharacter_of_isCapital (hrest c hc)⟩
    obtain ⟨c, verb, rfl⟩ := List.exists_cons_of_ne_nil hne
    rw [verb?, hspan]
    cases rest with
    | nil => rfl
    | cons d rest =>
      exact if_neg (hrest d rfl)

section Bracket

variable {text words progress before after closing final : List Char}

/-- What is read of a bracket: its words end behind the last blank before the first
    closing bracket. -/
theorem exists_words_of_span (hbefore : text.span (· ≠ ']') = (before, after))
    (hafter : after.span (fun c => !Text.isBlank c) = (closing ++ [']'], final))
    (hprogress : (before.reverse.takeWhile fun c => !Text.isBlank c).reverse ++ closing =
      progress) :
    ∃ words, text = words ++ progress ++ ']' :: final ∧ ']' ∉ words ∧
      (∀ c ∈ words.getLast?, Text.isBlank c) ∧ ∀ c ∈ progress, (!Text.isBlank c) = true := by
  obtain ⟨rfl, hopen, -⟩ := Text.span_eq_iff.1 hbefore
  obtain ⟨rfl, hclosing, -⟩ := Text.span_eq_iff.1 hafter
  obtain ⟨words, hwords, hstart, hblank⟩ := Text.reverse_takeWhile_eq_iff.1
    (rfl : (before.reverse.takeWhile fun c => !Text.isBlank c).reverse = _)
  refine ⟨words, ?_, fun hmem => ?_, fun c hc => ?_, fun c hc => ?_⟩
  · nth_rewrite 1 [hwords]
    rw [← hprogress]
    simp only [List.append_assoc, List.singleton_append]
  · have hne := hopen ']' (hwords ▸ List.mem_append_left _ hmem)
    exact absurd hne (by decide)
  · simpa using hblank c hc
  · rw [← hprogress] at hc
    rcases List.mem_append.1 hc with hc | hc
    · exact hstart c hc
    · exact hclosing c (List.mem_append_left _ hc)

/-- What is written as a bracket is read. The first closing bracket may stand within
    the progress, which goes on behind it then. -/
theorem exists_span_of_words (hwords : ']' ∉ words) (hblank : ∀ c ∈ words.getLast?, Text.isBlank c)
    (hprogress : ∀ c ∈ progress, (!Text.isBlank c) = true) (rest : List Char) :
    ∃ before after closing,
      (words ++ progress ++ ']' :: ' ' :: rest).span (· ≠ ']') = (before, after) ∧
      after.span (fun c => !Text.isBlank c) = (closing ++ [']'], ' ' :: rest) ∧
      (before.reverse.takeWhile fun c => !Text.isBlank c).reverse ++ closing = progress := by
  -- The progress is cut at its first closing bracket, if it has one.
  rcases hcut : progress.span (· ≠ ']') with ⟨start, closing⟩
  obtain ⟨rfl, hstart, hclosing⟩ := Text.span_eq_iff.1 hcut
  obtain ⟨hstartword, hclosingword⟩ := List.forall_mem_append.1 hprogress
  refine ⟨words ++ start, closing ++ ']' :: ' ' :: rest, closing, ?_, ?_, ?_⟩
  · refine Text.span_eq_iff.2 ⟨by simp only [List.append_assoc], ?_, ?_⟩
    · refine List.forall_mem_append.2 ⟨fun c hc => decide_eq_true ?_, hstart⟩
      exact fun heq => hwords (heq ▸ hc)
    · cases closing with
      | nil => exact fun c hc => Option.some.inj hc ▸ by decide
      | cons d closing => exact hclosing
  · refine Text.span_eq_iff.2 ⟨by simp only [List.append_assoc, List.singleton_append], ?_, ?_⟩
    · exact List.forall_mem_append.2 ⟨hclosingword, List.forall_mem_singleton.2 (by decide)⟩
    · simp [isBlank_space]
  · rw [Text.reverse_takeWhile_eq_iff.2 ⟨words, rfl, hstartword, fun c hc => ?_⟩]
    rw [hblank c hc]
    decide

end Bracket

theorem header?_eq_some_iff {h : Header} : header? line = some h ↔ h.Matches line := by
  constructor
  · intro hh
    obtain ⟨text, hnumber, hh⟩ := Option.bind_eq_some_iff.1 hh
    rw [afterNumber?_eq_some_iff] at hnumber
    split at hh
    · next text =>
      rcases hbefore : text.span (· ≠ ']') with ⟨before, after⟩
      rcases hclosing : after.span (fun c => !Text.isBlank c) with ⟨closing, final⟩
      rw [hbefore] at hh
      dsimp only at hh
      rw [hclosing] at hh
      dsimp only at hh
      split at hh
      · next c progress rest hlast hprogress =>
        obtain ⟨verb, hverb, rfl⟩ := Option.map_eq_some_iff.1 hh
        obtain ⟨rest, rfl, hne, hcapital, hrest⟩ := verb?_eq_some_iff.1 hverb
        obtain ⟨closing, rfl⟩ := List.getLast?_eq_some_iff.1 hlast
        rw [List.dropLast_concat] at hprogress
        obtain ⟨words, rfl, hwords, hblank, hword⟩ :=
          exists_words_of_span hbefore hclosing hprogress
        exact .intro hwords hblank (isWord_iff.2 ⟨List.cons_ne_nil _ _, hword⟩) hne hcapital hrest
          hnumber
      · cases hh
    · cases hh
  · intro hh
    cases hh with
    | @intro words progress verb rest _ hwords hblank hprogress hne hcapital hrest hnumber =>
      rw [isWord_iff] at hprogress
      obtain ⟨before, after, closing, hbefore, hafter, hword⟩ :=
        exists_span_of_words hwords hblank hprogress.2 (verb ++ rest)
      have hverb : verb? (verb ++ rest) = some verb :=
        verb?_eq_some_iff.2 ⟨rest, rfl, hne, hcapital, hrest⟩
      obtain ⟨c, progress, rfl⟩ := List.exists_cons_of_ne_nil hprogress.1
      simp only [header?, afterNumber?_eq_some_iff.2 hnumber, Option.bind_eq_bind,
        Option.bind_some, hbefore, hafter, hword, hverb, List.getLast?_concat,
        List.dropLast_concat, Option.map_some]

/-! ### Progress -/

/-- A count of 32 bits, with a plus sign or without. -/
def Counts (text : List Char) (n : Nat) : Prop :=
  n < 2 ^ 32 ∧ (Text.Decimal text n ∨ ∃ digits, text = '+' :: digits ∧ Text.Decimal digits n)

/-- A fraction `<done>/<total>` of two counts. -/
def Fraction (progress : List Char) (m n : Nat) : Prop :=
  ∃ done total, progress = done ++ '/' :: total ∧ Counts done m ∧ Counts total n

/-- A fraction of two counts that are equal. -/
def Complete (progress : List Char) : Prop :=
  ∃ n, Fraction progress n n

/-- No fraction of two counts. -/
def Malformed (progress : List Char) : Prop :=
  ¬∃ m n, Fraction progress m n

theorem not_decimal_plus {digits : List Char} {n : Nat} : ¬Text.Decimal ('+' :: digits) n :=
  fun h => absurd (h.digits '+' List.mem_cons_self) (by decide)

theorem count?_eq_some_iff {text : List Char} {n : Nat} : count? text = some n ↔ Counts text n := by
  have hread : ∀ digits, (do
      let n ← Text.decimal? digits
      if n ≤ countLimit then some n else none) = some n ↔ n < 2 ^ 32 ∧ Text.Decimal digits n := by
    intro digits
    have hlimit : ∀ m, m ≤ countLimit ↔ m < 2 ^ 32 := fun m => Nat.le_sub_one_iff_lt (by decide)
    rw [Option.bind_eq_bind, Option.bind_eq_some_iff, ← Text.decimal?_eq_some_iff]
    simp only [Option.ite_none_right_eq_some, hlimit]
    refine ⟨fun ⟨m, h, hm, hn⟩ => ?_, fun ⟨hn, h⟩ => ⟨n, h, hn, rfl⟩⟩
    obtain rfl := Option.some.inj hn
    exact ⟨hm, h⟩
  rw [count?.eq_def]
  dsimp only
  -- Only one plus sign is dropped: digits do not begin with one.
  split
  · next digits =>
    rw [hread, Counts, or_iff_right not_decimal_plus]
    exact ⟨fun h => ⟨h.1, digits, rfl, h.2⟩, fun ⟨hn, _, heq, h⟩ => ⟨hn, (List.cons.inj heq).2 ▸ h⟩⟩
  · next digits hplus =>
    rw [hread, Counts, or_iff_left]
    rintro ⟨rest, rfl, -⟩
    exact hplus rest rfl

theorem Counts.not_mem {text : List Char} {n : Nat} (h : Counts text n) : '/' ∉ text := by
  intro hmem
  obtain ⟨-, h | ⟨digits, rfl, h⟩⟩ := h
  · exact absurd (h.digits _ hmem) (by decide)
  · rcases List.mem_cons.1 hmem with heq | hmem
    · cases heq
    · exact absurd (h.digits _ hmem) (by decide)

theorem completed?_eq_some_iff {progress : List Char} {b : Bool} :
    completed? progress = some b ↔ ∃ m n, Fraction progress m n ∧ b = (m == n) := by
  constructor
  · intro h
    obtain ⟨⟨done, total⟩, hsplit, h⟩ := Option.bind_eq_some_iff.1 h
    obtain ⟨m, hm, h⟩ := Option.bind_eq_some_iff.1 h
    obtain ⟨n, hn, h⟩ := Option.bind_eq_some_iff.1 h
    exact ⟨m, n, ⟨done, total, (Text.splitFirst_eq_some_iff.1 hsplit).1,
      count?_eq_some_iff.1 hm, count?_eq_some_iff.1 hn⟩, (Option.some.inj h).symm⟩
  · rintro ⟨m, n, ⟨done, total, rfl, hm, hn⟩, rfl⟩
    -- A count has no bar, so the fraction is split at its own.
    rw [completed?, Text.splitFirst_append hm.not_mem, Option.bind_eq_bind, Option.bind_some]
    dsimp only
    rw [count?_eq_some_iff.2 hm, count?_eq_some_iff.2 hn]
    rfl

theorem completed?_eq_true_iff {progress : List Char} :
    completed? progress = some true ↔ Complete progress := by
  rw [completed?_eq_some_iff]
  constructor
  · rintro ⟨m, n, h, heq⟩
    obtain rfl := beq_iff_eq.1 heq.symm
    exact ⟨m, h⟩
  · rintro ⟨n, h⟩
    exact ⟨n, n, h, (beq_self_eq_true n).symm⟩

theorem completed?_eq_none_iff {progress : List Char} :
    completed? progress = none ↔ Malformed progress := by
  rw [Option.eq_none_iff_forall_ne_some]
  exact ⟨fun h ⟨m, n, hf⟩ => h _ (completed?_eq_some_iff.2 ⟨m, n, hf, rfl⟩),
    fun h _ hb => h ((completed?_eq_some_iff.1 hb).imp fun _ => .imp fun _ => And.left)⟩

theorem completed?_eq_false_iff {progress : List Char} :
    completed? progress = some false ↔ ¬Malformed progress ∧ ¬Complete progress := by
  rw [← completed?_eq_none_iff, ← completed?_eq_true_iff]
  cases completed? progress with
  | none => simp
  | some b => cases b <;> simp

/-! ### Blocks -/

/-- The header of a `RUN` step whose progress is complete. -/
def Completes (line : List Char) : Prop :=
  ∃ progress, Header.Matches ⟨progress, runVerb⟩ line ∧ Complete progress

/-- A line that is passed over: no header of a `RUN` step whose progress is malformed
    or complete. -/
def Passed (line : List Char) : Prop :=
  ∀ progress, Header.Matches ⟨progress, runVerb⟩ line → ¬Malformed progress ∧ ¬Complete progress

/-- A line of a step with a payload, which is empty if there is none. -/
def Prints (line payload : List Char) : Prop :=
  ∃ l : StepLine, l.Matches line ∧ l.mark ≠ doneMark ∧ l.payload.getD [] = payload

/-- The last line of a step. -/
def Ends (line : List Char) : Prop :=
  ∃ l : StepLine, l.Matches line ∧ l.mark = doneMark

/-- Lines with a block of a `RUN` step: its header, the first that is complete, any
    line, lines with payloads and the last line. -/
inductive Block : (lines payloads : List (List Char)) → Prop
  | intro {before body payloads rest : List (List Char)} {header skipped last : List Char} :
    (∀ line ∈ before, Passed line) → Completes header → List.Forall₂ Prints body payloads →
    Ends last → Block (before ++ header :: skipped :: body ++ last :: rest) payloads

theorem passed_iff {line : List Char} : Passed line ↔
    ∀ h ∈ header? line, h.verb = runVerb → completed? h.progress = some false := by
  constructor
  · rintro hline ⟨progress, verb⟩ hheader rfl
    exact completed?_eq_false_iff.2 (hline progress (header?_eq_some_iff.1 hheader))
  · exact fun h progress hmatches =>
      completed?_eq_false_iff.1 (h _ (header?_eq_some_iff.2 hmatches) rfl)

instance : DecidablePred Passed :=
  fun _ => decidable_of_iff' _ passed_iff

variable {before body payloads collected ls : List (List Char)} {header skipped last : List Char}
  {v : String}

/-- Payloads are collected, the latest first. -/
theorem collect_append (h : List.Forall₂ Prints body payloads) :
    collect collected (body ++ ls) = collect (payloads.reverse ++ collected) ls := by
  induction h generalizing collected with
  | nil => rfl
  | @cons line payload body payloads hline _ ih =>
    obtain ⟨l, hl, hmark, rfl⟩ := hline
    rw [List.cons_append, collect, stepLine?_eq_some_iff.2 hl]
    dsimp only
    rw [if_neg hmark, ih, List.reverse_cons, List.append_assoc, List.singleton_append]

theorem collect_of_ends (h : Ends last) :
    collect collected (last :: ls) = .ok (joined collected.reverse) := by
  obtain ⟨l, hl, hmark⟩ := h
  rw [collect, stepLine?_eq_some_iff.2 hl]
  exact if_pos hmark

/-- What is collected has been printed by the lines up to the first last line. -/
theorem exists_of_collect (h : collect collected ls = .ok v) :
    ∃ body payloads last rest, ls = body ++ last :: rest ∧ List.Forall₂ Prints body payloads ∧
      Ends last ∧ v = joined (collected.reverse ++ payloads) := by
  induction ls generalizing collected with
  | nil => cases h
  | cons line ls ih =>
    rw [collect] at h
    split at h
    · cases h
    · next mark payload hl =>
      have hmatches := stepLine?_eq_some_iff.1 hl
      split_ifs at h with hmark
      · exact ⟨[], [], line, ls, rfl, .nil, ⟨_, hmatches, hmark⟩,
          by rw [List.append_nil, Except.ok.inj h]⟩
      · obtain ⟨body, payloads, last, rest, rfl, hbody, hlast, rfl⟩ := ih h
        refine ⟨line :: body, _, last, rest, rfl, .cons ⟨_, hmatches, hmark, rfl⟩ hbody, hlast, ?_⟩
        rw [List.reverse_cons, List.append_assoc, List.singleton_append]

/-- Lines that are passed over do not change what is found. -/
theorem search_append (h : ∀ line ∈ before, Passed line) : search (before ++ ls) = search ls := by
  induction before with
  | nil => rfl
  | cons line before ih =>
    obtain ⟨hline, hbefore⟩ := List.forall_mem_cons.1 h
    rw [List.cons_append, search.eq_def]
    dsimp only
    split
    · exact ih hbefore
    · next progress verb hheader =>
      split_ifs with hverb
      · subst hverb
        rw [passed_iff.1 hline _ hheader rfl]
        exact ih hbefore
      · exact ih hbefore

theorem search_of_completes (h : Completes header) :
    search (header :: skipped :: ls) = collect [] ls := by
  obtain ⟨progress, hheader, hcomplete⟩ := h
  rw [search, header?_eq_some_iff.2 hheader]
  dsimp only
  rw [if_pos rfl, completed?_eq_true_iff.2 hcomplete]

theorem Block.cons {line : List Char} (h : Passed line) (hb : Block ls payloads) :
    Block (line :: ls) payloads := by
  cases hb with
  | intro hbefore hheader hbody hlast =>
    have hbefore' := List.forall_mem_cons.2 ⟨h, hbefore⟩
    exact .intro hbefore' hheader hbody hlast

theorem exists_block_of_search (h : search ls = .ok v) :
    ∃ payloads, Block ls payloads ∧ v = joined payloads := by
  induction ls with
  | nil => cases h
  | cons line ls ih =>
    -- A line of which the search goes on has been passed.
    have hpassed : Passed line → search ls = .ok v →
        ∃ payloads, Block (line :: ls) payloads ∧ v = joined payloads := fun hline hrest =>
      (ih hrest).imp fun _ => .imp_left (.cons hline)
    rw [search.eq_def] at h
    dsimp only at h
    split at h
    · next hheader =>
      refine hpassed (passed_iff.2 fun _ hh => ?_) h
      cases hheader.symm.trans hh
    · next progress verb hheader =>
      split_ifs at h with hverb
      · subst hverb
        split at h
        · cases h
        · next hprogress =>
          refine hpassed (passed_iff.2 fun _ hh _ => ?_) h
          cases hheader.symm.trans hh
          exact hprogress
        · next hprogress =>
          split at h
          · cases h
          · next skipped ls =>
            obtain ⟨body, payloads, last, rest, rfl, hbody, hlast, rfl⟩ := exists_of_collect h
            have hheader : Completes line :=
              ⟨progress, header?_eq_some_iff.1 hheader, completed?_eq_true_iff.1 hprogress⟩
            have hbefore : ∀ line ∈ ([] : List (List Char)), Passed line := nofun
            exact ⟨payloads, .intro hbefore hheader hbody hlast, rfl⟩
      · refine hpassed (passed_iff.2 fun _ hh hrun => ?_) h
        cases hheader.symm.trans hh
        exact absurd hrun hverb

theorem search_eq_ok_iff :
    search ls = .ok v ↔ ∃ payloads, Block ls payloads ∧ v = joined payloads := by
  refine ⟨exists_block_of_search, ?_⟩
  rintro ⟨payloads, ⟨hbefore, hheader, hbody, hlast⟩, rfl⟩
  rw [List.append_assoc, search_append hbefore, List.cons_append, List.cons_append,
    search_of_completes hheader, collect_append hbody, collect_of_ends hlast, List.append_nil,
    List.reverse_reverse]

/-! ### Written blocks -/

/-- Numbers stand before a text without a line feed. -/
theorem isLine_of_numbered (h : Numbered rest line) (hrest : Text.IsLine rest) :
    Text.IsLine line := by
  obtain ⟨number, rfl, -, hdigits⟩ := h
  have hnumber : '\n' ∉ number := fun hmem => absurd (hdigits _ hmem) (by decide)
  exact ((hrest.cons (by decide) (by decide)).append (List.cons_ne_nil _ _) hnumber).cons
    (by decide) (by decide)

theorem isLine_of_isWord (h : IsWord mark) : Text.IsLine mark := by
  refine ⟨fun hmem => absurd (by decide) (h.2 _ hmem), fun hlast => ?_⟩
  exact absurd (by decide) (h.2 _ (List.mem_of_getLast? hlast))

/-- A line is one that can be written if its payload is. -/
theorem isLine_of_prints (h : Prints line payload) (hpayload : Text.IsLine payload) :
    Text.IsLine line := by
  obtain ⟨l, hl, -, rfl⟩ := h
  cases hl with
  | bare hmark hnumber => exact isLine_of_numbered hnumber (isLine_of_isWord hmark)
  | full hmark hnumber =>
    have hfeed := (isLine_of_isWord hmark).1
    refine isLine_of_numbered hnumber ?_
    exact (hpayload.cons (by decide) (by decide)).append (List.cons_ne_nil _ _) hfeed

/-- The output of a transcript is what the first block in its lines prints, and there
    is none without a block. What is written into a block is its output. -/
theorem output_eq_ok_iff :
    (∀ transcript v, output transcript = .ok v ↔
      ∃ payloads, Block (Text.lines transcript.toList) payloads ∧ v = joined payloads) ∧
    ∀ before header skipped body payloads last rest,
      (∀ line ∈ before ++ header :: skipped :: last :: rest, Text.IsLine line) →
      (∀ payload ∈ payloads, Text.IsLine payload) →
      (∀ line ∈ before, Passed line) → Completes header → List.Forall₂ Prints body payloads →
      Ends last →
        output (String.ofList (Text.written
          (before ++ header :: skipped :: body ++ last :: rest))) = .ok (joined payloads) := by
  have houtput : ∀ transcript v, output transcript = .ok v ↔
      ∃ payloads, Block (Text.lines transcript.toList) payloads ∧ v = joined payloads :=
    fun _ _ => search_eq_ok_iff
  refine ⟨houtput, ?_⟩
  intro before header skipped body payloads last rest hlines hpayloads hbefore hheader hbody hlast
  have hwritten : ∀ line ∈ before ++ header :: skipped :: body ++ last :: rest,
      Text.IsLine line := by
    intro line hline
    -- The lines of the body are lines because their payloads are.
    by_cases hmem : line ∈ body
    · obtain ⟨payload, hpayload, hprints⟩ := exists_of_mem_right hbody.flip hmem
      exact isLine_of_prints hprints (hpayloads payload hpayload)
    · refine hlines line ?_
      simp only [List.mem_append, List.mem_cons] at hline ⊢
      tauto
  refine (houtput _ _).2 ⟨payloads, ?_, rfl⟩
  rw [String.toList_ofList, Text.lines_written hwritten]
  exact .intro hbefore hheader hbody hlast

theorem output_eq_ok_iff_version :
    output "#5 [v 1/2] RUN git\n#6 [v 2/2] RUN sh\n#6 2c5e\n#6 0.4 v1.4.2\n#6 0.4\n#6 DONE\n" =
      .ok "v1.4.2\n" := by
  let before := ["#5 [v 1/2] RUN git".toList]
  let header := "#6 [v 2/2] RUN sh".toList
  let skipped := "#6 2c5e".toList
  let body := ["#6 0.4 v1.4.2".toList, "#6 0.4".toList]
  let payloads := ["v1.4.2".toList, []]
  let last := "#6 DONE".toList
  have hlines : ∀ line ∈ before ++ header :: skipped :: last :: [], Text.IsLine line := by
    decide +kernel
  have hpayloads : ∀ payload ∈ payloads, Text.IsLine payload := by decide +kernel
  have hbefore : ∀ line ∈ before, Passed line := by decide +kernel
  have hheader : Completes header :=
    ⟨"2/2".toList, header?_eq_some_iff.1 (by decide +kernel),
      completed?_eq_true_iff.1 (by decide +kernel)⟩
  have hbody : List.Forall₂ Prints body payloads :=
    .cons ⟨_, stepLine?_eq_some_iff.1 (by rfl), by decide, rfl⟩
      (.cons ⟨_, stepLine?_eq_some_iff.1 (by rfl), by decide, rfl⟩ .nil)
  have hlast : Ends last := ⟨_, stepLine?_eq_some_iff.1 (by rfl), by decide⟩
  have hwritten :
      "#5 [v 1/2] RUN git\n#6 [v 2/2] RUN sh\n#6 2c5e\n#6 0.4 v1.4.2\n#6 0.4\n#6 DONE\n" =
        String.ofList (Text.written (before ++ header :: skipped :: body ++ last :: [])) := by
    decide +kernel
  have hjoined : "v1.4.2\n" = joined payloads := by decide +kernel
  rw [hwritten, hjoined]
  exact output_eq_ok_iff.2 before header skipped body payloads last [] hlines hpayloads hbefore
    hheader hbody hlast

end ContainerBuild.Transcript
