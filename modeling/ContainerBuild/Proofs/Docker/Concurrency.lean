import ContainerBuild.Proofs.Docker.Transcript

/-!
# Steps that run at the same time

Lines of steps that run at the same time stand in a transcript in the order in
which they were printed, so between the lines of a step there may be lines of
others, with other numbers (`MixedBlock`).

Numbers are not looked at when the output is read. The line that is passed over
is the one behind the header, whichever step it belongs to, and then the payloads
of all steps are taken, up to the first last line of any of them (`Reads`). So
the output is that of the step exactly if the payloads read are those of the step,
and if other steps only print between its own output lines, that is hardly ever the
case (`output_mixed_iff`).
-/

namespace ContainerBuild.Transcript

/-- The digits of the number of a line. -/
def number (line : List Char) : List Char :=
  (line.drop 1).takeWhile Text.isDecimalDigit

/-- Lines with a block of a `RUN` step, the first that is complete, between whose
    lines stand lines of other steps. -/
structure MixedBlock where
  before : List (List Char)
  header : List Char
  /-- What stands between the header and the last line of the step. -/
  between : List (List Char)
  /-- The line of the step behind its header. -/
  skipped : List Char
  /-- The lines of the step with payloads. -/
  body : List (List Char)
  payloads : List (List Char)
  last : List Char
  rest : List (List Char)
  passed : ∀ line ∈ before, Passed line
  completes : Completes header
  own : between.filter (number · = number header) = skipped :: body
  numbered : ∃ text, Numbered text skipped
  prints : List.Forall₂ Prints body payloads
  number_last : number last = number header
  ends : Ends last
  matched : ∀ line ∈ between, number line ≠ number header → ∃ l : StepLine, l.Matches line

namespace MixedBlock

variable (b : MixedBlock)

/-- All lines. -/
def lines : List (List Char) :=
  b.before ++ b.header :: b.between ++ b.last :: b.rest

/-- The lines without those of other steps in the block. -/
def ownLines : List (List Char) :=
  b.before ++ b.header :: b.skipped :: b.body ++ b.last :: b.rest

/-- The lines of other steps in the block. -/
def others : List (List Char) :=
  b.between.filter (number · ≠ number b.header)

end MixedBlock

/-- The payloads of lines up to the first last line of a step. -/
def Reads (ls payloads : List (List Char)) : Prop :=
  ∃ body last rest, ls = body ++ last :: rest ∧ List.Forall₂ Prints body payloads ∧ Ends last

/-! ### What is read -/

section

variable {ls body more payloads read read' : List (List Char)} {line last p p' : List Char} {v : String}

theorem Prints.unique (h : Prints line p) (h' : Prints line p') : p = p' := by
  obtain ⟨l, hl, _, rfl⟩ := h
  obtain ⟨l', hl', _, rfl⟩ := h'
  rw [← stepLine?_eq_some_iff] at hl hl'
  rw [Option.some.inj (hl.symm.trans hl')]

theorem Prints.not_ends (h : Prints line p) : ¬Ends line := by
  obtain ⟨l, hl, hmark, _⟩ := h
  rintro ⟨l', hl', hdone⟩
  rw [← stepLine?_eq_some_iff] at hl hl'
  obtain rfl := Option.some.inj (hl.symm.trans hl')
  exact hmark hdone

/-- A line of a step prints something or is the last one. -/
theorem exists_prints_of_matches {l : StepLine} (h : l.Matches line) (hends : ¬Ends line) :
    ∃ p, Prints line p :=
  ⟨_, l, h, fun hdone => hends ⟨l, h, hdone⟩, rfl⟩

theorem Prints.subset (h : Prints line p) : p ⊆ line := by
  obtain ⟨l, hl, _, rfl⟩ := h
  cases hl with
  | bare => exact List.nil_subset _
  | full _ hnumber =>
    obtain ⟨number, rfl, _⟩ := hnumber
    intro c hc
    simp only [Option.getD_some] at hc
    simp [hc]

theorem Reads.cons_iff (h : Prints line p) :
    Reads (line :: ls) read ↔ ∃ read', read = p :: read' ∧ Reads ls read' := by
  constructor
  · rintro ⟨body, last, rest, hls, hbody, hends⟩
    cases hbody with
    | nil =>
      obtain ⟨rfl, _⟩ := List.cons.inj hls
      exact absurd hends h.not_ends
    | cons hline hbody =>
      obtain ⟨rfl, rfl⟩ := List.cons.inj hls
      rw [h.unique hline]
      exact ⟨_, rfl, _, last, rest, rfl, hbody, hends⟩
  · rintro ⟨read, rfl, body, last, rest, rfl, hbody, hends⟩
    exact ⟨line :: body, last, rest, rfl, .cons h hbody, hends⟩

theorem Reads.last_iff (h : Ends last) : Reads (last :: ls) read ↔ read = [] := by
  constructor
  · rintro ⟨_, _, _, hls, hbody, _⟩
    cases hbody with
    | nil => rfl
    | cons hline =>
      obtain ⟨rfl, _⟩ := List.cons.inj hls
      exact absurd h hline.not_ends
  · rintro rfl
    exact ⟨[], last, ls, rfl, .nil, h⟩

/-- Up to the last line of a step, what is read are the payloads of the lines, if they
    all have one. -/
theorem reads_append_iff (hbody : List.Forall₂ Prints body payloads) (hends : Ends last) :
    Reads (body ++ last :: ls) read ↔ read = payloads := by
  induction hbody generalizing read with
  | nil => exact Reads.last_iff hends
  | cons hline _ ih =>
    rw [List.cons_append, Reads.cons_iff hline]
    simp only [ih, exists_eq_right]

theorem forall₂_prints_unique (h : List.Forall₂ Prints body payloads)
    (h' : List.Forall₂ Prints body read) : payloads = read := by
  induction h generalizing read with
  | nil =>
    cases h'
    rfl
  | cons hline _ ih =>
    cases h' with
    | cons hline' hbody => rw [hline.unique hline', ih hbody]

theorem collect_eq_ok_iff :
    collect [] ls = .ok v ↔ ∃ read, Reads ls read ∧ v = joined read := by
  constructor
  · intro h
    obtain ⟨body, payloads, last, rest, hls, hbody, hlast, hv⟩ := exists_of_collect h
    exact ⟨payloads, ⟨body, last, rest, hls, hbody, hlast⟩, hv⟩
  · rintro ⟨payloads, ⟨body, last, rest, rfl, hbody, hlast⟩, rfl⟩
    rw [collect_append hbody, collect_of_ends hlast, List.append_nil, List.reverse_reverse]

/-- Payloads without a line feed are told from their join, but for one that is empty
    and none. -/
theorem joined_eq_iff (h : ∀ p ∈ read, '\n' ∉ p) (h' : ∀ p ∈ read', '\n' ∉ p) :
    joined read = joined read' ↔ read = read' ∨ read ++ read' = [[]] := by
  have hnil : ∀ l : List (List Char), l ≠ [] → (∀ p ∈ l, '\n' ∉ p) →
      ['\n'].intercalate l = [] → l = [[]] := fun l hl hfeed heq => by
    rw [← List.splitOn_intercalate '\n' hfeed hl, heq]
    rfl
  rw [joined, joined, String.ofList_inj]
  constructor
  · intro heq
    by_cases hne : read = []
    · by_cases hne' : read' = []
      · exact .inl (hne.trans hne'.symm)
      · subst hne
        exact .inr (hnil read' hne' h' heq.symm)
    · by_cases hne' : read' = []
      · subst hne'
        rw [List.append_nil]
        exact .inr (hnil read hne h heq)
      · refine .inl ?_
        rw [← List.splitOn_intercalate '\n' h hne, heq, List.splitOn_intercalate '\n' h' hne']
  · rintro (rfl | heq)
    · rfl
    · rcases List.append_eq_singleton_iff.1 heq with ⟨rfl, rfl⟩ | ⟨rfl, rfl⟩ <;> rfl

end

/-! ### Blocks with lines of other steps -/

namespace MixedBlock

variable {b : MixedBlock} {more read : List (List Char)}

/-- Without the lines of other steps the payloads of the step are found. -/
theorem search_ownLines (b : MixedBlock) : search b.ownLines = .ok (joined b.payloads) :=
  search_eq_ok_iff.2 ⟨b.payloads, .intro b.passed b.completes b.prints b.ends, rfl⟩

theorem between_ne_nil (b : MixedBlock) : b.between ≠ [] := by
  intro h
  have hown := b.own
  rw [h] at hown
  cases hown

/-- The first line behind the header is passed over, and the search goes on to the
    first last line. -/
theorem search_lines (b : MixedBlock) :
    search b.lines = collect [] (b.between.tail ++ b.last :: b.rest) := by
  obtain ⟨first, more, hbetween⟩ := List.exists_cons_of_ne_nil b.between_ne_nil
  rw [lines, List.append_assoc, search_append b.passed, hbetween, List.cons_append, List.cons_append,
    search_of_completes b.completes, List.tail_cons]

/-- The payloads of the step and those read have no line feed if they come from the
    lines of a text. -/
theorem feed_not_mem_payloads {text : List Char} (h : Text.lines text = b.lines) :
    (∀ p ∈ b.payloads, '\n' ∉ p) ∧
      ∀ read, Reads (b.between.tail ++ b.last :: b.rest) read → ∀ p ∈ read, '\n' ∉ p := by
  have hprinted : ∀ {line p}, line ∈ b.between ++ b.last :: b.rest → Prints line p → '\n' ∉ p := by
    intro line p hline hp hmem
    have hlines : line ∈ Text.lines text := by
      rw [h, lines, List.append_assoc, List.cons_append]
      exact List.mem_append_right _ (List.mem_cons_of_mem _ hline)
    exact Text.feed_not_mem_lines hlines (hp.subset hmem)
  refine ⟨fun p hp => ?_, fun read hread p hp => ?_⟩
  · obtain ⟨line, hline, hprints⟩ := exists_of_mem_right b.prints hp
    have hown : line ∈ b.between.filter (number · = number b.header) :=
      b.own ▸ List.mem_cons_of_mem _ hline
    exact hprinted (List.mem_append_left _ (List.mem_of_mem_filter hown)) hprints
  · obtain ⟨body, last, rest, hls, hbody, _⟩ := hread
    obtain ⟨line, hline, hprints⟩ := exists_of_mem_right hbody hp
    have htail : line ∈ b.between.tail ++ b.last :: b.rest := hls ▸ List.mem_append_left _ hline
    refine hprinted ?_ hprints
    rw [List.mem_append] at htail ⊢
    exact htail.imp_left List.mem_of_mem_tail

theorem number_skipped (b : MixedBlock) : number b.skipped = number b.header := by
  have hskipped : b.skipped ∈ b.between.filter (number · = number b.header) :=
    b.own ▸ List.mem_cons_self
  exact of_decide_eq_true (List.mem_filter.1 hskipped).2

theorem own_of_between (hbetween : b.between = b.skipped :: more) :
    more.filter (number · = number b.header) = b.body := by
  have hown := b.own
  simp only [hbetween, List.filter_cons, b.number_skipped, decide_true, if_true] at hown
  exact (List.cons.inj hown).2

theorem others_of_between (hbetween : b.between = b.skipped :: more) :
    b.others = more.filter (number · ≠ number b.header) := by
  rw [others, hbetween, List.filter_cons_of_neg]
  exact fun hne => of_decide_eq_true hne b.number_skipped

/-- Lines of other steps that all print something are read along with those of the
    step. -/
theorem exists_forall₂_prints (hbetween : b.between = b.skipped :: more)
    (hends : ∀ line ∈ b.others, ¬Ends line) : ∃ read, List.Forall₂ Prints more read := by
  have hprints : ∀ line ∈ more, ∃ p, Prints line p := by
    intro line hline
    have hmem : line ∈ b.between := hbetween ▸ List.mem_cons_of_mem _ hline
    by_cases hnumber : number line = number b.header
    · have hown : line ∈ more.filter (number · = number b.header) :=
        List.mem_filter.2 ⟨hline, decide_eq_true hnumber⟩
      rw [own_of_between hbetween] at hown
      obtain ⟨p, _, hp⟩ := exists_of_mem_right b.prints.flip hown
      exact ⟨p, hp⟩
    · obtain ⟨l, hl⟩ := b.matched line hmem hnumber
      exact exists_prints_of_matches hl
        (hends line (List.mem_filter.2 ⟨hmem, decide_eq_true hnumber⟩))
  clear hbetween
  induction more with
  | nil => exact ⟨[], .nil⟩
  | cons line more ih =>
    obtain ⟨p, hp⟩ := hprints line List.mem_cons_self
    obtain ⟨read, hread⟩ := ih fun l hl => hprints l (List.mem_cons_of_mem _ hl)
    exact ⟨p :: read, .cons hp hread⟩

theorem filter_ne_eq_self {n : List Char} (h : more.filter (number · = n) = []) :
    more.filter (number · ≠ n) = more :=
  List.filter_eq_self.2 fun line hline => by simpa using List.filter_eq_nil_iff.1 h line hline

/-- The payloads of the step are read if there are no lines of other steps, or if the
    step prints nothing and the only such line prints an empty payload. -/
theorem read_or_empty_iff (hbetween : b.between = b.skipped :: more)
    (hread : List.Forall₂ Prints more read) :
    (read = b.payloads ∨ read ++ b.payloads = [[]]) ↔
      b.others = [] ∨ b.body = [] ∧ ∃ line, b.others = [line] ∧ Prints line [] := by
  have hown := own_of_between hbetween
  rw [others_of_between hbetween]
  constructor
  · rintro (rfl | hempty)
    · -- The step has as many lines as there are, so they are all its own.
      left
      have hlength : (more.filter (number · = number b.header)).length = more.length := by
        rw [hown, b.prints.length_eq, hread.length_eq]
      have hall := List.length_filter_eq_length_iff.1 hlength
      exact List.filter_eq_nil_iff.2 fun line hline hne =>
        of_decide_eq_true hne (of_decide_eq_true (hall line hline))
    · rcases List.append_eq_singleton_iff.1 hempty with ⟨rfl, hpayloads⟩ | ⟨rfl, hpayloads⟩
      · cases hread
        exact .inl rfl
      · right
        obtain ⟨line, hline, rfl⟩ : ∃ line, Prints line [] ∧ more = [line] := by
          cases hread with
          | cons hline hnil =>
            cases hnil
            exact ⟨_, hline, rfl⟩
        have hbody : b.body = [] := List.forall₂_nil_right_iff.1 (hpayloads ▸ b.prints)
        exact ⟨hbody, line, filter_ne_eq_self (hown.trans hbody), hline⟩
  · rintro (hothers | ⟨hbody, line, hothers, hline⟩)
    · left
      have hmore : more = b.body := by
        rw [← hown]
        exact (List.filter_eq_self.2 fun line hline => by
          simpa using List.filter_eq_nil_iff.1 hothers line hline).symm
      subst hmore
      exact forall₂_prints_unique hread b.prints
    · right
      obtain rfl : more = [line] := (filter_ne_eq_self (hown.trans hbody)).symm.trans hothers
      have hpayloads : b.payloads = [] := List.forall₂_nil_left_iff.1 (hbody ▸ b.prints)
      rw [forall₂_prints_unique hread (.cons hline .nil), hpayloads, List.append_nil]

end MixedBlock

/-- Without lines of other steps in it, the output of a block is what its own lines
    print. With them it is what all lines print, of whichever step, up to the first
    last line and but for the first one, so it is the same exactly if that is what the
    step prints. If the line of the step is passed over and no other step ends in the
    block, it is so only if there are no lines of others at all, or a single empty one in
    an empty block. -/
theorem output_mixed_iff (b : MixedBlock) {transcript cleaned : String}
    (h : Text.lines transcript.toList = b.lines)
    (hcleaned : Text.lines cleaned.toList = b.ownLines) :
    output cleaned = .ok (joined b.payloads) ∧
    (∀ v, output transcript = .ok v ↔
      ∃ read, Reads (b.between.tail ++ b.last :: b.rest) read ∧ v = joined read) ∧
    (output transcript = output cleaned ↔
      ∃ read, Reads (b.between.tail ++ b.last :: b.rest) read ∧
        (read = b.payloads ∨ read ++ b.payloads = [[]])) ∧
    (b.between.head? = some b.skipped → (∀ line ∈ b.others, ¬Ends line) →
      (output transcript = output cleaned ↔
        b.others = [] ∨ b.body = [] ∧ ∃ line, b.others = [line] ∧ Prints line [])) := by
  have hown : output cleaned = .ok (joined b.payloads) := by
    rw [output, hcleaned, b.search_ownLines]
  have hall : ∀ v, output transcript = .ok v ↔
      ∃ read, Reads (b.between.tail ++ b.last :: b.rest) read ∧ v = joined read := fun v => by
    rw [output, h, b.search_lines, collect_eq_ok_iff]
  have heq : output transcript = output cleaned ↔
      ∃ read, Reads (b.between.tail ++ b.last :: b.rest) read ∧
        (read = b.payloads ∨ read ++ b.payloads = [[]]) := by
    obtain ⟨hpayloads, hread⟩ := MixedBlock.feed_not_mem_payloads h
    rw [hown, hall]
    refine exists_congr fun read => and_congr_right fun hreads => ?_
    rw [eq_comm, joined_eq_iff (hread read hreads) hpayloads]
  refine ⟨hown, hall, heq, fun hhead hends => ?_⟩
  obtain ⟨more, hbetween⟩ : ∃ more, b.between = b.skipped :: more :=
    ⟨b.between.tail, (List.cons_head?_tail hhead).symm⟩
  obtain ⟨read, hread⟩ := MixedBlock.exists_forall₂_prints hbetween hends
  rw [heq, hbetween, List.tail_cons, ← MixedBlock.read_or_empty_iff hbetween hread]
  simp only [reads_append_iff hread b.ends, exists_eq_left]

/-- A block in which another step prints a line. -/
def fetching : MixedBlock where
  before := []
  header := "#6 [v 2/2] RUN git".toList
  between := ["#6 2c5e".toList, "#7 0.3 fetched".toList, "#6 0.4 v1.4.2".toList]
  skipped := "#6 2c5e".toList
  body := ["#6 0.4 v1.4.2".toList]
  payloads := ["v1.4.2".toList]
  last := "#6 DONE 0.5s".toList
  rest := []
  passed := nofun
  completes := ⟨"2/2".toList, header?_eq_some_iff.1 (by decide +kernel),
    completed?_eq_true_iff.1 (by decide +kernel)⟩
  own := by decide +kernel
  numbered := ⟨"2c5e".toList, afterNumber?_eq_some_iff.1 (by decide +kernel)⟩
  prints := .cons ⟨_, stepLine?_eq_some_iff.1 (by rfl), by decide, rfl⟩ .nil
  number_last := by decide +kernel
  ends := ⟨_, stepLine?_eq_some_iff.1 (by rfl), by decide⟩
  matched := by
    have hlines : ∀ line ∈ ["#6 2c5e".toList, "#7 0.3 fetched".toList, "#6 0.4 v1.4.2".toList],
        (stepLine? line).isSome := by decide +kernel
    intro line hline _
    obtain ⟨l, hl⟩ := Option.isSome_iff_exists.1 (hlines line hline)
    exact ⟨l, stepLine?_eq_some_iff.1 hl⟩

theorem output_mixed_iff_fetching :
    ∃ transcript cleaned, Text.lines transcript.toList = fetching.lines ∧
      Text.lines cleaned.toList = fetching.ownLines ∧
      fetching.between.head? = some fetching.skipped ∧ (∀ line ∈ fetching.others, ¬Ends line) ∧
      output transcript ≠ output cleaned := by
  let transcript := "#6 [v 2/2] RUN git\n#6 2c5e\n#7 0.3 fetched\n#6 0.4 v1.4.2\n#6 DONE 0.5s\n"
  let cleaned := "#6 [v 2/2] RUN git\n#6 2c5e\n#6 0.4 v1.4.2\n#6 DONE 0.5s\n"
  have h : Text.lines transcript.toList = fetching.lines := by decide +kernel
  have hcleaned : Text.lines cleaned.toList = fetching.ownLines := by decide +kernel
  have hothers : fetching.others = ["#7 0.3 fetched".toList] := by decide +kernel
  have hends : ∀ line ∈ fetching.others, ¬Ends line := by
    intro line hline
    rw [hothers, List.mem_singleton] at hline
    subst hline
    have hprints : Prints "#7 0.3 fetched".toList "fetched".toList :=
      ⟨_, stepLine?_eq_some_iff.1 (by rfl), by decide, rfl⟩
    exact hprints.not_ends
  refine ⟨transcript, cleaned, h, hcleaned, rfl, hends, fun heq => ?_⟩
  rcases ((output_mixed_iff fetching h hcleaned).2.2.2 rfl hends).1 heq with hnone | ⟨hbody, _⟩
  · rw [hothers] at hnone
    cases hnone
  · cases hbody

theorem not_output_own_fetching :
    ∃ transcript cleaned, Text.lines transcript.toList = fetching.lines ∧
      Text.lines cleaned.toList = fetching.ownLines ∧
      output cleaned = .ok "v1.4.2" ∧ output transcript = .ok "fetched\nv1.4.2" :=
  ⟨"#6 [v 2/2] RUN git\n#6 2c5e\n#7 0.3 fetched\n#6 0.4 v1.4.2\n#6 DONE 0.5s\n",
    "#6 [v 2/2] RUN git\n#6 2c5e\n#6 0.4 v1.4.2\n#6 DONE 0.5s\n",
    by decide +kernel, by decide +kernel, by decide +kernel, by decide +kernel⟩

end ContainerBuild.Transcript
