import ContainerBuild.Proofs.Docker.Transcript

/-!
# Transcripts that are cut off

The lines of a transcript are looked at one after the other, and what has been found is
final: further lines change neither an output nor a malformed line or progress
(`search_append`). So of a transcript that is cut off either the output is the same, or
the beginning of it has been collected, or nothing has been found yet
(`search_of_cut`).

Transcripts are texts, which go on with further lines (`Text.Extends`) if these stand
behind the last line break, or behind a line break that is added (`output_of_extends`).
-/

namespace ContainerBuild.Transcript

open Text (Extends)

variable {line : List Char} {ls more collected payloads : List (List Char)} {v c : String}

/-! ### Lines -/

/-- The header of a `RUN` step whose progress is malformed. -/
def Misleads (line : List Char) (progress : List Char) : Prop :=
  Header.Matches ⟨progress, runVerb⟩ line ∧ Malformed progress

/-- A line of the search is passed over or ends it. -/
theorem passed_or_completes_or_misleads (line : List Char) :
    Passed line ∨ Completes line ∨ ∃ progress, Misleads line progress := by
  by_cases h : Passed line
  · exact .inl h
  · refine .inr ?_
    rw [Passed] at h
    push Not at h
    obtain ⟨progress, hheader, hprogress⟩ := h
    by_cases hmalformed : Malformed progress
    · exact .inr ⟨progress, hheader, hmalformed⟩
    · exact .inl ⟨progress, hheader, hprogress hmalformed⟩

/-- A line behind the header has a payload, is the last one or no line of a step. -/
theorem prints_or_ends_or_none (line : List Char) :
    (∃ payload, Prints line payload) ∨ Ends line ∨ stepLine? line = none := by
  cases h : stepLine? line with
  | none => exact .inr (.inr rfl)
  | some l =>
    rw [stepLine?_eq_some_iff] at h
    by_cases hmark : l.mark = doneMark
    · exact .inr (.inl ⟨l, h, hmark⟩)
    · exact .inl ⟨_, l, h, hmark, rfl⟩

theorem search_of_passed (h : Passed line) : search (line :: ls) = search ls :=
  search_append (List.forall_mem_singleton.2 h)

theorem search_of_misleads {progress : List Char} (h : Misleads line progress) :
    search (line :: ls) = .error (.malformedProgress (String.ofList progress)) := by
  rw [search.eq_def]
  dsimp only
  rw [header?_eq_some_iff.2 h.1]
  dsimp only
  rw [if_pos rfl, completed?_eq_none_iff.2 h.2]

theorem search_header (h : Completes line) :
    search [line] = .error .missingIntermediateLine := by
  obtain ⟨progress, hheader, hcomplete⟩ := h
  rw [search, header?_eq_some_iff.2 hheader]
  dsimp only
  rw [if_pos rfl, completed?_eq_true_iff.2 hcomplete]

theorem collect_of_prints {payload : List Char} (h : Prints line payload) :
    collect collected (line :: ls) = collect (payload :: collected) ls :=
  collect_append (.cons h .nil)

theorem collect_of_none (h : stepLine? line = none) :
    collect collected (line :: ls) = .error (.malformedLine (String.ofList line)) := by
  rw [collect, h]

/-! ### Results that are final -/

/-- The results that are found at a line, and not because there is none left. -/
inductive Settled : Except Fault String → Prop
  | output (v : String) : Settled (.ok v)
  | malformedProgress (progress : String) : Settled (.error (.malformedProgress progress))
  | malformedLine (line : String) : Settled (.error (.malformedLine line))

theorem collect_append_of_settled (h : Settled (collect collected ls)) :
    collect collected (ls ++ more) = collect collected ls := by
  induction ls generalizing collected with
  | nil => cases h
  | cons line ls ih =>
    rw [List.cons_append]
    obtain ⟨payload, hline⟩ | hline | hline := prints_or_ends_or_none line
    · rw [collect_of_prints hline] at h ⊢
      rw [ih h, collect_of_prints hline]
    · rw [collect_of_ends hline, collect_of_ends hline]
    · rw [collect_of_none hline, collect_of_none hline]

/-- Further lines do not change what has been found. -/
theorem search_append_of_settled (h : Settled (search ls)) : search (ls ++ more) = search ls := by
  induction ls with
  | nil => cases h
  | cons line ls ih =>
    rw [List.cons_append]
    obtain hline | hline | ⟨progress, hline⟩ := passed_or_completes_or_misleads line
    · rw [search_of_passed hline] at h ⊢
      rw [ih h, search_of_passed hline]
    · cases ls with
      | nil =>
        rw [search_header hline] at h
        cases h
      | cons skipped ls =>
        rw [search_of_completes hline] at h
        rw [List.cons_append, search_of_completes hline, collect_append_of_settled h,
          search_of_completes hline]
    · rw [search_of_misleads hline, search_of_misleads hline]

/-! ### Outputs that are cut off -/

/-- Output lines begin with the first of them. -/
theorem prefix_joined (payloads more : List (List Char)) :
    (joined payloads).toList <+: (joined (payloads ++ more)).toList := by
  rw [joined, joined, String.toList_ofList, String.toList_ofList]
  induction payloads with
  | nil => exact List.nil_prefix
  | cons payload payloads ih =>
    cases payloads with
    | nil =>
      cases more with
      | nil => exact List.prefix_rfl
      | cons next more =>
        rw [List.singleton_append, List.intercalate_cons_cons, List.intercalate_singleton,
          List.append_assoc]
        exact List.prefix_append _ _
    | cons next payloads =>
      rw [List.cons_append, List.cons_append, List.intercalate_cons_cons,
        List.intercalate_cons_cons]
      exact (List.prefix_append_right_inj _).2 ih

/-- What has been collected of an output is its beginning. -/
theorem prefix_of_collect (h : collect collected ls = .error (.unterminated c))
    (hv : collect collected (ls ++ more) = .ok v) : c.toList <+: v.toList := by
  induction ls generalizing collected with
  | nil =>
    obtain ⟨_, payloads, _, _, _, _, _, rfl⟩ := exists_of_collect hv
    cases h
    exact prefix_joined _ _
  | cons line ls ih =>
    rw [List.cons_append] at hv
    obtain ⟨payload, hline⟩ | hline | hline := prints_or_ends_or_none line
    · rw [collect_of_prints hline] at h hv
      exact ih h hv
    · rw [collect_of_ends hline] at h
      cases h
    · rw [collect_of_none hline] at h
      cases h

theorem prefix_of_search (h : search ls = .error (.unterminated c))
    (hv : search (ls ++ more) = .ok v) : c.toList <+: v.toList := by
  induction ls with
  | nil => cases h
  | cons line ls ih =>
    rw [List.cons_append] at hv
    obtain hline | hline | ⟨progress, hline⟩ := passed_or_completes_or_misleads line
    · rw [search_of_passed hline] at h hv
      exact ih h hv
    · cases ls with
      | nil =>
        rw [search_header hline] at h
        cases h
      | cons skipped ls =>
        rw [search_of_completes hline] at h
        rw [List.cons_append, search_of_completes hline] at hv
        exact prefix_of_collect h hv
    · rw [search_of_misleads hline] at h
      cases h

/-- The first lines of a transcript with an output have it too, or nothing but its
    beginning. -/
theorem search_of_cut (hcut : ls <+: more) (hv : search more = .ok v) :
    search ls = .ok v ∨ search ls = .error .noRunStep ∨
      search ls = .error .missingIntermediateLine ∨
      ∃ c, search ls = .error (.unterminated c) ∧ c.toList <+: v.toList := by
  obtain ⟨rest, rfl⟩ := hcut
  -- What is settled is the result of all lines, which is the output.
  have hsettled : Settled (search ls) → search ls = .ok v := fun h =>
    (search_append_of_settled h).symm.trans hv
  cases h : search ls with
  | ok v' => exact .inl (h ▸ hsettled (h ▸ .output v'))
  | error fault =>
    cases fault with
    | malformedProgress progress => exact .inl (h ▸ hsettled (h ▸ .malformedProgress progress))
    | malformedLine line => exact .inl (h ▸ hsettled (h ▸ .malformedLine line))
    | missingIntermediateLine => exact .inr (.inr (.inl rfl))
    | unterminated c => exact .inr (.inr (.inr ⟨c, rfl, prefix_of_search h hv⟩))
    | noRunStep => exact .inr (.inl rfl)

/-- An output and a malformed line or progress are found whatever further lines a
    transcript goes on with. Where a transcript with an output is cut off behind a line,
    the output is found, or nothing but the beginning of it, or nothing yet. A text goes
    on with whatever stands behind its last line break, or a line break that is added. -/
theorem output_of_extends :
    (∀ text v, output text = .ok v →
      (∀ text', Extends text text' → output text' = .ok v) ∧
      ∀ text', Extends text' text →
        output text' = .ok v ∨ output text' = .error .noRunStep ∨
        output text' = .error .missingIntermediateLine ∨
        ∃ c, output text' = .error (.unterminated c) ∧ c.toList <+: v.toList) ∧
    (∀ text progress, output text = .error (.malformedProgress progress) →
      ∀ text', Extends text text' → output text' = .error (.malformedProgress progress)) ∧
    (∀ text line, output text = .error (.malformedLine line) →
      ∀ text', Extends text text' → output text' = .error (.malformedLine line)) ∧
    ∀ text more : String,
      ('\n' ∈ text.toList.getLast? → Extends text (text ++ more)) ∧
      ('\r' ∉ text.toList.getLast? → Extends text (text ++ "\n" ++ more)) ∧
      Extends text (text ++ "\r\n" ++ more) := by
  have hextends : ∀ text text', Extends text text' → Settled (output text) →
      output text' = output text := by
    rintro text text' ⟨more, hmore⟩ h
    rw [output, ← hmore]
    exact search_append_of_settled h
  refine ⟨fun text v hv => ⟨fun text' h => ?_, fun text' h => search_of_cut h hv⟩,
    fun text progress hfault text' h => ?_, fun text line hfault text' h => ?_, fun text more => ?_⟩
  · exact (hextends text text' h (hv ▸ .output v)).trans hv
  · exact (hextends text text' h (hfault ▸ .malformedProgress progress)).trans hfault
  · exact (hextends text text' h (hfault ▸ .malformedLine line)).trans hfault
  · exact ⟨fun h => Text.extends_append h more, fun h => Text.extends_feed h more,
      Text.extends_returnFeed text more⟩

/-- A transcript with an output of two lines. -/
def printed : String :=
  "#6 [v 2/2] RUN git\n#6 2c5e\n#6 0.4 v1.4\n#6 0.5 dirty\n#6 DONE 0.5s\n"

theorem output_of_extends_printed :
    output printed = .ok "v1.4\ndirty" ∧
    output (printed ++ "#7 [w x/2] RUN sh\n") = .ok "v1.4\ndirty" ∧
    (∃ c, output "#6 [v 2/2] RUN git\n#6 2c5e\n#6 0.4 v1.4\n" = .error (.unterminated c) ∧
      c.toList <+: "v1.4\ndirty".toList) ∧
    output ("#7 [w x/2] RUN sh" ++ "\n" ++ printed) = .error (.malformedProgress "x/2") ∧
    output ("#6 [v 2/2] RUN git\n#6 2c5e\n..\r" ++ "\r\n" ++ printed) =
      .error (.malformedLine "..\r") := by
  obtain ⟨houtput, hprogress, hline, hextends⟩ := output_of_extends
  have hprinted : output printed = .ok "v1.4\ndirty" := by decide +kernel
  obtain ⟨hmore, hcut⟩ := houtput _ _ hprinted
  have hfirst : Extends "#6 [v 2/2] RUN git\n#6 2c5e\n#6 0.4 v1.4\n" printed :=
    (hextends _ "#6 0.5 dirty\n#6 DONE 0.5s\n").1 (by decide +kernel)
  refine ⟨hprinted, hmore _ ((hextends printed _).1 (by decide +kernel)), ?_,
    hprogress _ _ (by decide +kernel) _ ((hextends _ _).2.1 (by decide +kernel)),
    hline _ _ (by decide +kernel) _ (hextends _ _).2.2⟩
  obtain h | h | h | h := hcut _ hfirst
  · exact absurd h (by decide +kernel)
  · exact absurd h (by decide +kernel)
  · exact absurd h (by decide +kernel)
  · exact h

end ContainerBuild.Transcript
