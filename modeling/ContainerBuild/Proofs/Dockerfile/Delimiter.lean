import ContainerBuild.Proofs.Dockerfile.Rendering

/-!
# The search for a delimiter

The delimiters are tried one after the other until one is free. Nothing bounds such a
search (`Probes`), but as the delimiters differ from each other it ends after at most one
probe more than the command has lines, with the delimiter of the command, which is the
first that no line of the command equals (`Run.delimiter_found`).

So the here-document ends where the command does, whatever white space a reader may
overlook at the end of a line (`Run.ends_at_delimiter`).
-/

namespace ContainerBuild.Dockerfile

open Text

/-! ### Probes -/

/-- The delimiters from the `n`-th on are tried as long as they are among `taken`: after
    some probes the delimiter `found` is the first that is not. -/
inductive Probes (taken : List String) : (n probes : Nat) → (found : String) → Prop
  | free {n : Nat} : delimiter n ∉ taken → Probes taken n 1 (delimiter n)
  | clash {n probes : Nat} {found : String} : delimiter n ∈ taken →
    Probes taken (n + 1) probes found → Probes taken n (probes + 1) found

variable {taken : List String} {n probes probes' : Nat} {found found' : String}

/-- A search ends in one way. -/
theorem Probes.unique (h : Probes taken n probes found) (h' : Probes taken n probes' found') :
    probes = probes' ∧ found = found' := by
  induction h generalizing probes' with
  | free hfree =>
    cases h' with
    | free _ => exact ⟨rfl, rfl⟩
    | clash hclash _ => exact absurd hclash hfree
  | clash hclash _ ih =>
    cases h' with
    | free hfree => exact absurd hclash hfree
    | clash _ hrest =>
      obtain ⟨rfl, hfound⟩ := ih hrest
      exact ⟨rfl, hfound⟩

/-- A search passes over the delimiters that are taken. -/
theorem Probes.of_taken {clashes : Nat} (hfree : delimiter (n + clashes) ∉ taken)
    (htaken : ∀ m < clashes, delimiter (n + m) ∈ taken) :
    Probes taken n (clashes + 1) (delimiter (n + clashes)) := by
  induction clashes generalizing n with
  | zero => exact .free hfree
  | succ clashes ih =>
    rw [← Nat.add_assoc, Nat.add_right_comm n clashes 1] at hfree ⊢
    refine .clash (htaken 0 (Nat.zero_lt_succ _)) (ih hfree fun m hm => ?_)
    rw [Nat.add_assoc, Nat.add_comm 1]
    exact htaken (m + 1) (Nat.succ_lt_succ hm)

namespace Run

/-- The search finds the delimiter of a command, and there are as many lines as there
    have been clashes. -/
theorem delimiter_found (r : Run) :
    ∃ n ≤ r.endings.length, r.delimiter = Dockerfile.delimiter n ∧
      Probes r.endings 0 (n + 1) r.delimiter ∧ Dockerfile.delimiter n ∉ r.endings ∧
      ∀ m < n, Dockerfile.delimiter m ∈ r.endings := by
  obtain ⟨n, hn, hfree, hbefore⟩ := r.delimiter_outcome
  obtain ⟨free, hlt, hnot⟩ := exists_delimiter_notMem r.endings
  have hle : n ≤ free := not_lt.1 fun hlt => hnot (hbefore free hlt)
  have hprobes : Probes r.endings 0 (n + 1) (Dockerfile.delimiter (0 + n)) :=
    .of_taken (by rwa [Nat.zero_add]) fun m hm => by
      rw [Nat.zero_add]
      exact hbefore m hm
  rw [Nat.zero_add, ← hn] at hprobes
  exact ⟨n, hle.trans (Nat.le_of_lt_succ hlt), hn, hprobes, hfree, hbefore⟩

/-! ### Where a here-document ends -/

/-- The first line of a `RUN` instruction, or its first lines if an option goes on in
    another one. -/
def header (r : Run) : String :=
  "RUN " ++ String.intercalate continuation r.options

/-- The header announces the delimiter. -/
theorem exists_header_eq (r : Run) : ∃ front, r.header = front ++ ("<<" ++ r.delimiter) := by
  refine ⟨String.ofList ("RUN ".toList ++
    (r.mounts.flatMap (fun m => optionText ("--mount=" ++ m.render)) ++
      networkOption r.network)), ?_⟩
  rw [← String.toList_inj]
  simp only [header, String.toList_append, toList_options, String.toList_ofList, List.append_assoc]

/-- The lines of what follows the header: those of the here-document and its delimiter. -/
theorem linesOf_body_append (r : Run) :
    linesOf (r.body ++ "\n" ++ r.delimiter) = linesOf r.body ++ [r.delimiter.toList] := by
  have htext : (r.body ++ "\n" ++ r.delimiter).toList =
      r.body.toList ++ '\n' :: r.delimiter.toList := by
    rw [String.toList_append, String.toList_append, List.append_assoc]
    rfl
  rw [linesOf, htext, List.splitOn_append_cons_self,
    List.splitOn_eq_singleton r.feed_not_mem_delimiter, linesOf]

/-- No line of the here-document is the delimiter, even without the white space at its
    end. -/
theorem trimEnd_ne_delimiter {r : Run} {line : List Char} (h : line ∈ linesOf r.body) :
    trimEnd (String.ofList line) ≠ r.delimiter := by
  obtain ⟨n, hn, hfree, _⟩ := r.delimiter_outcome
  rw [mem_endings_iff (delimiter_ne_empty n)] at hfree
  exact fun heq => hfree ⟨line, h, heq.trans hn⟩

theorem feed_not_mem_getLast?_body (r : Run) : '\n' ∉ r.body.toList.getLast? := by
  rw [body, String.toList_ofList, dropEndWhile, List.getLast?_reverse]
  intro h
  have hnot := List.head?_dropWhile_not (fun c => decide (c = '\n')) r.command.toList.reverse
  rw [Option.mem_def.1 h] at hnot
  simp at hnot

/-- The delimiters are tried until one is free, which takes at most one probe more than
    the command has lines. The one that is found is the first that no line of the command
    equals, not counting white space at its end.

    Behind its header a `RUN` instruction is the command without the line feeds at its
    end, and a line with the delimiter. Whoever takes the delimiter for the end, and
    besides it at most what has white space behind it, finds just these lines before it. -/
theorem ends_at_delimiter (r : Run) :
    (∃ n ≤ (stringLines r.command).length,
      (∀ probes found, Probes ((stringLines r.command).map trimEnd) 0 probes found ↔
        probes = n + 1 ∧ found = r.delimiter) ∧
      r.delimiter = (if n = 0 then "EOF" else "EOF_" ++ toString n) ∧
      (∀ line ∈ stringLines r.command, trimEnd line ≠ Dockerfile.delimiter n) ∧
      ∀ m < n, ∃ line ∈ stringLines r.command, trimEnd line = Dockerfile.delimiter m) ∧
    ∃ front feeds,
      (Instruction.run r).render =
        front ++ ("<<" ++ r.delimiter) ++ "\n" ++ (r.body ++ "\n" ++ r.delimiter) ∧
      r.command = r.body ++ feeds ∧ (∀ c ∈ feeds.toList, c = '\n') ∧
      '\n' ∉ r.body.toList.getLast? ∧
      ∀ ends : List Char → Bool, ends r.delimiter.toList →
        (∀ line, ends line → trimEnd (String.ofList line) = r.delimiter) →
        (linesOf (r.body ++ "\n" ++ r.delimiter)).span (fun line => !ends line) =
          (linesOf r.body, [r.delimiter.toList]) := by
  refine ⟨?_, ?_⟩
  · obtain ⟨n, hn, hdelimiter, hprobes, hfree, hbefore⟩ := r.delimiter_found
    rw [endings, List.length_map] at hn
    refine ⟨n, hn, fun probes found => ⟨fun h => h.unique hprobes, ?_⟩, ?_, ?_, fun m hm => ?_⟩
    · rintro ⟨rfl, rfl⟩
      exact hprobes
    · rw [hdelimiter]
      cases n <;> rfl
    · exact fun line hline heq => hfree (List.mem_map.2 ⟨line, hline, heq⟩)
    · exact List.mem_map.1 (hbefore m hm)
  · obtain ⟨front, hheader⟩ := r.exists_header_eq
    obtain ⟨feeds, hcommand, hfeeds⟩ := r.exists_command_eq
    refine ⟨front, String.ofList feeds, ?_, ?_, ?_, r.feed_not_mem_getLast?_body, ?_⟩
    · rw [← hheader, Instruction.render, render, header]
      simp only [String.append_assoc]
    · rw [← String.toList_inj, String.toList_append, String.toList_ofList, hcommand]
    · rwa [String.toList_ofList]
    · intro ends hends honly
      refine span_eq_iff.2 ⟨r.linesOf_body_append, fun line hline => ?_, ?_⟩
      · rw [Bool.not_eq_true', ← Bool.not_eq_true]
        exact fun h => trimEnd_ne_delimiter hline (honly line h)
      · simpa using hends

/-- A command with a here-document of its own, that ends in a line with a blank. -/
def nested : Run where
  mounts := []
  network := none
  command := "cat <<EOF\nEOF_2\nEOF \r\necho EOF_1\n\n"

theorem ends_at_delimiter_nested :
    nested.delimiter = "EOF_1" ∧ nested.body = "cat <<EOF\nEOF_2\nEOF \r\necho EOF_1" ∧
    (linesOf (nested.body ++ "\n" ++ nested.delimiter)).span
        (fun line => !(trimEnd (String.ofList line) == nested.delimiter)) =
      (linesOf nested.body, [nested.delimiter.toList]) := by
  have hends : (trimEnd (String.ofList nested.delimiter.toList) == nested.delimiter) = true := by
    decide +kernel
  obtain ⟨-, _, _, -, -, -, -, hspan⟩ := ends_at_delimiter nested
  exact ⟨by decide +kernel, by decide +kernel,
    hspan (fun line => trimEnd (String.ofList line) == nested.delimiter) hends
      fun _ hline => beq_iff_eq.1 hline⟩

end Run

end ContainerBuild.Dockerfile
