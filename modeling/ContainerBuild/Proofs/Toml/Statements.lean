import ContainerBuild.Proofs.Text.Lines
import ContainerBuild.Proofs.Toml.Strings
import ContainerBuild.Toml.Grammar

/-!
# TOML statements are read back

A text of lines, each of which says a statement or nothing, is read as the statements
(`parse?_join`). A line says a statement if it begins with a key or a bracket and the
statement is read from it, up to its line feed (`Says`). The lines that assign a value
to a key, and those that begin a table, are of this kind.
-/

namespace ContainerBuild.Toml

variable {name value line text rest : List Char} {v : Value} {s : Statement}

/-! ### Keys -/

/-- A name that needs no quotes as a key. -/
def Bare (name : List Char) : Prop :=
  name ≠ [] ∧ ∀ c ∈ name, isKeyCharacter c

instance (name : List Char) : Decidable (Bare name) :=
  decidable_of_iff (name ≠ [] ∧ name.all isKeyCharacter) (and_congr_right fun _ => List.all_eq_true)

theorem not_isSpace_of_isKeyCharacter {c : Char} (h : isKeyCharacter c) : ¬isSpace c := by
  simp only [isSpace, Bool.or_eq_true, decide_eq_true_eq]
  rintro (rfl | rfl) <;> exact absurd h (by decide)

theorem skipSpaces_cons {c : Char} (h : ¬isSpace c) (rest : List Char) :
    skipSpaces (c :: rest) = c :: rest :=
  List.dropWhile_cons_of_neg h

theorem Bare.exists_cons (h : Bare name) : ∃ c tail, name = c :: tail ∧ isKeyCharacter c := by
  obtain ⟨c, tail, rfl⟩ := List.exists_cons_of_ne_nil h.1
  exact ⟨c, tail, rfl, h.2 c List.mem_cons_self⟩

/-- A name without quotes is read as a key of one part, if the key ends behind it. -/
theorem key?_bare (hname : Bare name) {mark : Char} {after : List Char}
    (hrest : ∀ c ∈ rest.head?, ¬isKeyCharacter c) (hskip : skipSpaces rest = mark :: after)
    (hdot : mark ≠ '.') (limit : Nat) :
    key? (limit + 1) (name ++ rest) = some ([String.ofList name], mark :: after) := by
  have hspan : (name ++ rest).span isKeyCharacter = (name, rest) :=
    Text.span_eq_iff.2 ⟨rfl, hname.2, hrest⟩
  obtain ⟨c, tail, rfl, hc⟩ := hname.exists_cons
  have hpart : keyPart? (c :: tail ++ rest) = some (String.ofList (c :: tail), rest) := by
    rw [keyPart?, hspan]
  rw [key?, List.cons_append, skipSpaces_cons (not_isSpace_of_isKeyCharacter hc),
    ← List.cons_append, hpart, Option.bind_eq_bind, Option.bind_some]
  dsimp only
  rw [hskip]
  split
  · next heq => exact absurd (List.cons.inj heq).1 hdot
  · rfl

/-! ### Values -/

/-- A written value is read, up to the line feed behind it. -/
structure Denotes (value : List Char) (v : Value) : Prop where
  read : ∀ rest, value? nestingLimit (value ++ '\n' :: rest) = some (v, '\n' :: rest)
  begins : ∃ c tail, value = c :: tail ∧ ¬isSpace c

theorem denotes_string (text : String) : Denotes (renderString text).toList (.text text) := by
  obtain ⟨quote, body, hbody, hquote⟩ := exists_renderString text
  refine ⟨fun rest => ?_, quote, body, hbody, by rcases hquote with rfl | rfl <;> decide⟩
  have hread : string? (quote :: (body ++ '\n' :: rest)) = some (text, '\n' :: rest) := by
    rw [← List.cons_append, ← hbody]
    exact string?_renderString text (by simp) (by simp)
  have hflat : flat? (quote :: (body ++ '\n' :: rest)) = some (.text text, '\n' :: rest) := by
    rw [flat?, if_pos (by simpa using hquote), hread]
    rfl
  rw [hbody, List.cons_append, ← hflat]
  rcases hquote with rfl | rfl <;> rfl

theorem denotes_bool (b : Bool) : Denotes (renderBool b).toList (.bool b) := by
  cases b with
  | true => exact ⟨fun _ => by rfl, 't', _, rfl, by decide⟩
  | false => exact ⟨fun _ => by rfl, 'f', _, rfl, by decide⟩

theorem denotes_noItems : Denotes "[]".toList (.array []) :=
  ⟨fun _ => by rfl, '[', _, rfl, by decide⟩

/-! ### Lines -/

/-- A line, with its line feed, says a statement. -/
structure Says (line : List Char) (s : Statement) : Prop where
  read : ∀ rest, statement? (line ++ rest) = some (s, '\n' :: rest)
  begins : ∃ c tail, line = c :: tail ∧ (isKeyCharacter c ∨ c = '[')

theorem statement?_assignment {c : Char} (h : c ≠ '[') (rest : List Char) :
    statement? (c :: rest) = (assignment? (value? nestingLimit) (c :: rest)).map
      fun ((key, v), rest) => (.assign key v, rest) := by
  rw [statement?]
  · exact fun _ heq => h (List.cons.inj heq).1
  · exact fun _ heq => h (List.cons.inj heq).1

theorem says_assignment {name value : String} (hname : Bare name.toList)
    (h : Denotes value.toList v) :
    Says (assignmentLine name value).toList (.assign [name] v) := by
  obtain ⟨c, tail, hcons, hc⟩ := hname.exists_cons
  have hline : (assignmentLine name value).toList =
      name.toList ++ ' ' :: '=' :: ' ' :: (value.toList ++ ['\n']) := by
    simp [assignmentLine]
  refine ⟨fun rest => ?_, c, tail ++ _, by rw [hline, hcons]; rfl, .inl hc⟩
  let assigned := '=' :: ' ' :: (value.toList ++ '\n' :: rest)
  have hkey : key? nestingLimit (name.toList ++ ' ' :: assigned) = some ([name], assigned) := by
    rw [nestingLimit, key?_bare hname (by rintro _ ⟨⟩; decide) rfl (by decide),
      String.ofList_toList]
  have hvalue : value? nestingLimit (skipSpaces (' ' :: (value.toList ++ '\n' :: rest))) =
      some (v, '\n' :: rest) := by
    rw [← h.read]
    obtain ⟨a, tail, hcons, ha⟩ := h.begins
    rw [hcons, List.cons_append]
    exact congrArg _ (skipSpaces_cons ha _)
  have hassign : assignment? (value? nestingLimit) (name.toList ++ ' ' :: assigned) =
      some (([name], v), '\n' :: rest) := by
    rw [assignment?, hkey, Option.bind_eq_bind, Option.bind_some]
    change Option.map _ (value? nestingLimit (skipSpaces (' ' :: _))) = _
    rw [hvalue]
    rfl
  have hbracket : c ≠ '[' := by
    rintro rfl
    exact absurd hc (by decide)
  have htext : (assignmentLine name value).toList ++ rest = name.toList ++ ' ' :: assigned := by
    rw [hline]
    simp [assigned]
  rw [hcons, List.cons_append] at hassign htext
  rw [htext, statement?_assignment hbracket, hassign]
  rfl

theorem header?_bare {name : String} (hname : Bare name.toList) (close : List Char)
    (rest : List Char) :
    header? (']' :: close) (name.toList ++ ']' :: (close ++ rest)) = some ([name], rest) := by
  have hkey : key? nestingLimit (name.toList ++ ']' :: (close ++ rest)) =
      some ([name], ']' :: (close ++ rest)) := by
    rw [nestingLimit, key?_bare hname (by rintro _ ⟨⟩; decide) rfl (by decide),
      String.ofList_toList]
  rw [header?, hkey, Option.bind_eq_bind, Option.bind_some]
  dsimp only
  rw [← List.cons_append, if_pos (List.isPrefixOf_iff_prefix.2 (List.prefix_append _ _)),
    List.drop_left]

theorem says_table {name : String} (hname : Bare name.toList) :
    Says (tableLine name).toList (.table [name]) := by
  have hline : (tableLine name).toList = '[' :: (name.toList ++ [']', '\n']) := by
    simp [tableLine]
  obtain ⟨c, tail, hcons, hc⟩ := hname.exists_cons
  refine ⟨fun rest => ?_, '[', _, hline, .inr rfl⟩
  have hheader : header? [']'] (name.toList ++ [']', '\n'] ++ rest) =
      some ([name], '\n' :: rest) := by
    rw [List.append_assoc]
    exact header?_bare hname [] ('\n' :: rest)
  have hbracket : c ≠ '[' := by
    rintro rfl
    exact absurd hc (by decide)
  rw [hline, List.cons_append]
  rw [hcons, List.cons_append, List.cons_append] at hheader ⊢
  rw [statement?]
  · rw [hheader]
    rfl
  · exact fun _ heq => hbracket (List.cons.inj heq).1

theorem says_element {name : String} (hname : Bare name.toList) :
    Says (elementLine name).toList (.element [name]) := by
  have hline : (elementLine name).toList = '[' :: '[' :: (name.toList ++ [']', ']', '\n']) := by
    simp [elementLine]
  refine ⟨fun rest => ?_, '[', _, hline, .inr rfl⟩
  have hheader : header? [']', ']'] (name.toList ++ [']', ']', '\n'] ++ rest) =
      some ([name], '\n' :: rest) := by
    rw [List.append_assoc]
    exact header?_bare hname [']'] ('\n' :: rest)
  rw [hline, List.cons_append, List.cons_append, statement?, hheader]
  rfl

/-! ### Texts -/

/-- Lines that say statements, one after the other, with empty lines between them. -/
inductive Lines : List String → List Statement → Prop
  | nil : Lines [] []
  | blank {ls : List String} {l : List Statement} : Lines ls l → Lines ("\n" :: ls) l
  | line {line : String} {s : Statement} {ls : List String} {l : List Statement} :
    Says line.toList s → Lines ls l → Lines (line :: ls) (s :: l)

theorem Lines.append {ls ls' : List String} {l l' : List Statement} (h : Lines ls l)
    (h' : Lines ls' l') : Lines (ls ++ ls') (l ++ l') := by
  induction h with
  | nil => exact h'
  | blank _ ih => exact .blank ih
  | line hline _ ih => exact .line hline ih

theorem skipBlanks_line (h : Says line s) (rest : List Char) :
    skipBlanks false (line ++ rest) = line ++ rest := by
  obtain ⟨c, tail, rfl, hc⟩ := h.begins
  have hspace : isSpace c = false ∧ c ≠ '\n' ∧ c ≠ '#' ∧ c ≠ '\r' := by
    rcases hc with hc | rfl
    · refine ⟨Bool.eq_false_iff.2 (not_isSpace_of_isKeyCharacter hc), ?_, ?_, ?_⟩
      all_goals
        rintro rfl
        exact absurd hc (by decide)
    · decide
  obtain ⟨hspace, hfeed, hcomment, hreturn⟩ := hspace
  rw [List.cons_append, skipBlanks.eq_def]
  simp [hspace, hfeed, hcomment, hreturn]

theorem statements?_of_lines {ls : List String} {l : List Statement} (h : Lines ls l)
    {budget : Nat} (hbudget : (ls.flatMap String.toList).length < budget) :
    statements? budget (ls.flatMap String.toList) = some l := by
  induction h generalizing budget with
  | nil =>
    obtain ⟨budget, rfl⟩ : ∃ n, budget = n + 1 := Nat.exists_eq_add_one.2 (by omega)
    rfl
  | @blank ls l _ ih =>
    have hfeed : ("\n" :: ls).flatMap String.toList = '\n' :: ls.flatMap String.toList := rfl
    rw [hfeed, List.length_cons] at hbudget
    obtain ⟨budget, rfl⟩ : ∃ n, budget = n + 1 := Nat.exists_eq_add_one.2 (by omega)
    have hskip : skipBlanks false ('\n' :: ls.flatMap String.toList) =
        skipBlanks false (ls.flatMap String.toList) := by
      rw [skipBlanks.eq_def]
      rfl
    have hrest : statements? (budget + 1) (ls.flatMap String.toList) = some l := ih (by omega)
    rw [hfeed, ← hrest, statements?, statements?, hskip]
  | @line line s ls l hline _ ih =>
    rw [List.flatMap_cons] at hbudget ⊢
    obtain ⟨budget, rfl⟩ : ∃ n, budget = n + 1 := Nat.exists_eq_add_one.2 (by omega)
    have hread := hline.read (ls.flatMap String.toList)
    obtain ⟨c, tail, hcons, _⟩ := hline.begins
    rw [statements?, skipBlanks_line hline]
    rw [hcons, List.length_append, List.length_cons] at hbudget
    rw [hcons, List.cons_append] at hread ⊢
    dsimp only
    rw [hread, Option.bind_eq_bind, Option.bind_some]
    change (statements? budget (ls.flatMap String.toList)).bind _ = _
    rw [ih (by omega)]
    rfl

/-- A text of lines that say statements describes the table that these build. -/
theorem parse?_join {ls : List String} {l : List Statement} (h : Lines ls l) :
    parse? (String.join ls) = tableOf l := by
  have hmark : dropByteOrderMark (ls.flatMap String.toList) = ls.flatMap String.toList := by
    cases h with
    | nil => rfl
    | blank => rfl
    | @line line s ls l hline =>
      obtain ⟨c, tail, hcons, hc⟩ := hline.begins
      rw [List.flatMap_cons, hcons, List.cons_append, dropByteOrderMark]
      intro _ heq
      obtain rfl := (List.cons.inj heq).1
      rcases hc with hc | hc <;> exact absurd hc (by decide)
  rw [parse?, String.toList_join, hmark, statements?_of_lines h (Nat.lt_succ_self _)]
  rfl

end ContainerBuild.Toml
