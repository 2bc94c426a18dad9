import ContainerBuild.Proofs.BuildFile.Agreement
import ContainerBuild.Proofs.BuildFile.Items
import ContainerBuild.Proofs.Json.Brackets
import ContainerBuild.Proofs.Resolution.Listed

/-!
# Items with and without brackets

The copies and the secrets of a stage are a list, or one item without the brackets of a
list. Whichever form the item has, and whatever else is in the build file, the brackets
make no difference (`BuildFile.load_bracketed`): the text with brackets around the item
is loaded if the one without them is, and what it is resolved to, or the error, is the
same. (An error does not say where in the text it was found.)

A list is tried before a single item, and an item may itself be an array, which is then
tried as a list. But what stands in it are the values of fields, and none of these is an
item (`IsItem.alone`), nor is the array of the fields of a stage a list of names
(`InStage.no_texts`). The readers around the item see no difference if the one of its
field does not (`agrees_items`).
-/

namespace ContainerBuild.BuildFile

open Json (Value RawText)

variable {α β : Type} {R : Value → Value → Prop} {r : Reader α} {g : α → β}
  {levels : Nat} {v v' item : Value}

/-! ### Places -/

/-- An item stands in the brackets of a list. -/
inductive Listed (r : Reader α) (names : List String) (item : Value) : Value → Value → Prop
  | intro : IsItem r names item → Listed r names item item (.array [item])

/-- A copy or a secret of a stage stands in brackets. The array of the fields of a stage
    has the copies at one index, and the secrets at another one. -/
inductive InStage (copyIndex secretIndex : Nat) (item : Value) : Value → Value → Prop
  | copy {v v' : Value} :
    InField ["copy"] copyIndex (Listed readCopy ["from", "src", "dst"] item) v v' →
    InStage copyIndex secretIndex item v v'
  | secret {v v' : Value} :
    InField ["secret", "secrets"] secretIndex (Listed readSecret ["id", "path"] item) v v' →
    InStage copyIndex secretIndex item v v'

/-- A copy or a secret of a target or of a variable stands in brackets. -/
inductive Bracketed (item : Value) : Value → Value → Prop
  | target {v v' : Value} :
    InField ["targets"] 1 (InEntry (InStage 6 7 item)) v v' → Bracketed item v v'
  | var {v v' : Value} :
    InField ["vars"] 2 (InEntry (InStage 5 6 item)) v v' → Bracketed item v v'

section Exchanged

variable {item' : Value}

theorem InField.exchanged {names : List String} {index : Nat} (h : InField names index R v v')
    (hR : ∀ {v v'}, R v v' → Value.Exchanged item item' v v') :
    Value.Exchanged item item' v v' := by
  cases h with
  | member before after _ _ h => exact (hR h).object before after _
  | item before after _ h => exact (hR h).array before after

theorem InEntry.exchanged (h : InEntry R v v')
    (hR : ∀ {v v'}, R v v' → Value.Exchanged item item' v v') :
    Value.Exchanged item item' v v' := by
  cases h with
  | intro before after t h => exact (hR h).object before after t

end Exchanged

theorem Listed.exchanged {names : List String} (h : Listed r names item v v') :
    Value.Exchanged item (.array [item]) v v' := by
  cases h
  exact .refl

theorem InStage.exchanged {copyIndex secretIndex : Nat}
    (h : InStage copyIndex secretIndex item v v') :
    Value.Exchanged item (.array [item]) v v' := by
  rcases h with h | h <;> exact h.exchanged Listed.exchanged

theorem Bracketed.exchanged (h : Bracketed item v v') :
    Value.Exchanged item (.array [item]) v v' := by
  rcases h with h | h <;> exact h.exchanged fun h => h.exchanged InStage.exchanged

/-! ### Fields of items -/

theorem toOption_map (f : α → β) (x : Except ReadFault α) :
    (x.map f).toOption = x.toOption.map f := by
  cases x <;> rfl

/-- Brackets around an item are not seen. -/
theorem agrees_items {names : List String} (h : ∀ v, IsItem r names v → Alone r v) :
    Agrees (Listed r names item) (oneOrMany r) OneOrMany.listed 2 := by
  have hinspect : ∀ {levels}, IsItem r names item → 2 < levels →
      BuildFile.inspect levels item = .ok () ∧
      BuildFile.inspect levels (.array [item]) = .ok () := by
    intro levels hitem hlevels
    refine ⟨(h item hitem).inspect levels (by omega), ?_⟩
    rw [BuildFile.inspect, enter_eq hlevels]
    exact inspectItems_eq (List.forall_mem_singleton.2 ((h item hitem).inspect _ (by omega)))
  constructor
  · rintro _ _ levels ⟨hitem⟩ hlevels
    obtain ⟨a, ha⟩ := (h item hitem).read
    have hone : oneOrMany r levels item = .ok (.one a) := by
      rw [oneOrMany, alternatives, (hinspect hitem hlevels).1]
      simp only [List.findSome?, toOption_map, (h item hitem).no_list, ha levels (by omega)]
      rfl
    have hmany : oneOrMany r levels (.array [item]) = .ok (.many [a]) := by
      have hsequence : sequence r levels (.array [item]) = .ok [a] := by
        rw [sequence, enter_eq hlevels]
        exact mapM_eq_ok (.cons (ha _ (by omega)) .nil)
      rw [oneOrMany, alternatives, (hinspect hitem hlevels).2]
      simp only [List.findSome?, toOption_map, hsequence]
      rfl
    rw [hone, hmany]
    exact .ok rfl
  · rintro _ _ levels ⟨hitem⟩ hlevels
    obtain ⟨hone, hlist⟩ := hinspect hitem hlevels
    rw [hone, hlist]

/-! ### Build files -/

/-- Two rows of a stage that differ in the brackets of its copies and secrets. -/
structure StageRows (secretName : String) (row row' : Row) : Prop where
  required_eq : ∀ {α : Type} {key : String} (r : Reader α), key ≠ "copy" → key ≠ secretName →
    row.required key r = row'.required key r
  defaulted_eq : ∀ {α : Type} {key : String} (r : Reader α) (default : α), key ≠ "copy" →
    key ≠ secretName → row.defaulted key r default = row'.defaulted key r default
  copies : Agree (fun a a' => a.listed = a'.listed)
    (row.defaulted "copy" (oneOrMany readCopy) (.many []))
    (row'.defaulted "copy" (oneOrMany readCopy) (.many []))
  secrets : Agree (fun a a' => a.listed = a'.listed)
    (row.defaulted secretName (oneOrMany readSecret) (.many []))
    (row'.defaulted secretName (oneOrMany readSecret) (.many []))

/-- A reader of stages makes no difference for brackets around a copy or secret if what is
    made of the fields makes none. -/
theorem agrees_stage {kind secretName synonym : String} {fields : List Field}
    {build : Row → Except ReadFault α} {copyIndex secretIndex : Nat}
    (hd : (fields.flatMap Field.names).Nodup) (hne : secretName ≠ "copy")
    (hnames : ["secret", "secrets"] ⊆ [secretName, synonym])
    (hcopy : fields[copyIndex]? = some (.of "copy" (oneOrMany readCopy) none true))
    (hsecret : fields[secretIndex]? =
      some (.of secretName (oneOrMany readSecret) (some synonym) true))
    (hbuild : ∀ {row row'}, StageRows secretName row row' →
      Agree (fun a a' => g a = g a') (build row) (build row')) :
    Agrees (InStage copyIndex secretIndex item) (record kind fields build) g 3 := by
  have hcopies : Agrees (InField ["copy"] copyIndex (Listed readCopy ["from", "src", "dst"] item))
      (record kind fields build) g 3 := by
    refine Agrees.record (agrees_items fun _ => alone_copy) hd hcopy
      (List.Subset.refl _) fun hlevels h => hbuild ?_
    exact {
      required_eq := fun r hkey _ => h.required_eq hkey r
      defaulted_eq := fun r default hkey _ => h.defaulted_eq hkey r default
      copies := h.defaulted (agrees_items fun _ => alone_copy) hlevels _
      secrets := by
        rw [h.defaulted_eq hne]
        exact .kernel_refl _ _ }
  have hsecrets :
      Agrees (InField ["secret", "secrets"] secretIndex (Listed readSecret ["id", "path"] item))
        (record kind fields build) g 3 := by
    refine Agrees.record (agrees_items fun _ => alone_secret) hd hsecret hnames
      fun hlevels h => hbuild ?_
    exact {
      required_eq := fun r _ hkey => h.required_eq hkey r
      defaulted_eq := fun r default _ hkey => h.defaulted_eq hkey r default
      copies := by
        rw [h.defaulted_eq hne.symm]
        exact .kernel_refl _ _
      secrets := h.defaulted (agrees_items fun _ => alone_secret) hlevels _ }
  refine hcopies.either hsecrets ?_
  rintro _ _ (h | h)
  · exact .inl h
  · exact .inr h

theorem agrees_target : Agrees (InStage 6 7 item) readTarget Target.listed 3 := by
  refine agrees_stage (by decide) (by decide) (by simp) rfl rfl fun {row row'} h => ?_
  simp (disch := decide) only [Row.optional, h.defaulted_eq]
  refine .same _ fun base => .same _ fun dependsOn => .same _ fun env => .same _ fun command =>
    .same _ fun ssh => .same _ fun caches => ?_
  refine h.copies.bind fun copies copies' hcopies =>
    h.secrets.bind fun secrets secrets' hsecrets => ?_
  refine .same _ fun platform => .same _ fun workdir => .same _ fun network =>
    .same _ fun output => .ok ?_
  simp only [Target.listed, hcopies, hsecrets]

theorem agrees_var : Agrees (InStage 5 6 item) readVar Var.listed 3 := by
  refine agrees_stage (by decide) (by decide) (by simp) rfl rfl fun {row row'} h => ?_
  simp (disch := decide) only [Row.optional, h.defaulted_eq, h.required_eq]
  refine .same _ fun base => .same _ fun platform => .same _ fun workdir => .same _ fun env =>
    .same _ fun caches => ?_
  refine h.copies.bind fun copies copies' hcopies =>
    h.secrets.bind fun secrets secrets' hsecrets => ?_
  refine .same _ fun network => .same _ fun ssh => .same _ fun command => .ok ?_
  simp only [Var.listed, hcopies, hsecrets]

/-- A stage is no list of names. -/
theorem InField.no_texts {names : List String} {index : Nat}
    (h : InField names index R v v')
    (hR : ∀ {v v'}, R v v' → ∀ levels, (text levels v).toOption = none ∧
      (text levels v').toOption = none) (levels : Nat) :
    (sequence text levels v).toOption = none ∧ (sequence text levels v').toOption = none := by
  cases h with
  | @member before after t _ v v' =>
    exact ⟨toOption_mismatch (.object (before ++ (t, v) :: after)) "a sequence",
      toOption_mismatch (.object (before ++ (t, v') :: after)) "a sequence"⟩
  | item before after _ h =>
    have hmem : ∀ u, u ∈ before ++ u :: after := fun u => by simp
    exact ⟨toOption_sequence_of_mem (hmem _) fun inner => (hR h inner).1,
      toOption_sequence_of_mem (hmem _) fun inner => (hR h inner).2⟩

theorem Listed.no_text {names : List String} (halone : ∀ v, IsItem r names v → Alone r v)
    (h : Listed r names item v v') (levels : Nat) :
    (text levels v).toOption = none ∧ (text levels v').toOption = none := by
  cases h with
  | intro hitem =>
    exact ⟨(halone v hitem).no_text levels, toOption_mismatch (.array [v]) "a string"⟩

theorem InStage.no_texts {copyIndex secretIndex : Nat}
    (h : InStage copyIndex secretIndex item v v') (levels : Nat) :
    (sequence text levels v).toOption = none ∧ (sequence text levels v').toOption = none := by
  rcases h with h | h
  · exact h.no_texts (Listed.no_text fun _ => alone_copy) levels
  · exact h.no_texts (Listed.no_text fun _ => alone_secret) levels

theorem agrees_entry : Agrees (InStage 6 7 item) readEntry Entry.listed 3 where
  read := by
    rintro v v' levels h hlevels
    obtain ⟨hnames, hnames'⟩ := h.no_texts levels
    rw [readEntry, alternatives, alternatives, agrees_target.inspect h hlevels]
    -- Neither value is a list of names, which would be tried first.
    refine .same _ fun _ => ?_
    simp only [List.findSome?, toOption_map, hnames, hnames', Option.map_none]
    have hread := agrees_target.read h hlevels
    generalize readTarget levels v = x, readTarget levels v' = x' at hread ⊢
    cases hread with
    | error fault => exact .error _
    | ok ht => exact .ok (congrArg Entry.target ht)
  inspect := agrees_target.inspect

theorem agrees_file : Agrees (Bracketed item) BuildFile.read BuildFile.listed 5 := by
  have htargets : Agrees (InField ["targets"] 1 (InEntry (InStage 6 7 item))) BuildFile.read
      BuildFile.listed 5 := by
    refine agrees_entry.entries.record (by decide) rfl (List.Subset.refl _)
      fun hlevels h => ?_
    rw [h.required_eq (by decide), h.defaulted_eq (by decide) (entries readVar)]
    refine .same _ fun version => (h.defaulted agrees_entry.entries hlevels _).bind
      fun targets targets' htargets => .same _ fun vars => .ok ?_
    simp only [BuildFile.listed, htargets]
  have hvars : Agrees (InField ["vars"] 2 (InEntry (InStage 5 6 item))) BuildFile.read
      BuildFile.listed 5 := by
    refine agrees_var.entries.record (by decide) rfl (List.Subset.refl _)
      fun hlevels h => ?_
    rw [h.required_eq (by decide), h.defaulted_eq (by decide) (entries readEntry)]
    refine .same _ fun version => .same _ fun targets =>
      (h.defaulted agrees_var.entries hlevels _).bind fun vars vars' hvars => .ok ?_
    simp only [BuildFile.listed, hvars]
  refine htargets.either hvars ?_
  rintro _ _ (h | h)
  · exact .inl h
  · exact .inr h

/-! ### Texts -/

theorem load_of_writes {text : String} (h : v.Writes text.toList) :
    load text = (BuildFile.read nestingLimit v).mapError .fields := by
  rw [load, evaluate, Json.parse?_of_writes h]
  change parse text = _
  rw [parse, Json.parse?_of_writes h]
  dsimp only
  cases BuildFile.read nestingLimit v <;> rfl

/-- Brackets may be written around one copy or secret of a target or a variable. The text
    with the brackets in it, like any other one that writes the same value, is read to the
    same build file but for the list of one item, and is resolved to the same definition;
    or the same error is found. -/
theorem load_bracketed (h : Bracketed item v v') {text : String} (htext : v.Writes text.toList) :
    (∃ before w after : String, text = before ++ w ++ after ∧ item.Writes w.toList ∧
      v'.Writes (before ++ "[" ++ w ++ "]" ++ after).toList) ∧
    ∀ text' : String, v'.Writes text'.toList →
      (load text').map listed = (load text).map listed ∧
      ∀ path secrets, (loadText path text' >>= fun file => file.resolve secrets) =
        (loadText path text >>= fun file => file.resolve secrets) := by
  refine ⟨?_, fun text' htext' => ?_⟩
  · obtain ⟨before, w, after, heq, hw, hbrackets⟩ := h.exchanged.exists_brackets htext
    refine ⟨.ofList before, .ofList w, .ofList after, ?_, ?_, ?_⟩
    · rw [← String.toList_inj, heq]
      simp
    · rwa [String.toList_ofList]
    · simpa using hbrackets
  · have hread := agrees_file.read h (show 5 < nestingLimit by decide)
    simp only [loadText, load_of_writes htext, load_of_writes htext']
    generalize BuildFile.read nestingLimit v = x, BuildFile.read nestingLimit v' = x' at hread ⊢
    cases hread with
    | error fault => exact ⟨rfl, fun _ _ => rfl⟩
    | @ok file file' hfile =>
      refine ⟨congrArg Except.ok hfile.symm, fun path secrets => ?_⟩
      change file'.resolve secrets = file.resolve secrets
      rw [← file.resolve_listed, ← file'.resolve_listed, hfile]

/-- A copy in the array form, without a source. -/
def arrayCopy : Value :=
  .array [.null, .ofString "s", .ofString "d"]

/-- A build file whose only target has some copies. -/
def fileOfCopies (copies : Value) : Value :=
  .object [(.ofString "apiVersion", .ofString "kiln/v1"),
    (.ofString "targets", .object [(.ofString "a", .object [(.ofString "copy", copies)])])]

/-- The text with the copy. -/
def copyText : String :=
  "\x7b\"apiVersion\":\"kiln/v1\",\"targets\":\x7b\"a\":\x7b\"copy\":" ++
  "[null,\"s\",\"d\"]\x7d\x7d\x7d"

/-- The text with the copy in brackets. -/
def copiesText : String :=
  "\x7b\"apiVersion\":\"kiln/v1\",\"targets\":\x7b\"a\":\x7b\"copy\":" ++
  "[[null,\"s\",\"d\"]]\x7d\x7d\x7d"

/-- The build file that is read from the text with the copy. -/
def fileOfCopy : BuildFile where
  apiVersion := supportedVersion
  targets := [("a", .target { copies := .one ⟨none, "s", "d"⟩ })]

theorem load_bracketed_arrayCopy :
    Bracketed arrayCopy (fileOfCopies arrayCopy) (fileOfCopies (.array [arrayCopy])) ∧
    (fileOfCopies arrayCopy).Writes copyText.toList ∧
    (fileOfCopies (.array [arrayCopy])).Writes copiesText.toList ∧
    load copyText = .ok fileOfCopy ∧ (load copiesText).map listed = .ok fileOfCopy.listed ∧
    ∀ path secrets, (loadText path copiesText >>= fun file => file.resolve secrets) =
      (loadText path copyText >>= fun file => file.resolve secrets) := by
  have hitem : IsItem readCopy ["from", "src", "dst"] arrayCopy := ⟨⟨⟨none, "s", "d"⟩, rfl⟩, nofun⟩
  have hbracketed :
      Bracketed arrayCopy (fileOfCopies arrayCopy) (fileOfCopies (.array [arrayCopy])) :=
    .target <| .member [_] [] (.head _) (RawText.decode_ofString "targets") <|
      .intro [] [] _ <| .copy <| .member [] [] (.head _) (RawText.decode_ofString "copy") <|
      .intro hitem
  have hwrites : (fileOfCopies arrayCopy).Writes copyText.toList :=
    Json.spells_of_tokens? (by decide +kernel)
  have hwrites' : (fileOfCopies (.array [arrayCopy])).Writes copiesText.toList :=
    Json.spells_of_tokens? (by decide +kernel)
  have hload : load copyText = .ok fileOfCopy := by
    rw [load_of_writes hwrites]
    rfl
  obtain ⟨-, hagree⟩ := load_bracketed hbracketed hwrites
  obtain ⟨hlisted, hresolve⟩ := hagree copiesText hwrites'
  rw [hload] at hlisted
  exact ⟨hbracketed, hwrites, hwrites', hload, hlisted, hresolve⟩

end ContainerBuild.BuildFile
