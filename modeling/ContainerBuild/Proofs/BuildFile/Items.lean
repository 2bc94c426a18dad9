import ContainerBuild.Proofs.BuildFile.RoundTrip

/-!
# Items that stand alone

A copy or a secret is written as an object or as the array of its fields, and what stands
in either is a string or `null` (`Plain`). So it is read alike wherever it stands, no fault
is found by looking at it beforehand, and it is read neither as a list of items nor as a
text (`IsItem.alone`).
-/

namespace ContainerBuild.BuildFile

open Json (Value RawText)

variable {α : Type} {r : Reader α} {fields : List Field} {levels levels' : Nat} {v : Value}

/-! ### Items -/

/-- A value without values in it: nothing, or a string that has a meaning. -/
inductive Plain : Value → Prop
  | null : Plain .null
  | text {t : RawText} {s : String} : t.decode = .ok s → Plain (.text t)

theorem Plain.inspect (h : Plain v) : inspect levels v = .ok () := by
  cases h with
  | null => rfl
  | text ht =>
    rw [BuildFile.inspect, decodeText_eq ht]
    rfl

theorem toOption_mismatch (v : Value) (expected : String) :
    (mismatch v expected : Except ReadFault α).toOption = none := by
  cases v with
  | null | bool | array | object => rfl
  | number n =>
    rw [mismatch]
    dsimp only
    cases decodeNumber n <;> rfl
  | text t =>
    rw [mismatch]
    dsimp only
    cases decodeText t <;> rfl

theorem mismatch_ne_ok {expected : String} {a : α} : mismatch v expected ≠ .ok a := by
  intro h
  have hnone := toOption_mismatch (α := α) v expected
  rw [h] at hnone
  cases hnone

theorem plain_of_text {s : String} (h : text levels v = .ok s) : Plain v := by
  unfold BuildFile.text at h
  split at h
  · next t =>
    rw [decodeText] at h
    cases ht : t.decode with
    | ok s => exact .text ht
    | error fault =>
      rw [ht] at h
      cases h
  · exact (mismatch_ne_ok h).elim

theorem plain_of_optional {s? : Option String} (h : optional text levels v = .ok s?) : Plain v := by
  unfold optional at h
  split at h
  · exact .null
  · cases htext : text levels v with
    | ok s => exact plain_of_text htext
    | error fault =>
      rw [htext] at h
      cases h

/-- A field whose values have no values in them, wherever they stand. -/
structure Field.Flat (f : Field) : Prop where
  level : ∀ levels levels' v, f.check levels v = f.check levels' v
  plain : ∀ {levels v}, f.check levels v = .ok () → Plain v

theorem Field.flat_of {name : String} (hlevel : ∀ levels levels' v, r levels v = r levels' v)
    (hplain : ∀ {levels v a}, r levels v = .ok a → Plain v) : (Field.of name r).Flat where
  level levels levels' v := congrArg (Except.map fun _ => ()) (hlevel levels levels' v)
  plain := by
    intro levels v h
    rw [Field.check_of] at h
    cases hr : r levels v with
    | ok a => exact hplain hr
    | error fault =>
      rw [hr] at h
      cases h

/-- The fields of a record are found at every level if they are at one, and the values of its
    members are plain, but for unknown ones. -/
theorem rowOfMembers_of_flat (hflat : ∀ f ∈ fields, f.Flat) {done : List (String × Value)}
    {members : List (RawText × Value)} {row : Row}
    (h : rowOfMembers fields levels done members = .ok row) :
    (∀ levels', rowOfMembers fields levels' done members = .ok ⟨row.values, levels'⟩) ∧
      ∀ m ∈ members, ∀ name ∈ fields.flatMap Field.names, m.1.decode = .ok name → Plain m.2 := by
  induction members generalizing done with
  | nil =>
    cases h
    exact ⟨fun _ => rfl, nofun⟩
  | cons m members ih =>
    obtain ⟨t, v⟩ := m
    obtain ⟨name, ht, -⟩ := exists_of_bind_eq_ok h
    rw [List.forall_mem_cons]
    cases hfind : fields.find? fun f => f.name == name || f.synonym == some name with
    | none =>
      rw [rowOfMembers_unknown ht hfind] at h
      obtain ⟨hrow, hplain⟩ := ih h
      refine ⟨fun levels' => ?_, fun name' hmem ht' => ?_, hplain⟩
      · rw [rowOfMembers_unknown ht hfind]
        exact hrow levels'
      · obtain rfl := Except.ok.inj ((decodeText_eq ht').symm.trans ht)
        obtain ⟨f, hf, hmem⟩ := List.mem_flatMap.1 hmem
        exact absurd (Field.matches_iff.2 hmem) (List.find?_eq_none.1 hfind f hf)
    | some f =>
      rw [rowOfMembers_known ht hfind] at h
      split_ifs at h with hnew
      obtain ⟨_, hcheck, h⟩ := exists_of_bind_eq_ok h
      obtain ⟨hrow, hplain⟩ := ih h
      have hf := hflat f (List.mem_of_find?_eq_some hfind)
      refine ⟨fun levels' => ?_, fun _ _ _ => hf.plain hcheck, hplain⟩
      rw [rowOfMembers_known ht hfind, if_neg hnew, hf.level levels' levels, hcheck]
      exact hrow levels'

/-- So are those of an array. -/
theorem rowOfItems_of_flat {expected : String} (hflat : ∀ f ∈ fields, f.Flat)
    {done : List (String × Value)} {count : Nat} {items : List Value} {row : Row}
    (h : rowOfItems expected levels done count fields items = .ok row) :
    (∀ levels', rowOfItems expected levels' done count fields items =
      .ok ⟨row.values, levels'⟩) ∧ ∀ v ∈ items, Plain v := by
  induction fields generalizing done count items with
  | nil =>
    cases items with
    | nil =>
      cases h
      exact ⟨fun _ => rfl, nofun⟩
    | cons v items => cases h
  | cons f fields ih =>
    obtain ⟨hf, hflat⟩ := List.forall_mem_cons.1 hflat
    cases items with
    | nil =>
      rw [rowOfItems] at h
      split_ifs at h with hdefaulted
      obtain ⟨hrow, hplain⟩ := ih hflat h
      refine ⟨fun levels' => ?_, hplain⟩
      rw [rowOfItems, if_pos hdefaulted]
      exact hrow levels'
    | cons v items =>
      obtain ⟨_, hcheck, h⟩ := exists_of_bind_eq_ok h
      obtain ⟨hrow, hplain⟩ := ih hflat h
      refine ⟨fun levels' => ?_, List.forall_mem_cons.2 ⟨hf.plain hcheck, hplain⟩⟩
      rw [rowOfItems, hf.level levels' levels, hcheck]
      exact hrow levels'

/-- A value that reads as one item and has no unknown fields: an object, or the array of its
    fields. -/
structure IsItem (r : Reader α) (names : List String) (v : Value) : Prop where
  read : ∃ a, r nestingLimit v = .ok a
  known : ∀ members, v = .object members → ∀ m ∈ members, ∃ name ∈ names, m.1.decode = .ok name

/-- A value that reads as the same item wherever it stands, and neither as a list of items nor
    as a text. -/
structure Alone (r : Reader α) (v : Value) : Prop where
  read : ∃ a, ∀ levels, 1 < levels → r levels v = .ok a
  inspect : ∀ levels, 1 < levels → inspect levels v = .ok ()
  no_list : ∀ levels, (sequence r levels v).toOption = none
  no_text : ∀ levels, (text levels v).toOption = none

/-- An array with something that cannot be read is no list. -/
theorem toOption_sequence_of_mem {items : List Value} (hv : v ∈ items)
    (h : ∀ inner, (r inner v).toOption = none) :
    (sequence r levels (.array items)).toOption = none := by
  change (enter levels >>= fun inner => items.mapM (r inner)).toOption = none
  cases enter levels with
  | error fault => rfl
  | ok inner => exact toOption_mapM_of_mem hv (h inner)

section Alone

variable {kind : String} {build : Row → Except ReadFault α}

theorem toOption_record_of_plain (h : Plain v) :
    (record kind fields build levels v).toOption = none := by
  cases h with
  | null => exact toOption_mismatch .null ("struct " ++ kind)
  | @text t _ _ => exact toOption_mismatch (.text t) ("struct " ++ kind)

/-- A record is written as an object or as an array. -/
theorem exists_of_record_eq_ok {a : α} (h : record kind fields build levels v = .ok a) :
    (∃ members, v = .object members) ∨ ∃ items, v = .array items := by
  unfold record at h
  split at h
  · exact .inl ⟨_, rfl⟩
  · exact .inr ⟨_, rfl⟩
  · exact (mismatch_ne_ok h).elim

/-- An array of plain values is no list of records. -/
theorem toOption_sequence_of_plain {items : List Value} (hne : items ≠ [])
    (hplain : ∀ v ∈ items, Plain v) :
    (sequence (record kind fields build) levels (.array items)).toOption = none := by
  obtain ⟨first, hfirst⟩ := List.exists_mem_of_ne_nil items hne
  exact toOption_sequence_of_mem hfirst fun _ => toOption_record_of_plain (hplain first hfirst)

/-- A record of plain values stands alone, if an array of them is not empty. -/
theorem IsItem.alone {f : Field} (hflat : ∀ g ∈ f :: fields, g.Flat) (hfirst : f.defaulted = false)
    (hbuild : ∀ values levels levels', build ⟨values, levels⟩ = build ⟨values, levels'⟩)
    (h : IsItem (record kind (f :: fields) build) ((f :: fields).flatMap Field.names) v) :
    Alone (record kind (f :: fields) build) v := by
  obtain ⟨⟨a, ha⟩, hknown⟩ := h
  have henter : ∀ levels, 1 < levels → enter levels = .ok (levels - 1) := fun levels hlevels =>
    enter_eq (show 0 + 1 < levels from hlevels)
  obtain ⟨members, rfl⟩ | ⟨items, rfl⟩ := exists_of_record_eq_ok ha
  · obtain ⟨_, -, ha⟩ := exists_of_bind_eq_ok ha
    obtain ⟨row, hrow, ha⟩ := exists_of_bind_eq_ok ha
    obtain ⟨hrows, hplain⟩ := rowOfMembers_of_flat hflat hrow
    refine ⟨⟨a, fun levels hlevels => ?_⟩, fun levels hlevels => ?_,
      fun _ => toOption_mismatch (.object members) "a sequence",
      fun _ => toOption_mismatch (.object members) "a string"⟩
    · rw [record, henter levels hlevels]
      change (do build (← rowOfMembers (f :: fields) (levels - 1) [] members)) = _
      rw [hrows]
      exact (hbuild _ _ _).trans ha
    · rw [inspect, henter levels hlevels]
      refine inspectMembers_eq fun m hm => ?_
      obtain ⟨name, hname, ht⟩ := hknown members rfl m hm
      exact ⟨⟨name, ht⟩, (hplain m hm name hname ht).inspect⟩
  · obtain ⟨_, -, ha⟩ := exists_of_bind_eq_ok ha
    obtain ⟨row, hrow, ha⟩ := exists_of_bind_eq_ok ha
    obtain ⟨hrows, hplain⟩ := rowOfItems_of_flat hflat hrow
    have hne : items ≠ [] := by
      rintro rfl
      rw [rowOfItems, hfirst] at hrow
      cases hrow
    refine ⟨⟨a, fun levels hlevels => ?_⟩, fun levels hlevels => ?_,
      fun _ => toOption_sequence_of_plain hne hplain,
      fun _ => toOption_mismatch (.array items) "a string"⟩
    · rw [record, henter levels hlevels]
      change (do build (← rowOfItems _ (levels - 1) [] 0 (f :: fields) items)) = _
      rw [hrows]
      exact (hbuild _ _ _).trans ha
    · rw [inspect, henter levels hlevels]
      exact inspectItems_eq fun v hv => (hplain v hv).inspect

end Alone

theorem flat_of_text (name : String) : (Field.of name text).Flat :=
  Field.flat_of (fun _ _ _ => rfl) plain_of_text

theorem flat_of_optional (name : String) : (Field.of name (optional text)).Flat :=
  Field.flat_of (fun _ _ _ => rfl) plain_of_optional

theorem alone_copy (h : IsItem readCopy ["from", "src", "dst"] v) : Alone readCopy v := by
  refine IsItem.alone ?_ rfl (fun _ _ _ => rfl) h
  simp only [List.forall_mem_cons]
  exact ⟨flat_of_optional _, flat_of_text _, flat_of_text _, nofun⟩

theorem alone_secret (h : IsItem readSecret ["id", "path"] v) : Alone readSecret v := by
  refine IsItem.alone ?_ rfl (fun _ _ _ => rfl) h
  simp only [List.forall_mem_cons]
  exact ⟨flat_of_text _, flat_of_text _, nofun⟩

end ContainerBuild.BuildFile
