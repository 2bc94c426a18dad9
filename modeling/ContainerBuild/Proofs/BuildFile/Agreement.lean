import ContainerBuild.Proofs.BuildFile.RoundTrip

/-!
# Readers that see no difference

A reader may take two values for the same, although they are written differently
(`Agrees`): it finds the same fault in both, or reads results that a function makes
equal. It does so for values in which only a part differs if the reader of the part does:
for objects with a member exchanged (`Agrees.entries`), and for records with the value of
a field exchanged (`Agrees.record`).

The rows that are found in two such records are the same but for the value of the field
(`RowsAgree`), wherever it stands, and so are all faults: what comes before the value is
the same in both, and what comes after it is read alike.
-/

namespace ContainerBuild.BuildFile

open Json (Value RawText)

variable {α β γ δ : Type} {R : Value → Value → Prop} {r : Reader α} {g : α → β}
  {depth levels : Nat} {v v' : Value}

/-! ### Values with a part exchanged -/

/-- Two records that differ in one member with one of some names, or at one place of the
    array. -/
inductive InField (names : List String) (index : Nat) (R : Value → Value → Prop) :
    Value → Value → Prop
  | member (before after : List (RawText × Value)) {t : RawText} {name : String} {v v' : Value}
    (hname : name ∈ names) (ht : t.decode = .ok name) (h : R v v') :
    InField names index R (.object (before ++ (t, v) :: after))
      (.object (before ++ (t, v') :: after))
  | item (before after : List Value) {v v' : Value} (hindex : before.length = index) (h : R v v') :
    InField names index R (.array (before ++ v :: after)) (.array (before ++ v' :: after))

/-- Two objects that differ in the value of one member. -/
inductive InEntry (R : Value → Value → Prop) : Value → Value → Prop
  | intro (before after : List (RawText × Value)) (t : RawText) {v v' : Value} (h : R v v') :
    InEntry R (.object (before ++ (t, v) :: after)) (.object (before ++ (t, v') :: after))

/-! ### Readers -/

/-- A reader makes no difference between two values, but for what a function does not see
    of the results, and looking at the values beforehand does not either. -/
structure Agrees (R : Value → Value → Prop) (r : Reader α) (g : α → β) (depth : Nat) : Prop where
  read : ∀ {v v' levels}, R v v' → depth < levels →
    Agree (fun a a' => g a = g a') (r levels v) (r levels v')
  inspect : ∀ {v v' levels}, R v v' → depth < levels → inspect levels v = inspect levels v'

/-- No difference is seen in two ways of differing if none is seen in either. -/
theorem Agrees.either {R' S : Value → Value → Prop} (h : Agrees R r g depth)
    (h' : Agrees R' r g depth) (hS : ∀ {v v'}, S v v' → R v v' ∨ R' v v') :
    Agrees S r g depth where
  read hv hlevels := (hS hv).elim (h.read · hlevels) (h'.read · hlevels)
  inspect hv hlevels := (hS hv).elim (h.inspect · hlevels) (h'.inspect · hlevels)

theorem forall₂_middle {S : γ → γ → Prop} (hrefl : ∀ a, S a a) (before after : List γ) {a a' : γ}
    (h : S a a') : List.Forall₂ S (before ++ a :: after) (before ++ a' :: after) :=
  List.rel_append (List.forall₂_same.2 fun a _ => hrefl a)
    (.cons h (List.forall₂_same.2 fun a _ => hrefl a))

theorem inspectItems_congr {items items' : List Value}
    (h : List.Forall₂ (fun v v' => inspect levels v = inspect levels v') items items') :
    inspectItems levels items = inspectItems levels items' := by
  induction h with
  | nil => rfl
  | cons hv _ ih => rw [inspectItems, inspectItems, hv, ih]

theorem inspectMembers_congr {members members' : List (RawText × Value)}
    (h : List.Forall₂ (fun m m' => m.1 = m'.1 ∧ inspect levels m.2 = inspect levels m'.2)
      members members') :
    inspectMembers levels members = inspectMembers levels members' := by
  induction h with
  | nil => rfl
  | @cons m m' _ _ hm _ ih =>
    obtain ⟨t, v⟩ := m
    obtain ⟨t', v'⟩ := m'
    obtain ⟨rfl, hv⟩ := hm
    dsimp only at hv
    rw [inspectMembers, inspectMembers, hv, ih]

theorem inspect_member (before after : List (RawText × Value)) (t : RawText)
    (h : ∀ {levels}, depth < levels → inspect levels v = inspect levels v')
    (hlevels : depth + 1 < levels) :
    inspect levels (.object (before ++ (t, v) :: after)) =
      inspect levels (.object (before ++ (t, v') :: after)) := by
  rw [inspect, inspect, enter_eq hlevels]
  exact inspectMembers_congr (forall₂_middle (fun _ => ⟨rfl, rfl⟩) before after
    ⟨rfl, h (by omega)⟩)

theorem Agrees.entries (h : Agrees R r g depth) :
    Agrees (InEntry R) (entries r) (List.map fun m => (m.1, g m.2)) (depth + 1) where
  read := by
    rintro _ _ levels ⟨before, after, t, hv⟩ hlevels
    rw [BuildFile.entries, BuildFile.entries, enter_eq hlevels]
    refine (Agree.mapM (F := fun m m' => (m.1, g m.2) = (m'.1, g m'.2)) ?_).imp fun ms ms' hms => ?_
    · refine forall₂_middle (fun m => ?_) before after ?_
      · exact .kernel_refl (fun m : String × α => (m.1, g m.2)) _
      · exact .same _ fun name => (h.read hv (by omega)).bind fun a a' ha => .ok (by rw [ha])
    · rwa [← List.forall₂_eq_eq_eq, List.forall₂_map_left_iff, List.forall₂_map_right_iff]
  inspect := by
    rintro _ _ levels ⟨before, after, t, hv⟩ hlevels
    exact inspect_member before after t (h.inspect hv) hlevels

/-! ### Records -/

/-- The values that two records have for a field are the same, or, for the field of a name,
    belong together. -/
structure SameBut (name : String) (R : Value → Value → Prop) (m m' : String × Value) : Prop where
  name_eq : m.1 = m'.1
  value : m.2 = m'.2 ∨ m.1 = name ∧ R m.2 m'.2

theorem SameBut.refl {name : String} (m : String × Value) : SameBut name R m m :=
  ⟨rfl, .inl rfl⟩

theorem SameBut.exchanged {name : String} (h : R v v') : SameBut name R (name, v) (name, v') :=
  ⟨rfl, .inr ⟨rfl, h⟩⟩

/-- Two rows that differ in the field of a name. -/
inductive RowsAgree (name : String) (R : Value → Value → Prop) (levels : Nat) : Row → Row → Prop
  | intro {values values' : List (String × Value)} (h : List.Forall₂ (SameBut name R) values values') :
    RowsAgree name R levels ⟨values, levels⟩ ⟨values', levels⟩

section Rows

variable {name : String} {row row' : Row} {values values' done done' : List (String × Value)}

/-- The same fields are found, with values that belong together. -/
theorem lookup_rel (h : List.Forall₂ (SameBut name R) values values') (key : String) :
    Option.Rel (fun v v' => v = v' ∨ key = name ∧ R v v') (values.lookup key)
      (values'.lookup key) := by
  induction h with
  | nil => exact .none
  | @cons m m' _ _ hm _ ih =>
    obtain ⟨key', v⟩ := m
    obtain ⟨_, v'⟩ := m'
    obtain ⟨rfl, hv⟩ := hm
    rw [List.lookup_cons, List.lookup_cons]
    cases hkey : key == key' with
    | false => exact ih
    | true =>
      obtain rfl := beq_iff_eq.1 hkey
      exact .some hv

theorem lookup_eq (h : List.Forall₂ (SameBut name R) values values') {key : String}
    (hkey : key ≠ name) : values.lookup key = values'.lookup key := by
  have hrel := lookup_rel h key
  generalize values.lookup key = x, values'.lookup key = x' at hrel ⊢
  cases hrel with
  | none => rfl
  | some hv => rw [hv.resolve_right fun hv => hkey hv.1]

theorem RowsAgree.required_eq (h : RowsAgree name R levels row row') {key : String}
    (hkey : key ≠ name) (r : Reader γ) : row.required key r = row'.required key r := by
  obtain ⟨hvalues⟩ := h
  rw [Row.required, Row.required, lookup_eq hvalues hkey]

theorem RowsAgree.defaulted_eq (h : RowsAgree name R levels row row') {key : String}
    (hkey : key ≠ name) (r : Reader γ) (default : γ) :
    row.defaulted key r default = row'.defaulted key r default := by
  obtain ⟨hvalues⟩ := h
  rw [Row.defaulted, Row.defaulted, lookup_eq hvalues hkey]

theorem RowsAgree.defaulted (h : RowsAgree name R levels row row') (hr : Agrees R r g depth)
    (hlevels : depth < levels) (default : α) :
    Agree (fun a a' => g a = g a') (row.defaulted name r default)
      (row'.defaulted name r default) := by
  obtain @⟨values, values', hvalues⟩ := h
  rw [Row.defaulted, Row.defaulted]
  have hrel := lookup_rel hvalues name
  generalize values.lookup name = x, values'.lookup name = x' at hrel ⊢
  cases hrel with
  | none => exact .ok rfl
  | some hv =>
    rcases hv with rfl | ⟨-, hv⟩
    · exact .kernel_refl g _
    · exact hr.read hv hlevels

/-- The same fields have been found. -/
theorem isSome_lookup_eq (h : List.Forall₂ (SameBut name R) values values') (key : String) :
    (values.lookup key).isSome = (values'.lookup key).isSome := by
  have hrel := lookup_rel h key
  generalize values.lookup key = x, values'.lookup key = x' at hrel ⊢
  cases hrel <;> rfl

/-- Two objects are found alike if the members behind the first ones are, after both are
    passed over and after both are read. -/
theorem rowOfMembers_cons_agree {fields : List Field} {Q : Row → Row → Prop} {t : RawText}
    {members members' : List (RawText × Value)}
    (hdone : ∀ key, (done.lookup key).isSome = (done'.lookup key).isSome)
    (hunknown : Agree Q (rowOfMembers fields levels done members)
      (rowOfMembers fields levels done' members'))
    (hknown : ∀ key f, decodeText t = .ok key →
      (fields.find? fun f => f.name == key || f.synonym == some key) = some f →
      Agree Q
        (f.check levels v >>= fun _ => rowOfMembers fields levels ((f.name, v) :: done) members)
        (f.check levels v' >>= fun _ =>
          rowOfMembers fields levels ((f.name, v') :: done') members')) :
    Agree Q (rowOfMembers fields levels done ((t, v) :: members))
      (rowOfMembers fields levels done' ((t, v') :: members')) := by
  cases ht : decodeText t with
  | error fault =>
    rw [rowOfMembers_meaningless ht, rowOfMembers_meaningless ht]
    exact .error fault
  | ok key =>
    cases hfind : fields.find? fun f => f.name == key || f.synonym == some key with
    | none =>
      rw [rowOfMembers_unknown ht hfind, rowOfMembers_unknown ht hfind]
      exact hunknown
    | some f =>
      rw [rowOfMembers_known ht hfind, rowOfMembers_known ht hfind, hdone]
      split_ifs
      · exact .error _
      · exact hknown key f ht hfind

/-- The rest of an object is found alike after values that belong together. -/
theorem rowOfMembers_agree {fields : List Field} (hdone : List.Forall₂ (SameBut name R) done done')
    (members : List (RawText × Value)) :
    Agree (RowsAgree name R levels) (rowOfMembers fields levels done members)
      (rowOfMembers fields levels done' members) := by
  induction members generalizing done done' with
  | nil => exact .ok ⟨hdone⟩
  | cons m members ih =>
    exact rowOfMembers_cons_agree (isSome_lookup_eq hdone) (ih hdone)
      fun _ _ _ _ => .same _ fun _ => ih (.cons (.refl _) hdone)

/-- An object is found alike if the value of one field is exchanged for another one. -/
theorem rowOfMembers_exchanged {fields : List Field} {f : Field}
    (hd : (fields.flatMap Field.names).Nodup) (hf : f ∈ fields) {t : RawText} {key : String}
    (hkey : key ∈ f.names) (ht : t.decode = .ok key) (hR : R v v')
    (hcheck : f.check levels v = f.check levels v') (before after : List (RawText × Value))
    (done : List (String × Value)) :
    Agree (RowsAgree f.name R levels) (rowOfMembers fields levels done (before ++ (t, v) :: after))
      (rowOfMembers fields levels done (before ++ (t, v') :: after)) := by
  -- What has been found is the same up to the exchanged value.
  induction before generalizing done with
  | nil =>
    have hdone : List.Forall₂ (SameBut f.name R) done done :=
      List.forall₂_same.2 fun m _ => .refl m
    refine rowOfMembers_cons_agree (fun _ => rfl) (rowOfMembers_agree hdone after) ?_
    intro key' g ht' hfind
    obtain rfl : key = key' := Except.ok.inj ((decodeText_eq ht).symm.trans ht')
    obtain rfl : f = g := Option.some.inj ((find?_eq_of_mem_names hd hf hkey).symm.trans hfind)
    rw [hcheck]
    exact .same _ fun _ => rowOfMembers_agree (.cons (.exchanged hR) hdone) after
  | cons m before ih =>
    exact rowOfMembers_cons_agree (fun _ => rfl) (ih done) fun _ _ _ _ => .same _ fun _ => ih _

/-- The rest of an array is found alike after values that belong together. -/
theorem rowOfItems_agree {expected : String} {count : Nat} {fields : List Field}
    (hdone : List.Forall₂ (SameBut name R) done done') (items : List Value) :
    Agree (RowsAgree name R levels) (rowOfItems expected levels done count fields items)
      (rowOfItems expected levels done' count fields items) := by
  induction fields generalizing done done' count items with
  | nil =>
    cases items with
    | nil => exact .ok ⟨hdone⟩
    | cons => exact .error _
  | cons f fields ih =>
    cases items with
    | nil =>
      rw [rowOfItems, rowOfItems]
      split_ifs
      · exact ih hdone []
      · exact .error _
    | cons v items => exact .same _ fun _ => ih (.cons (.refl _) hdone) items

/-- An array is found alike if the value of one field is exchanged for another one. -/
theorem rowOfItems_exchanged {expected : String} {count : Nat} {fields : List Field} {f : Field}
    {before : List Value} (hf : fields[before.length]? = some f) (hR : R v v')
    (hcheck : f.check levels v = f.check levels v') (after : List Value)
    (done : List (String × Value)) :
    Agree (RowsAgree f.name R levels)
      (rowOfItems expected levels done count fields (before ++ v :: after))
      (rowOfItems expected levels done count fields (before ++ v' :: after)) := by
  induction before generalizing done count fields with
  | nil =>
    obtain ⟨g, fields, rfl⟩ : ∃ g rest, fields = g :: rest := by
      cases fields with
      | nil => cases hf
      | cons g rest => exact ⟨g, rest, rfl⟩
    obtain rfl : g = f := Option.some.inj hf
    rw [List.nil_append, List.nil_append, rowOfItems, rowOfItems, hcheck]
    refine .same _ fun _ => rowOfItems_agree (.cons (.exchanged hR) ?_) after
    exact List.forall₂_same.2 fun m _ => .refl m
  | cons u before ih =>
    cases fields with
    | nil => cases hf
    | cons g fields => exact .same _ fun _ => ih hf _

end Rows

/-- A reader of records makes no difference between two records if that of one field makes
    none between its values, and neither does what is made of the fields. -/
theorem Agrees.record {kind name : String} {synonym : Option String} {defaulted : Bool}
    {fields : List Field} {build : Row → Except ReadFault γ} {g' : γ → δ} {names : List String}
    {index : Nat} (h : Agrees R r g depth) (hd : (fields.flatMap Field.names).Nodup)
    (hf : fields[index]? = some (.of name r synonym defaulted))
    (hnames : names ⊆ name :: synonym.toList)
    (hbuild : ∀ {levels row row'}, depth < levels → RowsAgree name R levels row row' →
      Agree (fun c c' => g' c = g' c') (build row) (build row')) :
    Agrees (InField names index R) (record kind fields build) g' (depth + 1) where
  read := by
    rintro _ _ levels hfield hlevels
    have hcheck : ∀ {v v'}, R v v' →
        (Field.of name r synonym defaulted).check (levels - 1) v =
          (Field.of name r synonym defaulted).check (levels - 1) v' := fun hv =>
      (h.read hv (by omega)).map_eq fun _ _ _ => rfl
    cases hfield with
    | member before after hname ht hv =>
      rw [BuildFile.record, BuildFile.record, enter_eq hlevels]
      exact (rowOfMembers_exchanged hd (List.mem_of_getElem? hf) (hnames hname) ht hv (hcheck hv)
        before after []).bind fun _ _ hrow => hbuild (by omega) hrow
    | item before after hindex hv =>
      subst hindex
      rw [BuildFile.record, BuildFile.record, enter_eq hlevels]
      exact (rowOfItems_exchanged hf hv (hcheck hv) after []).bind fun _ _ hrow =>
        hbuild (by omega) hrow
  inspect := by
    rintro _ _ levels hfield hlevels
    cases hfield with
    | member before after _ _ hv => exact inspect_member before after _ (h.inspect hv) hlevels
    | item before after _ hv =>
      rw [BuildFile.inspect, BuildFile.inspect, enter_eq hlevels]
      refine inspectItems_congr (forall₂_middle (fun _ => ?_) before after ?_)
      · rfl
      · exact h.inspect hv (by omega)

end ContainerBuild.BuildFile
