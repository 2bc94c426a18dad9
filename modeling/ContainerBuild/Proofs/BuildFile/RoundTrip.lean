import ContainerBuild.BuildFile.Source
import ContainerBuild.Proofs.BuildFile.Writing
import ContainerBuild.Proofs.Json.Exactness
import ContainerBuild.Proofs.Outcome
import ContainerBuild.Proofs.Text.Utf8

/-!
# Written build files are read back

Whatever text writes a build file, the build file is read from it
(`BuildFile.load_written`).

A reader reads a form (`Reads`) if it takes whatever is written in the form to what has
been written, where enough levels may be entered. Readers are put together, and so are the
proofs of what they read: for lists and entries (`Reads.sequence`, `Reads.entries`), for
values that are an array or else an object (`Reads.alternatives`), and for records
(`reads_record`).

* The members of a record may come in any order, since no two fields share a name
  (`rowOfMembers_of_members`).
* A value that may take several forms is looked at whole before it is read. `Reads` says
  that this finds no fault, which is why it is said along with the reading.
-/

namespace ContainerBuild.BuildFile

open Json (Value RawText)
open Form

variable {α : Type} {r : Reader α} {W : Form α} {depth levels : Nat}

/-! ### Readers -/

/-- A reader reads back what is written in a form, wherever `depth` more levels may be
    entered, and no fault is found by looking at it beforehand. -/
structure Reads (r : Reader α) (W : Form α) (depth : Nat) : Prop where
  read : ∀ {a v levels}, W a v → depth < levels → r levels v = .ok a
  inspect : ∀ {a v levels}, W a v → depth < levels → inspect levels v = .ok ()
  ne_null : ∀ {a v}, W a v → v ≠ .null

theorem Reads.mono {depth' : Nat} (h : Reads r W depth) (hle : depth ≤ depth') :
    Reads r W depth' where
  read hv hlevels := h.read hv (by omega)
  inspect hv hlevels := h.inspect hv (by omega)
  ne_null := h.ne_null

theorem enter_eq (h : depth + 1 < levels) : enter levels = .ok (levels - 1) := by
  rw [enter, if_neg (by omega)]

theorem decodeText_eq {t : RawText} {s : String} (h : t.decode = .ok s) :
    decodeText t = .ok s := by
  rw [decodeText, h]

theorem reads_text : Reads text Text 0 where
  read := by
    rintro s _ levels ⟨h⟩ -
    exact decodeText_eq h
  inspect := by
    rintro s _ levels ⟨h⟩ -
    rw [BuildFile.inspect, decodeText_eq h]
    rfl
  ne_null := by
    rintro s _ ⟨h⟩
    exact nofun

theorem inspectItems_eq {items : List Value} (h : ∀ v ∈ items, inspect levels v = .ok ()) :
    inspectItems levels items = .ok () := by
  induction items with
  | nil => rfl
  | cons v items ih =>
    rw [List.forall_mem_cons] at h
    rw [inspectItems, h.1]
    exact ih h.2

theorem inspectMembers_eq {members : List (RawText × Value)}
    (h : ∀ m ∈ members, (∃ s, m.1.decode = .ok s) ∧ inspect levels m.2 = .ok ()) :
    inspectMembers levels members = .ok () := by
  induction members with
  | nil => rfl
  | cons m members ih =>
    rw [List.forall_mem_cons] at h
    obtain ⟨⟨⟨s, hs⟩, hv⟩, hrest⟩ := h
    rw [inspectMembers, decodeText_eq hs, hv]
    exact ih hrest

theorem Reads.sequence (h : Reads r W depth) :
    Reads (sequence r) (Sequence W) (depth + 1) where
  read := by
    rintro as _ levels ⟨hitems⟩ hlevels
    rw [BuildFile.sequence, enter_eq hlevels]
    exact mapM_eq_ok (hitems.imp fun a v hv => h.read hv (by omega))
  inspect := by
    rintro as _ levels ⟨hitems⟩ hlevels
    rw [BuildFile.inspect, enter_eq hlevels]
    refine inspectItems_eq fun v hv => ?_
    obtain ⟨a, -, ha⟩ := exists_of_mem_right hitems hv
    exact h.inspect ha (by omega)
  ne_null := by
    rintro as _ ⟨hitems⟩
    exact nofun

theorem Reads.entries (h : Reads r W depth) : Reads (entries r) (Entries W) (depth + 1) where
  read := by
    rintro as _ levels ⟨hmembers⟩ hlevels
    rw [BuildFile.entries, enter_eq hlevels]
    refine mapM_eq_ok (hmembers.imp fun a m hm => ?_)
    obtain ⟨name, v⟩ := m
    dsimp only at hm ⊢
    rw [decodeText_eq hm.1, h.read hm.2 (by omega)]
    rfl
  inspect := by
    rintro as _ levels ⟨hmembers⟩ hlevels
    rw [BuildFile.inspect, enter_eq hlevels]
    refine inspectMembers_eq fun m hm => ?_
    obtain ⟨a, -, hname, ha⟩ := exists_of_mem_right hmembers hm
    exact ⟨⟨_, hname⟩, h.inspect ha (by omega)⟩
  ne_null := by
    rintro as _ ⟨hmembers⟩
    exact nofun

/-- A value that is either an array or an object is read back if both are, although the
    array is tried first. -/
theorem Reads.alternatives {β γ : Type} {kind : String} {r' : Reader β} {W' : Form β} {F : Form γ}
    {f : List α → γ} {g : β → γ} (h : Reads r W depth) (h' : Reads r' W' (depth + 1))
    (hobject : ∀ {b v}, W' b v → ∃ members, v = .object members)
    (hF : ∀ {c v}, F c v → (∃ as, c = f as ∧ Sequence W as v) ∨ ∃ b, c = g b ∧ W' b v) :
    Reads (alternatives kind
      [fun levels v => (BuildFile.sequence r levels v).map f,
       fun levels v => (r' levels v).map g]) F (depth + 1) := by
  have hinspect : ∀ {c v levels}, F c v → depth + 1 < levels →
      BuildFile.inspect levels v = .ok () := by
    intro c v levels hv hlevels
    rcases hF hv with ⟨as, -, hv⟩ | ⟨b, -, hv⟩
    · exact h.sequence.inspect hv hlevels
    · exact h'.inspect hv hlevels
  refine ⟨fun {c v levels} hv hlevels => ?_, hinspect, fun hv => ?_⟩
  · rw [BuildFile.alternatives, hinspect hv hlevels]
    obtain ⟨as, rfl, has⟩ | ⟨b, rfl, hb⟩ := hF hv
    · have hsequence := h.sequence.read has hlevels
      simp only [List.findSome?, hsequence, Except.map, Except.toOption]
      rfl
    · -- The array is tried first, but an object is none.
      obtain ⟨members, rfl⟩ := hobject hb
      have hsequence : BuildFile.sequence r levels (.object members) =
          .error (.wrongShape .map "a sequence") := rfl
      simp only [List.findSome?, hsequence, h'.read hb hlevels, Except.map, Except.toOption]
      rfl
  · rcases hF hv with ⟨as, -, hv⟩ | ⟨b, -, hv⟩
    · exact h.sequence.ne_null hv
    · exact h'.ne_null hv

theorem Reads.items (h : Reads r W depth)
    (hobject : ∀ {a v}, W a v → ∃ members, v = .object members) :
    Reads (oneOrMany r) (Items W) (depth + 1) := by
  refine h.alternatives (h.mono (Nat.le_succ depth)) hobject fun hv => ?_
  rcases hv with hv | hv
  · exact .inr ⟨_, rfl, hv⟩
  · exact .inl ⟨_, rfl, hv⟩

/-! ### Records -/

/-- The names of a field. -/
def Field.names (f : Field) : List String :=
  f.name :: f.synonym.toList

/-- What is written for a field is found under its names, without any fault. -/
structure Fits (levels : Nat) (f : Field) (s : Slot) : Prop where
  names : s.names = f.names
  check : ∀ v, s.holds (some v) → f.check levels v = .ok ()
  inspect : ∀ v, s.holds (some v) → inspect levels v = .ok ()

theorem map_name_sublist (fields : List Field) :
    (fields.map (·.name)).Sublist (fields.flatMap Field.names) := by
  induction fields with
  | nil => exact .slnil
  | cons f fields ih => exact .cons_cons f.name (List.sublist_append_of_sublist_right ih)

theorem Field.matches_iff {f : Field} {name : String} :
    (f.name == name || f.synonym == some name) = true ↔ name ∈ f.names := by
  simp [names, eq_comm (a := name)]

/-- A field is found under each of its names if no other one has it. -/
theorem find?_eq_of_mem_names {fields : List Field} (hd : (fields.flatMap Field.names).Nodup)
    {f : Field} (hf : f ∈ fields) {name : String} (hname : name ∈ f.names) :
    (fields.find? fun f => f.name == name || f.synonym == some name) = some f := by
  induction fields with
  | nil => exact absurd hf List.not_mem_nil
  | cons g fields ih =>
    rw [List.flatMap_cons, List.nodup_append] at hd
    obtain ⟨-, hd, hdisjoint⟩ := hd
    rcases List.mem_cons.1 hf with rfl | hf
    · exact List.find?_cons_of_pos (Field.matches_iff.2 hname)
    · have hg : name ∉ g.names :=
        fun hg => hdisjoint name hg name (List.mem_flatMap.2 ⟨f, hf, hname⟩) rfl
      refine Eq.trans (List.find?_cons_of_neg ?_) (ih hd hf)
      exact mt Field.matches_iff.1 hg

/-- The name by which a reader knows a member. -/
def keyOf (fields : List Field) (t : RawText) : String :=
  match t.decode with
  | .ok name =>
    ((fields.find? fun f => f.name == name || f.synonym == some name).map (·.name)).getD ""
  | .error _ => ""

/-- A member is known by the name of its field. -/
theorem keyOf_eq {fields : List Field} (hd : (fields.flatMap Field.names).Nodup) {f : Field}
    (hf : f ∈ fields) {name : String} (hname : name ∈ f.names) {t : RawText}
    (ht : t.decode = .ok name) : keyOf fields t = f.name := by
  rw [keyOf, ht]
  dsimp only
  rw [find?_eq_of_mem_names hd hf hname]
  rfl

/-- The members of an object, as they are found. -/
def keyed (fields : List Field) (members : List (RawText × Value)) : List (String × Value) :=
  members.map fun m => (keyOf fields m.1, m.2)

theorem keyed_cons {fields : List Field} (hd : (fields.flatMap Field.names).Nodup) {f : Field}
    (hf : f ∈ fields) {name : String} (hname : name ∈ f.names) {t : RawText}
    (ht : t.decode = .ok name) (v : Value) (members : List (RawText × Value)) :
    keyed fields ((t, v) :: members) = (f.name, v) :: keyed fields members := by
  rw [keyed, List.map_cons, keyOf_eq hd hf hname ht]
  rfl

theorem lookup_eq_none {β : Type} {l : List (String × β)} {name : String}
    (h : name ∉ l.map (·.1)) : l.lookup name = none := by
  rw [List.lookup_eq_none_iff]
  intro m hm
  rw [bne_iff_ne]
  rintro rfl
  exact h (List.mem_map.2 ⟨m, hm, rfl⟩)

theorem lookup_perm {β : Type} {l l' : List (String × β)} (h : l.Perm l')
    (hd : (l.map (·.1)).Nodup) (name : String) : l.lookup name = l'.lookup name := by
  induction h with
  | nil => rfl
  | cons x _ ih =>
    rw [List.map_cons, List.nodup_cons] at hd
    rw [List.lookup_cons, List.lookup_cons, ih hd.2]
  | swap x y l =>
    rw [List.map_cons, List.map_cons, List.nodup_cons, List.mem_cons, not_or] at hd
    obtain ⟨a, _⟩ := x
    obtain ⟨b, _⟩ := y
    simp only [List.lookup_cons]
    cases hx : name == a <;> cases hy : name == b
    case true.true => exact absurd ((beq_iff_eq.1 hy).symm.trans (beq_iff_eq.1 hx)) hd.1.1
    all_goals rfl
  | trans h _ ih ih' => exact (ih hd).trans (ih' ((h.map _).nodup_iff.1 hd))

section Cons

variable {fields : List Field} {t : RawText} {name : String} {v : Value}
  {done : List (String × Value)} {members : List (RawText × Value)}

/-- The name of a member must have a meaning. -/
theorem rowOfMembers_meaningless {fault : ReadFault} (ht : decodeText t = .error fault) :
    rowOfMembers fields levels done ((t, v) :: members) = .error fault := by
  simp only [rowOfMembers, ht, bind, Except.bind]

/-- A member that no field has the name of is passed over. -/
theorem rowOfMembers_unknown (ht : decodeText t = .ok name)
    (hf : (fields.find? fun f => f.name == name || f.synonym == some name) = none) :
    rowOfMembers fields levels done ((t, v) :: members) =
      rowOfMembers fields levels done members := by
  simp only [rowOfMembers, ht, bind, Except.bind, hf]

/-- A member of a field is read, unless the field has been met. -/
theorem rowOfMembers_known {f : Field} (ht : decodeText t = .ok name)
    (hf : (fields.find? fun f => f.name == name || f.synonym == some name) = some f) :
    rowOfMembers fields levels done ((t, v) :: members) =
      if (done.lookup f.name).isSome then .error (.duplicateField f.name)
      else f.check levels v >>= fun _ =>
        rowOfMembers fields levels ((f.name, v) :: done) members := by
  simp only [rowOfMembers, ht, bind, Except.bind, hf]

end Cons

/-- A member is found if its field is one that has not been met yet. -/
theorem rowOfMembers_cons {fields : List Field} {f : Field} {t : RawText} {name : String}
    {v : Value} {done : List (String × Value)} (members : List (RawText × Value))
    (ht : t.decode = .ok name)
    (hf : (fields.find? fun f => f.name == name || f.synonym == some name) = some f)
    (hnew : done.lookup f.name = none) (hcheck : f.check levels v = .ok ()) :
    rowOfMembers fields levels done ((t, v) :: members) =
      rowOfMembers fields levels ((f.name, v) :: done) members := by
  rw [rowOfMembers_known (decodeText_eq ht) hf, hnew, hcheck]
  rfl

theorem rowOfMembers_eq {fields : List Field} (hd : (fields.flatMap Field.names).Nodup)
    {members : List (RawText × Value)}
    (h : ∀ m ∈ members, ∃ f ∈ fields, (∃ name ∈ f.names, m.1.decode = .ok name) ∧
      f.check levels m.2 = .ok ())
    (done : List (String × Value))
    (hdone : ((keyed fields members).map (·.1) ++ done.map (·.1)).Nodup) :
    rowOfMembers fields levels done members =
      .ok ⟨(keyed fields members).reverse ++ done, levels⟩ := by
  induction members generalizing done with
  | nil => rfl
  | cons m members ih =>
    obtain ⟨t, v⟩ := m
    obtain ⟨⟨f, hf, ⟨name, hname, ht⟩, hcheck⟩, hmembers⟩ := List.forall_mem_cons.1 h
    rw [keyed_cons hd hf hname ht] at hdone ⊢
    rw [List.map_cons, List.cons_append, List.nodup_cons, List.mem_append, not_or] at hdone
    obtain ⟨⟨hfirst, hnew⟩, hdone⟩ := hdone
    have hrest := ih hmembers ((f.name, v) :: done) (by
      rw [List.map_cons]
      exact List.perm_middle.nodup_iff.2 (List.nodup_cons.2 ⟨by simp [hfirst, hnew], hdone⟩))
    rw [rowOfMembers_cons members ht (find?_eq_of_mem_names hd hf hname) (lookup_eq_none hnew)
      hcheck, List.reverse_cons, List.append_assoc]
    exact hrest

section Records

variable {fields all : List Field} {slots : List Slot} {members : List (RawText × Value)}

/-- Each member that is written for a field is found. -/
theorem Members.exists_field (h : Members slots members)
    (hfits : List.Forall₂ (Fits levels) fields slots) :
    ∀ m ∈ members, ∃ f ∈ fields, (∃ name ∈ f.names, m.1.decode = .ok name) ∧
      f.check levels m.2 = .ok () ∧ inspect levels m.2 = .ok () := by
  induction h generalizing fields with
  | nil => exact nofun
  | absent _ _ ih =>
    cases hfits with
    | cons _ hrest =>
      intro m hm
      obtain ⟨f, hf, hm⟩ := ih hrest m hm
      exact ⟨f, List.mem_cons_of_mem _ hf, hm⟩
  | present hname ht hs _ ih =>
    cases hfits with
    | cons hfit hrest =>
      intro m hm
      rcases List.mem_cons.1 hm with rfl | hm
      · exact ⟨_, List.mem_cons_self, ⟨_, hfit.names ▸ hname, ht⟩, hfit.check _ hs,
          hfit.inspect _ hs⟩
      · obtain ⟨f, hf, hm⟩ := ih hrest m hm
        exact ⟨f, List.mem_cons_of_mem _ hf, hm⟩

/-- The members are known by the names of fields. -/
theorem Members.keyed_sublist (hd : (all.flatMap Field.names).Nodup) (hall : ∀ f ∈ fields, f ∈ all)
    (h : Members slots members) (hfits : List.Forall₂ (Fits levels) fields slots) :
    ((keyed all members).map (·.1)).Sublist (fields.map (·.name)) := by
  induction h generalizing fields with
  | nil => exact List.nil_sublist _
  | absent _ _ ih =>
    cases hfits with
    | cons _ hrest =>
      exact (ih (fun f hf => hall f (List.mem_cons_of_mem _ hf)) hrest).cons _
  | present hname ht _ _ ih =>
    cases hfits with
    | @cons f _ _ _ hfit hrest =>
      obtain ⟨hf, hall⟩ := List.forall_mem_cons.1 hall
      rw [keyed_cons hd hf (hfit.names ▸ hname) ht]
      exact (ih hall hrest).cons_cons f.name

/-- For each field there stands what may. -/
theorem Members.holds_lookup (hd : (all.flatMap Field.names).Nodup) (hall : ∀ f ∈ fields, f ∈ all)
    (hnames : (fields.map (·.name)).Nodup) (h : Members slots members)
    (hfits : List.Forall₂ (Fits levels) fields slots) {values : List (String × Value)}
    (hvalues : ∀ f ∈ fields, values.lookup f.name = (keyed all members).lookup f.name) :
    List.Forall₂ (fun f s => s.holds (values.lookup f.name)) fields slots := by
  induction h generalizing fields with
  | nil =>
    cases hfits
    exact .nil
  | absent hs h ih =>
    cases hfits with
    | cons hfit hrest =>
      obtain ⟨hvalue, hvalues⟩ := List.forall_mem_cons.1 hvalues
      obtain ⟨-, hall⟩ := List.forall_mem_cons.1 hall
      rw [List.map_cons, List.nodup_cons] at hnames
      refine .cons ?_ (ih hall hnames.2 hrest hvalues)
      -- The other members are known by the names of other fields.
      rw [hvalue, lookup_eq_none fun hmem => hnames.1 ((h.keyed_sublist hd hall hrest).subset hmem)]
      exact hs
  | present hname ht hs _ ih =>
    cases hfits with
    | @cons f _ _ _ hfit hrest =>
      obtain ⟨hvalue, hvalues⟩ := List.forall_mem_cons.1 hvalues
      obtain ⟨hf, hall⟩ := List.forall_mem_cons.1 hall
      rw [List.map_cons, List.nodup_cons] at hnames
      have hkeyed := keyed_cons hd hf (hfit.names ▸ hname) ht
      refine .cons ?_ (ih hall hnames.2 hrest fun f' hf' => ?_)
      · rw [hvalue, hkeyed, List.lookup_cons_self]
        exact hs
      · have hne : f'.name ≠ f.name := fun heq => hnames.1 (heq ▸ List.mem_map_of_mem hf')
        rw [hvalues f' hf', hkeyed, List.lookup_cons, beq_false_of_ne hne]

/-- The members of an object are found whatever order they come in, and what stands for
    each field is what may. -/
theorem rowOfMembers_of_members (hd : (fields.flatMap Field.names).Nodup)
    (h : Members slots members) (hfits : List.Forall₂ (Fits levels) fields slots)
    {written : List (RawText × Value)} (hperm : written.Perm members) :
    ∃ values, rowOfMembers fields levels [] written = .ok ⟨values, levels⟩ ∧
      List.Forall₂ (fun f s => s.holds (values.lookup f.name)) fields slots := by
  have hnames : (fields.map (·.name)).Nodup := (map_name_sublist fields).nodup hd
  have hkeys : ((keyed fields members).map (·.1)).Nodup :=
    (h.keyed_sublist hd (fun _ hf => hf) hfits).nodup hnames
  have hkeyed : (keyed fields written).Perm (keyed fields members) := hperm.map _
  have hkeys' : ((keyed fields written).map (·.1)).Nodup := (hkeyed.map _).nodup_iff.2 hkeys
  refine ⟨(keyed fields written).reverse, ?_, ?_⟩
  · have hfound : ∀ m ∈ written, ∃ f ∈ fields, (∃ name ∈ f.names, m.1.decode = .ok name) ∧
        f.check levels m.2 = .ok () := by
      intro m hm
      obtain ⟨f, hf, hname, hcheck, -⟩ := h.exists_field hfits m (hperm.mem_iff.1 hm)
      exact ⟨f, hf, hname, hcheck⟩
    have hrow := rowOfMembers_eq hd hfound [] (by simpa using hkeys')
    rwa [List.append_nil] at hrow
  · -- A row has the latest member first and keeps the written order, which no lookup sees.
    refine h.holds_lookup hd (fun _ hf => hf) hnames hfits fun f _ => ?_
    rw [← lookup_perm (List.reverse_perm _).symm hkeys', lookup_perm hkeyed hkeys']

/-- A record is read back if what is written for its fields is. -/
theorem reads_record {kind : String} {build : Row → Except ReadFault α} {slots : α → List Slot}
    (hd : (fields.flatMap Field.names).Nodup)
    (hfits : ∀ a levels, depth < levels → List.Forall₂ (Fits levels) fields (slots a))
    (hbuild : ∀ a row, depth < row.levels →
      List.Forall₂ (fun f s => s.holds (row.values.lookup f.name)) fields (slots a) →
      build row = .ok a) :
    Reads (record kind fields build) (fun a => Object (slots a)) (depth + 1) where
  read := by
    rintro a _ levels ⟨hmembers, hperm⟩ hlevels
    have hinner : depth < levels - 1 := by omega
    obtain ⟨values, hrow, hvalues⟩ :=
      rowOfMembers_of_members hd hmembers (hfits a (levels - 1) hinner) hperm
    rw [record, enter_eq hlevels]
    change (do build (← rowOfMembers fields (levels - 1) [] _)) = _
    rw [hrow]
    exact hbuild a _ hinner hvalues
  inspect := by
    rintro a _ levels ⟨hmembers, hperm⟩ hlevels
    have hinner : depth < levels - 1 := by omega
    rw [BuildFile.inspect, enter_eq hlevels]
    refine inspectMembers_eq fun m hm => ?_
    obtain ⟨f, -, ⟨name, -, hname⟩, -, hinspect⟩ :=
      hmembers.exists_field (hfits a (levels - 1) hinner) m (hperm.mem_iff.1 hm)
    exact ⟨⟨name, hname⟩, hinspect⟩
  ne_null := by
    rintro a _ ⟨-, -⟩
    exact nofun

end Records

/-! ### Fields of records -/

theorem Reads.optional_eq (h : Reads r W depth) (hlevels : depth < levels) {a : α} {v : Value}
    (hv : W a v) : optional r levels v = .ok (some a) := by
  have hread : ∀ v, v ≠ .null → optional r levels v = (r levels v).map some := by
    intro v hv
    cases v <;> first | exact absurd rfl hv | rfl
  rw [hread v (h.ne_null hv), h.read hv hlevels]
  rfl

theorem Field.check_of (name : String) (synonym : Option String) (defaulted : Bool) (v : Value) :
    (Field.of name r synonym defaulted).check levels v = (r levels v).map fun _ => () :=
  rfl

theorem Reads.fits_required (h : Reads r W depth) (hlevels : depth < levels) (name : String)
    (a : α) : Fits levels (.of name r) (.required name W a) where
  names := rfl
  check := by
    intro v hv
    rw [Field.check_of, h.read hv hlevels]
    rfl
  inspect := fun _ hv => h.inspect hv hlevels

theorem Reads.fits_optional (h : Reads r W depth) (hlevels : depth < levels) (name : String)
    (a? : Option α) : Fits levels (.of name (BuildFile.optional r)) (.optional name W a?) where
  names := rfl
  check := by
    intro v hv
    cases a? with
    | none =>
      obtain rfl : v = .null := hv
      rfl
    | some a =>
      rw [Field.check_of, h.optional_eq hlevels hv]
      rfl
  inspect := by
    intro v hv
    cases a? with
    | none =>
      obtain rfl : v = .null := hv
      rfl
    | some a => exact h.inspect hv hlevels

theorem Reads.fits_defaulted (h : Reads r W depth) (hlevels : depth < levels) (name : String)
    (synonym : Option String) (default a : α) :
    Fits levels (.of name r synonym true) (.defaulted (name :: synonym.toList) W default a) where
  names := rfl
  check := by
    intro v hv
    rw [Field.check_of, h.read hv hlevels]
    rfl
  inspect := fun _ hv => h.inspect hv hlevels

section Rows

variable {row : Row} {name : String} {a : α}

theorem Reads.required_eq (h : Reads r W depth) (hlevels : depth < row.levels)
    (hholds : (Slot.required name W a).holds (row.values.lookup name)) :
    row.required name r = .ok a := by
  rw [Row.required]
  cases hlookup : row.values.lookup name with
  | none =>
    rw [hlookup] at hholds
    exact hholds.elim
  | some v =>
    rw [hlookup] at hholds
    exact h.read hholds hlevels

theorem Reads.defaulted_eq (h : Reads r W depth) (hlevels : depth < row.levels)
    {names : List String} {default : α}
    (hholds : (Slot.defaulted names W default a).holds (row.values.lookup name)) :
    row.defaulted name r default = .ok a := by
  rw [Row.defaulted]
  cases hlookup : row.values.lookup name with
  | none =>
    rw [hlookup] at hholds
    exact congrArg Except.ok hholds.symm
  | some v =>
    rw [hlookup] at hholds
    exact h.read hholds hlevels

theorem Reads.rowOptional_eq (h : Reads r W depth) (hlevels : depth < row.levels) {a? : Option α}
    (hholds : (Slot.optional name W a?).holds (row.values.lookup name)) :
    row.optional name r = .ok a? := by
  rw [Row.optional, Row.defaulted]
  cases hlookup : row.values.lookup name with
  | none =>
    rw [hlookup] at hholds
    exact congrArg Except.ok hholds.symm
  | some v =>
    rw [hlookup] at hholds
    cases a? with
    | none =>
      obtain rfl : v = .null := hholds
      rfl
    | some a => exact h.optional_eq hlevels hholds

end Rows

/-! ### Build files -/

/-- A record of two texts. -/
theorem reads_texts {kind name name' : String} (hne : name ≠ name') {make : String → String → α}
    {first second : α → String} (hmake : ∀ a, make (first a) (second a) = a) :
    Reads
      (record kind [.of name text, .of name' text] fun row => do
        return make (← row.required name text) (← row.required name' text))
      (fun a => Object [.required name Text (first a), .required name' Text (second a)]) 1 := by
  refine reads_record (by simpa [Field.names, Field.of] using hne) (fun a levels h => ?_)
    fun a row h hrow => ?_
  · exact .cons (reads_text.fits_required h _ _) (.cons (reads_text.fits_required h _ _) .nil)
  · simp only [List.forall₂_cons, Field.of] at hrow
    obtain ⟨hfirst, hsecond, -⟩ := hrow
    rw [reads_text.required_eq h hfirst, reads_text.required_eq h hsecond]
    exact congrArg Except.ok (hmake a)

theorem reads_cache : Reads readCache CacheMount.Written 1 :=
  reads_texts (by decide) fun _ => rfl

theorem reads_secret : Reads readSecret SecretMount.Written 1 :=
  reads_texts (by decide) fun _ => rfl

theorem reads_output : Reads readOutput Output.Written 1 :=
  reads_texts (by decide) fun _ => rfl

theorem reads_copy : Reads readCopy Copy.Written 1 := by
  refine reads_record (by decide) (fun c levels h => ?_) fun c row h hrow => ?_
  · exact .cons (reads_text.fits_optional h _ _) (.cons (reads_text.fits_required h _ _)
      (.cons (reads_text.fits_required h _ _) .nil))
  · simp only [List.forall₂_cons, Field.of] at hrow
    obtain ⟨hfrom, hsrc, hdst, -⟩ := hrow
    rw [reads_text.rowOptional_eq h hfrom, reads_text.required_eq h hsrc,
      reads_text.required_eq h hdst]
    rfl

theorem reads_ssh : Reads readSsh SshWritten 1 :=
  reads_record (by decide) (fun _ _ _ => .nil) fun _ _ _ _ => rfl

theorem isSome_sshRequest (ssh : Bool) : (sshRequest ssh).isSome = ssh := by
  cases ssh <;> rfl

theorem exists_of_object {slots : List Slot} {v : Value} (h : Object slots v) :
    ∃ members, v = .object members := by
  obtain ⟨-, -⟩ := h
  exact ⟨_, rfl⟩

theorem reads_target : Reads readTarget Target.Written 3 := by
  refine reads_record (by decide) (fun t levels h => ?_) fun t row h hrow => ?_
  · exact .cons (reads_text.fits_optional (by omega) _ _) <|
      .cons (reads_text.sequence.fits_defaulted (by omega) _ none _ _) <|
      .cons (reads_text.entries.fits_defaulted (by omega) _ none _ _) <|
      .cons (reads_text.fits_optional (by omega) _ _) <|
      .cons (reads_ssh.fits_optional (by omega) _ _) <|
      .cons (reads_cache.sequence.fits_defaulted h _ none _ _) <|
      .cons ((reads_copy.items exists_of_object).fits_defaulted h _ none _ _) <|
      .cons ((reads_secret.items exists_of_object).fits_defaulted h _ (some "secrets") _ _) <|
      .cons (reads_text.fits_optional (by omega) _ _) <|
      .cons (reads_text.fits_defaulted (by omega) _ none _ _) <|
      .cons (reads_text.fits_optional (by omega) _ _) <|
      .cons (reads_output.fits_optional (by omega) _ _) .nil
  · simp only [List.forall₂_cons, Field.of] at hrow
    obtain ⟨hfrom, hdependsOn, henv, hcommand, hssh, hcache, hcopy, hsecret, hplatform, hworkdir,
      hnetwork, houtput, -⟩ := hrow
    rw [reads_text.rowOptional_eq (by omega) hfrom,
      reads_text.sequence.defaulted_eq (by omega) hdependsOn,
      reads_text.entries.defaulted_eq (by omega) henv,
      reads_text.rowOptional_eq (by omega) hcommand,
      reads_ssh.rowOptional_eq (by omega) hssh,
      reads_cache.sequence.defaulted_eq h hcache,
      (reads_copy.items exists_of_object).defaulted_eq h hcopy,
      (reads_secret.items exists_of_object).defaulted_eq h hsecret,
      reads_text.rowOptional_eq (by omega) hplatform,
      reads_text.defaulted_eq (by omega) hworkdir,
      reads_text.rowOptional_eq (by omega) hnetwork,
      reads_output.rowOptional_eq (by omega) houtput]
    change Except.ok { t with ssh := (sshRequest t.ssh).isSome } = _
    rw [isSome_sshRequest]

theorem reads_entry : Reads readEntry Entry.Written 3 := by
  refine (reads_text.mono (Nat.zero_le 2)).alternatives reads_target exists_of_object
    fun hv => ?_
  rcases hv with hv | hv
  · exact .inl ⟨_, rfl, hv⟩
  · exact .inr ⟨_, rfl, hv⟩

theorem reads_var : Reads readVar Var.Written 3 := by
  refine reads_record (by decide) (fun x levels h => ?_) fun x row h hrow => ?_
  · exact .cons (reads_text.fits_required (by omega) _ _) <|
      .cons (reads_text.fits_optional (by omega) _ _) <|
      .cons (reads_text.fits_defaulted (by omega) _ none _ _) <|
      .cons (reads_text.entries.fits_defaulted (by omega) _ none _ _) <|
      .cons (reads_cache.sequence.fits_defaulted h _ none _ _) <|
      .cons ((reads_copy.items exists_of_object).fits_defaulted h _ none _ _) <|
      .cons ((reads_secret.items exists_of_object).fits_defaulted h _ (some "secret") _ _) <|
      .cons (reads_text.fits_optional (by omega) _ _) <|
      .cons (reads_ssh.fits_optional (by omega) _ _) <|
      .cons (reads_text.fits_required (by omega) _ _) .nil
  · simp only [List.forall₂_cons, Field.of] at hrow
    obtain ⟨hfrom, hplatform, hworkdir, henv, hcache, hcopy, hsecrets, hnetwork, hssh, hcommand,
      -⟩ := hrow
    rw [reads_text.required_eq (by omega) hfrom,
      reads_text.rowOptional_eq (by omega) hplatform,
      reads_text.defaulted_eq (by omega) hworkdir,
      reads_text.entries.defaulted_eq (by omega) henv,
      reads_cache.sequence.defaulted_eq h hcache,
      (reads_copy.items exists_of_object).defaulted_eq h hcopy,
      (reads_secret.items exists_of_object).defaulted_eq h hsecrets,
      reads_text.rowOptional_eq (by omega) hnetwork,
      reads_ssh.rowOptional_eq (by omega) hssh,
      reads_text.required_eq (by omega) hcommand]
    change Except.ok { x with ssh := (sshRequest x.ssh).isSome } = _
    rw [isSome_sshRequest]

theorem reads_file : Reads BuildFile.read Written 5 := by
  refine reads_record (by decide) (fun file levels h => ?_) fun file row h hrow => ?_
  · exact .cons (reads_text.fits_required (by omega) _ _) <|
      .cons (reads_entry.entries.fits_defaulted h _ none _ _) <|
      .cons (reads_var.entries.fits_defaulted h _ none _ _) .nil
  · simp only [List.forall₂_cons, Field.of] at hrow
    obtain ⟨hversion, htargets, hvars, -⟩ := hrow
    rw [reads_text.required_eq (by omega) hversion, reads_entry.entries.defaulted_eq h htargets,
      reads_var.entries.defaulted_eq h hvars]
    rfl

/-! ### Texts -/

theorem parse_eq_of_writtenAs {file : BuildFile} {text : String} (h : file.WrittenAs text) :
    parse text = .ok file := by
  obtain ⟨v, hv, htext⟩ := h
  rw [parse, Json.parse?_of_writes htext]
  dsimp only
  rw [reads_file.read hv (by decide)]

theorem evaluate_eq_of_writtenAs {file : BuildFile} {text : String} (h : file.WrittenAs text) :
    evaluate text = .ok text := by
  obtain ⟨v, -, htext⟩ := h
  rw [evaluate, Json.parse?_of_writes htext]

/-- A file is read like the text that it is made of. -/
theorem loadFile_encode (path text : String) :
    loadFile path (some (Text.Utf8.encode text)) = loadText path text := by
  rw [loadFile, evaluateFile, FileUse.decode_encode, loadText, load]
  change ((evaluate text).mapError _ >>= fun text => (parse text).mapError _) = _
  cases evaluate text <;> rfl

/-- Every build file can be written, and is read back from whatever text writes it: at once,
    after the text is evaluated, and from a file with the text. -/
theorem load_written (file : BuildFile) :
    (∃ text, file.WrittenAs text) ∧ ∀ text, file.WrittenAs text →
      parse text = .ok file ∧ load text = .ok file ∧
      ∀ path, loadFile path (some (Text.Utf8.encode text)) = .ok file := by
  refine ⟨file.exists_writtenAs, fun text h => ?_⟩
  have hparse : parse text = .ok file := parse_eq_of_writtenAs h
  have hload : load text = .ok file := by
    rw [load, evaluate_eq_of_writtenAs h]
    exact hparse
  refine ⟨hparse, hload, fun path => ?_⟩
  rw [loadFile_encode, loadText, hload]
  rfl

/-- A target with a variable twice in its environment, and a single secret. -/
def repeatedTarget : Target where
  env := [("K", "1"), ("K", "2")]
  secrets := .one ⟨"s", "/s"⟩

/-- A build file with a list and that target under the same name. -/
def repeated : BuildFile where
  apiVersion := "v1"
  targets := [("all", .aggregate ["all"]), ("all", .target repeatedTarget)]

/-- The members of the target, one of them without a value. -/
def repeatedMembers : List (RawText × Value) :=
  [(.ofString "network", .null),
   (.ofString "secrets", .ofEntries [("path", "/s"), ("id", "s")]),
   (.ofString "env", .object [(.ofString "K", .ofString "1"), (.ofString "K", .text [.unit 0x32])])]

/-- The members of the build file. -/
def repeatedFile : List (RawText × Value) :=
  [(.ofString "targets", .object [(.ofString "all", .ofStrings ["all"]),
     (.ofString "all", .object repeatedMembers)]),
   (.ofString "apiVersion", .ofString "v1")]

/-- A text of the build file. -/
def repeatedText : String :=
  "\x7b \"targets\": \x7b\"all\": [\"all\"], \"all\": \x7b\"network\": null,\n" ++
  "  \"secrets\": \x7b\"path\": \"/s\", \"id\": \"s\"\x7d,\n" ++
  "  \"env\": \x7b\"K\": \"1\", \"K\": \"\\u0032\"\x7d\x7d\x7d, \"apiVersion\":\"v1\"\x7d"

theorem written_repeatedTarget : repeatedTarget.Written (.object repeatedMembers) := by
  have hsecret : SecretMount.Written ⟨"s", "/s"⟩ (.ofEntries [("path", "/s"), ("id", "s")]) :=
    .intro (.present (.head _) (RawText.decode_ofString "id") (.ofString "s")
      (.present (.head _) (RawText.decode_ofString "path") (.ofString "/s") .nil)) (.swap _ _ _)
  have henv : Entries Text [("K", "1"), ("K", "2")]
      (.object [(.ofString "K", .ofString "1"), (.ofString "K", .text [.unit 0x32])]) :=
    .intro (.cons ⟨RawText.decode_ofString "K", .ofString "1"⟩
      (.cons ⟨RawText.decode_ofString "K", .intro (by decide +kernel)⟩ .nil))
  exact .intro
    (.absent rfl <| .absent rfl <|
      .present (.head _) (RawText.decode_ofString "env") henv <|
      .absent rfl <| .absent rfl <| .absent rfl <| .absent rfl <|
      .present (.tail _ (.head _)) (RawText.decode_ofString "secrets") (.one hsecret) <|
      .absent rfl <| .absent rfl <|
      .present (.head _) (RawText.decode_ofString "network") rfl <|
      .absent rfl .nil)
    (List.reverse_perm repeatedMembers).symm

theorem load_written_repeated :
    repeated.WrittenAs repeatedText ∧ load repeatedText = .ok repeated ∧
    loadFile "kiln.json" (some (Text.Utf8.encode repeatedText)) = .ok repeated := by
  have hall := RawText.decode_ofString "all"
  have hlist : Sequence Text ["all"] (.ofStrings ["all"]) := .intro (.cons (.ofString "all") .nil)
  have htargets : Entries Entry.Written repeated.targets (.object [(.ofString "all",
      .ofStrings ["all"]), (.ofString "all", .object repeatedMembers)]) :=
    .intro (.cons ⟨hall, .aggregate hlist⟩ (.cons ⟨hall, .target written_repeatedTarget⟩ .nil))
  have hfile : repeated.Written (.object repeatedFile) :=
    .intro (.present (.head _) (RawText.decode_ofString "apiVersion") (.ofString "v1") <|
      .present (.head _) (RawText.decode_ofString "targets") htargets <|
      .absent rfl .nil) (.swap _ _ _)
  have htokens : Json.tokens? repeatedText.toList = some (Value.object repeatedFile).tokens := by
    decide +kernel
  have hwritten : repeated.WrittenAs repeatedText :=
    ⟨_, hfile, Json.spells_of_tokens? htokens⟩
  obtain ⟨-, hload, hloadFile⟩ := (load_written repeated).2 repeatedText hwritten
  exact ⟨hwritten, hload, hloadFile "kiln.json"⟩

end ContainerBuild.BuildFile
