import ContainerBuild.Proofs.Build.Script
import ContainerBuild.Proofs.Dockerfile.Values
import Mathlib.Data.Finset.Card
import Mathlib.Data.Finset.Dedup

/-!
# Values in order

Values of variables may be given again and again. Whatever has been given, each
name is listed once, where it was first given a value, and has the value that it
was given last:

* `pairwise_names_ofInsertions`: the names stand in the order of their first
  insertions;
* `get?_ofInsertions_eq_some_iff`: a value is that of the last insertion of its
  name.

A build inserts the values that it computes. The variables of a definition have
distinct names, so they are all listed, in declared order, each with the reply to
the call for its own value (`values_in_order`).
-/

namespace ContainerBuild

namespace VarValues

/-- The values after some insertions. -/
def ofInsertions (insertions : List (String × String)) : VarValues :=
  insertions.foldl (fun values (name, value) => values.insert name value) .empty

/-- Values are what some insertions lead to: each name is listed once, in the order of the first
    insertions, and has the value of its last one. -/
structure Records (insertions : List (String × String)) (values : VarValues) : Prop where
  nodup : values.names.Nodup
  mem_names_iff : ∀ name, name ∈ values.names ↔ name ∈ insertions.map (·.1)
  ordered : values.names.Pairwise fun a b =>
    (insertions.map (·.1)).idxOf a < (insertions.map (·.1)).idxOf b
  get?_eq_some_iff : ∀ name value, values.get? name = some value ↔
    ∃ before after, insertions = before ++ (name, value) :: after ∧ name ∉ after.map (·.1)
  get?_eq_none_iff : ∀ name, values.get? name = none ↔ name ∉ insertions.map (·.1)
  size_eq : values.size = (insertions.map (·.1)).toFinset.card

variable {values : VarValues} {insertions : List (String × String)} {name value n : String}

/-! ### One insertion -/

/-- A name that has a value keeps its place. -/
theorem names_insert_of_mem (h : name ∈ values.names) :
    (values.insert name value).names = values.names := by
  obtain ⟨entries⟩ := values
  change name ∈ entries.map (·.1) at h
  change (put name value entries).map (·.1) = entries.map (·.1)
  induction entries with
  | nil => exact absurd h List.not_mem_nil
  | cons entry entries ih =>
    obtain ⟨other, old⟩ := entry
    rw [put]
    split_ifs with hother
    · rfl
    · rw [List.map_cons, List.map_cons,
        ih ((List.mem_cons.1 h).resolve_left fun heq => hother heq.symm)]

/-- A new name is put last. -/
theorem names_insert_of_notMem (h : name ∉ values.names) :
    (values.insert name value).names = values.names ++ [name] := by
  rw [names, insert, put_of_notMem h, List.map_append]
  rfl

theorem mem_names_insert : n ∈ (values.insert name value).names ↔ n ∈ values.names ∨ n = name := by
  by_cases hname : name ∈ values.names
  · rw [names_insert_of_mem hname]
    exact ⟨.inl, fun hn => hn.elim id fun heq => heq ▸ hname⟩
  · rw [names_insert_of_notMem hname, List.mem_append, List.mem_singleton]

/-- Only the inserted name gets another value. -/
theorem get?_insert : (values.insert name value).get? n =
    if n = name then some value else values.get? n := by
  obtain ⟨entries⟩ := values
  simp only [insert, get?]
  induction entries with
  | nil =>
    rw [put, List.lookup_cons, List.lookup_nil]
    split_ifs with hn
    · rw [beq_iff_eq.2 hn]
    · rw [beq_eq_false_iff_ne.2 hn]
  | cons entry entries ih =>
    obtain ⟨other, old⟩ := entry
    rw [put]
    split_ifs with hother hn hn
    · rw [List.lookup_cons, beq_iff_eq.2 (hn.trans hother.symm)]
    · rw [List.lookup_cons, List.lookup_cons,
        beq_eq_false_iff_ne.2 fun heq => hn (heq.trans hother)]
    · rw [List.lookup_cons, beq_eq_false_iff_ne.2 fun heq => hother (heq.symm.trans hn), ih,
        if_pos hn]
    · rw [List.lookup_cons, List.lookup_cons, ih, if_neg hn]

/-! ### Insertions one after the other -/

theorem ofInsertions_concat : ofInsertions (insertions ++ [(name, value)]) =
    (ofInsertions insertions).insert name value :=
  List.foldl_concat ..

theorem mem_names_ofInsertions :
    n ∈ (ofInsertions insertions).names ↔ n ∈ insertions.map (·.1) := by
  induction insertions using List.reverseRecOn with
  | nil => exact .rfl
  | append_singleton insertions last ih =>
    rw [ofInsertions_concat, mem_names_insert, ih, List.map_append, List.mem_append,
      List.map_singleton, List.mem_singleton]

/-- The names stand in the order of their first insertions. -/
theorem pairwise_names_ofInsertions (insertions : List (String × String)) :
    (ofInsertions insertions).names.Pairwise fun a b =>
      (insertions.map (·.1)).idxOf a < (insertions.map (·.1)).idxOf b := by
  induction insertions using List.reverseRecOn with
  | nil => exact .nil
  | append_singleton insertions last ih =>
    obtain ⟨name, value⟩ := last
    rw [ofInsertions_concat, List.map_append, List.map_singleton]
    -- A further insertion comes after the first ones of the names there are.
    have hfirst : ∀ a ∈ (ofInsertions insertions).names,
        (insertions.map (·.1) ++ [name]).idxOf a = (insertions.map (·.1)).idxOf a := fun a ha =>
      List.idxOf_append_of_mem (mem_names_ofInsertions.1 ha)
    have hold : (ofInsertions insertions).names.Pairwise fun a b =>
        (insertions.map (·.1) ++ [name]).idxOf a < (insertions.map (·.1) ++ [name]).idxOf b :=
      ih.imp_of_mem fun {a b} ha hb hlt => by rwa [hfirst a ha, hfirst b hb]
    by_cases hname : name ∈ (ofInsertions insertions).names
    · rw [names_insert_of_mem hname]
      exact hold
    · rw [names_insert_of_notMem hname]
      refine List.pairwise_append.2 ⟨hold, List.pairwise_singleton _ _, fun a ha b hb => ?_⟩
      obtain rfl := List.mem_singleton.1 hb
      rw [hfirst a ha, List.idxOf_append_of_notMem (mt mem_names_ofInsertions.2 hname)]
      exact Nat.lt_add_right _ (List.idxOf_lt_length_iff.2 (mem_names_ofInsertions.1 ha))

theorem nodup_names_ofInsertions (insertions : List (String × String)) :
    (ofInsertions insertions).names.Nodup :=
  (pairwise_names_ofInsertions insertions).imp fun {_ _} hlt =>
    ne_of_apply_ne (fun n => (insertions.map (·.1)).idxOf n) (Nat.ne_of_lt hlt)

/-- There are as many values as names that were inserted. -/
theorem size_ofInsertions (insertions : List (String × String)) :
    (ofInsertions insertions).size = (insertions.map (·.1)).toFinset.card := by
  have hnames : (ofInsertions insertions).names.toFinset = (insertions.map (·.1)).toFinset :=
    Finset.ext fun n => by rw [List.mem_toFinset, List.mem_toFinset, mem_names_ofInsertions]
  rw [← hnames, List.toFinset_card_of_nodup (nodup_names_ofInsertions insertions), names,
    List.length_map, size]

theorem get?_ofInsertions :
    (ofInsertions insertions).get? n = insertions.reverse.lookup n := by
  induction insertions using List.reverseRecOn with
  | nil => rfl
  | append_singleton insertions last ih =>
    rw [ofInsertions_concat, get?_insert, ih, List.reverse_concat, List.lookup_cons]
    split_ifs with hn
    · rw [beq_iff_eq.2 hn]
    · rw [beq_eq_false_iff_ne.2 hn]

theorem forall_bne_iff {entries : List (String × String)} :
    (∀ entry ∈ entries, (n != entry.1) = true) ↔ n ∉ entries.map (·.1) := by
  simp only [bne_iff_ne, List.mem_map, not_exists, not_and, ne_comm (a := n)]

/-- A value is that of the last insertion of its name. -/
theorem get?_ofInsertions_eq_some_iff :
    (ofInsertions insertions).get? n = some value ↔
      ∃ before after, insertions = before ++ (n, value) :: after ∧ n ∉ after.map (·.1) := by
  simp only [get?_ofInsertions, List.lookup_eq_some_iff, forall_bne_iff]
  constructor
  · rintro ⟨later, earlier, hinsertions, hlater⟩
    refine ⟨earlier.reverse, later.reverse, ?_, by rwa [List.map_reverse, List.mem_reverse]⟩
    rw [← List.reverse_reverse insertions, hinsertions, List.reverse_append, List.reverse_cons,
      List.append_assoc, List.singleton_append]
  · rintro ⟨before, after, rfl, hafter⟩
    refine ⟨after.reverse, before.reverse, ?_, by rwa [List.map_reverse, List.mem_reverse]⟩
    rw [List.reverse_append, List.reverse_cons, List.append_assoc, List.singleton_append]

theorem get?_ofInsertions_eq_none_iff :
    (ofInsertions insertions).get? n = none ↔ n ∉ insertions.map (·.1) := by
  rw [get?_ofInsertions, List.lookup_eq_none_iff, forall_bne_iff, List.map_reverse,
    List.mem_reverse]

theorem records_ofInsertions (insertions : List (String × String)) :
    (ofInsertions insertions).Records insertions where
  nodup := nodup_names_ofInsertions insertions
  mem_names_iff _ := mem_names_ofInsertions
  ordered := pairwise_names_ofInsertions insertions
  get?_eq_some_iff _ _ := get?_ofInsertions_eq_some_iff
  get?_eq_none_iff _ := get?_ofInsertions_eq_none_iff
  size_eq := size_ofInsertions insertions

end VarValues

/-! ### Computed values -/

/-- Whatever is inserted, every name is listed once, in the order of the first insertions, and
    has the value of its last insertion. So the values that a build computes are those of the
    variables, in the order in which they are declared, each with the reply to the call for it.
    The values are computed unless the build is cancelled or one of these calls fails. -/
theorem values_in_order {σ : Type} {file : BuildFile} {secrets : List SecretSource}
    {d : Definition} (h : file.resolve secrets = .ok d) (ctx : BuildContext σ) (p : Progress σ) :
    (∀ insertions, (VarValues.ofInsertions insertions).Records insertions) ∧
    ∃ replies es, replies.length = d.vars.length ∧
      Dialogue ctx p.state es ((computeVars ctx d.vars).run p).2.state ∧
      ((computeVars ctx d.vars).run p).2.calls = p.calls ++ es.map (·.call) ∧
      (∀ values, ((computeVars ctx d.vars).run p).1 = .ok values →
        values.entries = (file.vars.map (·.1)).zip replies ∧
        d.vars.map (·.name) = file.vars.map (·.1) ∧
        List.Forall₂ (Exchange.Matches ctx.builder) es (d.vars.zipWith (valueEntry ctx) replies)) ∧
      (ctx.cancelled ((computeVars ctx d.vars).run p).2.state = false →
        (∀ x ∈ es, ∃ reply, x.reply ctx.builder = .ok reply) →
        ∃ values, ((computeVars ctx d.vars).run p).1 = .ok values) := by
  refine ⟨VarValues.records_ofInsertions, ?_⟩
  obtain ⟨replies, es, hlength, haccount, hvalues⟩ := exists_account_computeVars ctx
    (BuildFile.vars_nodup_of_resolve h) .empty (fun _ _ => List.not_mem_nil) p
  have hnames : d.vars.map (·.name) = file.vars.map (·.1) := by
    obtain ⟨rfl, hr, _⟩ := (Resolution.resolve_outcome file secrets).of_ok h
    exact (Resolution.representedBy_resolved hr).map_var_name
  have hcourse : Course ctx (d.vars.zipWith (valueEntry ctx) replies) es
      ((computeVars ctx d.vars).run p).1 _ := haccount.course
  refine ⟨replies, es, hlength, haccount.dialogue, haccount.calls, fun values hrun => ?_,
    fun hcancelled hreplies => ?_⟩
  · rw [hrun] at hcourse
    exact ⟨by rw [hvalues values hrun, hnames]; rfl, hnames, hcourse.matches_of_ok⟩
  · exact (hcourse.follows_of_not_cancelled hcancelled).exists_ok hreplies

theorem values_in_order_versioned :
    ∃ (d : Definition) (ctx : BuildContext Nat) (values : VarValues) (replies : List String)
      (es : List (Exchange Nat)), versioned.resolve [] = .ok d ∧
      ((computeVars ctx d.vars).run { state := 2 }).1 = .ok values ∧
      values.entries = ["COMMIT", "VERSION"].zip replies ∧ replies.length = 2 ∧
      List.Forall₂ (Exchange.Matches ctx.builder) es (d.vars.zipWith (valueEntry ctx) replies) := by
  let d := Resolution.resolved versioned []
  have h : versioned.resolve [] = .ok d := by rfl
  have hrun : ((computeVars failingContext d.vars).run { state := 2 }).1 =
      .ok ⟨[("COMMIT", "v1"), ("VERSION", "v1")]⟩ := by rfl
  obtain ⟨-, replies, es, hlength, -, -, hvalues, -⟩ :=
    values_in_order h failingContext { state := 2 }
  obtain ⟨hentries, -, hes⟩ := hvalues _ hrun
  exact ⟨d, failingContext, _, replies, es, h, hrun, hentries, hlength, hes⟩

/-- Three insertions, of which two are of one name. -/
example :
    (VarValues.ofInsertions [("A", "1"), ("B", "2"), ("A", "3")]).entries =
      [("A", "3"), ("B", "2")] := by decide

end ContainerBuild
