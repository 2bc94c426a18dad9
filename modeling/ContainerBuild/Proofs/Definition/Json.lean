import ContainerBuild.Definition.Json
import ContainerBuild.Proofs.Definition.Graph
import ContainerBuild.Proofs.Json.Printing

/-!
# Definitions are known from their JSON

Resolved definitions that are shown by the same text are the same
(`definition_eq_of_render_eq`). On the way back from the text, first the JSON is read from
it, which is plain (`Json.Value.indented_inj`). The definition is then known from its JSON
(`Definition.toJson_inj`):

* a record is known from the members that have a value, as its names are distinct
  (`Json.Value.record_inj`);
* a target is known from its name, as no other target has the same
  (`Definition.nameAt_inj`);
* the places of two definitions have the same names, so places that are written by name
  may be compared across them (`Definition.vertexToJson_congr`).
-/

namespace ContainerBuild

open Json (Value RawText eq_of_map_eq map_eq_of_map_eq)

/-! ### Values -/

namespace Json

theorem RawText.ofString_injective : Function.Injective RawText.ofString := by
  intro text text' h
  have hchars := (List.map_injective_iff.2 fun _ _ => Piece.char.inj) h
  exact String.toList_inj.1 hchars

namespace Value

theorem ofString_injective : Function.Injective ofString :=
  fun _ _ h => RawText.ofString_injective (text.inj h)

@[simp]
theorem ofString_inj {text text' : String} : ofString text = ofString text' ↔ text = text' :=
  ofString_injective.eq_iff

@[simp]
theorem map_ofString_inj {text? text'? : Option String} :
    text?.map ofString = text'?.map ofString ↔ text? = text'? :=
  (Option.map_injective ofString_injective).eq_iff

@[simp]
theorem ofStrings_inj {texts texts' : List String} :
    ofStrings texts = ofStrings texts' ↔ texts = texts' :=
  ⟨fun h => ofString_injective.list_map (array.inj h), fun h => by rw [h]⟩

@[simp]
theorem ofEntries_inj {entries entries' : List (String × String)} :
    ofEntries entries = ofEntries entries' ↔ entries = entries' := by
  refine ⟨fun h => List.map_injective_iff.2 ?_ (object.inj h), fun h => by rw [h]⟩
  rintro ⟨name, value⟩ ⟨name', value'⟩ h
  obtain ⟨hname, hvalue⟩ := Prod.mk.inj h
  rw [RawText.ofString_injective hname, ofString_injective hvalue]

/-- The members of a record that have a value. -/
def written (ms : List (String × Option Value)) : List (RawText × Value) :=
  ms.filterMap fun m => m.2.map fun v => (.ofString m.1, v)

theorem mem_names_of_mem_written {ms : List (String × Option Value)} {name : String} {v : Value}
    (h : (RawText.ofString name, v) ∈ written ms) : name ∈ ms.map (·.1) := by
  obtain ⟨m, hm, hwritten⟩ := List.mem_filterMap.1 h
  obtain ⟨_, _, heq⟩ := Option.map_eq_some_iff.1 hwritten
  exact List.mem_map.2 ⟨m, hm, RawText.ofString_injective (Prod.mk.inj heq).1⟩

/-- Records with the same names, all of them distinct, are the same only if their members
    are. -/
theorem record_inj {ms ms' : List (String × Option Value)} (h : record ms = record ms')
    (hnames : ms.map (·.1) = ms'.map (·.1)) (hnodup : (ms.map (·.1)).Nodup) : ms = ms' := by
  replace h : written ms = written ms' := object.inj h
  induction ms generalizing ms' with
  | nil => exact (List.map_eq_nil_iff.1 hnames.symm).symm
  | cons m ms ih =>
    obtain ⟨m', ms', rfl⟩ := List.exists_cons_of_ne_nil (l := ms') (by rintro rfl; cases hnames)
    obtain ⟨name, v?⟩ := m
    obtain ⟨_, v'?⟩ := m'
    rw [List.map_cons, List.map_cons] at hnames
    obtain ⟨rfl, hrest⟩ := List.cons.inj hnames
    rw [List.map_cons, List.nodup_cons] at hnodup
    obtain ⟨hname, hnodup⟩ := hnodup
    -- A member with a value cannot be met further on instead, as its name is not there.
    rcases v? with _ | v <;> rcases v'? with _ | v'
    · rw [ih hrest hnodup h]
    · have hmem : (RawText.ofString name, v') ∈ written ms := h ▸ List.mem_cons_self
      exact absurd (mem_names_of_mem_written hmem) hname
    · have hmem : (RawText.ofString name, v) ∈ written ms' := h ▸ List.mem_cons_self
      exact absurd (hrest ▸ mem_names_of_mem_written hmem) hname
    · obtain ⟨heq, h⟩ := List.cons.inj h
      rw [(Prod.mk.inj heq).2, ih hrest hnodup h]

end Value

end Json

/-! ### Parts of definitions -/

@[simp]
theorem CacheMount.map_toJson_inj {l l' : List CacheMount} :
    l.map toJson = l'.map toJson ↔ l = l' := by
  refine ⟨eq_of_map_eq fun c _ c' _ h => ?_, fun h => by rw [h]⟩
  cases c
  cases c'
  simpa using Value.record_inj h rfl (by simp)

@[simp]
theorem SecretMount.map_toJson_inj {l l' : List SecretMount} :
    l.map toJson = l'.map toJson ↔ l = l' := by
  refine ⟨eq_of_map_eq fun s _ s' _ h => ?_, fun h => by rw [h]⟩
  cases s
  cases s'
  simpa using Value.record_inj h rfl (by simp)

@[simp]
theorem Output.map_toJson_inj {o o' : Option Output} : o.map toJson = o'.map toJson ↔ o = o' := by
  refine (Option.map_injective fun o o' h => ?_).eq_iff
  cases o
  cases o'
  simpa using Value.record_inj h rfl (by simp)

@[simp]
theorem sshToJson_inj {ssh ssh' : Bool} : sshToJson ssh = sshToJson ssh' ↔ ssh = ssh' := by
  cases ssh <;> cases ssh' <;> simp [sshToJson]

@[simp]
theorem VarCopy.map_toJson_inj {l l' : List VarCopy} : l.map toJson = l'.map toJson ↔ l = l' := by
  refine ⟨eq_of_map_eq fun c _ c' _ h => ?_, fun h => by rw [h]⟩
  cases c
  cases c'
  simpa using Value.record_inj h rfl (by simp)

theorem Var.toJson_injective : Function.Injective Var.toJson := by
  intro v v' h
  cases v
  cases v'
  simpa using Value.record_inj h rfl (by simp)

/-! ### Targets -/

theorem eq_of_option_map_eq {α β : Type} {f : α → β} {o o' : Option α}
    (h : ∀ a ∈ o, ∀ a' ∈ o', f a = f a' → a = a') (heq : o.map f = o'.map f) : o = o' := by
  rcases o with _ | a <;> rcases o' with _ | a'
  · rfl
  · cases heq
  · cases heq
  · rw [h a rfl a' rfl (Option.some.inj heq)]

/-- The names of dependencies are left out if there are none. -/
@[simp]
theorem dependencies_inj {name : Nat → String} {places places' : List Nat} :
    (if places = [] then none else some (Value.ofStrings (places.map name))) =
      (if places' = [] then none else some (Value.ofStrings (places'.map name))) ↔
    places.map name = places'.map name := by
  cases places <;> cases places' <;> simp

namespace Definition

variable {d d' : Definition}

/-- A place of a definition is that of one of its targets. -/
def Has (d : Definition) (place : Nat) : Prop :=
  place < d.vertices.length

/-- The target that a source may be is one of the definition. -/
def HasSource (d : Definition) (s : CopySource) : Prop :=
  ∀ place, s = .vertex place → d.Has place

section Names

variable (hd : (d.vertices.map (·.name)).Nodup)

include hd

/-- A target is known from its name. -/
theorem nameAt_inj {place place' : Nat} (h : d.Has place) (h' : d.Has place')
    (heq : d.nameAt place = d.nameAt place') : place = place' := by
  have hname : ∀ {place}, d.Has place →
      (d.vertices.map (·.name))[place]? = some (d.nameAt place) := by
    intro place h
    rw [nameAt, List.getElem?_map, List.getElem?_eq_getElem h]
    rfl
  have hlength : place < (d.vertices.map (·.name)).length := by rwa [List.length_map]
  exact (List.getElem?_inj hlength hd).1 (by rw [hname h, hname h', heq])

theorem sourceToJson_inj {s s' : CopySource} (h : d.HasSource s) (h' : d.HasSource s')
    (heq : d.sourceToJson s = d.sourceToJson s') : s = s' := by
  -- Targets and images stand under different names.
  rcases s with place | reference <;> rcases s' with place' | reference'
  · have hname : d.nameAt place = d.nameAt place' := by
      simpa using Value.record_inj heq rfl (by simp)
    rw [nameAt_inj hd (h _ rfl) (h' _ rfl) hname]
  · simp [sourceToJson, Value.record, RawText.ofString_injective.eq_iff] at heq
  · simp [sourceToJson, Value.record, RawText.ofString_injective.eq_iff] at heq
  · simpa using Value.record_inj heq rfl (by simp)

theorem copyToJson_inj {c c' : Copy} (h : ∀ s ∈ c.source, d.HasSource s)
    (h' : ∀ s ∈ c'.source, d.HasSource s) (heq : d.copyToJson c = d.copyToJson c') : c = c' := by
  have hsource : c.source.map d.sourceToJson = c'.source.map d.sourceToJson ↔
      c.source = c'.source :=
    ⟨eq_of_option_map_eq fun s hs s' hs' => sourceToJson_inj hd (h s hs) (h' s' hs'),
      fun h => by rw [h]⟩
  cases c
  cases c'
  simpa [hsource] using Value.record_inj heq rfl (by simp)

theorem stageToJson_inj {s s' : Stage} (h : ∀ c ∈ s.copies, ∀ source ∈ c.source, d.HasSource source)
    (h' : ∀ c ∈ s'.copies, ∀ source ∈ c.source, d.HasSource source)
    (heq : d.stageToJson s = d.stageToJson s') : s = s' := by
  have hcopies : s.copies.map d.copyToJson = s'.copies.map d.copyToJson ↔ s.copies = s'.copies :=
    ⟨eq_of_map_eq fun c hc c' hc' => copyToJson_inj hd (h c hc) (h' c' hc'), fun h => by rw [h]⟩
  cases s
  cases s'
  simpa [hcopies, and_comm, and_left_comm, and_assoc] using Value.record_inj heq rfl (by simp)

theorem vertexToJson_inj {v v' : Vertex} (h : ∀ place ∈ v.references, d.Has place)
    (h' : ∀ place ∈ v'.references, d.Has place) (heq : d.vertexToJson v = d.vertexToJson v') :
    v = v' := by
  simp only [Vertex.references, List.forall_mem_append, Option.mem_toList, mem_copyPlaces] at h h'
  obtain ⟨⟨hparent, hcopies⟩, hdependsOn⟩ := h
  obtain ⟨⟨hparent', hcopies'⟩, hdependsOn'⟩ := h'
  have hparents : (v.parent.map fun place => Value.ofString (d.nameAt place)) =
      (v'.parent.map fun place => Value.ofString (d.nameAt place)) ↔ v.parent = v'.parent :=
    ⟨eq_of_option_map_eq fun p hp p' hp' heq =>
      nameAt_inj hd (hparent p hp) (hparent' p' hp') (Value.ofString_injective heq),
      fun h => by rw [h]⟩
  have hdependencies : v.dependsOn.map d.nameAt = v'.dependsOn.map d.nameAt ↔
      v.dependsOn = v'.dependsOn :=
    ⟨eq_of_map_eq fun p hp p' hp' => nameAt_inj hd (hdependsOn p hp) (hdependsOn' p' hp'),
      fun h => by rw [h]⟩
  have hstages : v.stage.map d.stageToJson = v'.stage.map d.stageToJson ↔ v.stage = v'.stage :=
    ⟨eq_of_option_map_eq fun s hs s' hs' => stageToJson_inj hd
      (fun c hc source hsource place hplace =>
        hcopies place ⟨s, hs, c, hc, hplace ▸ hsource⟩)
      (fun c hc source hsource place hplace =>
        hcopies' place ⟨s', hs', c, hc, hplace ▸ hsource⟩),
      fun h => by rw [h]⟩
  cases v
  cases v'
  simpa [hparents, hdependencies, hstages, and_comm, and_left_comm, and_assoc]
    using Value.record_inj heq rfl (by simp)

end Names

/-- The JSON of targets refers to the others by their names only. -/
theorem vertexToJson_congr (h : d.nameAt = d'.nameAt) : d.vertexToJson = d'.vertexToJson := by
  have hsource : d.sourceToJson = d'.sourceToJson := by
    funext s
    cases s <;> simp [sourceToJson, h]
  have hcopy : d.copyToJson = d'.copyToJson := by
    funext c
    simp [copyToJson, hsource]
  have hstage : d.stageToJson = d'.stageToJson := by
    funext s
    simp [stageToJson, hcopy]
  funext v
  simp [vertexToJson, h, hstage]

theorem name_eq_of_vertexToJson_eq {v v' : Vertex} (h : d.vertexToJson v = d'.vertexToJson v') :
    v.name = v'.name := by
  have hname := (List.cons.inj (Value.record_inj h rfl (by simp))).1
  simpa using hname

theorem nameAt_eq_of_map_name_eq (h : d.vertices.map (·.name) = d'.vertices.map (·.name)) :
    d.nameAt = d'.nameAt := by
  have hname : ∀ (d : Definition) (place : Nat),
      d.nameAt place = (d.vertices.map (·.name))[place]?.getD "" := by
    intro d place
    rw [nameAt, List.getElem?_map]
    cases d.vertices[place]? <;> rfl
  funext place
  rw [hname, hname, h]

/-- Definitions with the same JSON are the same if the names in them are distinct and
    mean targets. -/
theorem toJson_inj (hd : (d.vertices.map (·.name)).Nodup)
    (h : ∀ v ∈ d.vertices, ∀ place ∈ v.references, d.Has place)
    (h' : ∀ v ∈ d'.vertices, ∀ place ∈ v.references, d'.Has place) (heq : d.toJson = d'.toJson) :
    d = d' := by
  obtain ⟨hvertices, hvars⟩ : d.vertices.map d.vertexToJson = d'.vertices.map d'.vertexToJson ∧
      d.vars.map Var.toJson = d'.vars.map Var.toJson := by
    simpa using Value.record_inj heq (by simp) (by simp)
  have hnames : d.vertices.map (·.name) = d'.vertices.map (·.name) :=
    map_eq_of_map_eq (fun _ _ _ _ => name_eq_of_vertexToJson_eq) hvertices
  have hlength : d'.vertices.length = d.vertices.length := by
    simpa using (congrArg List.length hnames).symm
  -- With the same names in the same order, places of one definition are places of the other.
  have hhas : ∀ v ∈ d'.vertices, ∀ place ∈ v.references, d.Has place :=
    fun v hv place hplace => Nat.lt_of_lt_of_eq (h' v hv place hplace) hlength
  rw [← vertexToJson_congr (nameAt_eq_of_map_name_eq hnames)] at hvertices
  have hsame : d.vertices = d'.vertices :=
    eq_of_map_eq (fun v hv v' hv' => vertexToJson_inj hd (h v hv) (hhas v' hv')) hvertices
  have hsame' : d.vars = d'.vars := Var.toJson_injective.list_map hvars
  obtain ⟨vertices, vars⟩ := d
  obtain ⟨vertices', vars'⟩ := d'
  rw [mk.injEq]
  exact ⟨hsame, hsame'⟩

end Definition

/-! ### Texts -/

@[simp]
theorem CacheMount.plain_toJson (c : CacheMount) : c.toJson.Plain := by
  simp [toJson]

@[simp]
theorem SecretMount.plain_toJson (s : SecretMount) : s.toJson.Plain := by
  simp [toJson]

@[simp]
theorem Output.plain_toJson (o : Output) : o.toJson.Plain := by
  simp [toJson]

theorem plain_sshToJson (ssh : Bool) : ∀ v, sshToJson ssh = some v → v.Plain := by
  cases ssh <;> simp [sshToJson]

@[simp]
theorem VarCopy.plain_toJson (c : VarCopy) : c.toJson.Plain := by
  simp [toJson]

@[simp]
theorem Var.plain_toJson (v : Var) : v.toJson.Plain := by
  simpa [toJson] using plain_sshToJson v.ssh

namespace Definition

variable {d d' : Definition}

@[simp]
theorem plain_sourceToJson (s : CopySource) : (d.sourceToJson s).Plain := by
  cases s <;> simp [sourceToJson]

@[simp]
theorem plain_copyToJson (c : Copy) : (d.copyToJson c).Plain := by
  simp [copyToJson]

@[simp]
theorem plain_stageToJson (s : Stage) : (d.stageToJson s).Plain := by
  simpa [stageToJson] using plain_sshToJson s.ssh

@[simp]
theorem plain_vertexToJson (v : Vertex) : (d.vertexToJson v).Plain := by
  simp [vertexToJson]

@[simp]
theorem plain_toJson : d.toJson.Plain := by
  simp [toJson]

theorem toJson_eq_of_render_eq (h : d.render = d'.render) : d.toJson = d'.toJson :=
  Value.indented_inj plain_toJson plain_toJson (String.ofList_injective h)

end Definition

/-! ### Resolved definitions -/

open BuildFile

/-- Nothing of a definition is lost in its JSON: resolved definitions that have the same
    text are the same, with their targets and variables in the same order, each with the
    same fields. -/
theorem definition_eq_of_render_eq {file file' : BuildFile} {secrets secrets' : List SecretSource}
    {d d' : Definition} (h : file.resolve secrets = .ok d) (h' : file'.resolve secrets' = .ok d')
    (heq : d.render = d'.render) : d = d' := by
  have hplaces : ∀ {file : BuildFile} {secrets : List SecretSource} {d : Definition},
      file.resolve secrets = .ok d → ∀ v ∈ d.vertices, ∀ place ∈ v.references, d.Has place := by
    intro file secrets d h v hv place hplace
    obtain ⟨u, hu⟩ := places_of_resolve h v hv place hplace
    exact (List.getElem?_eq_some_iff.1 hu).1
  exact Definition.toJson_inj (wellFormed_of_resolve h).nodup (hplaces h) (hplaces h')
    (Definition.toJson_eq_of_render_eq heq)

/-- A copy that stands alone and targets that stand for another one in a list. -/
def single : BuildFile where
  apiVersion := supportedVersion
  targets := [
    ("src", .target { base := some "alpine", copies := .one ⟨none, ".", "/src"⟩ }),
    ("all", .aggregate ["src"])]

/-- The same with the copy in a list and a target that depends on the other one. -/
def listed : BuildFile where
  apiVersion := supportedVersion
  targets := [
    ("src", .target { base := some "alpine", copies := .many [⟨none, ".", "/src"⟩] }),
    ("all", .target { dependsOn := ["src"] })]

theorem definition_eq_of_render_eq_listed :
    single ≠ listed ∧ ∃ d d', single.resolve [] = .ok d ∧ listed.resolve [] = .ok d' ∧
      d.render = d'.render ∧ d = d' := by
  let d := Resolution.resolved single []
  let d' := Resolution.resolved listed []
  have hd : single.resolve [] = .ok d := by rfl
  have hd' : listed.resolve [] = .ok d' := by rfl
  have hrender : d.render = d'.render := by rfl
  exact ⟨by decide, d, d', hd, hd', hrender, definition_eq_of_render_eq hd hd' hrender⟩

end ContainerBuild
