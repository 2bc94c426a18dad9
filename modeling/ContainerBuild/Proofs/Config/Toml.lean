import ContainerBuild.Config.Toml
import ContainerBuild.Proofs.Toml.Statements

/-!
# Configurations are read back

The text of a configuration is made of lines that say statements (`Config.lines_say`),
and these build the table of its entries (`Config.tableOf_statements`), from which the
configuration is read (`Config.ofToml?_table`). So every configuration is read back from
its text, whatever its strings are made of (`Config.parse?_render`).

Without secrets the list of them is an assignment before all tables, and otherwise each
secret is a table of its own at the end.
-/

namespace ContainerBuild

open Toml (Statement Value Entries Building Bare Says Lines)

variable {c : Config} {b : BuilderSettings} {s : SecretSource}

/-! ### Lines -/

namespace Config

/-- The statements of the builder's settings. -/
def builderStatements (b : BuilderSettings) : List Statement :=
  [.table ["builder"], .assign ["executable"] (.text b.executable),
    .assign ["syntax_image"] (.text b.frontend)] ++
    b.clientConfig.toList.map (fun directory => .assign ["docker_config"] (.text directory)) ++
    [.assign ["force_pull"] (.bool b.forcePull)]

/-- The statements of a secret. -/
def secretStatements (s : SecretSource) : List Statement :=
  [.element ["secrets"], .assign ["id"] (.text s.id), .assign ["path"] (.text s.path)]

/-- The statements of a configuration. -/
def statements (c : Config) : List Statement :=
  (if c.secrets.isEmpty then [.assign ["secrets"] (.array [])] else []) ++
    builderStatements c.builder ++ c.secrets.flatMap secretStatements

theorem says_textLine {name : String} (hname : Bare name.toList) (value : String) :
    Says (textLine name value).toList (.assign [name] (.text value)) :=
  Toml.says_assignment hname (Toml.denotes_string value)

theorem lines_builder (b : BuilderSettings) : Lines (builderLines b) (builderStatements b) := by
  have hclient : Lines (b.clientConfig.toList.map (textLine "docker_config"))
      (b.clientConfig.toList.map fun directory => .assign ["docker_config"] (.text directory)) := by
    cases b.clientConfig with
    | none => exact .nil
    | some directory => exact .line (says_textLine (by decide) directory) .nil
  have hforce : Lines [Toml.assignmentLine "force_pull" (Toml.renderBool b.forcePull)]
      [.assign ["force_pull"] (.bool b.forcePull)] :=
    .line (Toml.says_assignment (by decide) (Toml.denotes_bool b.forcePull)) .nil
  refine .append (.append ?_ hclient) hforce
  exact .line (Toml.says_table (by decide)) (.line (says_textLine (by decide) b.executable)
    (.line (says_textLine (by decide) b.frontend) .nil))

theorem lines_secret (s : SecretSource) : Lines (secretLines s) (secretStatements s) :=
  .blank (.line (Toml.says_element (by decide)) (.line (says_textLine (by decide) s.id)
    (.line (says_textLine (by decide) s.path) .nil)))

theorem lines_secrets (secrets : List SecretSource) :
    Lines (secrets.flatMap secretLines) (secrets.flatMap secretStatements) := by
  induction secrets with
  | nil => exact .nil
  | cons s secrets ih => exact (lines_secret s).append ih

theorem lines_say (c : Config) : Lines c.lines c.statements := by
  refine .append (.append ?_ (lines_builder c.builder)) (lines_secrets c.secrets)
  split_ifs
  · exact .line (Toml.says_assignment (by decide) Toml.denotes_noItems) (.blank .nil)
  · exact .nil

/-! ### Tables -/

/-- The entries of the builder's settings. -/
def builderEntries (b : BuilderSettings) : Entries :=
  [("executable", .closed (.text b.executable)), ("syntax_image", .closed (.text b.frontend))] ++
    b.clientConfig.toList.map (fun directory => ("docker_config", .closed (.text directory))) ++
    [("force_pull", .closed (.bool b.forcePull))]

/-- The entries of a secret. -/
def secretEntries (s : SecretSource) : Entries :=
  [("id", .closed (.text s.id)), ("path", .closed (.text s.path))]

/-- A tree with the builder's settings, to which secrets are added. -/
def building (b : BuilderSettings) (secrets : List SecretSource) : Building where
  root := [("builder", .table .headed (builderEntries b)),
    ("secrets", .tables (secrets.reverse.map secretEntries))]
  current := ["secrets"]

theorem add_builder (b : BuilderSettings) (before : Entries)
    (h : before = [] ∨ before = [("secrets", .closed (.array []))]) (current : List String) :
    (builderStatements b).foldlM Building.add { root := before, current } =
      some { root := before ++ [("builder", .table .headed (builderEntries b))]
             current := ["builder"] } := by
  obtain ⟨executable, frontend, clientConfig, forcePull⟩ := b
  rcases h with rfl | rfl <;> cases clientConfig <;> rfl

theorem add_secret (b : BuilderSettings) (secrets : List SecretSource) (s : SecretSource) :
    (secretStatements s).foldlM Building.add (building b secrets) =
      some (building b (secrets ++ [s])) := by
  rw [building, building, List.reverse_append]
  rfl

theorem add_secrets (b : BuilderSettings) (before secrets : List SecretSource) :
    (secrets.flatMap secretStatements).foldlM Building.add (building b before) =
      some (building b (before ++ secrets)) := by
  induction secrets generalizing before with
  | nil =>
    rw [List.append_nil]
    rfl
  | cons s secrets ih =>
    rw [List.flatMap_cons, List.foldlM_append, add_secret]
    change (secrets.flatMap secretStatements).foldlM Building.add (building b (before ++ [s])) = _
    rw [ih, List.append_assoc, List.singleton_append]

/-- The values of the entries of the builder's settings. -/
def builderTable (b : BuilderSettings) : Toml.Table :=
  [("executable", .text b.executable), ("syntax_image", .text b.frontend)] ++
    b.clientConfig.toList.map (fun directory => ("docker_config", .text directory)) ++
    [("force_pull", .bool b.forcePull)]

/-- The value of a secret. -/
def secretValue (s : SecretSource) : Value :=
  .table [("id", .text s.id), ("path", .text s.path)]

/-- The table of a configuration. -/
def table (c : Config) : Toml.Table :=
  if c.secrets.isEmpty then [("secrets", .array []), ("builder", .table (builderTable c.builder))]
  else [("builder", .table (builderTable c.builder)),
    ("secrets", .array (c.secrets.map secretValue))]

theorem entriesValue_builder (b : BuilderSettings) :
    Toml.entriesValue (builderEntries b) = builderTable b := by
  obtain ⟨executable, frontend, clientConfig, forcePull⟩ := b
  cases clientConfig <;> rfl

/-- The latest element stands first in the tree, and last in the array. -/
theorem elementsValue_secrets (latest : List SecretSource) (later : List Value) :
    Toml.elementsValue later (latest.map secretEntries) =
      latest.reverse.map secretValue ++ later := by
  induction latest generalizing later with
  | nil => rfl
  | cons s latest ih =>
    rw [List.map_cons, Toml.elementsValue, ih, List.reverse_cons, List.map_append,
      List.append_assoc]
    rfl

/-- The statements of a configuration build its table. -/
theorem tableOf_statements (c : Config) : Toml.tableOf c.statements = some c.table := by
  rw [Toml.tableOf, statements, table]
  cases hsecrets : c.secrets with
  | nil =>
    rw [List.flatMap_nil, List.append_nil, List.isEmpty_nil, if_pos rfl, if_pos rfl,
      List.singleton_append, List.foldlM_cons]
    change ((builderStatements c.builder).foldlM Building.add
      { root := [("secrets", .closed (.array []))], current := [] }).map _ = _
    rw [add_builder c.builder _ (.inr rfl)]
    rw [← entriesValue_builder]
    rfl
  | cons s secrets =>
    have hfirst : (secretStatements s).foldlM Building.add
        { root := [("builder", .table .headed (builderEntries c.builder))]
          current := ["builder"] } = some (building c.builder [s]) := rfl
    rw [List.isEmpty_cons, if_neg Bool.false_ne_true, if_neg Bool.false_ne_true,
      List.nil_append, List.foldlM_append, add_builder c.builder _ (.inl rfl),
      List.flatMap_cons, List.nil_append, Option.bind_eq_bind, Option.bind_some,
      List.foldlM_append, hfirst, Option.bind_eq_bind, Option.bind_some, add_secrets,
      Option.map_some, building, Toml.entriesValue, Toml.entriesValue, Toml.entriesValue,
      Toml.Node.value, Toml.Node.value, entriesValue_builder, elementsValue_secrets,
      List.reverse_reverse, List.append_nil]
    rfl

/-! ### Reading -/

theorem ofToml?_builder (b : BuilderSettings) :
    BuilderSettings.ofToml? (.table (builderTable b)) = some b := by
  obtain ⟨executable, frontend, clientConfig, forcePull⟩ := b
  cases clientConfig <;> rfl

theorem listOfToml?_secrets (secrets : List SecretSource) :
    SecretSource.listOfToml? (.array (secrets.map secretValue)) = some secrets := by
  rw [SecretSource.listOfToml?]
  induction secrets with
  | nil => rfl
  | cons s secrets ih =>
    have hs : SecretSource.ofToml? (secretValue s) = some s := rfl
    rw [List.map_cons, List.mapM_cons, hs, ih]
    rfl

/-- A configuration is read from its table. -/
theorem ofToml?_table (c : Config) : ofToml? c.table = some c := by
  have hbuilder := ofToml?_builder c.builder
  have hsecrets := listOfToml?_secrets c.secrets
  rw [ofToml?, table]
  split_ifs with hempty
  · change (BuilderSettings.ofToml? (.table (builderTable c.builder))).bind _ = _
    rw [hbuilder, Option.bind_some]
    exact congrArg some (congrArg _ (List.isEmpty_iff.1 hempty).symm)
  · change (BuilderSettings.ofToml? (.table (builderTable c.builder))).bind _ = _
    rw [hbuilder, Option.bind_some]
    change (SecretSource.listOfToml? (.array (c.secrets.map secretValue))).bind _ = _
    rw [hsecrets]
    rfl

/-- A configuration is read from its text. -/
theorem parse?_render (c : Config) : (Toml.parse? c.render).bind ofToml? = some c := by
  rw [render, Toml.parse?_join c.lines_say, tableOf_statements, Option.bind_some, ofToml?_table]

end Config

end ContainerBuild
