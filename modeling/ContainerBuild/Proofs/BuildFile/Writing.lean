import ContainerBuild.BuildFile.Basic
import ContainerBuild.Proofs.Json.Printing
import Mathlib.Data.List.Forall2

/-!
# Written build files

A build file is written as an object with a member for each of its fields, and so is
everything in it that has fields (`BuildFile.WrittenAs`). Each field stands in an
object at most once (`Members`):

* one that has no value is left out or `null` (`Slot.optional`);
* one whose value is the default may be left out (`Slot.defaulted`);
* the members come in any order, and a field that has two names goes by either;
* texts, names included, may be written with any escapes (`Form.Text`), and the value
  as a whole with any white space (`Value.Writes`).

Targets, variables and the environment are objects as well, but their members are kept
in order, each name as often as it is there (`Form.Entries`).
-/

namespace ContainerBuild

open Json (Value RawText)

namespace BuildFile

/-- What values write something. -/
abbrev Form (α : Type) := α → Value → Prop

namespace Form

variable {α : Type}

/-- A text is written as a string that means it. -/
inductive Text : Form String
  | intro {s : String} {t : RawText} : t.decode = .ok s → Text s (.text t)

theorem Text.ofString (s : String) : Text s (.ofString s) :=
  .intro (RawText.decode_ofString s)

/-- A list is written as the array of its items. -/
inductive Sequence (W : Form α) : Form (List α)
  | intro {as : List α} {items : List Value} : List.Forall₂ W as items →
    Sequence W as (.array items)

/-- Named entries are written as the members of an object. -/
inductive Entries (W : Form α) : Form (List (String × α))
  | intro {as : List (String × α)} {members : List (RawText × Value)} :
    List.Forall₂ (fun a m => m.1.decode = .ok a.1 ∧ W a.2 m.2) as members →
    Entries W as (.object members)

/-- One item is written without the brackets of a list. -/
inductive Items (W : Form α) : Form (OneOrMany α)
  | one {a : α} {v : Value} : W a v → Items W (.one a) v
  | many {as : List α} {v : Value} : Sequence W as v → Items W (.many as) v

end Form

/-- A field of an object: its names, and what stands in the object for it, which is
    nothing if the field is left out. -/
structure Slot where
  names : List String
  holds : Option Value → Prop

namespace Slot

variable {α : Type}

/-- A field that is always there. -/
def required (name : String) (W : Form α) (a : α) : Slot where
  names := [name]
  holds
    | some v => W a v
    | none => False

/-- A field that need not have a value. -/
def optional (name : String) (W : Form α) (a? : Option α) : Slot where
  names := [name]
  holds
    | some v => match a? with
      | some a => W a v
      | none => v = .null
    | none => a? = none

/-- A field that may be left out if it has the default value. -/
def defaulted (names : List String) (W : Form α) (default a : α) : Slot where
  names
  holds
    | some v => W a v
    | none => a = default

end Slot

/-- The members that write some fields, in the order of the fields. -/
inductive Members : List Slot → List (RawText × Value) → Prop
  | nil : Members [] []
  | absent {s : Slot} {slots : List Slot} {members : List (RawText × Value)} (hs : s.holds none)
    (h : Members slots members) : Members (s :: slots) members
  | present {s : Slot} {slots : List Slot} {members : List (RawText × Value)} {t : RawText}
    {name : String} {v : Value} (hname : name ∈ s.names) (ht : t.decode = .ok name)
    (hs : s.holds (some v)) (h : Members slots members) :
    Members (s :: slots) ((t, v) :: members)

/-- An object with some fields, in any order. -/
inductive Form.Object (slots : List Slot) : Value → Prop
  | intro {members written : List (RawText × Value)} (h : Members slots members)
    (hperm : written.Perm members) : Object slots (.object written)

end BuildFile

open BuildFile BuildFile.Form

/-- A cache directory, written. -/
def CacheMount.Written : Form CacheMount := fun c =>
  Object [.required "id" Text c.id, .required "path" Text c.path]

/-- A secret, written. -/
def SecretMount.Written : Form SecretMount := fun s =>
  Object [.required "id" Text s.id, .required "path" Text s.path]

/-- An output, written. -/
def Output.Written : Form Output := fun o =>
  Object [.required "artifact" Text o.artifact, .required "local" Text o.directory]

namespace BuildFile

/-- A copy, written. -/
def Copy.Written : Form Copy := fun c =>
  Object [.optional "from" Text c.source, .required "src" Text c.src, .required "dst" Text c.dst]

/-- A request for the SSH agent, written. -/
def SshWritten : Form Unit := fun _ =>
  Object []

/-- The request for the SSH agent of something that needs it. -/
def sshRequest (ssh : Bool) : Option Unit :=
  if ssh then some () else none

/-- The description of a target, written. -/
def Target.Written : Form Target := fun t =>
  Object
    [.optional "from" Text t.base,
     .defaulted ["dependsOn"] (Sequence Text) [] t.dependsOn,
     .defaulted ["env"] (Entries Text) [] t.env,
     .optional "command" Text t.command,
     .optional "ssh" SshWritten (sshRequest t.ssh),
     .defaulted ["cache"] (Sequence CacheMount.Written) [] t.caches,
     .defaulted ["copy"] (Items Copy.Written) (.many []) t.copies,
     .defaulted ["secret", "secrets"] (Items SecretMount.Written) (.many []) t.secrets,
     .optional "platform" Text t.platform,
     .defaulted ["workdir"] Text "" t.workdir,
     .optional "network" Text t.network,
     .optional "output" Output.Written t.output]

/-- What a target name stands for, written: a list of names or the description of a
    target. -/
inductive Entry.Written : Form Entry
  | aggregate {names : List String} {v : Value} :
    Sequence Text names v → Entry.Written (.aggregate names) v
  | target {t : Target} {v : Value} : t.Written v → Entry.Written (.target t) v

/-- The description of a variable, written. -/
def Var.Written : Form Var := fun x =>
  Object
    [.required "from" Text x.base,
     .optional "platform" Text x.platform,
     .defaulted ["workdir"] Text "" x.workdir,
     .defaulted ["env"] (Entries Text) [] x.env,
     .defaulted ["cache"] (Sequence CacheMount.Written) [] x.caches,
     .defaulted ["copy"] (Items Copy.Written) (.many []) x.copies,
     .defaulted ["secrets", "secret"] (Items SecretMount.Written) (.many []) x.secrets,
     .optional "network" Text x.network,
     .optional "ssh" SshWritten (sshRequest x.ssh),
     .required "command" Text x.command]

/-- A build file, written. -/
def Written : Form BuildFile := fun file =>
  Object
    [.required "apiVersion" Text file.apiVersion,
     .defaulted ["targets"] (Entries Entry.Written) [] file.targets,
     .defaulted ["vars"] (Entries Var.Written) [] file.vars]

/-- A text writes a build file. -/
def WrittenAs (file : BuildFile) (text : String) : Prop :=
  ∃ v, file.Written v ∧ v.Writes text.toList

end BuildFile

/-! ### Everything can be written -/

namespace BuildFile

namespace Form

variable {α : Type} {W : Form α}

/-- Everything of a type can be written. -/
def Total (W : Form α) : Prop :=
  ∀ a, ∃ v, W a v ∧ v.Spellable

theorem exists_spelled (s : String) : ∃ t : RawText, t.decode = .ok s ∧ ∃ w, t.Spelled w :=
  ⟨_, RawText.decode_escaped s, _, RawText.spelled_escaped s⟩

theorem total_text : Total Text := by
  intro s
  obtain ⟨t, hdecode, w, hw⟩ := exists_spelled s
  refine ⟨.text t, .intro hdecode, ?_⟩
  rintro token htoken
  obtain rfl := List.mem_singleton.1 htoken
  exact ⟨_, .text hw⟩

theorem Total.sequence (h : W.Total) : (Sequence W).Total := by
  intro as
  choose f hW hspell using h
  refine ⟨.array (as.map f), .intro ?_, ?_⟩
  · rw [List.forall₂_map_right_iff, List.forall₂_same]
    exact fun a _ => hW a
  · rw [Value.Spellable, Value.forall_array_tokens_iff Json.Token.Mark.exists_spelled,
      List.forall_mem_map]
    exact fun a _ => hspell a

theorem Total.entries (h : W.Total) : (Entries W).Total := by
  intro as
  choose f hW hspell using h
  choose g hdecode hg using exists_spelled
  refine ⟨.object (as.map fun a => (g a.1, f a.2)), .intro ?_, ?_⟩
  · rw [List.forall₂_map_right_iff, List.forall₂_same]
    exact fun a _ => ⟨hdecode a.1, hW a.2⟩
  · rw [Value.Spellable, Value.forall_object_tokens_iff Json.Token.Mark.exists_spelled,
      List.forall_mem_map]
    exact fun a _ => ⟨(hg a.1).imp' _ fun _ => .text, hspell a.2⟩

theorem Total.items (h : W.Total) : (Items W).Total := by
  rintro (as | a)
  · obtain ⟨v, hv, hspell⟩ := h.sequence as
    exact ⟨v, .many hv, hspell⟩
  · obtain ⟨v, hv, hspell⟩ := h a
    exact ⟨v, .one hv, hspell⟩

end Form

namespace Slot

variable {α : Type} {W : Form α}

/-- A field can be left out or written. -/
def Total (s : Slot) : Prop :=
  s.holds none ∨ ∃ name ∈ s.names, ∃ v, s.holds (some v) ∧ v.Spellable

theorem total_required {name : String} (h : W.Total) (a : α) : (required name W a).Total := by
  obtain ⟨v, hv, hspell⟩ := h a
  exact .inr ⟨name, List.mem_singleton_self name, v, hv, hspell⟩

theorem total_optional {name : String} (h : W.Total) (a? : Option α) :
    (optional name W a?).Total := by
  cases a? with
  | none => exact .inl rfl
  | some a =>
    obtain ⟨v, hv, hspell⟩ := h a
    exact .inr ⟨name, List.mem_singleton_self name, v, hv, hspell⟩

theorem total_defaulted {name : String} {names : List String} {default : α} (h : W.Total)
    (a : α) : (defaulted (name :: names) W default a).Total := by
  obtain ⟨v, hv, hspell⟩ := h a
  exact .inr ⟨name, List.mem_cons_self, v, hv, hspell⟩

end Slot

theorem Form.exists_object {slots : List Slot} (h : ∀ s ∈ slots, s.Total) :
    ∃ v, Object slots v ∧ v.Spellable := by
  have hmembers : ∃ members, Members slots members ∧
      ∀ m ∈ members, (∃ w, m.1.Spelled w) ∧ m.2.Spellable := by
    induction slots with
    | nil => exact ⟨[], .nil, nofun⟩
    | cons s slots ih =>
      obtain ⟨hs, hslots⟩ := List.forall_mem_cons.1 h
      obtain ⟨members, hmembers, hspell⟩ := ih hslots
      -- A field is left out wherever it may be.
      obtain hnone | ⟨name, hname, v, hv, hspellv⟩ := hs
      · exact ⟨members, .absent hnone hmembers, hspell⟩
      · obtain ⟨t, ht, hspellt⟩ := exists_spelled name
        exact ⟨(t, v) :: members, .present hname ht hv hmembers,
          List.forall_mem_cons.2 ⟨⟨hspellt, hspellv⟩, hspell⟩⟩
  obtain ⟨members, hmembers, hspell⟩ := hmembers
  refine ⟨.object members, .intro hmembers (.refl _), ?_⟩
  rw [Value.Spellable, Value.forall_object_tokens_iff Json.Token.Mark.exists_spelled]
  exact fun m hm => ⟨(hspell m hm).1.imp' _ fun _ => .text, (hspell m hm).2⟩

end BuildFile

open BuildFile.Slot (total_required total_optional total_defaulted)

theorem CacheMount.total_written : Total CacheMount.Written := fun c =>
  exists_object (by simp [total_required total_text])

theorem SecretMount.total_written : Total SecretMount.Written := fun s =>
  exists_object (by simp [total_required total_text])

theorem Output.total_written : Total Output.Written := fun o =>
  exists_object (by simp [total_required total_text])

namespace BuildFile

theorem Copy.total_written : Total Copy.Written := fun c =>
  exists_object (by simp [total_required total_text, total_optional total_text])

theorem total_sshWritten : Total SshWritten := fun _ =>
  exists_object (by simp)

theorem Target.total_written : Total Target.Written := fun t =>
  exists_object (by
    simp [total_optional, total_defaulted, total_text, total_text.sequence, total_text.entries,
      total_sshWritten, CacheMount.total_written.sequence, Copy.total_written.items,
      SecretMount.total_written.items, Output.total_written])

theorem Entry.total_written : Total Entry.Written := by
  rintro (names | t)
  · obtain ⟨v, hv, hspell⟩ := total_text.sequence names
    exact ⟨v, .aggregate hv, hspell⟩
  · obtain ⟨v, hv, hspell⟩ := Target.total_written t
    exact ⟨v, .target hv, hspell⟩

theorem Var.total_written : Total Var.Written := fun x =>
  exists_object (by
    simp [total_required, total_optional, total_defaulted, total_text, total_text.entries,
      total_sshWritten, CacheMount.total_written.sequence, Copy.total_written.items,
      SecretMount.total_written.items])

theorem total_written : Total Written := fun file =>
  exists_object (by
    simp [total_required, total_defaulted, total_text, Entry.total_written.entries,
      Var.total_written.entries])

/-- Every build file is written by some text. -/
theorem exists_writtenAs (file : BuildFile) : ∃ text, file.WrittenAs text := by
  obtain ⟨v, hv, hspell⟩ := total_written file
  obtain ⟨text, htext⟩ := hspell.exists_writes
  exact ⟨String.ofList text, v, hv, by rwa [String.toList_ofList]⟩

end BuildFile

end ContainerBuild
