import ContainerBuild.Files.Tree
import Mathlib.Data.List.Basic
import Mathlib.Tactic.SplitIfs

/-!
# Changes of a file tree

Directories are made without a change to anything that is there
(`FileTree.extends_makeDirectories`), and those that have been made need not be made
again (`FileTree.makeDirectories_of_made`). What is written to a path is read from it
(`FileTree.read?_of_write?`), and what can be written there is a matter of the path alone
(`FileTree.exists_write?_of_write?`).

Where a path leads depends only on what there is and on which of it are
directories. So a path can still be followed in a tree that has *grown*, in which
there is at least as much as before, and every directory is still one.
-/

namespace ContainerBuild.FileTree

variable {t t' t'' : FileTree} {place other : List String} {e : FileEntry} {path : String}
  {contents : List UInt8}

/-! ### Entries -/

theorem entry?_nil : t.entry? [] = some .directory := rfl

theorem entry?_put_self (h : place ≠ []) : entry? (t.put place e) place = some e := by
  rw [FileTree.entry?, if_neg (mt List.isEmpty_iff.1 h)]
  exact List.lookup_cons_self

theorem entry?_put_of_ne (h : other ≠ place) : entry? (t.put place e) other = t.entry? other := by
  have hlookup : ∀ l : List (List String × FileEntry),
      (l.filter (·.1 != place)).lookup other = l.lookup other := by
    intro l
    induction l with
    | nil => rfl
    | cons x l ih =>
      by_cases hx : x.1 = place
      · have hother : other ≠ x.1 := hx ▸ h
        rw [List.filter_cons_of_neg (by simp [hx]), ih, List.lookup_cons, beq_false_of_ne hother]
      · rw [List.filter_cons_of_pos (by simp [hx]), List.lookup_cons, List.lookup_cons, ih]
  rw [FileTree.entry?, FileTree.entry?, put, List.lookup_cons, beq_false_of_ne h, hlookup]

theorem isDirectory_iff : t.isDirectory place ↔ t.entry? place = some .directory :=
  beq_iff_eq

theorem read?_eq_some_iff : t.read? path = some contents ↔
    ∃ place, t.locate? path = some place ∧ t.entry? place = some (.file contents) := by
  constructor
  · intro h
    obtain ⟨place, hplace, hrest⟩ := Option.bind_eq_some_iff.1 h
    obtain ⟨e, he, hcontents⟩ := Option.bind_eq_some_iff.1 hrest
    cases e with
    | file c =>
      obtain rfl := Option.some.inj hcontents
      exact ⟨place, hplace, he⟩
    | directory => cases hcontents
  · rintro ⟨place, hplace, he⟩
    rw [FileTree.read?, hplace, Option.bind_eq_bind, Option.bind_some, he]
    rfl

/-- What can be read exists. -/
theorem hasPath_of_read? (h : t.read? path = some contents) : t.hasPath path := by
  obtain ⟨place, hplace, -⟩ := read?_eq_some_iff.1 h
  rw [hasPath, hplace]
  rfl

/-! ### Trees that grow -/

/-- Whatever exists in a tree exists in another one, and directories are
    directories there. -/
structure Grows (t t' : FileTree) : Prop where
  working : t'.working = t.working
  exist : ∀ place, (t.entry? place).isSome → (t'.entry? place).isSome
  directory : ∀ place, t.isDirectory place → t'.isDirectory place

theorem Grows.follow (h : Grows t t') {segment : String}
    (hfollow : t.follow place segment = some other) :
    t'.follow place segment = some other := by
  rw [FileTree.follow] at hfollow ⊢
  split_ifs at hfollow with hsome
  obtain ⟨hplace, htarget⟩ := Bool.and_eq_true_iff.1 hsome
  rw [h.directory _ hplace, h.exist _ htarget]
  exact hfollow

theorem Grows.foldlM_follow (h : Grows t t') {segments : List String}
    (hfollow : segments.foldlM t.follow place = some other) :
    segments.foldlM t'.follow place = some other := by
  induction segments generalizing place with
  | nil => exact hfollow
  | cons segment segments ih =>
    rw [List.foldlM_cons] at hfollow ⊢
    obtain ⟨next, hnext, hrest⟩ := Option.bind_eq_some_iff.1 hfollow
    exact Option.bind_eq_some_iff.2 ⟨next, h.follow hnext, ih hrest⟩

theorem Grows.locate? (h : Grows t t') (hplace : t.locate? path = some place) :
    t'.locate? path = some place := by
  have hstart : t'.start path = t.start path := by rw [start, start, h.working]
  rw [FileTree.locate?, hstart]
  exact h.foldlM_follow hplace

/-! ### Directories that are made -/

/-- Whatever there is in a tree is in another one, unchanged. -/
structure Extends (t t' : FileTree) : Prop where
  working : t'.working = t.working
  entry : ∀ place e, t.entry? place = some e → t'.entry? place = some e

namespace Extends

theorem refl (t : FileTree) : Extends t t :=
  ⟨rfl, fun _ _ h => h⟩

theorem trans (h : Extends t t') (h' : Extends t' t'') : Extends t t'' :=
  ⟨h'.working.trans h.working, fun _ _ he => h'.entry _ _ (h.entry _ _ he)⟩

theorem grows (h : Extends t t') : Grows t t' where
  working := h.working
  exist place hsome := by
    obtain ⟨e, he⟩ := Option.isSome_iff_exists.1 hsome
    rw [h.entry place e he]
    rfl
  directory _ hplace := isDirectory_iff.2 (h.entry _ _ (isDirectory_iff.1 hplace))

/-- A file that can be read is read as before. -/
theorem read? (h : Extends t t') (hread : t.read? path = some contents) :
    t'.read? path = some contents := by
  obtain ⟨place, hplace, he⟩ := read?_eq_some_iff.1 hread
  exact read?_eq_some_iff.2 ⟨place, h.grows.locate? hplace, h.entry _ _ he⟩

end Extends

theorem extends_makeDirectory : Extends t (t.makeDirectory place) := by
  rw [makeDirectory]
  split_ifs with hsome
  · exact .refl t
  · refine ⟨rfl, fun other e he => ?_⟩
    rw [entry?_put_of_ne, he]
    rintro rfl
    exact hsome (by rw [he]; rfl)

theorem extends_makeFrom (segments : List String) : Extends t (t.makeFrom place segments).1 := by
  induction segments generalizing t place with
  | nil => exact .refl t
  | cons segment segments ih =>
    rw [makeFrom]
    split_ifs
    · exact extends_makeDirectory.trans ih
    · exact .refl t

theorem extends_makeDirectories (path : String) : Extends t (t.makeDirectories path).1 := by
  rw [makeDirectories]
  split_ifs
  · exact .refl t
  · exact extends_makeFrom _

theorem exists_of_makeDirectory (t : FileTree) (place : List String) :
    ∃ e, entry? (t.makeDirectory place) place = some e := by
  rw [makeDirectory]
  split_ifs with hsome
  · exact Option.isSome_iff_exists.1 hsome
  · have hne : place ≠ [] := by
      rintro rfl
      exact hsome rfl
    exact ⟨_, entry?_put_self hne⟩

/-- Directories that have all been made need not be made again. -/
theorem makeFrom_of_made {segments : List String} (h : (t.makeFrom place segments).2 = true)
    (hgrows : Grows (t.makeFrom place segments).1 t') :
    t'.makeFrom place segments = (t', true) := by
  induction segments generalizing t place with
  | nil => rw [makeFrom, hgrows.directory place h]
  | cons segment segments ih =>
    rw [makeFrom] at h hgrows
    split_ifs at h hgrows with hplace
    have hmade : Extends (t.makeDirectory (next place segment))
        ((t.makeDirectory (next place segment)).makeFrom (next place segment) segments).1 :=
      extends_makeFrom segments
    have hplace' : t'.isDirectory place :=
      hgrows.directory _ ((extends_makeDirectory.trans hmade).grows.directory _ hplace)
    obtain ⟨e, he⟩ := exists_of_makeDirectory t (next place segment)
    have hsome : (t'.entry? (next place segment)).isSome :=
      hgrows.exist _ (hmade.grows.exist _ (Option.isSome_of_eq_some he))
    have hkept : t'.makeDirectory (next place segment) = t' := by rw [makeDirectory, if_pos hsome]
    rw [makeFrom, if_pos hplace']
    dsimp only
    rw [hkept]
    exact ih h hgrows

theorem makeDirectories_of_made (h : (t.makeDirectories path).2 = true)
    (hgrows : Grows (t.makeDirectories path).1 t') : t'.makeDirectories path = (t', true) := by
  have hworking : t'.working = t.working :=
    hgrows.working.trans (extends_makeDirectories path).working
  have hstart : t'.start path = t.start path := by rw [start, start, hworking]
  rw [makeDirectories] at h hgrows ⊢
  split_ifs at h hgrows ⊢ with hempty
  · rfl
  · rw [hstart]
    exact makeFrom_of_made h hgrows

/-! ### Files that are written -/

theorem grows_put_file (h : ¬t.isDirectory place) : Grows t (t.put place (.file contents)) := by
  have hne : place ≠ [] := by
    rintro rfl
    exact h (isDirectory_iff.2 entry?_nil)
  refine ⟨rfl, fun other hother => ?_, fun other hother => ?_⟩
  · by_cases heq : other = place
    · rw [heq, entry?_put_self hne]
      rfl
    · rw [entry?_put_of_ne heq]
      exact hother
  · have hother' : other ≠ place := by
      rintro rfl
      exact h hother
    rw [isDirectory_iff, entry?_put_of_ne hother']
    exact isDirectory_iff.1 hother

theorem next_of_not_mem {name : String} (h : name ∉ ["", ".", ".."]) :
    next place name = place ++ [name] := by
  simp only [List.mem_cons, List.not_mem_nil, or_false, not_or] at h
  obtain ⟨hempty, hdot, hdots⟩ := h
  simp [next, hempty, hdot, hdots]

/-- A file is written into the directory at the end of the way to it, under the last
    segment of its path. -/
theorem exists_of_write? (h : t.write? path contents = some t') :
    ∃ place segments directory name, t.start path = (place, segments ++ [name]) ∧
      segments.foldlM t.follow place = some directory ∧ t.isDirectory directory ∧
      name ∉ ["", ".", ".."] ∧ ¬t.isDirectory (directory ++ [name]) ∧
      t' = t.put (directory ++ [name]) (.file contents) := by
  rw [write?] at h
  rcases hstart : t.start path with ⟨place, segments⟩
  rw [hstart] at h
  obtain ⟨directory, hdirectory, h⟩ := Option.bind_eq_some_iff.1 h
  obtain ⟨name, hname, h⟩ := Option.bind_eq_some_iff.1 h
  dsimp only at h
  split_ifs at h with hrefused
  simp only [Bool.or_eq_true, not_or, List.contains_iff_mem, Bool.not_eq_true',
    Bool.not_eq_false] at hrefused
  obtain ⟨⟨hplain, hisdir⟩, htarget⟩ := hrefused
  rw [next_of_not_mem hplain] at h htarget
  refine ⟨place, segments.dropLast, directory, name, ?_, hdirectory, hisdir, hplain, htarget,
    (Option.some.inj h).symm⟩
  rw [List.dropLast_append_getLast? _ hname]

/-- Whether something can be written to a path does not depend on what it is, and
    something else can be written in its place. -/
theorem exists_write?_of_write? (h : t.write? path contents = some t') (other : List UInt8) :
    Grows t t' ∧ (∃ t'', t.write? path other = some t'') ∧
      ∃ t'', t'.write? path other = some t'' := by
  obtain ⟨place, segments, directory, name, hstart, hdirectory, hisdir, hname, htarget, rfl⟩ :=
    exists_of_write? h
  have hgrows : Grows t (t.put (directory ++ [name]) (.file contents)) := grows_put_file htarget
  have hwrite : ∀ u : FileTree, u.start path = (place, segments ++ [name]) →
      segments.foldlM u.follow place = some directory → u.isDirectory directory →
      ¬u.isDirectory (directory ++ [name]) → ∃ t'', u.write? path other = some t'' := by
    intro u hstart hdirectory hisdir htarget
    refine ⟨u.put (directory ++ [name]) (.file other), ?_⟩
    rw [write?, hstart]
    dsimp only
    rw [List.dropLast_concat, hdirectory, Option.bind_eq_bind, Option.bind_some,
      List.getLast?_concat, Option.bind_eq_bind, Option.bind_some, next_of_not_mem hname, if_neg]
    simpa [hisdir, htarget] using hname
  refine ⟨hgrows, hwrite t hstart hdirectory hisdir htarget,
    hwrite _ hstart (hgrows.foldlM_follow hdirectory) (hgrows.directory _ hisdir) ?_⟩
  rw [isDirectory_iff, entry?_put_self (by simp)]
  exact fun heq => by cases heq

/-- What is written to a path is read from it. -/
theorem read?_of_write? (h : t.write? path contents = some t') :
    t'.read? path = some contents := by
  obtain ⟨place, segments, directory, name, hstart, hdirectory, hisdir, hname, htarget, rfl⟩ :=
    exists_of_write? h
  have hgrows : Grows t (t.put (directory ++ [name]) (.file contents)) := grows_put_file htarget
  have hentry : entry? (t.put (directory ++ [name]) (.file contents)) (directory ++ [name]) =
      some (.file contents) :=
    entry?_put_self (by simp)
  refine read?_eq_some_iff.2 ⟨directory ++ [name], ?_, hentry⟩
  -- The path is followed to its directory as before, and from there to the file.
  have hstart' : (t.put (directory ++ [name]) (.file contents)).start path =
      (place, segments ++ [name]) := hstart
  rw [locate?, hstart']
  change (segments ++ [name]).foldlM _ _ = _
  rw [List.foldlM_append, hgrows.foldlM_follow hdirectory, Option.bind_eq_bind, Option.bind_some,
    List.foldlM_cons, follow, next_of_not_mem hname, hentry, hgrows.directory _ hisdir]
  rfl

end ContainerBuild.FileTree
