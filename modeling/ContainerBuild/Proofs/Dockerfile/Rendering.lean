import ContainerBuild.Proofs.Dockerfile.HereDocument
import ContainerBuild.Proofs.Dockerfile.Quoting
import ContainerBuild.Proofs.Dockerfile.Tokens

/-!
# Documents are read back from their text

If the names, paths and references of a document are tokens (`Document.Plain`), the
text of the document says what it is made of, whatever its commands and the values of
its variables are (`Document.render_eq_iff`). Only two things cannot be told from the
text: how many line breaks a command has at its end, and whether a space in the value
of a variable was a line break (`Document.normal`).

The text is read from left to right. For every part of a document, from a mount to
a stage, one lemma says that its text shows where it ends (`framed_mount`, …,
`framed_stage`).
-/

namespace ContainerBuild.Dockerfile

open Text

/-! ### Documents of tokens -/

/-- A mount with tokens. -/
def Mount.Plain : Mount → Prop
  | .cache id target => IsToken id ∧ IsToken target
  | .secret id target _ => IsToken id ∧ IsToken target
  | .ssh _ => True

/-- A command with tokens in its options. -/
structure Run.Plain (r : Run) : Prop where
  mounts : ∀ m ∈ r.mounts, m.Plain
  network : ∀ n ∈ r.network, IsToken n

/-- An instruction with tokens, but for the value of a variable and the command. -/
def Instruction.Plain : Instruction → Prop
  | .workdir directory => IsToken directory
  | .env key _ => IsToken key
  | .copy source src dst => (∀ s ∈ source, IsToken s) ∧ IsToken src ∧ IsToken dst
  | .run r => r.Plain

/-- A stage with tokens. -/
structure Stage.Plain (s : Stage) : Prop where
  base : IsToken s.base
  platform : ∀ p ∈ s.platform, IsToken p
  label : ∀ l ∈ s.label, IsToken l
  instructions : ∀ i ∈ s.instructions, i.Plain

/-- A document with tokens. -/
structure Document.Plain (d : Document) : Prop where
  frontend : IsToken d.frontend
  stages : ∀ s ∈ d.stages, s.Plain

instance : (m : Mount) → Decidable m.Plain
  | .cache id target => inferInstanceAs (Decidable (IsToken id ∧ IsToken target))
  | .secret id target _ => inferInstanceAs (Decidable (IsToken id ∧ IsToken target))
  | .ssh _ => .isTrue trivial

instance (r : Run) : Decidable r.Plain :=
  decidable_of_iff ((∀ m ∈ r.mounts, m.Plain) ∧ ∀ n ∈ r.network, IsToken n)
    ⟨fun ⟨hm, hn⟩ => ⟨hm, hn⟩, fun ⟨hm, hn⟩ => ⟨hm, hn⟩⟩

instance : (i : Instruction) → Decidable i.Plain
  | .workdir directory => inferInstanceAs (Decidable (IsToken directory))
  | .env key _ => inferInstanceAs (Decidable (IsToken key))
  | .copy source src dst =>
    inferInstanceAs (Decidable ((∀ s ∈ source, IsToken s) ∧ IsToken src ∧ IsToken dst))
  | .run r => inferInstanceAs (Decidable r.Plain)

instance (s : Stage) : Decidable s.Plain :=
  decidable_of_iff (IsToken s.base ∧ (∀ p ∈ s.platform, IsToken p) ∧
      (∀ l ∈ s.label, IsToken l) ∧ ∀ i ∈ s.instructions, i.Plain)
    ⟨fun ⟨hb, hp, hl, hi⟩ => ⟨hb, hp, hl, hi⟩, fun ⟨hb, hp, hl, hi⟩ => ⟨hb, hp, hl, hi⟩⟩

instance (d : Document) : Decidable d.Plain :=
  decidable_of_iff (IsToken d.frontend ∧ ∀ s ∈ d.stages, s.Plain)
    ⟨fun ⟨hf, hs⟩ => ⟨hf, hs⟩, fun ⟨hf, hs⟩ => ⟨hf, hs⟩⟩

/-! ### What the text says -/

/-- A command without the line breaks at its end. -/
def Run.normal (r : Run) : Run :=
  { r with command := r.body }

/-- An instruction as its text says it. -/
def Instruction.normal : Instruction → Instruction
  | .env key value => .env key (folded value)
  | .run r => .run r.normal
  | i => i

/-- A stage as its text says it. -/
def Stage.normal (s : Stage) : Stage :=
  { s with instructions := s.instructions.map Instruction.normal }

/-- A document as its text says it: the commands have no line breaks at their ends,
    and the values of variables have spaces for line breaks. -/
def Document.normal (d : Document) : Document :=
  { d with stages := d.stages.map Stage.normal }

theorem Run.body_normal (r : Run) : r.normal.body = r.body := by
  rw [body, normal, body, String.toList_ofList, dropEndWhile_idempotent]

theorem Run.render_normal (r : Run) : r.normal.render = r.render := by
  have hdelimiter := delimiter_eq_of_body_eq r.body_normal
  rw [render, render, body_normal, options, options, hdelimiter]
  rfl

theorem Instruction.render_normal (i : Instruction) : i.normal.render = i.render := by
  cases i with
  | env key value => rw [normal, render, render, quoteValue_folded]
  | run r => exact r.render_normal
  | _ => rfl

theorem Stage.render_normal (s : Stage) : s.normal.render = s.render := by
  simp only [render, normal, List.map_map, Function.comp_def, Instruction.render_normal]

/-- What a document says has the same text. -/
theorem Document.render_normal (d : Document) : d.normal.render = d.render := by
  simp only [render, normal, List.map_map, Function.comp_def, Stage.render_normal]

/-! ### Mounts -/

/-- What stands behind an option of a command begins with a space. -/
def OptionEnd (text : List Char) : Prop :=
  ∃ rest, text = ' ' :: rest

theorem OptionEnd.stopped {text : List Char} (h : OptionEnd text) : Stopped text := by
  obtain ⟨rest, rfl⟩ := h
  exact stopped_cons (by decide) rest

theorem stopped_requiredMark (required : Bool) {rest : List Char} (h : OptionEnd rest) :
    Stopped ((requiredMark required).toList ++ rest) := by
  cases required with
  | false => exact h.stopped
  | true => exact stopped_append (by decide) rest

theorem framed_requiredMark :
    Framed (fun _ : Bool => True) OptionEnd (fun b => (requiredMark b).toList) id := by
  rintro b b' s s' - - ⟨rest, rfl⟩ ⟨rest', rfl⟩ h
  cases b <;> cases b' <;> simp [requiredMark] at h ⊢
  · exact h
  · exact h

namespace Mount

theorem render_cache_append (name target : String) (rest : List Char) :
    (cache name target).render.toList ++ rest = "type=cache,id=".toList ++
      (name.toList ++ (",target=".toList ++ (target.toList ++ rest))) := by
  have hrender : (cache name target).render = "type=cache,id=" ++ name ++ ",target=" ++ target :=
    rfl
  simp only [hrender, String.toList_append, List.append_assoc]

theorem render_secret_append (name target : String) (required : Bool) (rest : List Char) :
    (secret name target required).render.toList ++ rest = "type=secret,id=".toList ++
      (name.toList ++ (",target=".toList ++
        (target.toList ++ ((requiredMark required).toList ++ rest)))) := by
  have hrender : (secret name target required).render =
      "type=secret,id=" ++ name ++ ",target=" ++ target ++ requiredMark required := rfl
  simp only [hrender, String.toList_append, List.append_assoc]

theorem render_ssh_append (required : Bool) (rest : List Char) :
    (ssh required).render.toList ++ rest =
      "type=ssh".toList ++ ((requiredMark required).toList ++ rest) := by
  have hrender : (ssh required).render = "type=ssh" ++ requiredMark required := rfl
  simp only [hrender, String.toList_append, List.append_assoc]

end Mount

theorem framed_mount : Framed Mount.Plain OptionEnd (fun m => m.render.toList) id := by
  intro m m' s s' hm hm' hs hs' h
  beta_reduce at h
  cases m with
  | cache name target =>
    rw [Mount.render_cache_append] at h
    cases m' with
    | cache name' target' =>
      rw [Mount.render_cache_append] at h
      obtain ⟨hname, h⟩ := framed_token hm.1 hm'.1 (stopped_append (by decide) _)
        (stopped_append (by decide) _) (List.append_cancel_left h)
      obtain ⟨htarget, hrest⟩ := framed_token hm.2 hm'.2 hs.stopped hs'.stopped
        (List.append_cancel_left h)
      exact ⟨congrArg₂ Mount.cache hname htarget, hrest⟩
    -- Mounts of two kinds differ in their types.
    | secret => rw [Mount.render_secret_append] at h; simp at h
    | ssh => rw [Mount.render_ssh_append] at h; simp at h
  | secret name target required =>
    rw [Mount.render_secret_append] at h
    cases m' with
    | cache => rw [Mount.render_cache_append] at h; simp at h
    | secret name' target' required' =>
      rw [Mount.render_secret_append] at h
      obtain ⟨hname, h⟩ := framed_token hm.1 hm'.1 (stopped_append (by decide) _)
        (stopped_append (by decide) _) (List.append_cancel_left h)
      obtain ⟨htarget, h⟩ := framed_token hm.2 hm'.2 (stopped_requiredMark required hs)
        (stopped_requiredMark required' hs') (List.append_cancel_left h)
      obtain ⟨hrequired, hrest⟩ := framed_requiredMark trivial trivial hs hs' h
      obtain rfl : name = name' := hname
      obtain rfl : target = target' := htarget
      exact ⟨congrArg (Mount.secret name target) hrequired, hrest⟩
    | ssh => rw [Mount.render_ssh_append] at h; simp at h
  | ssh required =>
    rw [Mount.render_ssh_append] at h
    cases m' with
    | cache => rw [Mount.render_cache_append] at h; simp at h
    | secret => rw [Mount.render_secret_append] at h; simp at h
    | ssh required' =>
      rw [Mount.render_ssh_append] at h
      obtain ⟨hrequired, hrest⟩ := framed_requiredMark trivial trivial hs hs'
        (List.append_cancel_left h)
      exact ⟨congrArg Mount.ssh hrequired, hrest⟩

/-! ### Commands -/

/-- An option of a command, with what stands behind it. -/
def optionText (option : String) : List Char :=
  option.toList ++ continuation.toList

/-- The network as an option of a command, if there is one. -/
def networkOption (network : Option String) : List Char :=
  network.elim [] fun n => optionText ("--network=" ++ n)

theorem optionText_append (name value : String) (rest : List Char) :
    optionText (name ++ value) ++ rest =
      name.toList ++ (value.toList ++ (continuation.toList ++ rest)) := by
  rw [optionText, String.toList_append, List.append_assoc, List.append_assoc]

theorem optionEnd_continuation (rest : List Char) : OptionEnd (continuation.toList ++ rest) := by
  have hcontinuation : continuation.toList = [' ', '\\', '\n', ' ', ' ', ' ', ' '] := by decide
  rw [hcontinuation]
  exact ⟨_, rfl⟩

theorem framed_mountOption :
    Framed Mount.Plain (fun _ => True) (fun m => optionText ("--mount=" ++ m.render)) id := by
  intro m m' s s' hm hm' _ _ h
  beta_reduce at h
  rw [optionText_append, optionText_append] at h
  obtain ⟨hmount, hrest⟩ := framed_mount hm hm' (optionEnd_continuation s)
    (optionEnd_continuation s') (List.append_cancel_left h)
  exact ⟨hmount, List.append_cancel_left hrest⟩

theorem framed_mountOptions :
    Framed (fun ms : List Mount => ∀ m ∈ ms, m.Plain)
      (fun s => ∀ rest, s ≠ "--mount=".toList ++ rest)
      (List.flatMap fun m => optionText ("--mount=" ++ m.render)) (List.map id) :=
  framed_mountOption.flatMap (fun _ _ => trivial) (fun _ _ _ => trivial)
    fun _ s _ hend => hend _ (optionText_append _ _ s)

theorem framed_networkOption :
    Framed (fun o : Option String => ∀ n ∈ o, IsToken n) (fun s => s.head? = some '<')
      networkOption id := by
  refine @framed_optional _ _ "--network=" continuation rfl (fun n => ?_) (fun s _ => ?_)
    fun s rest hs heq => ?_
  · rw [networkOption, Option.elim_some, optionText, String.toList_append, List.append_assoc]
  · exact (optionEnd_continuation s).stopped
  · rw [heq] at hs
    simp at hs

/-- Behind the mounts of a command no other one begins. -/
theorem networkOption_ne_mount (network : Option String) (s rest : List Char) :
    networkOption network ++ ("<<".toList ++ s) ≠ "--mount=".toList ++ rest := by
  intro h
  cases network with
  | none => simp [networkOption] at h
  | some n =>
    rw [networkOption, Option.elim_some, optionText_append] at h
    simp at h

theorem intercalate_concat (sep last : List Char) (ls : List (List Char)) :
    sep.intercalate (ls ++ [last]) = ls.flatMap (· ++ sep) ++ last := by
  induction ls with
  | nil => exact List.intercalate_singleton
  | cons l ls ih =>
    have hne : ls ++ [last] ≠ [] := List.append_ne_nil_of_right_ne_nil ls (List.cons_ne_nil last [])
    obtain ⟨first, rest, hrest⟩ := List.exists_cons_of_ne_nil hne
    rw [List.cons_append, hrest, List.intercalate_cons_cons, ← hrest, ih, List.flatMap_cons,
      List.append_assoc, List.append_assoc, List.append_assoc]

/-- The options of a command, of which the last begins the here-document. -/
theorem Run.toList_options (r : Run) :
    (String.intercalate continuation r.options).toList =
      r.mounts.flatMap (fun m => optionText ("--mount=" ++ m.render)) ++
        (networkOption r.network ++ ("<<" ++ r.delimiter).toList) := by
  rw [String.toList_intercalate, options, List.map_append, List.map_singleton, intercalate_concat,
    List.map_append, List.flatMap_append, List.append_assoc, List.map_map, List.map_map,
    List.flatMap_map, List.flatMap_map]
  cases r.network <;> simp [networkOption, optionText]

theorem Run.render_append (r : Run) (rest : List Char) :
    (r.render ++ "\n").toList ++ rest = "RUN ".toList ++
      (r.mounts.flatMap (fun m => optionText ("--mount=" ++ m.render)) ++
        (networkOption r.network ++ ("<<".toList ++ (r.hereDocument.toList ++ rest)))) := by
  simp only [render, hereDocument, String.toList_append, toList_options, List.append_assoc]

theorem framed_run :
    Framed Run.Plain (fun _ => True) (fun r => (r.render ++ "\n").toList) Run.normal := by
  intro r r' s s' hr hr' _ _ h
  beta_reduce at h
  rw [r.render_append, r'.render_append] at h
  obtain ⟨hmounts, h⟩ := framed_mountOptions hr.mounts hr'.mounts
    (networkOption_ne_mount r.network _) (networkOption_ne_mount r'.network _)
    (List.append_cancel_left h)
  obtain ⟨hnetwork, h⟩ := framed_networkOption hr.network hr'.network (by simp) (by simp) h
  obtain ⟨hbody, hrest⟩ := framed_hereDocument trivial trivial trivial trivial
    (List.append_cancel_left h)
  rw [List.map_id, List.map_id] at hmounts
  refine ⟨?_, hrest⟩
  rw [Run.normal, Run.normal, hmounts, hbody, show r.network = r'.network from hnetwork]

/-! ### Instructions -/

namespace Instruction

variable {i i' : Instruction} {s s' : List Char}

/-- The text of an instruction up to its first space. -/
def keyword : Instruction → String
  | .workdir _ => "WORKDIR"
  | .env _ _ => "ENV"
  | .copy _ _ _ => "COPY"
  | .run _ => "RUN"

theorem isToken_keyword (i : Instruction) : IsToken i.keyword := by
  have hall : ∀ word ∈ ["WORKDIR", "ENV", "COPY", "RUN"], IsToken word := by decide
  cases i <;> exact hall _ (by simp [keyword])

theorem exists_keyword_append (i : Instruction) :
    ∃ arguments, i.render.toList = i.keyword.toList ++ ' ' :: arguments := by
  cases i with
  | workdir directory =>
    refine ⟨directory.toList, ?_⟩
    simp [render, keyword]
  | env key value =>
    refine ⟨key.toList ++ '=' :: '"' :: ((quoteValue value).toList ++ ['"']), ?_⟩
    simp [render, keyword]
  | copy source src dst =>
    refine ⟨(sourceOption source).toList ++ (src.toList ++ ' ' :: dst.toList), ?_⟩
    simp [render, keyword]
  | run r =>
    refine ⟨(String.intercalate continuation r.options ++ "\n" ++ r.body ++ "\n" ++
      r.delimiter).toList, ?_⟩
    simp [render, Run.render, keyword]

/-- The keyword of an instruction is read back. -/
theorem keyword_eq
    (h : i.render.toList ++ ['\n'] ++ s = i'.render.toList ++ ['\n'] ++ s') :
    i.keyword = i'.keyword := by
  obtain ⟨arguments, hi⟩ := i.exists_keyword_append
  obtain ⟨arguments', hi'⟩ := i'.exists_keyword_append
  simp only [hi, hi', List.append_assoc, List.cons_append] at h
  exact (framed_token i.isToken_keyword i'.isToken_keyword (stopped_cons (by decide) _)
    (stopped_cons (by decide) _) h).1

/-- An instruction begins with a letter. -/
theorem head?_render (i : Instruction) (s : List Char) :
    (i.render.toList ++ ['\n'] ++ s).head? ≠ some '\n' := by
  cases i <;> simp [render, Run.render]

theorem workdir_append (directory : String) (rest : List Char) :
    (workdir directory).render.toList ++ ['\n'] ++ rest =
      "WORKDIR ".toList ++ (directory.toList ++ '\n' :: rest) := by
  simp [render]

theorem env_append (key value : String) (rest : List Char) :
    (env key value).render.toList ++ ['\n'] ++ rest = "ENV ".toList ++
      (key.toList ++ '=' :: '"' :: ((quoteValue value).toList ++ '"' :: '\n' :: rest)) := by
  simp [render]

theorem copy_append (source : Option String) (src dst : String) (rest : List Char) :
    (copy source src dst).render.toList ++ ['\n'] ++ rest = "COPY ".toList ++
      ((sourceOption source).toList ++ (src.toList ++ ' ' :: (dst.toList ++ '\n' :: rest))) := by
  simp [render]

theorem run_append (r : Run) (rest : List Char) :
    (run r).render.toList ++ ['\n'] ++ rest = (r.render ++ "\n").toList ++ rest := by
  simp [render]

end Instruction

theorem framed_sourceOption :
    Framed (fun o : Option String => ∀ v ∈ o, IsToken v) Unset
      (fun o => (sourceOption o).toList) id := by
  refine @framed_optional _ _ ("--from" ++ "=") " " rfl (fun v => ?_)
    (fun s _ => stopped_append (by decide) s) fun s rest hs => hs.ne_append (by decide) rest
  simp [sourceOption]

theorem unset_of_path {path : String} (h : IsToken path) (rest : List Char) :
    Unset (path.toList ++ ' ' :: rest) :=
  ⟨path, ' ', rest, rfl, h, by decide, by decide⟩

theorem framed_instruction :
    Framed Instruction.Plain (fun _ => True) (fun i => i.render.toList ++ ['\n'])
      Instruction.normal := by
  intro i i' s s' hi hi' _ _ h
  beta_reduce at h
  -- This leaves the cases in which both instructions are of one kind.
  have hkeyword := Instruction.keyword_eq h
  cases i with
  | workdir directory =>
    cases i' with
    | workdir directory' =>
      rw [Instruction.workdir_append, Instruction.workdir_append] at h
      obtain ⟨hdirectory, hrest⟩ := framed_token hi hi' (stopped_cons (by decide) _)
        (stopped_cons (by decide) _) (List.append_cancel_left h)
      exact ⟨congrArg Instruction.workdir hdirectory, (List.cons.inj hrest).2⟩
    | _ => exact absurd hkeyword (by simp [Instruction.keyword])
  | env key value =>
    cases i' with
    | env key' value' =>
      rw [Instruction.env_append, Instruction.env_append] at h
      obtain ⟨hkey, h⟩ := framed_token hi hi' (stopped_cons (by decide) _)
        (stopped_cons (by decide) _) (List.append_cancel_left h)
      -- Behind the opening quote, the value is read up to the closing one.
      have hread := congrArg unquote (List.cons.inj (List.cons.inj h).2).2
      rw [unquote_quoteValue, unquote_quoteValue] at hread
      obtain ⟨hvalue, hrest⟩ := Prod.mk.inj (Option.some.inj hread)
      exact ⟨congrArg₂ Instruction.env hkey (String.toList_inj.1 hvalue), (List.cons.inj hrest).2⟩
    | _ => exact absurd hkeyword (by simp [Instruction.keyword])
  | copy source src dst =>
    cases i' with
    | copy source' src' dst' =>
      obtain ⟨hsource, hsrc, hdst⟩ := hi
      obtain ⟨hsource', hsrc', hdst'⟩ := hi'
      rw [Instruction.copy_append, Instruction.copy_append] at h
      obtain ⟨hfrom, h⟩ := framed_sourceOption hsource hsource' (unset_of_path hsrc _)
        (unset_of_path hsrc' _) (List.append_cancel_left h)
      obtain ⟨hpath, h⟩ := framed_token hsrc hsrc' (stopped_cons (by decide) _)
        (stopped_cons (by decide) _) h
      obtain ⟨hto, hrest⟩ := framed_token hdst hdst' (stopped_cons (by decide) _)
        (stopped_cons (by decide) _) (List.cons.inj h).2
      obtain rfl : source = source' := hfrom
      exact ⟨congrArg₂ (Instruction.copy source) hpath hto, (List.cons.inj hrest).2⟩
    | _ => exact absurd hkeyword (by simp [Instruction.keyword])
  | run r =>
    cases i' with
    | run r' =>
      rw [Instruction.run_append, Instruction.run_append] at h
      obtain ⟨hrun, hrest⟩ := framed_run hi hi' trivial trivial h
      exact ⟨congrArg Instruction.run hrun, hrest⟩
    | _ => exact absurd hkeyword (by simp [Instruction.keyword])

/-! ### Stages -/

/-- What stands behind a stage: nothing, or the blank line of the next one. -/
def StageEnd (text : List Char) : Prop :=
  text = [] ∨ text.head? = some '\n'

theorem framed_instructions :
    Framed (fun is : List Instruction => ∀ i ∈ is, i.Plain) StageEnd
      (List.flatMap fun i => i.render.toList ++ ['\n']) (List.map Instruction.normal) := by
  refine framed_instruction.flatMap (fun _ _ => trivial) (fun _ _ _ => trivial) fun i s _ hend => ?_
  rcases hend with hnil | hhead
  · simp at hnil
  · exact i.head?_render s hhead

theorem framed_platformOption :
    Framed (fun o : Option String => ∀ v ∈ o, IsToken v) Unset
      (fun o => (platformOption o).toList) id := by
  refine @framed_optional _ _ ("--platform" ++ "=") " " rfl (fun v => ?_)
    (fun s _ => stopped_append (by decide) s) fun s rest hs => hs.ne_append (by decide) rest
  simp [platformOption]

theorem framed_labelPart :
    Framed (fun o : Option String => ∀ l ∈ o, IsToken l) (fun s => s.head? = some '\n')
      (fun o => (labelPart o).toList) id := by
  refine @framed_optional _ _ " AS " "" rfl (fun l => ?_) (fun s hs c hc => ?_)
    fun s rest hs heq => ?_
  · simp [labelPart]
  · have hfeed : c = '\n' := Option.some.inj (hc.symm.trans hs)
    rw [hfeed]
    decide
  · rw [heq] at hs
    simp at hs

theorem Stage.render_append (s : Stage) (rest : List Char) :
    ("\n" ++ s.render).toList ++ rest = "\nFROM ".toList ++
      ((platformOption s.platform).toList ++ (s.base.toList ++ ((labelPart s.label).toList ++ '\n' ::
        (s.instructions.flatMap (fun i => i.render.toList ++ ['\n']) ++ rest)))) := by
  simp [render, List.flatMap_map]

/-- Behind the base of a stage stands the name of the stage or the end of the line. -/
theorem exists_stop_labelPart (label : Option String) (rest : List Char) :
    ∃ c text, (labelPart label).toList ++ '\n' :: rest = c :: text ∧ isStop c ∧ c ≠ '=' := by
  cases label with
  | none => exact ⟨'\n', rest, rfl, by decide, by decide⟩
  | some label =>
    refine ⟨' ', "AS ".toList ++ (label.toList ++ '\n' :: rest), ?_, by decide, by decide⟩
    simp [labelPart]

theorem framed_stage :
    Framed Stage.Plain StageEnd (fun stage => ("\n" ++ stage.render).toList) Stage.normal := by
  -- The base is no platform, and it ends where the name or the line break begins.
  have hbehind : ∀ {stage : Stage} (rest : List Char), stage.Plain →
      Unset (stage.base.toList ++ ((labelPart stage.label).toList ++ '\n' :: rest)) ∧
        Stopped ((labelPart stage.label).toList ++ '\n' :: rest) := by
    intro stage rest hp
    obtain ⟨c, text, htext, hc, hne⟩ := exists_stop_labelPart stage.label rest
    rw [htext]
    exact ⟨⟨stage.base, c, text, rfl, hp.base, hc, hne⟩, stopped_cons hc text⟩
  intro stage stage' s s' hp hp' hs hs' h
  beta_reduce at h
  rw [stage.render_append, stage'.render_append] at h
  obtain ⟨hplatform, h⟩ := framed_platformOption hp.platform hp'.platform (hbehind _ hp).1
    (hbehind _ hp').1 (List.append_cancel_left h)
  obtain ⟨hbase, h⟩ := framed_token hp.base hp'.base (hbehind _ hp).2 (hbehind _ hp').2 h
  obtain ⟨hlabel, h⟩ := framed_labelPart hp.label hp'.label rfl rfl h
  obtain ⟨hinstructions, hrest⟩ := framed_instructions hp.instructions hp'.instructions hs hs'
    (List.cons.inj h).2
  refine ⟨?_, hrest⟩
  rw [Stage.normal, Stage.normal, hinstructions, show stage.base = stage'.base from hbase,
    show stage.platform = stage'.platform from hplatform,
    show stage.label = stage'.label from hlabel]

theorem framed_stages :
    Framed (fun stages : List Stage => ∀ s ∈ stages, s.Plain) (fun s => s = [])
      (List.flatMap fun stage => ("\n" ++ stage.render).toList) (List.map Stage.normal) := by
  refine framed_stage.flatMap (fun _ h => .inl h) (fun stage s _ => .inr ?_) fun stage s _ h => ?_
  · rw [stage.render_append]
    rfl
  · simp at h

/-! ### Documents -/

namespace Document

theorem toList_render_eq (d : Document) :
    d.render.toList = "# syntax=".toList ++ (d.frontend.toList ++ '\n' ::
      d.stages.flatMap fun stage => ("\n" ++ stage.render).toList) := by
  simp [render, List.flatMap_map]

/-- Documents of tokens have the same text exactly if they are the same, but for the
    line breaks at the ends of their commands and those in the values of variables. -/
theorem render_eq_iff {d d' : Document} (hd : d.Plain) (hd' : d'.Plain) :
    d.render = d'.render ↔ d.normal = d'.normal := by
  constructor
  · intro h
    have htext := congrArg String.toList h
    rw [d.toList_render_eq, d'.toList_render_eq] at htext
    obtain ⟨hfrontend, hrest⟩ := framed_token hd.frontend hd'.frontend
      (stopped_cons (by decide) _) (stopped_cons (by decide) _) (List.append_cancel_left htext)
    have hlist := (List.cons.inj hrest).2
    rw [← List.append_nil (d.stages.flatMap _), ← List.append_nil (d'.stages.flatMap _)] at hlist
    obtain ⟨hstages, _⟩ := framed_stages hd.stages hd'.stages rfl rfl hlist
    rw [normal, normal, hstages, show d.frontend = d'.frontend from hfrontend]
  · intro h
    rw [← d.render_normal, h, d'.render_normal]

/-- A document whose command may look like more of the document. -/
def disguised (value command : String) : Document where
  frontend := "docker/dockerfile:1.4"
  stages := [{
    base := "golang"
    platform := some "linux/amd64"
    label := some "base"
    instructions := [
      .env "VERSION" value,
      .copy none "." "/src",
      .run { mounts := [.cache "go" "/root/.cache", .ssh true], network := some "host", command }] }]

theorem render_eq_iff_disguised :
    ∃ d d', d = disguised "1\n2" "cat <<EOF\nEOF\n\nFROM scratch" ∧
      d' = disguised "1 2" "cat <<EOF\nEOF\n\nFROM scratch\n\n" ∧
      d.Plain ∧ d'.Plain ∧ d ≠ d' ∧ d.render = d'.render := by
  refine ⟨_, _, rfl, rfl, ?_⟩
  have hd : (disguised "1\n2" "cat <<EOF\nEOF\n\nFROM scratch").Plain := by decide
  have hd' : (disguised "1 2" "cat <<EOF\nEOF\n\nFROM scratch\n\n").Plain := by decide
  have hnormal : (disguised "1\n2" "cat <<EOF\nEOF\n\nFROM scratch").normal =
      (disguised "1 2" "cat <<EOF\nEOF\n\nFROM scratch\n\n").normal := by decide +kernel
  exact ⟨hd, hd', by decide, (render_eq_iff hd hd').2 hnormal⟩

end Document

end ContainerBuild.Dockerfile
