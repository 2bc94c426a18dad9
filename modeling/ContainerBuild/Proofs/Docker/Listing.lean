import ContainerBuild.Docker.Client
import ContainerBuild.Proofs.Build.Script
import ContainerBuild.Proofs.Text.Lines

/-!
# The images of a listing

A reference has a tag if there is a colon in its last segment (`Tagged`), and one with
neither tag nor digest stands for the one with the tag `latest` (`withTag`). The listing is not
searched for this form of a reference: a line lists what it is itself, and what it is without
the tag `latest`. It comes to the same, but for lines without a tag (`lineLists_iff`), of which
the listing that the client asks for has none.

So the images that are pulled are those whose form with a tag is not listed
(`pulls_unlisted`).
-/

namespace ContainerBuild

namespace Docker

variable {reference line listing : String}

/-! ### References -/

/-- A reference with a tag: there is a colon, and no slash behind it. -/
def Tagged (reference : String) : Prop :=
  ∃ repository tag : String, reference = repository ++ ":" ++ tag ∧ '/' ∉ tag.toList

theorem contains_lastSegment_iff :
    (lastSegment reference).contains ':' = true ↔ Tagged reference := by
  rw [List.contains_iff_mem]
  obtain ⟨before, hreference, hslash, hbefore⟩ :=
    Text.reverse_takeWhile_eq_iff.1 (Eq.refl (lastSegment reference))
  constructor
  · intro hcolon
    obtain ⟨repository, tag, hsegment⟩ := List.append_of_mem hcolon
    refine ⟨.ofList (before ++ repository), .ofList tag, String.toList_inj.1 ?_, fun hmem => ?_⟩
    · rw [hreference, hsegment]
      simp
    · rw [String.toList_ofList] at hmem
      have hne := hslash '/' (by rw [hsegment]; simp [hmem])
      simp at hne
  · rintro ⟨repository, tag, rfl, htag⟩
    have hpass : ∀ c ∈ tag.toList.reverse, (decide (c ≠ '/')) = true := fun c hc =>
      decide_eq_true fun hslash => htag (hslash ▸ List.mem_reverse.1 hc)
    rw [lastSegment, String.toList_append, List.reverse_append,
      List.takeWhile_append_of_pos hpass]
    simp

instance (reference : String) : Decidable (Tagged reference) :=
  decidable_of_iff _ contains_lastSegment_iff

/-- A reference with the tag that it means, unless it has a tag or a digest. -/
def withTag (reference : String) : String :=
  if Tagged reference ∨ '@' ∈ reference.toList then reference else reference ++ ":latest"

theorem isUntagged_iff :
    isUntagged reference = true ↔ ¬(Tagged reference ∨ '@' ∈ reference.toList) := by
  rw [isUntagged, Bool.and_eq_true, Bool.not_eq_true', Bool.not_eq_true', not_or,
    ← contains_lastSegment_iff, ← List.contains_iff_mem, Bool.not_eq_true, Bool.not_eq_true]

/-! ### Listings -/

/-- The lines of a listing, without the white space around them. -/
def listedLines (listing : String) : List String :=
  (Text.stringLines listing).map Text.trim

/-- A line lists a reference that it is, and one that it is with a tag. -/
theorem lineLists_iff :
    lineLists reference line = true ↔ line = withTag reference ∨ line = reference := by
  rw [lineLists, Bool.or_eq_true, Bool.and_eq_true, beq_iff_eq, beq_iff_eq, isUntagged_iff, withTag]
  by_cases htag : Tagged reference ∨ '@' ∈ reference.toList
  · simp [htag]
  · simp [htag, defaultTag, or_comm]

/-- A line with a tag lists what it is with a tag. -/
theorem lineLists_iff_of_tagged (hline : Tagged line) :
    lineLists reference line = true ↔ line = withTag reference := by
  rw [lineLists_iff, or_iff_left_of_imp]
  rintro rfl
  exact (if_pos (.inl hline)).symm

theorem any_lineLists_iff (lines : List String) :
    lines.any (lineLists reference) = true ↔ withTag reference ∈ lines ∨ reference ∈ lines := by
  simp only [List.any_eq_true, lineLists_iff]
  constructor
  · rintro ⟨line, hline, rfl | rfl⟩
    · exact .inl hline
    · exact .inr hline
  · rintro (hline | hline)
    · exact ⟨_, hline, .inl rfl⟩
    · exact ⟨_, hline, .inr rfl⟩

theorem any_lineLists_iff_of_tagged {lines : List String} (hlines : ∀ line ∈ lines, Tagged line) :
    lines.any (lineLists reference) = true ↔ withTag reference ∈ lines := by
  rw [List.any_eq_true]
  constructor
  · rintro ⟨line, hline, hlists⟩
    rwa [← (lineLists_iff_of_tagged (hlines line hline)).1 hlists]
  · exact fun hline => ⟨_, hline, (lineLists_iff_of_tagged (hlines _ hline)).2 rfl⟩

/-! ### Pulls -/

theorem presentImages_eq (images : List String) :
    presentImages listing images = images.filter fun image =>
      withTag image ∈ listedLines listing ∨ image ∈ listedLines listing := by
  refine List.filter_congr fun image _ => ?_
  rw [Bool.eq_iff_iff, decide_eq_true_iff]
  exact any_lineLists_iff _

theorem presentImages_eq_of_tagged (hlisting : ∀ line ∈ listedLines listing, Tagged line)
    (images : List String) :
    presentImages listing images = images.filter (withTag · ∈ listedLines listing) := by
  refine List.filter_congr fun image _ => ?_
  rw [Bool.eq_iff_iff, decide_eq_true_iff]
  exact any_lineLists_iff_of_tagged hlisting

/-- What remains of a list without those of its elements that are filtered. -/
theorem filter_notMem_filter {α : Type} [DecidableEq α] (p : α → Prop) [DecidablePred p]
    (l : List α) : (l.filter fun a => a ∉ l.filter p) = l.filter fun a => ¬p a := by
  refine List.filter_congr fun a ha => ?_
  simp [ha]

/-- The client says which images a listing has, also if it need not ask for it. -/
theorem Client.listImages_eq {σ : Type} (client : Client) (h : Host σ) {images : List String}
    {s : σ} {f : Finished}
    (hf : (h.run false (client.command (client.listArguments images) none) s).1 = .ok f)
    (hsucceeded : f.succeeded) :
    ((client.builder h).listImages images s).1 = .ok (presentImages f.stdout images) := by
  cases images with
  | nil => rfl
  | cons image images =>
    change Except.bind (h.run false _ s).1 _ = _
    rw [hf]
    simp only [Except.bind, readListing, Finished.result, hsucceeded, if_true]
    rfl

end Docker

open Docker

/-- If all lines of a listing have tags, it lists a reference exactly if it has the reference
    with its tag. The docker client asks for such lines, so what is pulled without force is, in
    order, each image that is needed and not listed with its tag. Whatever the lines are, it is
    each that is listed neither with its tag nor as it is. -/
theorem pulls_unlisted :
    (∀ listing : String, (∀ line ∈ listedLines listing, Tagged line) →
      (∀ reference, (listedLines listing).any (lineLists reference) = true ↔
        withTag reference ∈ listedLines listing) ∧
      ∀ images, presentImages listing images =
        images.filter (withTag · ∈ listedLines listing)) ∧
    ∀ {σ : Type} (client : Client) (h : Host σ) (ctx : BuildContext σ) (d : Definition)
      (root : Vertex) (p : Progress σ) (f : Finished),
      let images := d.images root ctx.frontend
      let lines := listedLines f.stdout
      let run := (pullImages ctx images false).run p
      ctx.builder = client.builder h →
      (h.run false (client.command (client.listArguments images) none) p.state).1 = .ok f →
      f.succeeded →
      ∃ pulled es,
        pulled = images.filter (fun image => withTag image ∉ lines ∧ image ∉ lines) ∧
        ((∀ line ∈ lines, Tagged line) → pulled = images.filter (withTag · ∉ lines)) ∧
        Dialogue ctx p.state es run.2.state ∧ run.2.calls = p.calls ++ es.map (·.call) ∧
        Follows ctx.builder
          ((.listImages images, .present (presentImages f.stdout images)) ::
            pulled.map fun image => (.pullImage image, .done)) es run.1 ∧
        (run.1 = .ok () →
          run.2.calls = p.calls ++ .listImages images :: pulled.map .pullImage) := by
  refine ⟨fun listing hlisting => ⟨fun reference => any_lineLists_iff_of_tagged hlisting,
    presentImages_eq_of_tagged hlisting⟩, ?_⟩
  intro σ client h ctx d root p f images lines run hbuilder hf hsucceeded
  have hpresent : (ctx.builder.listImages images p.state).1 =
      .ok (presentImages f.stdout images) := by
    rw [hbuilder]
    exact client.listImages_eq h hf hsucceeded
  obtain ⟨es, haccount⟩ := exists_account_pullImages_of_present ctx hpresent
  have hfollows := haccount.course.follows_of_not_guarded fun y hy => by
    rw [pullScript, if_neg Bool.false_ne_true, List.mem_cons, List.mem_map] at hy
    rcases hy with rfl | ⟨image, -, rfl⟩ <;> rfl
  refine ⟨images.filter (· ∉ presentImages f.stdout images), es, ?_, fun hlines => ?_,
    haccount.dialogue, haccount.calls, hfollows, fun hok => ?_⟩
  · rw [presentImages_eq, filter_notMem_filter]
    simp only [not_or, lines]
  · rw [presentImages_eq_of_tagged hlines, filter_notMem_filter]
  · have hcalls := (hok ▸ hfollows).map_call_eq
    rw [haccount.calls, hcalls]
    simp [pullScript]

/-- A listing of some images, one of which has another tag than is asked for. -/
def provisions : String := "git:latest\nalpine:3.19\n<none>:<none>\n"

/-- A host that has these images, and on which all commands go well. -/
def provisioned : Host Nat where
  launch c s :=
    let listing := provisions.toList.map (·.toUInt8)
    (.ran { stdout := if c.arguments.contains "ls" then listing else [] }, s + 1)
  echo _ s := s
  cancelled _ := false

/-- A build on that host. -/
def provisionedContext : BuildContext Nat where
  builder := Client.builder provisioned { executable := "docker" }
  cancelled := provisioned.cancelled
  report _ s := s
  frontend := "frontend"

theorem pulls_unlisted_versioned :
    ∃ d root images, versioned.resolve [] = .ok d ∧ d.root [] = .ok root ∧
      images = d.images root provisionedContext.frontend ∧
      images = ["frontend", "alpine", "git"] ∧
      ((pullImages provisionedContext images false).run { state := 0 }).1 = .ok () ∧
      ((pullImages provisionedContext images false).run { state := 0 }).2.calls =
        [.listImages images, .pullImage "frontend", .pullImage "alpine"] := by
  let d := Resolution.resolved versioned []
  have h : versioned.resolve [] = .ok d := by rfl
  have hroot : d.root [] = .ok d.vertices[0] := by rfl
  have himages : d.images d.vertices[0] provisionedContext.frontend =
      ["frontend", "alpine", "git"] := by decide
  have hlisting : (provisioned.run false (Client.command { executable := "docker" }
      (Client.listArguments { executable := "docker" } ["frontend", "alpine", "git"]) none) 0).1 =
      .ok ⟨some 0, provisions, ""⟩ := by decide +kernel
  have hok : ((pullImages provisionedContext ["frontend", "alpine", "git"] false).run
      { state := 0 }).1 = .ok () := by rfl
  obtain ⟨pulled, -, -, htagged, -, -, -, hcalls⟩ :=
    pulls_unlisted.2 { executable := "docker" } provisioned provisionedContext d d.vertices[0]
      { state := 0 } _ rfl (himages ▸ hlisting) rfl
  have hpulled := htagged (by decide +kernel)
  rw [himages] at hpulled hcalls
  have hvalue : pulled = ["frontend", "alpine"] := hpulled.trans (by decide +kernel)
  refine ⟨d, _, _, h, hroot, himages.symm, rfl, hok, ?_⟩
  rw [hcalls hok, hvalue]
  rfl

end ContainerBuild
