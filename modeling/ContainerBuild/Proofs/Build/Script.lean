import ContainerBuild.Proofs.Build.Dialogue
import ContainerBuild.Proofs.Build.Roots

/-!
# The script of a build

What a build does follows from its definition, from which images the builder
says are present, and from the values it computes: `Definition.script` lists the
calls, phase after phase. A build that is not cancelled follows this script, and
one that asks for something that is not declared calls nothing
(`build_follows_script`).
-/

namespace ContainerBuild

open Dockerfile (Document)

variable {σ : Type}

/-! ### Scripts -/

/-- The calls that pull images: all of them, or those that a listing lacks. -/
def pullScript (images : List String) (force : Bool) (present : List String) :
    List (Call × Reply) :=
  let pulls := fun images => images.map fun image => (Call.pullImage image, Reply.done)
  if force then pulls images
  else (.listImages images, .present present) :: pulls (images.filter (· ∉ present))

/-- The call that computes a variable, without the cache. -/
def valueEntry (ctx : BuildContext σ) (v : Var) (value : String) : Call × Reply :=
  (.value (v.document ctx.frontend)
    { stage := v.name, sshAgent := ctx.sshAgent, secrets := ctx.secrets, useCache := false },
    .value value)

/-- The call that builds a stage of a document. -/
def stageEntry (ctx : BuildContext σ) (document : Document) (step : BuildStep) : Call × Reply :=
  (.build document
    { stage := step.stage, sshAgent := ctx.sshAgent, secrets := ctx.secrets
      output := step.output },
    .done)

/-- The calls of a build, if some images are present and the variables get some
    values. All stages are built from one document, with exactly these values. -/
def Definition.script (d : Definition) (ctx : BuildContext σ) (root : Vertex) (force : Bool)
    (present values : List String) : List (Call × Reply) :=
  let document := d.document root ⟨(d.vars.map (·.name)).zip values⟩ ctx.frontend
  pullScript (d.images root ctx.frontend) force present ++
    (d.vars.zipWith (valueEntry ctx) values ++ (d.plan root).map (stageEntry ctx document))

/-! ### Phases -/

section Phases

variable (ctx : BuildContext σ) {b : Builder σ}

/-- A call other than for a value gives what the builder replies, or its error. -/
theorem makes_of_answer_eq {α : Type} {c : Call} {reply : α → Reply} {f : σ → Except Error α × σ}
    (hanswer : ∀ s, b.answer c s = ((f s).1.map reply, (f s).2))
    (hc : ∀ document request, c ≠ .value document request) : Makes b c reply f := by
  intro s
  rw [hanswer]
  refine ⟨rfl, ?_⟩
  cases (f s).1 with
  | ok a => exact .ok rfl
  | error e =>
    exact .error ⟨e, rfl, .unchanged fun document request h => absurd h (hc document request)⟩

theorem tells_blameVar (document : Document) (request : ValueRequest) (e : Error) :
    Tells (.value document request) e (blameVar request.stage e) := by
  unfold blameVar
  split
  · exact .unchanged fun _ _ _ => .inl rfl
  · exact .unchanged fun _ _ _ => .inr ⟨_, _, rfl⟩
  · rename_i hcancelled hunreadable
    exact .blamed hcancelled hunreadable

/-- The listing, and the images that it leaves to be pulled. -/
theorem exists_account_imagesToPull (images : List String) (p : Progress σ) :
    ∃ present es,
      Account ctx [(.listImages images, .present present)] p es
        ((imagesToPull ctx images false).run p) ∧
      ∀ l, ((imagesToPull ctx images false).run p).1 = .ok l → l = images.filter (· ∉ present) := by
  have hmakes : Makes ctx.builder (.listImages images) .present (ctx.builder.listImages images) :=
    makes_of_answer_eq (fun _ => rfl) fun _ _ => Call.noConfusion
  obtain ⟨present, es, haccount, hpresent⟩ :=
    exists_account_call (p := p) hmakes fun h => absurd h Bool.false_ne_true
  refine ⟨present, es, haccount.bind_silent fun a p => ⟨_, _, rfl, .start⟩, fun l hl => ?_⟩
  obtain ⟨a, p', hrun, hl⟩ := exists_run_of_run_bind hl
  obtain rfl := hpresent a (by rw [hrun])
  obtain rfl := Except.ok.inj hl
  simp

theorem exists_account_pullImage (image : String) (p : Progress σ) :
    ∃ es, Account ctx [(.pullImage image, .done)] p es ((pullImage ctx image).run p) := by
  have hmakes : Makes ctx.builder (.pullImage image) (fun _ => .done)
      (ctx.builder.pullImage image) :=
    makes_of_answer_eq (fun _ => rfl) fun _ _ => Call.noConfusion
  obtain ⟨_, es, haccount, _⟩ :=
    exists_account_call (p := p) hmakes fun h => absurd h Bool.false_ne_true
  exact ⟨es, haccount⟩

/-- All images that are to be pulled are pulled. There is no report if there are
    none. -/
theorem exists_account_pulls (images : List String) (force : Bool) (p : Progress σ) :
    ∃ es, Account ctx (images.map fun image => (.pullImage image, .done)) p es
      ((if images.isEmpty then return ()
        else do
          BuildM.report ctx (.imagesPulling images force)
          images.forM (pullImage ctx) : BuildM σ Unit).run p) := by
  cases images with
  | nil => exact ⟨[], .silent .start⟩
  | cons image images =>
    obtain ⟨es, haccount⟩ := exists_account_forM (exists_account_pullImage ctx) (image :: images)
      ⟨ctx.report (.imagesPulling (image :: images) force) p.state, p.calls⟩
    refine ⟨es, ?_⟩
    rw [List.isEmpty_cons, if_neg Bool.false_ne_true, run_bind, BuildM.run_report]
    exact haccount.report_left

theorem exists_account_pullImages (images : List String) (force : Bool) (p : Progress σ) :
    ∃ present es,
      Account ctx (pullScript images force present) p es ((pullImages ctx images force).run p) := by
  cases force with
  | true =>
    obtain ⟨es, haccount⟩ := exists_account_pulls ctx images true p
    exact ⟨[], es, haccount⟩
  | false =>
    obtain ⟨present, es, haccount, hpull⟩ := exists_account_imagesToPull ctx images p
    rw [pullImages]
    rcases hrun : (imagesToPull ctx images false).run p with ⟨e | toPull, p'⟩
    · exact ⟨present, es, .bind_error _ hrun haccount⟩
    · obtain rfl := hpull toPull (by rw [hrun])
      obtain ⟨es', haccount'⟩ := exists_account_pulls ctx (images.filter (· ∉ present)) false p'
      exact ⟨present, es ++ es', .bind_ok hrun haccount haccount'⟩

/-- The pulls behind a listing that went well. -/
theorem exists_account_pullImages_of_present {images present : List String} {p : Progress σ}
    (hpresent : (ctx.builder.listImages images p.state).1 = .ok present) :
    ∃ es, Account ctx (pullScript images false present) p es
      ((pullImages ctx images false).run p) := by
  have hrun : (imagesToPull ctx images false).run p =
      (.ok (images.filter (· ∉ present)),
        ⟨(ctx.builder.listImages images p.state).2, p.calls ++ [.listImages images]⟩) := by
    have hfilter : (images.filter fun image => !present.contains image) =
        images.filter (· ∉ present) := List.filter_congr fun image _ => by simp
    rw [imagesToPull, if_neg Bool.false_ne_true, run_bind, BuildM.run_call, hpresent, ← hfilter]
    rfl
  have haccount : Account ctx [(.listImages images, .present present)] p
      [⟨.listImages images, p.state⟩] ((imagesToPull ctx images false).run p) := by
    rw [hrun]
    refine ⟨Dialogue.start.call (.listImages images), rfl, ?_,
      .follows (.completed (.cons ⟨rfl, ?_⟩ .nil))⟩
    · exact List.forall_mem_singleton.2 fun hguarded => absurd hguarded Bool.false_ne_true
    · exact congrArg (Except.map Reply.present) hpresent
  obtain ⟨es, hpulls⟩ := exists_account_pulls ctx (images.filter (· ∉ present)) false
    ⟨(ctx.builder.listImages images p.state).2, p.calls ++ [.listImages images]⟩
  exact ⟨_, .bind_ok hrun haccount hpulls⟩

theorem exists_account_askValue (v : Var) {p : Progress σ}
    (hchecked : ∃ r s, p.state = ctx.report r s ∧ ctx.cancelled s = false) :
    ∃ value es, Account ctx [valueEntry ctx v value] p es ((askValue ctx v).run p) ∧
      ∀ value', ((askValue ctx v).run p).1 = .ok value' → value' = value := by
  have hmakes : Makes ctx.builder (.value (v.document ctx.frontend) (valueRequest ctx v)) .value
      fun s =>
        let answered := ctx.builder.value (v.document ctx.frontend) (valueRequest ctx v) s
        (answered.1.mapError (blameVar v.name), answered.2) := by
    intro s
    refine ⟨rfl, ?_⟩
    simp only [Builder.answer]
    cases (ctx.builder.value _ _ s).1 with
    | ok value => exact .ok rfl
    | error e => exact .error ⟨e, rfl, tells_blameVar _ (valueRequest ctx v) e⟩
  exact exists_account_call hmakes fun _ => hchecked

theorem exists_account_computeVar (values : VarValues) (v : Var) (p : Progress σ) :
    ∃ value es, Account ctx [valueEntry ctx v value] p es ((computeVar ctx values v).run p) ∧
      ∀ values', ((computeVar ctx values v).run p).1 = .ok values' →
        values' = values.insert v.name value := by
  simp only [computeVar, BuildM.run_checkpoint_report]
  cases hcancelled : ctx.cancelled p.state with
  | true =>
    -- Any value will do for a script that is not followed up to here.
    exact ⟨"", [], .stopped hcancelled rfl, fun _ h => nomatch h⟩
  | false =>
    obtain ⟨value, es, haccount, hvalue⟩ := exists_account_askValue ctx v
      (p := ⟨ctx.report (.varStarted v.name) p.state, p.calls⟩) ⟨_, _, rfl, hcancelled⟩
    refine ⟨value, es, .report_left (haccount.bind_silent fun a p => ⟨_, _, rfl, .report _ .start⟩),
      fun values' h => ?_⟩
    obtain ⟨value', p', hrun, h⟩ := exists_run_of_run_bind h
    obtain rfl := hvalue value' (by rw [hrun])
    exact (Except.ok.inj h).symm

/-- The value of a new name is put last. -/
theorem put_of_notMem {name value : String} {entries : List (String × String)}
    (h : name ∉ entries.map (·.1)) :
    VarValues.put name value entries = entries ++ [(name, value)] := by
  induction entries with
  | nil => rfl
  | cons entry entries ih =>
    rw [List.map_cons, List.mem_cons, not_or] at h
    rw [VarValues.put, if_neg (Ne.symm h.1), ih h.2, List.cons_append]

/-- Variables with distinct names get the values that are replied, in their
    order. -/
theorem exists_account_computeVars {vars : List Var} (hd : (vars.map (·.name)).Nodup)
    (values : VarValues) (hfresh : ∀ v ∈ vars, v.name ∉ values.entries.map (·.1))
    (p : Progress σ) :
    ∃ replies es, replies.length = vars.length ∧
      Account ctx (vars.zipWith (valueEntry ctx) replies) p es
        ((vars.foldlM (computeVar ctx) values).run p) ∧
      ∀ values', ((vars.foldlM (computeVar ctx) values).run p).1 = .ok values' →
        values'.entries = values.entries ++ (vars.map (·.name)).zip replies := by
  induction vars generalizing values p with
  | nil =>
    refine ⟨[], [], rfl, .silent .start, fun values' h => ?_⟩
    obtain rfl := Except.ok.inj h
    simp
  | cons v vars ih =>
    obtain ⟨hv, hd⟩ := List.nodup_cons.1 hd
    obtain ⟨value, es, haccount, hinsert⟩ := exists_account_computeVar ctx values v p
    have hentries : (values.insert v.name value).entries = values.entries ++ [(v.name, value)] :=
      put_of_notMem (hfresh v List.mem_cons_self)
    rw [List.foldlM_cons]
    rcases hrun : (computeVar ctx values v).run p with ⟨e | values', p'⟩
    · -- What the other variables would have got does not matter.
      refine ⟨value :: vars.map (·.name), es, by simp, .bind_error _ hrun haccount, fun _ h => ?_⟩
      rw [run_bind, hrun] at h
      cases h
    · -- The name is none of those before it, so the value is put last, and the
      -- names that are still to come are fresh after it as well.
      obtain rfl := hinsert values' (by rw [hrun])
      have hfresh' : ∀ u ∈ vars, u.name ∉ (values.insert v.name value).entries.map (·.1) := by
        intro u hu
        rw [hentries, List.map_append, List.mem_append, not_or]
        refine ⟨hfresh u (List.mem_cons_of_mem _ hu), fun h => hv ?_⟩
        rw [← List.mem_singleton.1 h]
        exact List.mem_map_of_mem hu
      obtain ⟨replies, es', hlength, haccount', hvalues⟩ := ih hd _ hfresh' p'
      refine ⟨value :: replies, es ++ es', by rw [List.length_cons, hlength, List.length_cons],
        .bind_ok hrun haccount haccount', fun values' h => ?_⟩
      rw [run_bind, hrun] at h
      rw [hvalues values' h, hentries, List.append_assoc]
      rfl

/-! ### The whole build -/

theorem exists_account_buildStep (document : Document) (step : BuildStep) (p : Progress σ) :
    ∃ es, Account ctx [stageEntry ctx document step] p es
      ((buildStep ctx document step).run p) := by
  have hmakes : Makes ctx.builder (.build document (stageRequest ctx step)) (fun _ => .done)
      (ctx.builder.build document (stageRequest ctx step)) :=
    makes_of_answer_eq (fun _ => rfl) fun _ _ => Call.noConfusion
  simp only [buildStep, BuildM.run_checkpoint_report]
  cases hcancelled : ctx.cancelled p.state with
  | true => exact ⟨[], .stopped hcancelled rfl⟩
  | false =>
    obtain ⟨_, es, haccount, _⟩ := exists_account_call hmakes
      (p := ⟨ctx.report (.stepStarted step) p.state, p.calls⟩) fun _ => ⟨_, _, rfl, hcancelled⟩
    exact ⟨es, .report_left (haccount.bind_silent fun _ p => ⟨_, _, rfl, .report _ .start⟩)⟩

theorem runBuild_of_root_error {d : Definition} {requested : List String} {e : Error}
    (h : d.root requested = .error e) (force : Bool) (s : σ) :
    d.runBuild ctx requested force s = (.error e, { state := s }) := by
  rw [Definition.runBuild, Definition.build, h]
  rfl

/-- A build of a root goes through the three phases of its script. -/
theorem exists_account_build {d : Definition} (hd : (d.vars.map (·.name)).Nodup)
    {requested : List String} {root : Vertex} (hroot : d.root requested = .ok root)
    (force : Bool) (p : Progress σ) :
    ∃ present values es, values.length = d.vars.length ∧
      Account ctx (d.script ctx root force present values) p es
        ((d.build ctx requested force).run p) := by
  have hbuild : (d.build ctx requested force).run p =
      ((do
        pullImages ctx (d.images root ctx.frontend) force
        let values ← computeVars ctx d.vars
        buildSteps ctx d root values : BuildM σ Unit).run p) := by
    rw [Definition.build, hroot]
    rfl
  rw [hbuild]
  obtain ⟨present, es₁, haccount₁⟩ :=
    exists_account_pullImages ctx (d.images root ctx.frontend) force p
  rcases hrun₁ : (pullImages ctx (d.images root ctx.frontend) force).run p with ⟨e | _, p₁⟩
  · exact ⟨present, d.vars.map (·.name), es₁, List.length_map _, .bind_error _ hrun₁ haccount₁⟩
  -- There are no values at first, so those that the document gets are the ones
  -- that are replied.
  obtain ⟨values, es₂, hlength, haccount₂, hvalues⟩ :=
    exists_account_computeVars ctx hd .empty (fun _ _ => List.not_mem_nil) p₁
  refine ⟨present, values, ?_⟩
  rcases hrun₂ : (d.vars.foldlM (computeVar ctx) .empty).run p₁ with ⟨e | given, p₂⟩
  · exact ⟨es₁ ++ es₂, hlength, .bind_ok hrun₁ haccount₁ (.bind_error _ hrun₂ haccount₂)⟩
  obtain ⟨given⟩ := given
  obtain rfl : given = (d.vars.map (·.name)).zip values := hvalues _ (by rw [hrun₂])
  obtain ⟨es₃, haccount₃⟩ := exists_account_forM (exists_account_buildStep ctx _) (d.plan root) p₂
  exact ⟨es₁ ++ (es₂ ++ es₃), hlength,
    .bind_ok hrun₁ haccount₁ (.bind_ok hrun₂ haccount₂ haccount₃)⟩

end Phases

open Definition

/-- A request for something that is not declared makes no calls. A build that
    is not cancelled, and therefore not when it ends either, makes the calls of
    its script, with what the builder really replied, up to the end or to the
    first call that fails. -/
theorem build_follows_script {file : BuildFile} {secrets : List SecretSource} {d : Definition}
    (h : file.resolve secrets = .ok d) (ctx : BuildContext σ) (requested : List String)
    (force : Bool) (s : σ)
    (hcancelled : ctx.cancelled (d.runBuild ctx requested force s).2.state = false) :
    ((∃ name ∈ asked requested, name ∉ d.vertices.map (·.name)) →
      ∃ name ∈ asked requested, name ∉ d.vertices.map (·.name) ∧
        d.runBuild ctx requested force s = (.error (.targetNotFound name), { state := s })) ∧
    ((∀ name ∈ asked requested, name ∈ d.vertices.map (·.name)) →
      ∃ root present values es, d.RootIs requested root ∧ values.length = d.vars.length ∧
        Dialogue ctx s es (d.runBuild ctx requested force s).2.state ∧
        (d.runBuild ctx requested force s).2.calls = es.map (·.call) ∧
        Follows ctx.builder (d.script ctx root force present values) es
          (d.runBuild ctx requested force s).1) := by
  have houtcome := d.root_outcome requested
  constructor
  · rintro ⟨name, hname, hundeclared⟩
    cases hroot : d.root requested with
    | ok root => exact absurd ((houtcome.of_ok hroot).mem_names name hname) hundeclared
    | error e =>
      obtain ⟨name, hname, rfl, hundeclared⟩ := houtcome.of_error hroot
      exact ⟨name, hname, hundeclared, runBuild_of_root_error ctx hroot force s⟩
  · intro hdeclared
    cases hroot : d.root requested with
    | error e =>
      obtain ⟨name, hname, _, hundeclared⟩ := houtcome.of_error hroot
      exact absurd (hdeclared name hname) hundeclared
    | ok root =>
      obtain ⟨present, values, es, hlength, haccount⟩ := exists_account_build ctx
        (BuildFile.vars_nodup_of_resolve h) hroot force { state := s }
      exact ⟨root, present, values, es, houtcome.of_ok hroot, hlength, haccount.dialogue,
        haccount.calls, haccount.course.follows_of_not_cancelled hcancelled⟩

/-- Variables of which the second is not computed. -/
def versioned : BuildFile where
  apiVersion := BuildFile.supportedVersion
  targets := [("all", .aggregate ["app"]), ("app", .target { base := some "alpine" })]
  vars := [
    ("COMMIT", { base := "git", command := "git rev-parse HEAD" }),
    ("VERSION", { base := "git", command := "git describe" })]

/-- A builder that has no images, and fails when it has answered some calls. -/
def failing : Builder Nat where
  listImages _ s := (.ok [], s - 1)
  pullImage _ s := (.ok (), s - 1)
  value _ _ s :=
    (if s = 0 then .error (.builderFailed "build" "no space left" 1) else .ok "v1", s - 1)
  build _ _ s := (.ok (), s - 1)
  clearCache _ s := (.ok (), s)

/-- A build with this builder, which is not cancelled. -/
def failingContext : BuildContext Nat where
  builder := failing
  cancelled _ := false
  report _ s := s
  frontend := "frontend"

/-- The same variables, and two targets that are built with their values. -/
def released : BuildFile :=
  { versioned with
    targets := [("all", .aggregate ["app", "docs"]), ("app", .target { base := some "alpine" }),
      ("docs", .target { base := some "alpine", output := some ⟨"/site", "site"⟩ })] }

theorem build_follows_script_versioned :
    (∃ d ctx root present values es, versioned.resolve [] = .ok d ∧
      ctx.cancelled (d.runBuild ctx [] false 5).2.state = false ∧
      (d.runBuild ctx [] false 5).1 =
        .error (.varFailed "VERSION" (.builderFailed "build" "no space left" 1)) ∧
      (d.runBuild ctx [] false 5).2.calls = es.map (·.call) ∧ es.length = 6 ∧
      Dialogue ctx 5 es (d.runBuild ctx [] false 5).2.state ∧
      Follows ctx.builder (d.script ctx root false present values) es
        (d.runBuild ctx [] false 5).1) ∧
    ∃ d ctx root present values es document, released.resolve [] = .ok d ∧
      ctx.cancelled (d.runBuild ctx [] false 9).2.state = false ∧
      (d.runBuild ctx [] false 9).1 = .ok () ∧
      (d.runBuild ctx [] false 9).2.calls = es.map (·.call) ∧ es.length = 8 ∧
      document = d.document root ⟨[("COMMIT", "v1"), ("VERSION", "v1")]⟩ "frontend" ∧
      (d.runBuild ctx [] false 9).2.calls.drop 6 =
        [.build document (stageRequest ctx ⟨"app", "app", none⟩),
          .build document (stageRequest ctx ⟨"docs", "docs-out", some "site"⟩)] ∧
      Dialogue ctx 9 es (d.runBuild ctx [] false 9).2.state ∧
      Follows ctx.builder (d.script ctx root false present values) es
        (d.runBuild ctx [] false 9).1 := by
  constructor
  · let d := Resolution.resolved versioned []
    have h : versioned.resolve [] = .ok d := by rfl
    have hresult : (d.runBuild failingContext [] false 5).1 =
        .error (.varFailed "VERSION" (.builderFailed "build" "no space left" 1)) := by rfl
    have hlength : (d.runBuild failingContext [] false 5).2.calls.length = 6 := by rfl
    obtain ⟨root, present, values, es, _, _, hdialogue, hcalls, hfollows⟩ :=
      (build_follows_script h failingContext [] false 5 rfl).2 (by decide)
    rw [hcalls, List.length_map] at hlength
    exact ⟨d, failingContext, root, present, values, es, h, rfl, hresult, hcalls, hlength,
      hdialogue, hfollows⟩
  · have h : released.resolve [] = .ok (Resolution.resolved released []) := by rfl
    obtain ⟨root, present, values, es, hroot, _, hdialogue, hcalls, hfollows⟩ :=
      (build_follows_script h failingContext [] false 9 rfl).2 (by decide)
    -- The only target of the default name is the aggregate.
    obtain rfl : root = .aggregate "all" [1, 2] := by
      cases hroot with
      | default hmem hname =>
        have hdefault : ∀ v ∈ (Resolution.resolved released []).vertices,
            v.name = defaultTarget → v = .aggregate "all" [1, 2] := by decide
        exact hdefault root hmem hname
      | aggregate hlength _ => exact absurd hlength (by decide)
    have hresult : ((Resolution.resolved released []).runBuild failingContext [] false 9).1 =
        .ok () := by decide +kernel
    have hlength :
        ((Resolution.resolved released []).runBuild failingContext [] false 9).2.calls.length =
          8 := by decide +kernel
    rw [hcalls, List.length_map] at hlength
    exact ⟨_, failingContext, _, present, values, es, _, h, rfl, hresult, hcalls, hlength, rfl,
      by decide +kernel, hdialogue, hfollows⟩

end ContainerBuild
