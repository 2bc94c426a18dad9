import ContainerBuild.Docker.Client
import ContainerBuild.Proofs.Build.Plan
import ContainerBuild.Proofs.Build.Script

/-!
# Cancelled builds

A build may have been cancelled before it starts, or be cancelled during any of
its calls (`CancelledDuring`), and then stays so (`BuildContext.Latching`). From
that moment on no value is computed and no stage is built, and the build does
not succeed unless only its last stage was left (`Halted`). Images may still be
listed and pulled, because there are no checkpoints between these calls.

A builder that *refuses* the calls of a cancelled build ends the build with the
first of them (`BuildContext.Refuses`). The docker client refuses them because
it looks for the cancellation in front of every command, so no command is
started any more.
-/

namespace ContainerBuild

variable {σ : Type}

/-- Cancellation is for good, and comes during a call if it comes at all. -/
structure BuildContext.Latching (ctx : BuildContext σ) : Prop where
  report : ∀ r s, ctx.cancelled (ctx.report r s) = ctx.cancelled s
  call : ∀ c s, ctx.cancelled s = true → ctx.cancelled (ctx.builder.answer c s).2 = true

/-- The calls of a cancelled build fail, unless nothing is asked for. -/
def BuildContext.Refuses (ctx : BuildContext σ) : Prop :=
  ∀ c s, ctx.cancelled s = true → (ctx.builder.answer c s).1 = .error .cancelled ∨
    c = .listImages [] ∧ (ctx.builder.answer c s).1 = .ok (.present [])

/-- A build was cancelled before its first call, or during one of some calls. -/
def CancelledDuring (ctx : BuildContext σ) (s : σ) (es : List (Exchange σ)) : Prop :=
  ctx.cancelled s = true ∨ ∃ x ∈ es, ctx.cancelled (x.after ctx.builder) = true

/-- What is left of a build once it has been cancelled. -/
structure Halted (ctx : BuildContext σ) (s : σ) (es : List (Exchange σ))
    (result : Except Error Unit) : Prop where
  /-- Nothing is computed or built. -/
  unguarded : ∀ before after, es = before ++ after → CancelledDuring ctx s before →
    ∀ x ∈ after, x.call.guarded = false
  /-- A build that succeeds was not cancelled before its last stage was begun. -/
  ok : result = .ok () → ∃ before last document request, es = before ++ [last] ∧
    last.call = .build document request ∧ ¬CancelledDuring ctx s before
  not_ok : ctx.cancelled s = true → result ≠ .ok ()
  /-- Nothing is added to the error of a call that was cancelled. -/
  unwrapped : ∀ x ∈ es, x.reply ctx.builder = .error .cancelled → result = .error .cancelled
  /-- A builder that refuses ends the build with the first call that it is asked. -/
  refused : ctx.Refuses → ∀ before after, es = before ++ after → CancelledDuring ctx s before →
    (∀ x ∈ after, x.reply ctx.builder = .error .cancelled ∨ x.call = .listImages []) ∧
    (after ≠ [] → result = .error .cancelled)

section Halting

variable {ctx : BuildContext σ} {s s' : σ} {es before after : List (Exchange σ)} {x : Exchange σ}

theorem CancelledDuring.append (h : CancelledDuring ctx s before) :
    CancelledDuring ctx s (before ++ after) :=
  h.imp_right fun ⟨x, hx, hafter⟩ => ⟨x, List.mem_append_left _ hx, hafter⟩

/-- A build that fails before its first call. -/
theorem Halted.of_no_calls {result : Except Error Unit} (h : result ≠ .ok ()) :
    Halted ctx s [] result := by
  refine ⟨fun before after hes _ x hx => ?_, fun hok => absurd hok h, fun _ => h,
    fun _ hx => absurd hx List.not_mem_nil, fun _ before after hes _ => ?_⟩
  · rw [(List.append_eq_nil_iff.1 hes.symm).2] at hx
    exact absurd hx List.not_mem_nil
  · obtain rfl := (List.append_eq_nil_iff.1 hes.symm).2
    exact ⟨fun _ hx => absurd hx List.not_mem_nil, fun hne => absurd rfl hne⟩

/-- A build that was cancelled stays so. -/
theorem BuildContext.Latching.cancelled (hl : ctx.Latching) (h : Dialogue ctx s es s')
    (hc : CancelledDuring ctx s es) : ctx.cancelled s' = true := by
  induction h with
  | start =>
    rcases hc with hc | ⟨x, hx, _⟩
    · exact hc
    · exact absurd hx List.not_mem_nil
  | report r _ ih => rw [hl.report, ih hc]
  | @call es s' c _ ih =>
    rcases hc with hc | ⟨x, hx, hafter⟩
    · exact hl.call c s' (ih (.inl hc))
    · rcases List.mem_append.1 hx with hx | hx
      · exact hl.call c s' (ih (.inr ⟨x, hx, hafter⟩))
      · rw [List.mem_singleton.1 hx] at hafter
        exact hafter

/-- All calls after the moment are those of a cancelled build. -/
theorem BuildContext.Latching.cancelled_of_mem (hl : ctx.Latching)
    (h : Dialogue ctx s (before ++ after) s') (hc : CancelledDuring ctx s before)
    (hx : x ∈ after) : ctx.cancelled x.state = true := by
  obtain ⟨mid, rest, rfl⟩ := List.append_of_mem hx
  rw [← List.append_assoc] at h
  exact hl.cancelled h.before hc.append

/-- Nothing but the error of the call that was cancelled is told. -/
theorem Tells.eq_cancelled {c : Call} {e : Error} (h : Tells c .cancelled e) : e = .cancelled := by
  cases h with
  | unchanged => rfl
  | blamed hne => exact absurd rfl hne

theorem Follows.exists_last_build {d : Definition} {root : Vertex} {force : Bool}
    {present values : List String} (hplan : d.plan root ≠ [])
    (h : Follows ctx.builder (d.script ctx root force present values) es
      (.ok () : Except Error Unit)) :
    ∃ before last document request, es = before ++ [last] ∧
      last.call = .build document request := by
  -- The script ends with the last step of the plan.
  obtain ⟨steps, step, hsteps⟩ := (List.eq_nil_or_concat (d.plan root)).resolve_left hplan
  rw [Definition.script, hsteps, List.concat_eq_append, List.map_append, ← List.append_assoc,
    ← List.append_assoc] at h
  obtain ⟨before, last, hes, hcall⟩ := h.exists_last
  exact ⟨before, last, _, _, hes, hcall⟩

variable {d : Definition} {root : Vertex} {force : Bool} {present values : List String}
  {run : Except Error Unit × Progress σ}

namespace Account

/-- A call with a checkpoint is not made once the build has been cancelled. -/
theorem guarded_eq_false (hl : ctx.Latching) {script : List (Call × Reply)}
    (h : Account ctx script { state := s } (before ++ after) run)
    (hc : CancelledDuring ctx s before) (hx : x ∈ after) : x.call.guarded = false := by
  refine Bool.eq_false_iff.2 fun hguarded => ?_
  -- The checkpoint in front of the call has seen no cancellation, and a report
  -- does not cancel.
  obtain ⟨r, s₀, hstate, hcheckpoint⟩ := h.checked x (List.mem_append_right _ hx) hguarded
  have hcancelled := hl.cancelled_of_mem h.dialogue hc hx
  rw [hstate, hl.report, hcheckpoint] at hcancelled
  exact Bool.false_ne_true hcancelled

theorem eq_cancelled_of_reply {script : List (Call × Reply)} {p : Progress σ}
    (h : Account ctx script p es run) (hx : x ∈ es)
    (hreply : x.reply ctx.builder = .error .cancelled) : run.1 = .error .cancelled := by
  obtain ⟨e, hresult, htells⟩ := h.course.tells_of_mem hx hreply
  rw [hresult, htells.eq_cancelled]

variable (hl : ctx.Latching) (hplan : d.plan root ≠ [])

include hplan in
/-- A build that succeeds ends with a stage. -/
theorem exists_last_build {p : Progress σ}
    (h : Account ctx (d.script ctx root force present values) p es run) (hok : run.1 = .ok ()) :
    ∃ before last document request, es = before ++ [last] ∧
      last.call = .build document request := by
  have hcourse := h.course
  rw [hok] at hcourse
  cases hcourse with
  | follows hfollows => exact hfollows.exists_last_build hplan

include hl hplan in
/-- A call that a builder refuses ends the build. -/
theorem eq_cancelled_of_refuses (hrefuses : ctx.Refuses)
    (h : Account ctx (d.script ctx root force present values) { state := s }
      (before ++ (after ++ [x])) run)
    (hc : CancelledDuring ctx s before) : run.1 = .error .cancelled := by
  have hx : x ∈ after ++ [x] := List.mem_append_cons_self
  have hcancelled := hl.cancelled_of_mem h.dialogue hc hx
  rcases hrefuses x.call x.state hcancelled with hreply | ⟨hcall, hreply⟩
  · exact h.eq_cancelled_of_reply (List.mem_append_right _ hx) hreply
  · -- The last call went well, but a build that succeeds does not end with it.
    refine (h.course.ok_or_cancelled fun init y heq => ?_).resolve_left ?_
    · rw [← List.append_assoc] at heq
      obtain ⟨_, hy⟩ := List.append_inj' heq rfl
      cases hy
      exact ⟨_, hreply⟩
    · rintro ⟨_, hok⟩
      obtain ⟨init, last, _, _, heq, hlast⟩ := h.exists_last_build hplan hok
      rw [← List.append_assoc] at heq
      obtain ⟨_, hy⟩ := List.append_inj' heq rfl
      cases hy
      rw [hcall] at hlast
      cases hlast

include hl hplan in
/-- A build along its script is halted when it is cancelled. -/
theorem halted (h : Account ctx (d.script ctx root force present values) { state := s } es run) :
    Halted ctx s es run.1 := by
  have hok : run.1 = .ok () → ∃ before last document request, es = before ++ [last] ∧
      last.call = .build document request ∧ ¬CancelledDuring ctx s before := by
    intro hrun
    obtain ⟨before, last, document, request, rfl, hcall⟩ := h.exists_last_build hplan hrun
    refine ⟨before, last, document, request, rfl, hcall, fun hc => ?_⟩
    -- The last stage would have been built in spite of its checkpoint.
    have hlast := h.guarded_eq_false hl hc (List.mem_singleton_self last)
    rw [hcall] at hlast
    exact Bool.false_ne_true hlast.symm
  refine ⟨?_, hok, fun hc hrun => ?_, fun x => h.eq_cancelled_of_reply, ?_⟩
  · rintro before after rfl hc x hx
    exact h.guarded_eq_false hl hc hx
  · obtain ⟨_, _, _, _, _, _, hnot⟩ := hok hrun
    exact hnot (.inl hc)
  · rintro hrefuses before after rfl hc
    refine ⟨fun x hx => ?_, fun hne => ?_⟩
    · exact (hrefuses x.call x.state (hl.cancelled_of_mem h.dialogue hc hx)).imp_right And.left
    · obtain ⟨init, x, rfl⟩ := (List.eq_nil_or_concat after).resolve_left hne
      rw [List.concat_eq_append] at h
      exact h.eq_cancelled_of_refuses hl hplan hrefuses hc

end Account

end Halting

/-! ### The docker client -/

namespace Docker

/-- A host that keeps a record of the commands that are started on it, with
    whether the build had been cancelled by then. -/
def Host.recorded (h : Host σ) : Host (σ × List (Command × Bool)) where
  launch c s :=
    let (launch, s') := h.launch c s.1
    (launch, s', s.2 ++ [(c, h.cancelled s.1)])
  echo line s := (h.echo line s.1, s.2)
  cancelled s := h.cancelled s.1

/-- What a build runs with that has a docker client on a host with a record. -/
def Client.recordedContext (client : Client) (h : Host σ) (ctx : BuildContext σ) :
    BuildContext (σ × List (Command × Bool)) where
  builder := client.builder h.recorded
  cancelled := h.recorded.cancelled
  report r s := (ctx.report r s.1, s.2)
  frontend := ctx.frontend
  sshAgent := ctx.sshAgent
  secrets := ctx.secrets

/-- Nothing has been started for a build that was cancelled. -/
def Unstarted (record : List (Command × Bool)) : Prop :=
  ∀ start ∈ record, start.2 = false

variable (client : Client) (h : Host σ)

theorem Host.run_of_cancelled {s : σ} (hc : h.cancelled s = true) (echoed : Bool) (c : Command) :
    h.run echoed c s = (.error .cancelled, s) := by
  rw [Host.run, if_pos hc]

/-- A run starts its command or does nothing, and then the host takes notice of
    some lines. -/
theorem Host.run_state (echoed : Bool) (c : Command) (s : σ) :
    (h.run echoed c s).2 = s ∨ h.cancelled s = false ∧ ∃ lines : List PipeLine,
      (h.run echoed c s).2 = lines.foldl (fun s line => h.echo line.text s) (h.launch c s).2 := by
  by_cases hc : h.cancelled s = true
  · exact .inl (by rw [h.run_of_cancelled hc])
  by_cases hstart : (!c.isStartable) = true
  · exact .inl (by rw [Host.run, if_neg hc, if_pos hstart])
  refine .inr ⟨Bool.eq_false_iff.2 hc, ?_⟩
  rw [Host.run, if_neg hc, if_neg hstart]
  rcases h.launch c s with ⟨_ | reply, s'⟩
  · exact ⟨[], rfl⟩
  · cases echoed with
    | false => exact ⟨[], rfl⟩
    | true => exact ⟨reply.lines, rfl⟩

theorem foldl_echo_recorded (lines : List PipeLine) (s : σ × List (Command × Bool)) :
    (lines.foldl (fun s line => h.recorded.echo line.text s) s).2 = s.2 := by
  induction lines generalizing s with
  | nil => rfl
  | cons line lines ih => rw [List.foldl_cons, ih]; rfl

/-- A run starts its command only in front of a cancellation. -/
theorem Host.unstarted_run_recorded (echoed : Bool) (c : Command)
    {s : σ × List (Command × Bool)} (hs : Unstarted s.2) :
    Unstarted (h.recorded.run echoed c s).2.2 := by
  rcases h.recorded.run_state echoed c s with hstate | ⟨hc, lines, hstate⟩
  · rw [hstate]
    exact hs
  · rw [hstate, foldl_echo_recorded]
    intro start hstart
    rcases List.mem_append.1 hstart with hstart | hstart
    · exact hs start hstart
    · rw [List.mem_singleton.1 hstart]
      exact hc

/-- Every call runs one command, unless nothing is asked for. -/
theorem Client.answer_eq (c : Call) (s : σ) :
    c = .listImages [] ∧ (client.builder h).answer c s = (.ok (.present []), s) ∨
      ∃ echoed command, ∃ read : Finished → Except Error ContainerBuild.Reply,
        (client.builder h).answer c s =
          ((h.run echoed command s).1.bind read, (h.run echoed command s).2) := by
  have hmap : ∀ {α β : Type} (finished : Except Error Finished) (f : Finished → Except Error α)
      (g : α → β), (finished.bind f).map g = finished.bind fun a => (f a).map g := by
    rintro α β (_ | _) f g <;> rfl
  cases c with
  | listImages images =>
    cases images with
    | nil => exact .inl ⟨rfl, rfl⟩
    | cons image images => exact .inr ⟨_, _, _, Prod.ext (hmap _ _ _) rfl⟩
  | pullImage image => exact .inr ⟨_, _, _, Prod.ext (hmap _ _ _) rfl⟩
  | value document request => exact .inr ⟨_, _, _, Prod.ext (hmap _ _ _) rfl⟩
  | build document request => exact .inr ⟨_, _, _, Prod.ext (hmap _ _ _) rfl⟩

/-- The client refuses the calls of a build that is cancelled on its host. -/
theorem Client.refuses {ctx : BuildContext σ} (hbuilder : ctx.builder = client.builder h)
    (hcancelled : ctx.cancelled = h.cancelled) : ctx.Refuses := by
  intro c s hc
  rw [hcancelled] at hc
  rw [hbuilder]
  rcases client.answer_eq h c s with ⟨hcall, hanswer⟩ | ⟨echoed, command, read, hanswer⟩
  · exact .inr ⟨hcall, by rw [hanswer]⟩
  · refine .inl ?_
    rw [hanswer, h.run_of_cancelled hc]
    rfl

/-- The client leaves a host as it is once the build is cancelled there. -/
theorem Client.latching {ctx : BuildContext σ} (hbuilder : ctx.builder = client.builder h)
    (hcancelled : ctx.cancelled = h.cancelled)
    (hreport : ∀ r s, ctx.cancelled (ctx.report r s) = ctx.cancelled s) : ctx.Latching := by
  refine ⟨hreport, fun c s hc => ?_⟩
  rw [hbuilder]
  rcases client.answer_eq h c s with ⟨_, hanswer⟩ | ⟨echoed, command, read, hanswer⟩
  · rw [hanswer]
    exact hc
  · rw [hcancelled] at hc
    rw [hanswer, h.run_of_cancelled hc, hcancelled]
    exact hc

/-- No exchange with the client starts anything for a build that was cancelled. -/
theorem Client.unstarted_of_dialogue {ctx : BuildContext σ} {s s' : σ × List (Command × Bool)}
    {es : List (Exchange (σ × List (Command × Bool)))}
    (hdialogue : Dialogue (client.recordedContext h ctx) s es s') (hs : Unstarted s.2) :
    Unstarted s'.2 := by
  refine hdialogue.invariant (I := fun s => Unstarted s.2) hs (fun _ _ => id) fun c s hs => ?_
  rcases client.answer_eq h.recorded c s with ⟨_, hanswer⟩ | ⟨echoed, command, read, hanswer⟩
  · rw [Client.recordedContext, hanswer]
    exact hs
  · rw [Client.recordedContext, hanswer]
    exact h.unstarted_run_recorded echoed command hs

end Docker

/-! ### The whole build -/

open Definition Docker

/-- A build is halted when it is cancelled, and it ends well or as a cancelled
    one if no call fails. The docker client refuses the calls of a build that
    is cancelled, and starts nothing for it. -/
theorem build_halted {file : BuildFile} {secrets : List SecretSource} {d : Definition}
    (h : file.resolve secrets = .ok d) (ctx : BuildContext σ) (requested : List String)
    (force : Bool) (s : σ) :
    (ctx.Latching → ∃ es, Dialogue ctx s es (d.runBuild ctx requested force s).2.state ∧
      (d.runBuild ctx requested force s).2.calls = es.map (·.call) ∧
      Halted ctx s es (d.runBuild ctx requested force s).1 ∧
      ((∀ name ∈ asked requested, name ∈ d.vertices.map (·.name)) →
        (∀ x ∈ es, ∃ reply, x.reply ctx.builder = .ok reply) →
        (d.runBuild ctx requested force s).1 = .ok () ∨
          (d.runBuild ctx requested force s).1 = .error .cancelled)) ∧
    ∀ (client : Client) (host : Host σ),
      (client.recordedContext host ctx).Refuses ∧
      ((∀ r s, host.cancelled (ctx.report r s) = host.cancelled s) →
        (client.recordedContext host ctx).Latching) ∧
      Unstarted
        (d.runBuild (client.recordedContext host ctx) requested force (s, [])).2.state.2 := by
  have houtcome := d.root_outcome requested
  cases hroot : d.root requested with
  | error e =>
    obtain ⟨name, hname, _, hundeclared⟩ := houtcome.of_error hroot
    refine ⟨fun _ => ⟨[], ?_⟩, fun client host => ⟨client.refuses _ rfl rfl,
      fun hreport => client.latching _ rfl rfl fun r s => hreport r s.1, ?_⟩⟩
    · rw [runBuild_of_root_error ctx hroot]
      exact ⟨.start, rfl, .of_no_calls nofun,
        fun hdeclared => absurd (hdeclared name hname) hundeclared⟩
    · rw [runBuild_of_root_error _ hroot]
      exact fun _ hstart => absurd hstart List.not_mem_nil
  | ok root =>
    have hplan := plan_ne_nil h (houtcome.of_ok hroot)
    have haccount {τ : Type} (ctx : BuildContext τ) (s : τ) :=
      exists_account_build ctx (BuildFile.vars_nodup_of_resolve h) hroot force { state := s }
    refine ⟨fun hl => ?_, fun client host => ⟨client.refuses _ rfl rfl,
      fun hreport => client.latching _ rfl rfl fun r s => hreport r s.1, ?_⟩⟩
    · obtain ⟨present, values, es, _, haccount⟩ := haccount ctx s
      exact ⟨es, haccount.dialogue, haccount.calls, haccount.halted hl hplan, fun _ hok =>
        (haccount.course.ok_or_cancelled fun _ x hes => hok x (by simp [hes])).imp_left
          fun ⟨_, hresult⟩ => hresult⟩
    · obtain ⟨_, _, _, _, haccount⟩ := haccount (client.recordedContext host ctx) (s, [])
      exact client.unstarted_of_dialogue host haccount.dialogue
        fun _ hstart => absurd hstart List.not_mem_nil

/-- A host on which a build is cancelled by its second command. -/
def interrupted : Host Nat where
  launch _ s := (.ran {}, s + 1)
  echo _ s := s
  cancelled s := decide (2 ≤ s)

/-- A build on that host. -/
def interruptedContext : BuildContext Nat where
  builder := Client.builder interrupted { executable := "docker" }
  cancelled := interrupted.cancelled
  report _ s := s
  frontend := "frontend"

theorem build_halted_versioned :
    ∃ d es, ∃ (client : Client) (ctx : BuildContext (Nat × List (Command × Bool))),
      ctx = client.recordedContext interrupted interruptedContext ∧
      versioned.resolve [] = .ok d ∧ ctx.Latching ∧ ctx.Refuses ∧
      (d.runBuild ctx [] true (0, [])).1 = .error .cancelled ∧
      (d.runBuild ctx [] true (0, [])).2.calls = es.map (·.call) ∧ es.length = 3 ∧
      Halted ctx (0, []) es (d.runBuild ctx [] true (0, [])).1 ∧
      (d.runBuild ctx [] true (0, [])).2.state.2.length = 2 ∧
      Unstarted (d.runBuild ctx [] true (0, [])).2.state.2 := by
  have h : versioned.resolve [] = .ok (Resolution.resolved versioned []) := by rfl
  obtain ⟨hrefuses, hlatching, hunstarted⟩ :=
    (build_halted h interruptedContext [] true 0).2 { executable := "docker" } interrupted
  have hl := hlatching fun _ _ => rfl
  obtain ⟨es, _, hcalls, hhalted, _⟩ := (build_halted h _ [] true (0, [])).1 hl
  refine ⟨_, es, _, _, rfl, h, hl, hrefuses, by rfl, hcalls, ?_, hhalted, by rfl, hunstarted⟩
  rw [← List.length_map (·.call), ← hcalls]
  rfl

end ContainerBuild
