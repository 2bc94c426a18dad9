import ContainerBuild.Build.Run
import ContainerBuild.Proofs.Outcome
import Mathlib.Data.List.Forall2

/-!
# The dialogue with a builder

A build makes calls, and the builder answers each from the state it is in then
(`Exchange`). Between the calls there are only reports (`Dialogue`).

What a part of a build is to do is a *script*: calls, one after the other, each
with the reply that lets the build go on. A part of a build *follows* its script
if it makes the calls of the script in order, up to the first that fails, and
its result is then the error of that call (`Follows`). Otherwise it has been
cancelled and stops in front of a call for a value or a stage, which are the
calls with a checkpoint (`Course`).

An `Account` says all this of a run. Accounts are put together as runs are: one
after the other (`Account.bind_ok`, `Account.bind_error`), and for every element
of a list (`exists_account_forM`).
-/

namespace ContainerBuild

/-- What a builder replies to a call that succeeds. -/
inductive Reply where
  | present (images : List String)
  | value (text : String)
  | done
  deriving Repr, DecidableEq

/-- The calls with a checkpoint in front of them. -/
def Call.guarded : Call → Bool
  | .value .. | .build .. => true
  | .listImages _ | .pullImage _ => false

variable {σ α β ι : Type}

/-- What a builder answers to a call, and the state it is in afterwards. -/
def Builder.answer (b : Builder σ) : Call → σ → Except Error Reply × σ
  | .listImages images, s =>
    let (result, s) := b.listImages images s
    (result.map .present, s)
  | .pullImage image, s =>
    let (result, s) := b.pullImage image s
    (result.map fun _ => .done, s)
  | .value document request, s =>
    let (result, s) := b.value document request s
    (result.map .value, s)
  | .build document request, s =>
    let (result, s) := b.build document request s
    (result.map fun _ => .done, s)

/-- A call, and the state of the builder when it is made. -/
structure Exchange (σ : Type) where
  call : Call
  state : σ

namespace Exchange

variable (b : Builder σ) (x : Exchange σ)

/-- What the builder replies. -/
def reply : Except Error Reply :=
  (b.answer x.call x.state).1

/-- The state that the builder is in afterwards. -/
def after : σ :=
  (b.answer x.call x.state).2

/-- The call is that of the script, and so is the reply. -/
def Matches (y : Call × Reply) : Prop :=
  x.call = y.1 ∧ x.reply b = .ok y.2

end Exchange

/-- The exchanges from one state of a build to another. -/
inductive Dialogue (ctx : BuildContext σ) (s : σ) : List (Exchange σ) → σ → Prop
  | start : Dialogue ctx s [] s
  | report {es : List (Exchange σ)} {s' : σ} (r : Report) :
    Dialogue ctx s es s' → Dialogue ctx s es (ctx.report r s')
  | call {es : List (Exchange σ)} {s' : σ} (c : Call) :
    Dialogue ctx s es s' → Dialogue ctx s (es ++ [⟨c, s'⟩]) (ctx.builder.answer c s').2

/-- How the error of a call is told. Only that of a value names the variable,
    unless the build was cancelled or the error names it already. -/
inductive Tells : Call → Error → Error → Prop
  | unchanged {c : Call} {e : Error} :
    (∀ document request, c = .value document request →
      e = .cancelled ∨ ∃ name fault, e = .varUnreadable name fault) → Tells c e e
  | blamed {document : Dockerfile.Document} {request : ValueRequest} {e : Error} :
    e ≠ .cancelled → (∀ name fault, e ≠ .varUnreadable name fault) →
    Tells (.value document request) e (.varFailed request.stage e)

/-- The calls of a script are made and matched, up to the end or to the first
    one that fails. -/
inductive Follows (b : Builder σ) (script : List (Call × Reply)) :
    List (Exchange σ) → Except Error α → Prop
  | completed {es : List (Exchange σ)} {a : α} :
    List.Forall₂ (Exchange.Matches b) es script → Follows b script es (.ok a)
  | failed {before : List (Call × Reply)} {y : Call × Reply} {es : List (Exchange σ)}
    {x : Exchange σ} {e e' : Error} :
    before ++ [y] <+: script → List.Forall₂ (Exchange.Matches b) es before →
    x.call = y.1 → x.reply b = .error e → Tells x.call e e' →
    Follows b script (es ++ [x]) (.error e')

/-- A script is followed, or the build has been cancelled in front of one of the
    calls with a checkpoint. -/
inductive Course (ctx : BuildContext σ) (script : List (Call × Reply)) :
    List (Exchange σ) → Except Error α → σ → Prop
  | follows {es : List (Exchange σ)} {result : Except Error α} {s : σ} :
    Follows ctx.builder script es result → Course ctx script es result s
  | stopped {before : List (Call × Reply)} {y : Call × Reply} {es : List (Exchange σ)} {s : σ} :
    before ++ [y] <+: script → List.Forall₂ (Exchange.Matches ctx.builder) es before →
    y.1.guarded → ctx.cancelled s = true → Course ctx script es (.error .cancelled) s

/-- What a run from `p` has done: its exchanges, and its result and progress. -/
structure Account (ctx : BuildContext σ) (script : List (Call × Reply)) (p : Progress σ)
    (es : List (Exchange σ)) (run : Except Error α × Progress σ) : Prop where
  dialogue : Dialogue ctx p.state es run.2.state
  calls : run.2.calls = p.calls ++ es.map (·.call)
  /-- Calls with a checkpoint are made right after it, but for one report. -/
  checked : ∀ x ∈ es, x.call.guarded → ∃ r s, x.state = ctx.report r s ∧ ctx.cancelled s = false
  course : Course ctx script es run.1 run.2.state

variable {ctx : BuildContext σ} {script rest : List (Call × Reply)} {es es' : List (Exchange σ)}
  {s s' s'' : σ}

/-- Calls that match those of a script went well. -/
theorem Exchange.exists_reply_of_mem {b : Builder σ} {x : Exchange σ}
    (h : List.Forall₂ (Exchange.Matches b) es script) (hx : x ∈ es) :
    ∃ reply, x.reply b = .ok reply := by
  induction h with
  | nil => exact absurd hx List.not_mem_nil
  | cons hy _ ih =>
    rcases List.mem_cons.1 hx with rfl | hx
    · exact ⟨_, hy.2⟩
    · exact ih hx

namespace Dialogue

theorem trans (h : Dialogue ctx s es s') (h' : Dialogue ctx s' es' s'') :
    Dialogue ctx s (es ++ es') s'' := by
  induction h' with
  | start =>
    rw [List.append_nil]
    exact h
  | report r _ ih => exact ih.report r
  | call c _ ih =>
    rw [← List.append_assoc]
    exact ih.call c

/-- What reports and calls keep, a dialogue keeps. -/
theorem invariant {I : σ → Prop} (h : Dialogue ctx s es s') (hs : I s)
    (hreport : ∀ r s, I s → I (ctx.report r s))
    (hcall : ∀ c s, I s → I (ctx.builder.answer c s).2) : I s' := by
  induction h with
  | start => exact hs
  | report r _ ih => exact hreport r _ ih
  | call c _ ih => exact hcall c _ ih

/-- The dialogue up to one of its calls. -/
theorem before {before after : List (Exchange σ)} {x : Exchange σ}
    (h : Dialogue ctx s (before ++ x :: after) s') : Dialogue ctx s before x.state := by
  generalize hes : before ++ x :: after = es at h
  induction h generalizing after with
  | start => exact absurd hes (by simp)
  | report _ _ ih => exact ih hes
  | @call es s' c h ih =>
    -- A dialogue grows at its end: its last call is the one in question, or one
    -- of those after it.
    rcases List.eq_nil_or_concat after with rfl | ⟨after, y, rfl⟩
    · obtain ⟨rfl, hx⟩ := List.append_inj' hes rfl
      cases hx
      exact h
    · rw [List.concat_eq_append, ← List.cons_append, ← List.append_assoc] at hes
      exact ih (List.append_inj' hes rfl).1

end Dialogue

namespace Follows

/-- More of a script than what the failed call left of it. -/
theorem append_error {e : Error} (h : Follows ctx.builder script es (.error e : Except Error α)) :
    Follows ctx.builder (script ++ rest) es (.error e : Except Error β) := by
  cases h with
  | failed hscript hes hcall hreply htells =>
    exact .failed (hscript.trans (List.prefix_append script rest)) hes hcall hreply htells

/-- One script after another one that was completed. -/
theorem append_ok {a : α} {result : Except Error β}
    (h : Follows ctx.builder script es (.ok a : Except Error α))
    (h' : Follows ctx.builder rest es' result) :
    Follows ctx.builder (script ++ rest) (es ++ es') result := by
  cases h with
  | completed hes =>
    cases h' with
    | completed hes' => exact .completed (List.rel_append hes hes')
    | failed hscript hes' hcall hreply htells =>
      -- What went well before the failed call is the first script, and the
      -- beginning of the second one.
      rw [← List.append_assoc]
      refine .failed ?_ (List.rel_append hes hes') hcall hreply htells
      rw [List.append_assoc]
      exact (List.prefix_append_right_inj script).2 hscript

/-- The last call of a script that was completed. -/
theorem exists_last {a : α} {y : Call × Reply}
    (h : Follows ctx.builder (script ++ [y]) es (.ok a : Except Error α)) :
    ∃ before x, es = before ++ [x] ∧ x.call = y.1 := by
  cases h with
  | completed hes =>
    have hlast := List.forall₂_drop_append es script [y] hes
    obtain ⟨x, rest, hx, hrest, hdrop⟩ := List.forall₂_cons_right_iff.1 hlast
    rw [List.forall₂_nil_right_iff.1 hrest] at hdrop
    exact ⟨es.take script.length, x, by rw [← hdrop, List.take_append_drop], hx.1⟩

/-- The calls of a script that was completed are those of the script. -/
theorem map_call_eq {a : α} (h : Follows ctx.builder script es (.ok a : Except Error α)) :
    es.map (·.call) = script.map (·.1) := by
  cases h with
  | completed hes =>
    have hcalls : List.Forall₂ Eq (es.map (·.call)) (script.map (·.1)) := by
      rw [List.forall₂_map_left_iff, List.forall₂_map_right_iff]
      exact hes.imp fun _ _ hx => hx.1
    rwa [List.forall₂_eq_eq_eq] at hcalls

/-- Only a call that fails keeps a script from being completed. -/
theorem exists_ok {result : Except Error α} (h : Follows ctx.builder script es result)
    (hreplies : ∀ x ∈ es, ∃ reply, x.reply ctx.builder = .ok reply) : ∃ a, result = .ok a := by
  cases h with
  | completed _ => exact ⟨_, rfl⟩
  | failed _ _ _ hreply _ =>
    obtain ⟨reply, hok⟩ := hreplies _ (List.mem_append_right _ (List.mem_singleton_self _))
    cases hreply.symm.trans hok

end Follows

namespace Course

theorem append_error {e : Error} (h : Course ctx script es (.error e : Except Error α) s) :
    Course ctx (script ++ rest) es (.error e : Except Error β) s := by
  cases h with
  | follows h => exact .follows h.append_error
  | stopped hscript hes hguarded hcancelled =>
    exact .stopped (hscript.trans (List.prefix_append script rest)) hes hguarded hcancelled

theorem append_ok {a : α} {result : Except Error β}
    (h : Course ctx script es (.ok a : Except Error α) s)
    (h' : Course ctx rest es' result s') : Course ctx (script ++ rest) (es ++ es') result s' := by
  cases h with
  | follows h =>
    cases h' with
    | follows h' => exact .follows (h.append_ok h')
    | stopped hscript hes' hguarded hcancelled =>
      -- The first script has been completed, so only the second one is stopped.
      cases h with
      | completed hes =>
        refine .stopped ?_ (List.rel_append hes hes') hguarded hcancelled
        rw [List.append_assoc]
        exact (List.prefix_append_right_inj script).2 hscript

theorem follows_of_not_cancelled {result : Except Error α} (h : Course ctx script es result s)
    (hcancelled : ctx.cancelled s = false) : Follows ctx.builder script es result := by
  cases h with
  | follows h => exact h
  | stopped _ _ _ h => exact absurd h (Bool.eq_false_iff.1 hcancelled)

/-- The calls of a script that was completed went as it says. -/
theorem matches_of_ok {a : α} (h : Course ctx script es (.ok a : Except Error α) s) :
    List.Forall₂ (Exchange.Matches ctx.builder) es script := by
  cases h with
  | follows h =>
    cases h with
    | completed hes => exact hes

/-- A script without checkpoints is followed, cancelled or not. -/
theorem follows_of_not_guarded {result : Except Error α} (h : Course ctx script es result s)
    (hscript : ∀ y ∈ script, y.1.guarded = false) : Follows ctx.builder script es result := by
  cases h with
  | follows h => exact h
  | stopped hbefore _ hguarded _ =>
    have hy := hscript _ (hbefore.subset (List.mem_append_right _ (List.mem_singleton_self _)))
    exact absurd hguarded (Bool.eq_false_iff.1 hy)

/-- A computation whose last call went well ends well, or is cancelled. -/
theorem ok_or_cancelled {result : Except Error α} (h : Course ctx script es result s)
    (hlast : ∀ before x, es = before ++ [x] → ∃ reply, x.reply ctx.builder = .ok reply) :
    (∃ a, result = .ok a) ∨ result = .error .cancelled := by
  cases h with
  | follows h =>
    cases h with
    | completed _ => exact .inl ⟨_, rfl⟩
    | failed _ _ _ hreply _ =>
      obtain ⟨reply, hok⟩ := hlast _ _ rfl
      cases hreply.symm.trans hok
  | stopped => exact .inr rfl

/-- The error of a call ends a computation, which tells it. -/
theorem tells_of_mem {result : Except Error α} {x : Exchange σ} {e : Error}
    (h : Course ctx script es result s) (hx : x ∈ es) (hreply : x.reply ctx.builder = .error e) :
    ∃ e', result = .error e' ∧ Tells x.call e e' := by
  -- The call is none of those that went well, so it is the last one.
  have hok : ∀ {es ys}, List.Forall₂ (Exchange.Matches ctx.builder) es ys → x ∉ es := by
    intro es ys hes hx
    obtain ⟨reply, hok⟩ := Exchange.exists_reply_of_mem hes hx
    cases hreply.symm.trans hok
  cases h with
  | follows h =>
    cases h with
    | completed hes => exact absurd hx (hok hes)
    | failed _ hes _ hreply' htells =>
      rcases List.mem_append.1 hx with hx | hx
      · exact absurd hx (hok hes)
      · obtain rfl := List.mem_singleton.1 hx
        obtain rfl := Except.error.inj (hreply.symm.trans hreply')
        exact ⟨_, rfl, htells⟩
  | stopped _ hes => exact absurd hx (hok hes)

end Course

/-! ### Runs -/

section Runs

variable {m : BuildM σ α} {f : α → BuildM σ β} {p : Progress σ}

namespace BuildM

theorem run_call (c : Call) (answer : σ → Except Error α × σ) :
    (call c answer).run p = ((answer p.state).1, ⟨(answer p.state).2, p.calls ++ [c]⟩) := rfl

theorem run_report (r : Report) :
    (report ctx r).run p = (.ok (), ⟨ctx.report r p.state, p.calls⟩) := rfl

theorem run_checkpoint :
    (checkpoint ctx).run p = (if ctx.cancelled p.state then .error .cancelled else .ok (), p) := rfl

/-- A checkpoint, and a report behind it. -/
theorem run_checkpoint_report {r : Report} :
    (do checkpoint ctx; report ctx r; m : BuildM σ α).run p =
      if ctx.cancelled p.state then (.error .cancelled, p)
      else m.run ⟨ctx.report r p.state, p.calls⟩ := by
  rw [run_bind, run_checkpoint]
  split_ifs
  · rfl
  · exact run_bind

end BuildM

namespace Account

/-- The rest of a computation after a part that succeeded. -/
theorem bind_ok {a : α} {p' : Progress σ} (hrun : m.run p = (.ok a, p'))
    (h : Account ctx script p es (m.run p)) (h' : Account ctx rest p' es' ((f a).run p')) :
    Account ctx (script ++ rest) p (es ++ es') ((m >>= f).run p) := by
  rw [hrun] at h
  rw [run_bind, hrun]
  refine ⟨h.dialogue.trans h'.dialogue, ?_, fun x hx => ?_, h.course.append_ok h'.course⟩
  · rw [h'.calls, h.calls, List.map_append, List.append_assoc]
  · rcases List.mem_append.1 hx with hx | hx
    · exact h.checked x hx
    · exact h'.checked x hx

/-- A part that fails ends the computation, whatever was to come. -/
theorem bind_error (rest : List (Call × Reply)) {e : Error} {p' : Progress σ}
    (hrun : m.run p = (.error e, p'))
    (h : Account ctx script p es (m.run p)) :
    Account ctx (script ++ rest) p es ((m >>= f).run p) := by
  rw [hrun] at h
  rw [run_bind, hrun]
  exact ⟨h.dialogue, h.calls, h.checked, h.course.append_error⟩

/-- A computation that makes no calls. -/
theorem silent {a : α} {s : σ} (h : Dialogue ctx p.state [] s) :
    Account ctx [] p [] ((.ok a : Except Error α), ⟨s, p.calls⟩) :=
  ⟨h, (List.append_nil _).symm, fun _ hx => absurd hx List.not_mem_nil, .follows (.completed .nil)⟩

/-- What is done after a part of a computation, if it makes no calls. -/
theorem bind_silent (h : Account ctx script p es (m.run p))
    (hf : ∀ a p, ∃ b s, (f a).run p = (.ok b, ⟨s, p.calls⟩) ∧ Dialogue ctx p.state [] s) :
    Account ctx script p es ((m >>= f).run p) := by
  rcases hrun : m.run p with ⟨e | a, p'⟩
  · have := bind_error (f := f) [] hrun h
    rwa [List.append_nil] at this
  · obtain ⟨b, s, hb, hdialogue⟩ := hf a p'
    have hrest : Account ctx [] p' [] ((f a).run p') := by
      rw [hb]
      exact .silent hdialogue
    have := h.bind_ok hrun hrest
    rwa [List.append_nil, List.append_nil] at this

/-- A report in front of a computation. -/
theorem report_left {r : Report} {run : Except Error α × Progress σ}
    (h : Account ctx script ⟨ctx.report r p.state, p.calls⟩ es run) :
    Account ctx script p es run :=
  ⟨(Dialogue.start.report r).trans h.dialogue, h.calls, h.checked, h.course⟩

/-- A computation that is not begun. -/
theorem stopped {y : Call × Reply} (hcancelled : ctx.cancelled p.state = true)
    (hguarded : y.1.guarded) : Account ctx [y] p [] ((.error .cancelled : Except Error α), p) :=
  ⟨.start, (List.append_nil _).symm, fun _ hx => absurd hx List.not_mem_nil,
    .stopped List.prefix_rfl .nil hguarded hcancelled⟩

end Account

/-- The elements of a list, each with the part of the script that is its own. -/
theorem exists_account_forM {f : ι → BuildM σ PUnit} {entry : ι → Call × Reply}
    (hf : ∀ a p, ∃ es, Account ctx [entry a] p es ((f a).run p)) (l : List ι) (p : Progress σ) :
    ∃ es, Account ctx (l.map entry) p es ((l.forM f).run p) := by
  induction l generalizing p with
  | nil => exact ⟨[], .silent .start⟩
  | cons a l ih =>
    obtain ⟨es, h⟩ := hf a p
    rw [List.forM, List.map_cons, ← List.singleton_append]
    rcases hrun : (f a).run p with ⟨e | _, p'⟩
    · -- The other elements are left out, and so is their part of the script.
      exact ⟨es, .bind_error _ hrun h⟩
    · obtain ⟨es', h'⟩ := ih p'
      exact ⟨es ++ es', .bind_ok hrun h h'⟩

/-- A function of the state makes a call: it gives what the builder replies, or
    tells its error. -/
def Makes (b : Builder σ) (c : Call) (reply : α → Reply) (answer : σ → Except Error α × σ) : Prop :=
  ∀ s, (answer s).2 = (b.answer c s).2 ∧
    Outcome (fun a => (b.answer c s).1 = .ok (reply a))
      (fun e' => ∃ e, (b.answer c s).1 = .error e ∧ Tells c e e') (answer s).1

/-- A single call. If it fails, it does not matter which reply was expected. -/
theorem exists_account_call [Inhabited α] {c : Call} {reply : α → Reply}
    {answer : σ → Except Error α × σ} (hmakes : Makes ctx.builder c reply answer)
    (hchecked : c.guarded → ∃ r s, p.state = ctx.report r s ∧ ctx.cancelled s = false) :
    ∃ a es, Account ctx [(c, reply a)] p es ((BuildM.call c answer).run p) ∧
      ∀ a', ((BuildM.call c answer).run p).1 = .ok a' → a' = a := by
  obtain ⟨hstate, houtcome⟩ := hmakes p.state
  have hdialogue : Dialogue ctx p.state [⟨c, p.state⟩] (answer p.state).2 := by
    rw [hstate]
    exact Dialogue.start.call c
  have hchecked : ∀ x ∈ [Exchange.mk c p.state], x.call.guarded →
      ∃ r s, x.state = ctx.report r s ∧ ctx.cancelled s = false := fun x hx =>
    List.mem_singleton.1 hx ▸ hchecked
  rw [BuildM.run_call]
  cases hresult : (answer p.state).1 with
  | ok a =>
    have hreply := houtcome.of_ok hresult
    refine ⟨a, _, ⟨hdialogue, rfl, hchecked, .follows ?_⟩, fun a' ha' => (Except.ok.inj ha').symm⟩
    exact .completed (.cons ⟨rfl, hreply⟩ .nil)
  | error e' =>
    obtain ⟨e, hreply, htells⟩ := houtcome.of_error hresult
    refine ⟨default, _, ⟨hdialogue, rfl, hchecked, .follows ?_⟩, fun _ ha' => nomatch ha'⟩
    exact .failed List.prefix_rfl .nil rfl hreply htells

end Runs

end ContainerBuild
