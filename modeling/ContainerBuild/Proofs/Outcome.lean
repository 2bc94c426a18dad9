import Mathlib.Data.List.Forall2

/-!
# Outcomes

`Outcome Q E x` says all that is known of a computation `x` that may fail: `Q`
holds of its result, or `E` of its error. Outcomes are put together as the
computations are: one after the other (`Outcome.bind`), by an invariant along
the steps of a fold (`Outcome.foldlM`), and for every element of a list
(`Outcome.forM`, `Outcome.mapM`).

Two computations agree (`Agree E`) if they fail with the same error or give results
that belong together; they do so if their parts do (`Agree.bind`, `Agree.mapM`).

The run of a computation that changes a state as well is that of its parts, one
after the other, up to the first error (`run_bind`).
-/

namespace ContainerBuild

variable {ε α β : Type}

/-- A computation gives a result of which `Q` holds, or fails with an error of
    which `E` holds. -/
inductive Outcome (Q : α → Prop) (E : ε → Prop) : Except ε α → Prop
  | ok {a : α} : Q a → Outcome Q E (.ok a)
  | error {e : ε} : E e → Outcome Q E (.error e)

namespace Outcome

variable {P Q : α → Prop} {D E : ε → Prop}

theorem of_ok {x : Except ε α} {a : α} (h : Outcome Q E x) (hx : x = .ok a) : Q a := by
  subst hx
  cases h with
  | ok ha => exact ha

theorem of_error {x : Except ε α} {e : ε} (h : Outcome Q E x) (hx : x = .error e) : E e := by
  subst hx
  cases h with
  | error he => exact he

theorem imp {x : Except ε α} (h : Outcome P E x) (hPQ : ∀ a, P a → Q a) : Outcome Q E x := by
  cases h with
  | ok ha => exact .ok (hPQ _ ha)
  | error he => exact .error he

theorem imp_error {x : Except ε α} (h : Outcome Q D x) (hDE : ∀ e, D e → E e) :
    Outcome Q E x := by
  cases h with
  | ok ha => exact .ok ha
  | error he => exact .error (hDE _ he)

/-- One computation after the other. -/
theorem bind {Q : β → Prop} {x : Except ε α} {f : α → Except ε β} (h : Outcome P E x)
    (hf : ∀ a, P a → Outcome Q E (f a)) : Outcome Q E (x >>= f) := by
  cases h with
  | ok ha => exact hf _ ha
  | error he => exact .error he

/-- An invariant of what has been done and what it has led to, which holds
    before a fold and is kept by each of its steps, holds after the fold. -/
theorem foldlM {I : List α → β → Prop} {f : β → α → Except ε β} {l : List α} {b : β}
    (h : I [] b)
    (step : ∀ done a rest b, l = done ++ a :: rest → I done b →
      Outcome (I (done ++ [a])) E (f b a)) :
    Outcome (I l) E (l.foldlM f b) := by
  suffices key : ∀ rest done b, l = done ++ rest → I done b →
      Outcome (I l) E (rest.foldlM f b) from key l [] b rfl h
  intro rest
  induction rest with
  | nil =>
    intro done b hl hb
    rw [List.append_nil] at hl
    rw [List.foldlM_nil]
    exact .ok (hl ▸ hb)
  | cons a rest ih =>
    intro done b hl hb
    rw [List.foldlM_cons]
    refine (step done a rest b hl hb).bind fun b' hb' => ih (done ++ [a]) b' ?_ hb'
    rw [hl, List.append_assoc, List.singleton_append]

/-- Computations of which each is done only if those before it went well. -/
theorem forM {P : α → Prop} {f : α → Except ε PUnit} {l : List α}
    (step : ∀ done a rest, l = done ++ a :: rest → (∀ b ∈ done, P b) →
      Outcome (fun _ => P a) E (f a)) :
    Outcome (fun _ => ∀ a ∈ l, P a) E (l.forM f) := by
  suffices key : ∀ rest done, l = done ++ rest → (∀ b ∈ done, P b) →
      Outcome (fun _ => ∀ a ∈ l, P a) E (rest.forM f) from
    key l [] rfl fun _ hb => absurd hb List.not_mem_nil
  intro rest
  induction rest with
  | nil =>
    intro done hl hdone
    rw [List.append_nil] at hl
    exact .ok (hl ▸ hdone)
  | cons a rest ih =>
    intro done hl hdone
    refine (step done a rest hl hdone).bind fun _ ha => ih (done ++ [a]) ?_ fun b hb => ?_
    · rw [hl, List.append_assoc, List.singleton_append]
    · rcases List.mem_append.1 hb with hb | hb
      · exact hdone b hb
      · exact List.mem_singleton.1 hb ▸ ha

/-- Computations of which each gives a result for one element. -/
theorem mapM {R : α → β → Prop} {f : α → Except ε β} {l : List α}
    (h : ∀ a ∈ l, Outcome (R a) E (f a)) : Outcome (List.Forall₂ R l) E (l.mapM f) := by
  induction l with
  | nil =>
    rw [List.mapM_nil]
    exact .ok .nil
  | cons a l ih =>
    rw [List.mapM_cons]
    refine (h a List.mem_cons_self).bind fun b hb => ?_
    have hrest := ih fun a ha => h a (List.mem_cons_of_mem _ ha)
    exact hrest.bind fun bs hbs => .ok (.cons hb hbs)

end Outcome

/-! ### Results of elements -/

/-- What stands in one of two lists that belong together belongs to something in the
    other one. -/
theorem exists_of_mem_right {R : α → β → Prop} {l : List α} {m : List β}
    (h : List.Forall₂ R l m) {b : β} (hb : b ∈ m) : ∃ a ∈ l, R a b := by
  induction h with
  | nil => exact absurd hb List.not_mem_nil
  | @cons a b' l m hab _ ih =>
    rcases List.mem_cons.1 hb with rfl | hb
    · exact ⟨a, List.mem_cons_self, hab⟩
    · obtain ⟨a', ha', hab'⟩ := ih hb
      exact ⟨a', List.mem_cons_of_mem _ ha', hab'⟩

/-! ### Results of computations one after the other -/

theorem exists_of_bind_eq_ok {x : Except ε α} {f : α → Except ε β} {b : β}
    (h : x >>= f = .ok b) : ∃ a, x = .ok a ∧ f a = .ok b := by
  rcases x with e | a
  · cases h
  · exact ⟨a, rfl, h⟩

theorem mapM_eq_ok {f : β → Except ε α} {as : List α} {l : List β}
    (h : List.Forall₂ (fun a b => f b = .ok a) as l) : l.mapM f = .ok as := by
  induction h with
  | nil => rfl
  | cons ha _ ih =>
    rw [List.mapM_cons, ha, ih]
    rfl

/-- Computations do not all give a result if one does not. -/
theorem toOption_mapM_of_mem {f : α → Except ε β} {l : List α} {a : α} (ha : a ∈ l)
    (h : (f a).toOption = none) : (l.mapM f).toOption = none := by
  induction l with
  | nil => exact absurd ha List.not_mem_nil
  | cons b l ih =>
    rw [List.mapM_cons]
    cases hb : f b with
    | error e => rfl
    | ok _ =>
      rcases List.mem_cons.1 ha with rfl | ha
      · rw [hb] at h
        cases h
      · have hrest := ih ha
        change (l.mapM f >>= fun bs => pure (_ :: bs)).toOption = none
        cases hl : l.mapM f with
        | error e => rfl
        | ok bs =>
          rw [hl] at hrest
          cases hrest

theorem forM_eq_ok {f : α → Except ε PUnit} {l : List α} (h : ∀ a ∈ l, f a = .ok ⟨⟩) :
    l.forM f = .ok ⟨⟩ := by
  induction l with
  | nil => rfl
  | cons a l ih =>
    change (f a >>= fun _ => l.forM f) = _
    rw [h a List.mem_cons_self]
    exact ih fun b hb => h b (List.mem_cons_of_mem _ hb)

/-! ### Two computations -/

/-- Two computations fail with the same error, or give results that belong together. -/
inductive Agree (E : α → α → Prop) : Except ε α → Except ε α → Prop
  | ok {a a' : α} : E a a' → Agree E (.ok a) (.ok a')
  | error (e : ε) : Agree E (.error e) (.error e)

namespace Agree

variable {E : α → α → Prop} {F : β → β → Prop} {x x' : Except ε α}

theorem refl (h : ∀ a, E a a) (x : Except ε α) : Agree E x x := by
  cases x with
  | error e => exact .error e
  | ok a => exact .ok (h a)

/-- A computation agrees with itself on what a function sees of the result. -/
theorem kernel_refl (f : α → β) (x : Except ε α) : Agree (fun a a' => f a = f a') x x :=
  refl (E := fun a a' => f a = f a') (fun _ => rfl) x

theorem bind {f f' : α → Except ε β} (h : Agree E x x')
    (hf : ∀ a a', E a a' → Agree F (f a) (f' a')) : Agree F (x >>= f) (x' >>= f') := by
  cases h with
  | error e => exact .error e
  | ok ha => exact hf _ _ ha

/-- The same computation, and then ones that agree. -/
theorem same {f f' : α → Except ε β} (x : Except ε α) (hf : ∀ a, Agree F (f a) (f' a)) :
    Agree F (x >>= f) (x >>= f') := by
  cases x with
  | error e => exact .error e
  | ok a => exact hf a

theorem imp {D : α → α → Prop} (h : Agree E x x') (hED : ∀ a a', E a a' → D a a') :
    Agree D x x' := by
  cases h with
  | error e => exact .error e
  | ok ha => exact .ok (hED _ _ ha)

theorem map_eq {f f' : α → β} (h : Agree E x x') (hf : ∀ a a', E a a' → f a = f' a') :
    x.map f = x'.map f' := by
  cases h with
  | error e => rfl
  | ok ha => exact congrArg Except.ok (hf _ _ ha)

theorem mapM {f f' : α → Except ε β} {l l' : List α}
    (h : List.Forall₂ (fun a a' => Agree F (f a) (f' a')) l l') :
    Agree (List.Forall₂ F) (l.mapM f) (l'.mapM f') := by
  induction h with
  | nil => exact .ok .nil
  | cons ha _ ih =>
    rw [List.mapM_cons, List.mapM_cons]
    exact ha.bind fun _ _ hb => ih.bind fun _ _ hbs => .ok (.cons hb hbs)

end Agree

/-! ### Runs that change a state -/

section Runs

variable {τ : Type} {m : ExceptT ε (StateM τ) α} {f : α → ExceptT ε (StateM τ) β} {s : τ}

theorem run_bind :
    (m >>= f).run s = match m.run s with
      | (.ok a, s) => (f a).run s
      | (.error e, s) => (.error e, s) := by
  change (match m.run s with | (x, s) => (ExceptT.bindCont f x).run s) = _
  cases m.run s with
  | mk result s => cases result <;> rfl

theorem exists_run_of_run_bind {b : β} (h : ((m >>= f).run s).1 = .ok b) :
    ∃ a s', m.run s = (.ok a, s') ∧ ((f a).run s').1 = .ok b := by
  rw [run_bind] at h
  rcases hrun : m.run s with ⟨e | a, s'⟩
  · rw [hrun] at h
    cases h
  · rw [hrun] at h
    exact ⟨a, s', rfl, h⟩

end Runs

end ContainerBuild
