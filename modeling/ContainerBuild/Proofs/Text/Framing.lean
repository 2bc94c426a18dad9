import ContainerBuild.Proofs.Text.Lines

/-!
# Texts that show where they end

A text that is followed by others can be read back if it shows where it ends:
what is meant by it and what stands behind it are then determined by the two
together (`Framed`).

* `framed_class`: a text of one class of characters shows its end to what begins
  with another character;
* `Framed.flatMap`: so do texts one after the other, if what stands behind the last
  one does not begin like one more of them.
-/

namespace ContainerBuild.Text

variable {α β : Type} {P : α → Prop} {Q T : List Char → Prop} {f : α → List Char} {N : α → β}

/-- Two things in `P` with the same text, each with a rest in `Q` behind it, mean
    the same (`N`) and have the same rest. -/
def Framed (P : α → Prop) (Q : List Char → Prop) (f : α → List Char) (N : α → β) : Prop :=
  ∀ ⦃a a' s s'⦄, P a → P a' → Q s → Q s' → f a ++ s = f a' ++ s' → N a = N a' ∧ s = s'

theorem framed_class (p : Char → Bool) :
    Framed (fun text : String => ∀ c ∈ text.toList, p c) (fun s => ∀ c ∈ s.head?, ¬p c)
      String.toList id := by
  intro text text' s s' htext htext' hs hs' h
  have hspan : (text.toList ++ s).span p = (text.toList, s) := span_eq_iff.2 ⟨rfl, htext, hs⟩
  have hspan' : (text'.toList ++ s').span p = (text'.toList, s') :=
    span_eq_iff.2 ⟨rfl, htext', hs'⟩
  rw [h, hspan'] at hspan
  obtain ⟨htext, hs⟩ := Prod.mk.inj hspan
  exact ⟨(String.toList_inj.1 htext).symm, hs.symm⟩

theorem Framed.flatMap (h : Framed P Q f N) (hrest : ∀ t, T t → Q t)
    (hitem : ∀ a s, P a → Q (f a ++ s)) (hend : ∀ a s, P a → ¬T (f a ++ s)) :
    Framed (fun l : List α => ∀ a ∈ l, P a) T (List.flatMap f) (List.map N) := by
  intro l l' s s' hl hl' hs hs' heq
  -- Behind an item stands another one or the end.
  have hbehind : ∀ (l : List α) (s : List Char), (∀ a ∈ l, P a) → T s → Q (l.flatMap f ++ s) := by
    intro l s hl hs
    cases l with
    | nil => exact hrest s hs
    | cons a l =>
      rw [List.flatMap_cons, List.append_assoc]
      exact hitem a _ (hl a List.mem_cons_self)
  induction l generalizing l' with
  | nil =>
    cases l' with
    | nil => exact ⟨rfl, heq⟩
    | cons a' l' =>
      rw [List.flatMap_cons, List.append_assoc, List.flatMap_nil, List.nil_append] at heq
      exact absurd (heq ▸ hs) (hend a' _ (hl' a' List.mem_cons_self))
  | cons a l ih =>
    obtain ⟨ha, hl⟩ := List.forall_mem_cons.1 hl
    rw [List.flatMap_cons, List.append_assoc] at heq
    cases l' with
    | nil =>
      rw [List.flatMap_nil, List.nil_append] at heq
      exact absurd (heq ▸ hs') (hend a _ ha)
    | cons a' l' =>
      obtain ⟨ha', hl'⟩ := List.forall_mem_cons.1 hl'
      rw [List.flatMap_cons, List.append_assoc] at heq
      obtain ⟨hN, heq⟩ := h ha ha' (hbehind l s hl hs) (hbehind l' s' hl' hs') heq
      obtain ⟨hmap, hs⟩ := ih hl hl' heq
      exact ⟨by rw [List.map_cons, List.map_cons, hN, hmap], hs⟩

end ContainerBuild.Text
