import Mathlib.Data.List.Nodup
import Mathlib.Logic.Relation

/-!
# Orders

A list is *ordered* by a relation if everything in it leads only to what comes
before it, and nothing comes twice. Such lists are what depth-first walks
through a graph leave behind, and they show that the graph has no cycles:

* what something listed leads to, by any number of steps, is listed before it
  (`Ordered.pair_sublist`);
* so nothing listed leads back to itself (`Ordered.irrefl`);
* the places in the list fall along the relation (`Ordered.idxOf_lt`);
* a part of the list is ordered too (`Ordered.filter`).

Lists that share some of what they list are put together by the first occurrence
of each thing (`List.eraseDups`).
-/

namespace ContainerBuild

open Relation

/-- Nothing is listed twice, or before what it leads to. -/
inductive Ordered {α : Type} (next : α → α → Prop) : List α → Prop
  | nil : Ordered next []
  | concat {l : List α} {a : α} :
    Ordered next l → a ∉ l → (∀ b, next a b → b ∈ l) → Ordered next (l ++ [a])

namespace Ordered

variable {α : Type} {next : α → α → Prop} {l : List α} {a b : α}

theorem nodup (h : Ordered next l) : l.Nodup := by
  induction h with
  | nil => exact List.nodup_nil
  | @concat l a _ ha _ ih =>
    exact ih.append (List.nodup_singleton a) fun b hb hb' => ha (List.mem_singleton.1 hb' ▸ hb)

theorem mem_of_next (h : Ordered next l) (ha : a ∈ l) (hab : next a b) : b ∈ l := by
  induction h with
  | nil => exact absurd ha List.not_mem_nil
  | @concat l c _ _ hc ih =>
    rcases List.mem_append.1 ha with ha | ha
    · exact List.mem_append_left _ (ih ha)
    · rw [List.mem_singleton.1 ha] at hab
      exact List.mem_append_left _ (hc b hab)

theorem mem_of_reflTransGen (h : Ordered next l) (ha : a ∈ l) (hab : ReflTransGen next a b) :
    b ∈ l := by
  induction hab with
  | refl => exact ha
  | tail _ hbc ih => exact h.mem_of_next ih hbc

/-- If all that `a` leads to in one step is listed, so is all it leads to. -/
theorem mem_of_transGen (h : Ordered next l) (ha : ∀ b, next a b → b ∈ l)
    (hab : TransGen next a b) : b ∈ l := by
  obtain ⟨a', haa', hab'⟩ := TransGen.head'_iff.1 hab
  exact h.mem_of_reflTransGen (ha a' haa') hab'

/-- What something listed leads to is listed before it. -/
theorem pair_sublist (h : Ordered next l) (ha : a ∈ l) (hab : TransGen next a b) :
    [b, a].Sublist l := by
  induction h with
  | nil => exact absurd ha List.not_mem_nil
  | @concat l c hl _ hc ih =>
    rcases List.mem_append.1 ha with ha | ha
    · exact (ih ha).trans (List.sublist_append_left l [c])
    · -- The last one: all it leads to was listed when it came.
      obtain rfl := List.mem_singleton.1 ha
      have hb : b ∈ l := hl.mem_of_transGen hc hab
      exact (List.singleton_sublist.2 hb).append (List.Sublist.refl [a])

/-- Nothing listed leads back to itself. -/
theorem irrefl (h : Ordered next l) (ha : a ∈ l) : ¬TransGen next a a := fun haa =>
  List.nodup_iff_sublist.1 h.nodup a (h.pair_sublist ha haa)

/-- Places fall along the relation. -/
theorem idxOf_lt [DecidableEq α] (h : Ordered next l) (ha : a ∈ l) (hab : next a b) :
    l.idxOf b < l.idxOf a := by
  induction h with
  | nil => exact absurd ha List.not_mem_nil
  | @concat l c hl hc hcb ih =>
    by_cases hal : a ∈ l
    · rw [List.idxOf_append_of_mem hal, List.idxOf_append_of_mem (hl.mem_of_next hal hab)]
      exact ih hal
    · have hac : a = c := List.mem_singleton.1 ((List.mem_append.1 ha).resolve_left hal)
      have hb : b ∈ l := hcb b (hac ▸ hab)
      rw [List.idxOf_append_of_mem hb, List.idxOf_append_of_notMem hal]
      exact Nat.lt_add_right _ (List.idxOf_lt_length_iff.2 hb)

/-- If some of what is listed is left out, the rest is ordered by what leads to
    it through what was left out. -/
theorem filter (p : α → Bool) (h : Ordered next l) :
    Ordered (fun a b => p b = true ∧ TransGen next a b) (l.filter p) := by
  induction h with
  | nil => exact .nil
  | @concat l c hl hc hcb ih =>
    rw [List.filter_append]
    by_cases hp : p c = true
    · rw [List.filter_cons_of_pos hp, List.filter_nil]
      refine ih.concat (fun hc' => hc (List.mem_of_mem_filter hc')) ?_
      rintro b ⟨hb, hcb'⟩
      exact List.mem_filter.2 ⟨hl.mem_of_transGen hcb hcb', hb⟩
    · rw [List.filter_cons_of_neg hp, List.filter_nil, List.append_nil]
      exact ih

end Ordered

/-- In a list without repetitions, what is listed before `a` stands in front of
    any place where `a` stands. -/
theorem mem_of_pair_sublist {α : Type} {before after : List α} {a b : α}
    (hd : (before ++ a :: after).Nodup) (h : [b, a].Sublist (before ++ a :: after)) :
    b ∈ before := by
  induction before with
  | nil =>
    have hafter : a ∉ after := (List.nodup_cons.1 hd).1
    cases h with
    | cons _ h => exact absurd (h.subset (by simp)) hafter
    | cons_cons _ h => exact absurd (h.subset (by simp)) hafter
  | cons c before ih =>
    cases h with
    | cons _ h => exact List.mem_cons_of_mem _ (ih (List.nodup_cons.1 hd).2 h)
    | cons_cons _ _ => exact List.mem_cons_self

/-- In a list without repetitions, what stands before something stands before
    all that comes after it. -/
theorem pair_sublist_trans {α : Type} {l : List α} {a b c : α} (hd : l.Nodup)
    (hab : [a, b].Sublist l) (hbc : [b, c].Sublist l) : [a, c].Sublist l := by
  induction l with
  | nil => exact absurd hab (by simp)
  | cons x l ih =>
    obtain ⟨hx, hd⟩ := List.nodup_cons.1 hd
    -- Only `a` can be the first one, because `b` stands after something.
    cases hab with
    | cons _ hab =>
      cases hbc with
      | cons _ hbc => exact (ih hd hab hbc).cons x
      | cons_cons _ _ => exact absurd (hab.subset (by simp)) hx
    | cons_cons _ hb =>
      cases hbc with
      | cons _ hbc => exact ((List.sublist_cons_self _ _).trans hbc).cons_cons _
      | cons_cons _ _ => exact absurd (hb.subset (by simp)) hx

/-! ### First occurrences -/

section FirstOccurrences

variable {α : Type} [BEq α] [LawfulBEq α]

/-- Leaving things out does not change which of the rest comes first. -/
theorem eraseDups_filter (p : α → Bool) (l : List α) :
    (l.filter p).eraseDups = l.eraseDups.filter p := by
  induction hn : l.length using Nat.strongRecOn generalizing l with
  | ind n ih =>
    cases l with
    | nil => rfl
    | cons a l =>
      have hshorter : (l.filter (!· == a)).length < n :=
        hn ▸ Nat.lt_succ_of_le (List.length_filter_le _ l)
      have hrest := ih _ hshorter (l.filter (!· == a)) rfl
      rw [List.eraseDups_cons]
      by_cases hp : p a = true
      · rw [List.filter_cons_of_pos hp, List.filter_cons_of_pos hp, List.eraseDups_cons, ← hrest,
          List.filter_filter, List.filter_filter]
        simp only [Bool.and_comm]
      · -- What is left out is no first occurrence of anything that is left.
        have hsame : (l.filter (!· == a)).filter p = l.filter p := by
          rw [List.filter_filter]
          refine List.filter_congr fun b _ => ?_
          by_cases hb : b = a
          · simp [hb, hp]
          · simp [hb]
        rw [List.filter_cons_of_neg hp, List.filter_cons_of_neg hp, ← hrest, hsame]

theorem eraseDups_of_nodup {l : List α} (h : l.Nodup) : l.eraseDups = l := by
  induction l with
  | nil => rfl
  | cons a l ih =>
    obtain ⟨ha, hl⟩ := List.nodup_cons.1 h
    have hrest : l.filter (!· == a) = l := List.filter_eq_self.2 fun b hb => by
      have hne : b ≠ a := fun hba => ha (hba ▸ hb)
      simpa using hne
    rw [List.eraseDups_cons, hrest, ih hl]

/-- What is in neither of two lists, told one after the other. -/
theorem removeAll_append_removeAll (l m n : List α) :
    l.removeAll (m ++ n.removeAll m) = (l.removeAll n).removeAll m := by
  simp only [List.removeAll, List.filter_filter]
  refine List.filter_congr fun a _ => ?_
  by_cases ha : a ∈ m
  · simp [ha]
  · simp [ha]

end FirstOccurrences

end ContainerBuild
