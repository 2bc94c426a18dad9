import ContainerBuild.Cancellation
import Mathlib.Data.List.Infix
import Mathlib.Logic.Relation

/-!
# Families of tokens

What happened to tokens is a list of events, and it tells which tokens belong together. They
are numbered as they are made (`made`), a token is linked to each of its clones (`Cloned`), and
a *family* is whatever chains of such links connect, up and down (`Kin`).

A token has been cancelled exactly if some token of its family was (`isCancelled_iff_kin`). It
makes no difference which of the two was cloned from the other, over how many clones, and
whether this was before or after. So an event changes nothing for tokens of other families,
and what has been cancelled stays so.

The families that are kept beside the tokens are those of the events (`Keeps`): every event
leaves them so (`Keeps.after`).
-/

namespace ContainerBuild.Tokens

open Relation

/-- The number of tokens after an event, if there were `n` of them. -/
def count (n : Nat) : TokenEvent → Nat
  | .fresh => n + 1
  | .clone token => if token < n then n + 1 else n
  | .cancel _ => n

/-- The number of tokens after some events. The first one is there from the start. -/
def made (events : List TokenEvent) : Nat :=
  events.foldl count 1

/-- A token was cloned, and what became of it is the token made next. -/
inductive Cloned (events : List TokenEvent) : Nat → Nat → Prop
  | intro {before : List TokenEvent} {token : Nat} : before ++ [.clone token] <+: events →
    token < made before → Cloned events token (made before)

/-- A token was cancelled by an event of its own. -/
inductive Cancelled (events : List TokenEvent) : Nat → Prop
  | intro {before : List TokenEvent} {token : Nat} : before ++ [.cancel token] <+: events →
    token < made before → Cancelled events token

/-- Two tokens are of one family: clones connect them, in either direction. -/
def Kin (events : List TokenEvent) : Nat → Nat → Prop :=
  EqvGen (Cloned events)

/-- The tokens with their families are those that some events lead to. -/
structure Keeps (events : List TokenEvent) (t : Tokens) : Prop where
  length_eq : t.members.length = made events
  family_lt : ∀ family ∈ t.members, family < t.families.length
  same : ∀ {a b}, Cloned events a b → t.members[a]? = t.members[b]?
  /-- Every token is of the family of the first one with its number. -/
  kin : ∀ {a family}, t.members[a]? = some family → Kin events (t.members.idxOf family) a
  cancelled_iff : ∀ {family}, t.families[family]? = some true ↔
    ∃ c, Cancelled events c ∧ t.members[c]? = some family

variable {events more : List TokenEvent} {e : TokenEvent} {t : Tokens} {a b token family : Nat}

/-! ### Histories -/

theorem made_concat : made (events ++ [e]) = count (made events) e :=
  List.foldl_concat ..

theorem le_count (n : Nat) (e : TokenEvent) : n ≤ count n e := by
  cases e with
  | fresh => exact n.le_succ
  | clone token =>
    rw [count]
    split_ifs
    · exact n.le_succ
    · exact n.le_refl
  | cancel => exact n.le_refl

theorem made_le_of_prefix (h : events <+: more) : made events ≤ made more := by
  obtain ⟨rest, rfl⟩ := h
  induction rest using List.reverseRecOn with
  | nil => rw [List.append_nil]
  | append_singleton rest e ih =>
    rw [← List.append_assoc, made_concat]
    exact ih.trans (le_count _ e)

theorem cloned_concat_iff :
    Cloned (events ++ [e]) a b ↔
      Cloned events a b ∨ e = .clone a ∧ a < made events ∧ b = made events := by
  constructor
  · rintro ⟨h, hmade⟩
    rcases List.prefix_concat_iff.1 h with heq | h
    · obtain ⟨rfl, he⟩ := List.append_inj' heq rfl
      exact .inr ⟨(List.singleton_inj.1 he).symm, hmade, rfl⟩
    · exact .inl ⟨h, hmade⟩
  · rintro (⟨h, hmade⟩ | ⟨rfl, hmade, rfl⟩)
    · exact ⟨h.trans (List.prefix_append _ _), hmade⟩
    · exact ⟨List.prefix_rfl, hmade⟩

theorem cancelled_concat_iff :
    Cancelled (events ++ [e]) a ↔ Cancelled events a ∨ e = .cancel a ∧ a < made events := by
  constructor
  · rintro ⟨h, hmade⟩
    rcases List.prefix_concat_iff.1 h with heq | h
    · obtain ⟨rfl, he⟩ := List.append_inj' heq rfl
      exact .inr ⟨(List.singleton_inj.1 he).symm, hmade⟩
    · exact .inl ⟨h, hmade⟩
  · rintro (⟨h, hmade⟩ | ⟨rfl, hmade⟩)
    · exact ⟨h.trans (List.prefix_append _ _), hmade⟩
    · exact ⟨List.prefix_rfl, hmade⟩

theorem Cloned.lt (h : Cloned events a b) : a < made events ∧ b < made events := by
  obtain ⟨h, hmade⟩ := h
  have hle := made_le_of_prefix h
  rw [made_concat, count, if_pos hmade] at hle
  exact ⟨hmade.trans hle, hle⟩

theorem Cancelled.lt (h : Cancelled events a) : a < made events := by
  obtain ⟨h, hmade⟩ := h
  have hle := made_le_of_prefix h
  rw [made_concat, count] at hle
  exact hmade.trans_le hle

theorem Cancelled.mono (h : Cancelled events a) (hmore : events <+: more) :
    Cancelled more a := by
  obtain ⟨h, hmade⟩ := h
  exact ⟨h.trans hmore, hmade⟩

theorem Cloned.mono (h : Cloned events a b) (hmore : events <+: more) : Cloned more a b := by
  obtain ⟨h, hmade⟩ := h
  exact ⟨h.trans hmore, hmade⟩

theorem Kin.mono (h : Kin events a b) (hmore : events <+: more) : Kin more a b :=
  EqvGen.mono (fun _ _ hcloned => hcloned.mono hmore) _ _ h

theorem Kin.concat (h : Kin events a b) : Kin (events ++ [e]) a b :=
  h.mono (List.prefix_append _ _)

/-! ### Tokens with families -/

namespace Keeps

theorem lt_iff (h : Keeps events t) : a < made events ↔ ∃ family, t.members[a]? = some family := by
  rw [← h.length_eq, ← Option.isSome_iff_exists]
  simp

/-- Tokens of one family have the same number. -/
theorem members_eq (h : Keeps events t) (hkin : Kin events a b) :
    t.members[a]? = t.members[b]? := by
  induction hkin with
  | rel _ _ hcloned => exact h.same hcloned
  | refl => rfl
  | symm _ _ _ ih => exact ih.symm
  | trans _ _ _ _ _ ih ih' => exact ih.trans ih'

/-- Tokens with the same number are of one family. -/
theorem kin_of_members (h : Keeps events t) (ha : t.members[a]? = some family)
    (hb : t.members[b]? = some family) : Kin events a b :=
  .trans _ _ _ (.symm _ _ (h.kin ha)) (h.kin hb)

theorem isCancelled_iff (h : Keeps events t) :
    t.isCancelled token ↔ ∃ c, Cancelled events c ∧ Kin events c token := by
  rw [isCancelled]
  cases hfamily : t.members[token]? with
  | none =>
    refine iff_of_false Bool.false_ne_true ?_
    rintro ⟨c, hcancelled, hkin⟩
    -- The token would have the number of the one that was cancelled.
    obtain ⟨family, hc⟩ := h.lt_iff.1 hcancelled.lt
    rw [h.members_eq hkin, hfamily] at hc
    cases hc
  | some family =>
    have hget : t.families.getD family false = true ↔ t.families[family]? = some true := by
      rw [List.getD_eq_getElem?_getD]
      cases t.families[family]? <;> simp
    rw [hget, h.cancelled_iff]
    refine exists_congr fun c => and_congr_right fun _ => ⟨fun hc => ?_, fun hkin => ?_⟩
    · exact h.kin_of_members hc hfamily
    · rw [h.members_eq hkin, hfamily]

/-! ### One event -/

/-- An event of a token that was never made. -/
theorem idle (h : Keeps events t) (he : e = .clone a ∨ e = .cancel a) (ha : ¬a < made events) :
    Keeps (events ++ [e]) t where
  length_eq := by
    rw [made_concat, h.length_eq]
    rcases he with rfl | rfl
    · rw [count, if_neg ha]
    · rfl
  family_lt := h.family_lt
  same := fun hab => h.same <| (cloned_concat_iff.1 hab).resolve_right <| by
    rintro ⟨rfl, hmade, -⟩
    rcases he with he | he <;> cases he
    exact ha hmade
  kin := fun ha => (h.kin ha).concat
  cancelled_iff := by
    intro family
    rw [h.cancelled_iff]
    refine exists_congr fun c => and_congr_left fun _ => (cancelled_concat_iff.trans ?_).symm
    refine or_iff_left ?_
    rintro ⟨rfl, hmade⟩
    rcases he with he | he <;> cases he
    exact ha hmade

/-- An event that makes a token: of a family without tokens, or of that of the token which it
    clones. -/
theorem make (h : Keeps events t) {families : List Bool} {new : Nat}
    (hcount : count (made events) e = made events + 1)
    (hcancelled : ∀ {c}, Cancelled (events ++ [e]) c ↔ Cancelled events c)
    (hfamilies : ∀ {family : Nat}, families[family]? = some true ↔ t.families[family]? = some true)
    (hle : t.families.length ≤ families.length) (hnew : new < families.length)
    (hclone : ∀ {a}, e = .clone a → a < made events → t.members[a]? = some new)
    (hkin : new ∈ t.members → ∃ a, e = .clone a ∧ t.members[a]? = some new) :
    Keeps (events ++ [e]) ⟨families, t.members ++ [new]⟩ := by
  -- The new token is put last and leaves the others as they are.
  have hold : ∀ {a}, a < made events → (t.members ++ [new])[a]? = t.members[a]? :=
    fun ha => List.getElem?_append_left (h.length_eq ▸ ha)
  have hlast : (t.members ++ [new])[made events]? = some new := by
    rw [← h.length_eq, List.getElem?_concat_length]
  refine ⟨?_, ?_, fun {a b} hab => ?_, fun {a family} ha => ?_, fun {family} => ?_⟩
  · rw [made_concat, hcount, List.length_append, List.length_singleton, h.length_eq]
  · rw [List.forall_mem_append, List.forall_mem_singleton]
    exact ⟨fun family hfamily => (h.family_lt family hfamily).trans_le hle, hnew⟩
  · obtain hab | ⟨he, ha, rfl⟩ := cloned_concat_iff.1 hab
    · rw [hold hab.lt.1, hold hab.lt.2, h.same hab]
    · rw [hold ha, hlast, hclone he ha]
  · by_cases hlt : a < made events
    · rw [hold hlt] at ha
      rw [List.idxOf_append_of_mem (List.mem_of_getElem? ha)]
      exact (h.kin ha).concat
    obtain ⟨hbound, -⟩ := List.getElem?_eq_some_iff.1 ha
    rw [List.length_append, List.length_singleton, h.length_eq] at hbound
    obtain rfl : a = made events := by omega
    rw [hlast, Option.some_inj] at ha
    subst ha
    by_cases hmem : new ∈ t.members
    · obtain ⟨a, he, ha⟩ := hkin hmem
      rw [List.idxOf_append_of_mem hmem]
      exact .trans _ _ _ (h.kin ha).concat
        (.rel _ _ (cloned_concat_iff.2 (.inr ⟨he, h.lt_iff.2 ⟨_, ha⟩, rfl⟩)))
    · -- The token is the first one of its family.
      rw [List.idxOf_append_of_notMem hmem, List.idxOf_cons_self, h.length_eq]
      exact .refl _
  · simp only [hcancelled, hfamilies, h.cancelled_iff]
    exact exists_congr fun _ => and_congr_right fun hc => by rw [hold hc.lt]

/-- An event that cancels a family. -/
theorem cancel (h : Keeps events t) (ha : t.members[a]? = some family) :
    Keeps (events ++ [.cancel a]) { t with families := t.families.set family true } where
  length_eq := by rw [made_concat, count, h.length_eq]
  family_lt := by simpa using h.family_lt
  same := by
    intro a b hab
    exact h.same ((cloned_concat_iff.1 hab).resolve_right fun h => nomatch h.1)
  kin := fun ha => (h.kin ha).concat
  cancelled_iff := by
    intro g
    have hlt := h.family_lt family (List.mem_of_getElem? ha)
    simp only [cancelled_concat_iff, TokenEvent.cancel.injEq]
    by_cases hg : family = g
    · subst hg
      rw [List.getElem?_set_self hlt]
      exact iff_of_true rfl ⟨a, .inr ⟨rfl, h.lt_iff.2 ⟨_, ha⟩⟩, ha⟩
    · -- The token that is cancelled is of another family.
      rw [List.getElem?_set_ne hg, h.cancelled_iff]
      refine exists_congr fun c => and_congr_left fun hc => (or_iff_left ?_).symm
      rintro ⟨rfl, -⟩
      exact hg (Option.some_inj.1 (ha.symm.trans hc))

/-- Every event leaves the tokens with their families. -/
theorem after (h : Keeps events t) (e : TokenEvent) : Keeps (events ++ [e]) (t.after e) := by
  have hunmade : ∀ {a}, t.members[a]? = none → ¬a < made events := by
    intro a ha hlt
    obtain ⟨family, hfamily⟩ := h.lt_iff.1 hlt
    cases ha.symm.trans hfamily
  cases e with
  | fresh =>
    refine h.make rfl (by simp [cancelled_concat_iff]) (fun {family} => ?_) (by simp) (by simp)
      nofun fun hmem => absurd (h.family_lt _ hmem) (lt_irrefl _)
    -- The new family has not been cancelled.
    rw [List.getElem?_append]
    split_ifs with hlt
    · rfl
    · rw [List.getElem?_eq_none (not_lt.1 hlt), List.getElem?_singleton]
      split_ifs <;> simp
  | clone a =>
    rw [Tokens.after]
    cases ha : t.members[a]? with
    | none => exact h.idle (.inl rfl) (hunmade ha)
    | some family =>
      refine h.make (if_pos (h.lt_iff.2 ⟨_, ha⟩)) (by simp [cancelled_concat_iff]) .rfl le_rfl
        (h.family_lt family (List.mem_of_getElem? ha)) ?_ fun _ => ⟨a, rfl, ha⟩
      rintro a ⟨⟩ -
      exact ha
  | cancel a =>
    rw [Tokens.after]
    cases ha : t.members[a]? with
    | none => exact h.idle (.inr rfl) (hunmade ha)
    | some family => exact h.cancel ha

end Keeps

/-! ### All events -/

/-- No event takes a token away or moves it to another family. -/
theorem members_prefix_after (t : Tokens) (e : TokenEvent) : t.members <+: (t.after e).members := by
  cases e with
  | fresh => exact List.prefix_append _ _
  | clone a =>
    rw [after]
    split
    · exact List.prefix_append _ _
    · exact List.prefix_rfl
  | cancel a =>
    rw [after]
    split <;> exact List.prefix_rfl

theorem keeps_one : Keeps [] one where
  length_eq := rfl
  family_lt := by decide
  same := by
    rintro a b ⟨h, -⟩
    simp at h
  kin := by
    intro a family ha
    obtain ⟨rfl, rfl⟩ : a = 0 ∧ family = 0 := by
      cases a <;> simp_all [one]
    exact .refl _
  cancelled_iff := by
    intro family
    refine iff_of_false ?_ ?_
    · cases family <;> simp [one]
    · rintro ⟨_, ⟨h, -⟩, -⟩
      simp at h

theorem keeps_afterAll (events : List TokenEvent) : Keeps events (one.afterAll events) := by
  induction events using List.reverseRecOn with
  | nil => exact keeps_one
  | append_singleton events e ih =>
    rw [afterAll, List.foldl_concat]
    exact ih.after e

/-- What is made later does not bring two families together. -/
theorem kin_concat_iff (ha : a < made events) (hb : b < made events) :
    Kin (events ++ [e]) a b ↔ Kin events a b := by
  refine ⟨fun hkin => ?_, Kin.concat⟩
  have h := keeps_afterAll events
  have hmembers : ∀ {a}, a < made events →
      ((one.afterAll events).after e).members[a]? = (one.afterAll events).members[a]? := by
    intro a ha
    obtain ⟨rest, heq⟩ := members_prefix_after (one.afterAll events) e
    rw [← heq, List.getElem?_append_left (h.length_eq ▸ ha)]
  obtain ⟨family, hfamily⟩ := h.lt_iff.1 ha
  have heq := (h.after e).members_eq hkin
  rw [hmembers ha, hmembers hb, hfamily] at heq
  exact h.kin_of_members hfamily heq.symm

/-- A token has been cancelled exactly if some token of its family was. An event changes this
    only if it cancels a token of the family, and what has been cancelled stays so. -/
theorem isCancelled_iff_kin (events : List TokenEvent) (token : Nat) :
    ((one.afterAll events).isCancelled token ↔ ∃ c, Cancelled events c ∧ Kin events c token) ∧
    (∀ e, token < made events → ((one.afterAll (events ++ [e])).isCancelled token ↔
      (one.afterAll events).isCancelled token ∨
        ∃ c, e = .cancel c ∧ c < made events ∧ Kin events c token)) ∧
    ∀ more, (one.afterAll events).isCancelled token →
      (one.afterAll (events ++ more)).isCancelled token := by
  simp only [(keeps_afterAll _).isCancelled_iff]
  refine ⟨trivial, fun e htoken => ?_, fun more => ?_⟩
  · simp only [cancelled_concat_iff, or_and_right, exists_or, and_assoc]
    refine or_congr (exists_congr fun c => and_congr_right fun hc => ?_)
      (exists_congr fun c => and_congr_right fun _ => and_congr_right fun hc => ?_)
    · exact kin_concat_iff hc.lt htoken
    · exact kin_concat_iff hc htoken
  · rintro ⟨c, hcancelled, hkin⟩
    exact ⟨c, hcancelled.mono (List.prefix_append _ _), hkin.mono (List.prefix_append _ _)⟩

/-- The second token is cancelled, and with it the first one, from which it was cloned, and the
    fourth one, which is cloned from the first one afterwards. -/
example : ([0, 1, 2, 3].map
    (one.afterAll [.clone 0, .fresh, .cancel 1, .clone 0]).isCancelled) =
    [true, true, false, true] := by decide

end ContainerBuild.Tokens
