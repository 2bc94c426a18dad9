import ContainerBuild.Proofs.Text.Framing
import ContainerBuild.Text.Blank

/-!
# Tokens

A *token* has no white space and none of the characters that separate the parts of
an instruction. So it ends where one of these follows (`framed_token`). A token that
may be missing is read back together with the text before and behind it, if what can
stand in its place does not begin like it (`framed_optional`). For an option this is
so if a token follows with something else than an equals sign behind it
(`Unset.ne_append`).
-/

namespace ContainerBuild.Dockerfile

open Text

/-- Whether a token ends before a character. -/
def isStop (c : Char) : Bool :=
  isBlank c || [',', '=', '"', '\\'].contains c

/-- A text without white space, commas, equals signs, quotes and backslashes. -/
def IsToken (text : String) : Prop :=
  ∀ c ∈ text.toList, !isStop c

instance (text : String) : Decidable (IsToken text) :=
  List.decidableBAll _ text.toList

/-- A text that a token in front of it ends at. -/
def Stopped (text : List Char) : Prop :=
  ∀ c ∈ text.head?, ¬!isStop c

theorem framed_token : Framed IsToken Stopped String.toList id :=
  framed_class _

theorem stopped_cons {c : Char} (h : isStop c) (rest : List Char) : Stopped (c :: rest) := by
  intro d hd
  rw [← Option.some.inj hd, h]
  exact Bool.false_ne_true

theorem stopped_append {mark : String} (h : mark.toList.head?.any isStop) (rest : List Char) :
    Stopped (mark.toList ++ rest) := by
  cases hmark : mark.toList with
  | nil => rw [hmark] at h; cases h
  | cons c text =>
    rw [hmark] at h
    exact stopped_cons h (text ++ rest)

/-- A token that may be missing, with the text before and behind it. -/
theorem framed_optional {f : Option String → List Char} {Q : List Char → Prop}
    {before behind : String} (hnone : f none = [])
    (hsome : ∀ v, f (some v) = before.toList ++ (v.toList ++ behind.toList))
    (hstopped : ∀ s, Q s → Stopped (behind.toList ++ s))
    (hne : ∀ s rest, Q s → s ≠ before.toList ++ rest) :
    Framed (fun o : Option String => ∀ v ∈ o, IsToken v) Q f id := by
  have happend : ∀ v rest,
      f (some v) ++ rest = before.toList ++ (v.toList ++ (behind.toList ++ rest)) := by
    intro v rest
    rw [hsome, List.append_assoc, List.append_assoc]
  intro o o' s s' ho ho' hs hs' h
  cases o with
  | none =>
    rw [hnone, List.nil_append] at h
    cases o' with
    | none =>
      rw [hnone, List.nil_append] at h
      exact ⟨rfl, h⟩
    | some v' => exact absurd (h.trans (happend v' s')) (hne s _ hs)
  | some v =>
    rw [happend] at h
    cases o' with
    | none =>
      rw [hnone, List.nil_append] at h
      exact absurd h.symm (hne s' _ hs')
    | some v' =>
      rw [happend] at h
      obtain ⟨hv, hrest⟩ := framed_token (ho v rfl) (ho' v' rfl) (hstopped s hs) (hstopped s' hs')
        (List.append_cancel_left h)
      exact ⟨congrArg some hv, List.append_cancel_left hrest⟩

/-- What stands in the place of an option that is missing: a token, with something
    else than an equals sign behind it. -/
def Unset (text : List Char) : Prop :=
  ∃ (token : String) (c : Char) (rest : List Char),
    text = token.toList ++ c :: rest ∧ IsToken token ∧ isStop c ∧ c ≠ '='

theorem Unset.ne_append {flag : String} (hflag : IsToken flag) {text : List Char} (h : Unset text)
    (rest : List Char) : text ≠ (flag ++ "=").toList ++ rest := by
  obtain ⟨token, c, text, rfl, htoken, hc, hne⟩ := h
  intro heq
  rw [String.toList_append, List.append_assoc] at heq
  obtain ⟨_, hbehind⟩ := framed_token htoken hflag (stopped_cons hc text)
    (stopped_append (by decide) rest) heq
  exact hne (List.cons.inj hbehind).1

end ContainerBuild.Dockerfile
