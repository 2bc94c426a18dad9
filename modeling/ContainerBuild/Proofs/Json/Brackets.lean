import ContainerBuild.Proofs.Json.Exactness

/-!
# Brackets around a value in a text

A text that writes a value has the texts of its parts in it. If one part stands in the
brackets of a list instead, a text for that is the same one with the brackets written in
it (`Exchanged.exists_brackets`).

Texts of tokens are cut and put together where the tokens are (`Spells.exists_append`,
`Spells.append`). What is put behind another text must not go on with a number there,
which no bracket does.
-/

namespace ContainerBuild.Json

variable {tokens tokens' : List Token} {text text' : List Char}

/-! ### Texts of tokens, cut and put together -/

theorem Token.EndsAt.of_append {token : Token} (h : token.EndsAt (text ++ text')) :
    token.EndsAt text := by
  cases text with
  | nil => exact nofun
  | cons c text => exact h

theorem Token.EndsAt.append {token : Token} (h : token.EndsAt text)
    (hbehind : ∀ c ∈ text'.head?, ¬belongsToNumber c) : token.EndsAt (text ++ text') := by
  cases text with
  | nil => exact fun _ => hbehind
  | cons c text => exact h

/-- The text of tokens that are followed by others, and of those. -/
theorem Spells.exists_append (h : Spells (tokens ++ tokens') text) :
    ∃ w w', text = w ++ w' ∧ Spells tokens w ∧ Spells tokens' w' := by
  generalize hall : tokens ++ tokens' = all at h
  induction h generalizing tokens with
  | nil =>
    obtain ⟨rfl, rfl⟩ := List.append_eq_nil_iff.1 hall
    exact ⟨[], [], rfl, .nil, .nil⟩
  | @space c _ _ hc _ ih =>
    obtain ⟨w, w', rfl, hw, hw'⟩ := ih hall
    exact ⟨c :: w, w', rfl, .space hc hw, hw'⟩
  | @token token all w text htoken hend h ih =>
    cases tokens with
    | nil =>
      subst hall
      exact ⟨[], w ++ text, rfl, .nil, .token htoken hend h⟩
    | cons _ tokens =>
      obtain ⟨rfl, hrest⟩ := List.cons.inj hall
      obtain ⟨v, w', rfl, hv, hw'⟩ := ih hrest
      exact ⟨w ++ v, w', (List.append_assoc ..).symm, .token htoken hend.of_append hv, hw'⟩

theorem Spells.append (h : Spells tokens text) (h' : Spells tokens' text')
    (hbehind : ∀ c ∈ text'.head?, ¬belongsToNumber c) :
    Spells (tokens ++ tokens') (text ++ text') := by
  induction h with
  | nil => exact h'
  | space hc _ ih => exact .space hc ih
  | token htoken hend _ ih =>
    rw [List.append_assoc]
    exact .token htoken (hend.append hbehind) ih

theorem not_belongsToNumber_bracket {c : Char} (hc : c = '[' ∨ c = ']') :
    ¬belongsToNumber c := by
  rcases hc with rfl | rfl <;> simp [belongsToNumber]

/-- Brackets are written around the text of some tokens. -/
theorem Spells.brackets {before middle after : List Token}
    (h : Spells (before ++ middle ++ after) text) :
    ∃ w v w', text = w ++ v ++ w' ∧ Spells middle v ∧
      Spells (before ++ .openArray :: (middle ++ .closeArray :: after))
        (w ++ '[' :: (v ++ ']' :: w')) := by
  obtain ⟨wv, w', rfl, hwv, hafter⟩ := h.exists_append
  obtain ⟨w, v, rfl, hbefore, hmiddle⟩ := hwv.exists_append
  have hclosed : Spells (middle ++ .closeArray :: after) (v ++ ']' :: w') := by
    refine hmiddle.append (.other .closeArray rfl hafter) ?_
    rintro c ⟨⟩
    exact not_belongsToNumber_bracket (.inr rfl)
  refine ⟨w, v, w', rfl, hmiddle, hbefore.append (.other .openArray rfl hclosed) ?_⟩
  rintro c ⟨⟩
  exact not_belongsToNumber_bracket (.inl rfl)

/-! ### Values with a part exchanged -/

namespace Value

/-- One value is the other one with a part exchanged: the tokens around the part are the
    same. -/
def Exchanged (item item' v v' : Value) : Prop :=
  ∃ before after, v.tokens = before ++ item.tokens ++ after ∧
    v'.tokens = before ++ item'.tokens ++ after

variable {item item' v v' : Value}

theorem Exchanged.refl : Exchanged item item' item item' :=
  ⟨[], [], by simp, by simp⟩

/-- A value with a part exchanged stands among others. -/
theorem Exchanged.of_tokens (h : Exchanged item item' v v') (part : Value → Value)
    {before after : List Token} (hpart : ∀ u, (part u).tokens = before ++ u.tokens ++ after) :
    Exchanged item item' (part v) (part v') := by
  obtain ⟨first, last, hv, hv'⟩ := h
  refine ⟨before ++ first, last ++ after, ?_, ?_⟩
  · rw [hpart, hv]
    simp only [List.append_assoc]
  · rw [hpart, hv']
    simp only [List.append_assoc]

theorem Exchanged.array (h : Exchanged item item' v v') (before after : List Value) :
    Exchanged item item' (.array (before ++ v :: after)) (.array (before ++ v' :: after)) := by
  have hitems : ∃ last, ∀ u, itemTokens (u :: after) = u.tokens ++ last := by
    cases after with
    | nil => exact ⟨[], fun u => by rw [itemTokens, List.append_nil]⟩
    | cons next after => exact ⟨_, fun u => itemTokens_cons_cons u next after⟩
  obtain ⟨last, hitems⟩ := hitems
  have htokens : ∀ u, (Value.array (before ++ u :: after)).tokens =
      .openArray :: itemsBefore before ++ u.tokens ++ (last ++ [.closeArray]) := by
    intro u
    rw [tokens, itemTokens_append, hitems]
    simp only [List.append_assoc, List.cons_append]
  exact h.of_tokens (fun u => .array (before ++ u :: after)) htokens

theorem Exchanged.object (h : Exchanged item item' v v') (before after : List (RawText × Value))
    (name : RawText) :
    Exchanged item item' (.object (before ++ (name, v) :: after))
      (.object (before ++ (name, v') :: after)) := by
  have hmembers : ∃ last, ∀ u, memberTokens ((name, u) :: after) =
      [.text name, .colon] ++ u.tokens ++ last := by
    cases after with
    | nil => exact ⟨[], fun u => by rw [memberTokens, List.append_nil]; rfl⟩
    | cons next after => exact ⟨_, fun u => memberTokens_cons_cons name u next after⟩
  obtain ⟨last, hmembers⟩ := hmembers
  have htokens : ∀ u, (Value.object (before ++ (name, u) :: after)).tokens =
      .openObject :: membersBefore before ++ [.text name, .colon] ++ u.tokens ++
        (last ++ [.closeObject]) := by
    intro u
    rw [tokens, memberTokens_append, hmembers]
    simp only [List.append_assoc, List.cons_append]
  exact h.of_tokens (fun u => .object (before ++ (name, u) :: after)) htokens

/-- A text with brackets around a part writes the value with the part in a list. -/
theorem Exchanged.exists_brackets (h : Exchanged item (.array [item]) v v') (hv : v.Writes text) :
    ∃ before w after, text = before ++ w ++ after ∧ item.Writes w ∧
      v'.Writes (before ++ '[' :: (w ++ ']' :: after)) := by
  obtain ⟨first, last, htokens, htokens'⟩ := h
  rw [Writes, htokens] at hv
  obtain ⟨before, w, after, rfl, hw, hbrackets⟩ := hv.brackets
  refine ⟨before, w, after, rfl, hw, ?_⟩
  have hlist : (Value.array [item]).tokens = .openArray :: (item.tokens ++ [.closeArray]) := by
    rw [tokens, itemTokens]
  rw [Writes, htokens', hlist]
  simpa only [List.append_assoc, List.cons_append, List.nil_append] using hbrackets

end Value

end ContainerBuild.Json
