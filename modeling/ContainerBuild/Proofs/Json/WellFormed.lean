import ContainerBuild.Proofs.Json.Brackets

/-!
# Well-formed texts

A text is well-formed if the grammar of JSON derives it from an element, which is a value
with white space around it (`WellFormed`). The grammar (`Form.Derives`) is given by the
characters alone: it tells no tokens apart, and does not say where a number ends.

A text is well-formed exactly if it writes some value (`wellFormed_iff_exists_writes`), and
so exactly if it is read (`wellFormed_iff_isSome`).
-/

namespace ContainerBuild.Json

variable {tokens : List Token} {token : Token} {text w b : List Char}

/-! ### The grammar -/

/-- White space only. -/
def Spaces (text : List Char) : Prop :=
  ∀ c ∈ text, Space c

/-- The forms of texts that the grammar has. -/
inductive Form where
  | value
  /-- A value with white space around it. -/
  | element
  /-- One or more elements, with commas between them. -/
  | elements
  /-- A name and an element. -/
  | member
  /-- One or more members, with commas between them. -/
  | members
  deriving Repr, DecidableEq

/-- The texts of a form. -/
inductive Form.Derives : Form → List Char → Prop
  | null : Derives .value ['n', 'u', 'l', 'l']
  | true : Derives .value ['t', 'r', 'u', 'e']
  | false : Derives .value ['f', 'a', 'l', 's', 'e']
  | number {n : Number} {w : List Char} (hn : n.Spelled w) : Derives .value w
  | text {t : RawText} {w : List Char} (ht : t.Spelled w) : Derives .value ('"' :: (w ++ ['"']))
  | emptyArray {b : List Char} (hb : Spaces b) : Derives .value ('[' :: (b ++ [']']))
  | array {w : List Char} (h : Derives .elements w) : Derives .value ('[' :: (w ++ [']']))
  | emptyObject {b : List Char} (hb : Spaces b) : Derives .value ('\x7b' :: (b ++ ['\x7d']))
  | object {w : List Char} (h : Derives .members w) : Derives .value ('\x7b' :: (w ++ ['\x7d']))
  | element {b w b' : List Char} (hb : Spaces b) (h : Derives .value w) (hb' : Spaces b') :
    Derives .element (b ++ w ++ b')
  | lastElement {w : List Char} (h : Derives .element w) : Derives .elements w
  | elements {w rest : List Char} (h : Derives .element w) (hrest : Derives .elements rest) :
    Derives .elements (w ++ ',' :: rest)
  | member {b name b' w : List Char} {t : RawText} (hb : Spaces b) (ht : t.Spelled name)
    (hb' : Spaces b') (h : Derives .element w) :
    Derives .member (b ++ '"' :: (name ++ '"' :: (b' ++ ':' :: w)))
  | lastMember {w : List Char} (h : Derives .member w) : Derives .members w
  | members {w rest : List Char} (h : Derives .member w) (hrest : Derives .members rest) :
    Derives .members (w ++ ',' :: rest)

/-- A text with nothing but one value. -/
def WellFormed (text : List Char) : Prop :=
  Form.element.Derives text

/-! ### White space -/

theorem not_belongsToNumber_of_space {c : Char} (hc : Space c) : ¬belongsToNumber c := by
  cases hc <;> simp [belongsToNumber]

theorem spells_nil_iff : Spells [] text ↔ Spaces text := by
  constructor
  · intro h
    generalize hnil : ([] : List Token) = tokens at h
    induction h with
    | nil => exact nofun
    | space hc _ ih => exact List.forall_mem_cons.2 ⟨hc, ih hnil⟩
    | token => cases hnil
  · intro h
    induction text with
    | nil => exact .nil
    | cons c text ih =>
      obtain ⟨hc, htext⟩ := List.forall_mem_cons.1 h
      exact .space hc (ih htext)

/-- Spaces may be written in front of tokens. -/
theorem Spells.spaces_append (h : Spells tokens text) (hb : Spaces b) :
    Spells tokens (b ++ text) := by
  induction b with
  | nil => exact h
  | cons c b ih =>
    obtain ⟨hc, hb⟩ := List.forall_mem_cons.1 hb
    exact .space hc (ih hb)

/-- Spaces may be written behind tokens. -/
theorem Spells.append_spaces (h : Spells tokens text) (hb : Spaces b) :
    Spells tokens (text ++ b) := by
  rw [← List.append_nil tokens]
  refine h.append (spells_nil_iff.2 hb) fun c hc => ?_
  exact not_belongsToNumber_of_space (hb c (List.mem_of_mem_head? hc))

/-- The text of the first token, with spaces in front. -/
theorem Spells.exists_cons (h : Spells (token :: tokens) text) :
    ∃ b w rest, text = b ++ (w ++ rest) ∧ Spaces b ∧ token.Spelled w ∧ Spells tokens rest := by
  generalize hall : token :: tokens = all at h
  induction h with
  | nil => cases hall
  | @space c _ _ hc _ ih =>
    obtain ⟨b, w, rest, rfl, hb, hw⟩ := ih hall
    exact ⟨c :: b, w, rest, rfl, List.forall_mem_cons.2 ⟨hc, hb⟩, hw⟩
  | token htoken _ h =>
    obtain ⟨rfl, rfl⟩ := List.cons.inj hall
    exact ⟨[], _, _, rfl, nofun, htoken, h⟩

/-! ### What is derived writes a value -/

theorem Spells.of_spelled (h : token.Spelled w) : Spells [token] w := by
  have hend : token.EndsAt [] := fun _ => nofun
  simpa using Spells.token h hend .nil

/-- Tokens with a mark between them. -/
theorem Spells.mark {tokens' : List Token} {text' : List Char} {c : Char}
    (h : Spells tokens text) (hmark : token.Spelled [c]) (hother : token.isNumber = false)
    (hc : ¬belongsToNumber c) (h' : Spells tokens' text') :
    Spells (tokens ++ token :: tokens') (text ++ c :: text') := by
  refine h.append (.other hmark hother h') ?_
  rintro _ ⟨⟩
  exact hc

/-- What a text of a form writes. -/
def Form.Meant (text : List Char) : Form → Prop
  | .value | .element => ∃ v : Value, v.Writes text
  | .elements => ∃ v rest, Spells (Value.itemTokens (v :: rest)) text
  | .member => ∃ name, ∃ v : Value, Spells (.text name :: .colon :: v.tokens) text
  | .members => ∃ m rest, Spells (Value.memberTokens (m :: rest)) text

/-- The induction is on how the text is derived, with one case for each form of a text. -/
theorem Form.Derives.meant {form : Form} (h : form.Derives text) : form.Meant text := by
  have hmark : ∀ c ∈ [']', '\x7d', ',', ':'], ¬belongsToNumber c := by simp [belongsToNumber]
  induction h with
  | null => exact ⟨.null, .of_spelled .null⟩
  | true => exact ⟨.bool Bool.true, .of_spelled .true⟩
  | false => exact ⟨.bool Bool.false, .of_spelled .false⟩
  | number hn => exact ⟨.number _, .of_spelled (.number hn)⟩
  | text ht => exact ⟨.text _, .of_spelled (.text ht)⟩
  | emptyArray hb =>
    have hclose := (spells_nil_iff.2 hb).mark .closeArray rfl (hmark _ (by simp)) .nil
    exact ⟨.array [], .other .openArray rfl hclose⟩
  | array _ ih =>
    obtain ⟨v, rest, hitems⟩ := ih
    have hclose := hitems.mark .closeArray rfl (hmark _ (by simp)) .nil
    exact ⟨.array (v :: rest), .other .openArray rfl hclose⟩
  | emptyObject hb =>
    have hclose := (spells_nil_iff.2 hb).mark .closeObject rfl (hmark _ (by simp)) .nil
    exact ⟨.object [], .other .openObject rfl hclose⟩
  | object _ ih =>
    obtain ⟨m, rest, hmembers⟩ := ih
    have hclose := hmembers.mark .closeObject rfl (hmark _ (by simp)) .nil
    exact ⟨.object (m :: rest), .other .openObject rfl hclose⟩
  | element hb _ hb' ih =>
    obtain ⟨v, hv⟩ := ih
    refine ⟨v, ?_⟩
    rw [List.append_assoc]
    exact (hv.append_spaces hb').spaces_append hb
  | lastElement _ ih =>
    obtain ⟨v, hv⟩ := ih
    exact ⟨v, [], by rwa [Value.itemTokens]⟩
  | elements _ _ ih ihrest =>
    obtain ⟨v, hv⟩ := ih
    obtain ⟨v', rest, hrest⟩ := ihrest
    refine ⟨v, v' :: rest, ?_⟩
    rw [Value.itemTokens_cons_cons]
    exact hv.mark .comma rfl (hmark _ (by simp)) hrest
  | @member b name b' w t hb ht hb' _ ih =>
    obtain ⟨v, hv⟩ := ih
    refine ⟨t, v, Spells.spaces_append ?_ hb⟩
    have hcolon : Spells (.colon :: v.tokens) (b' ++ ':' :: w) :=
      (spells_nil_iff.2 hb').mark .colon rfl (hmark _ (by simp)) hv
    simpa using Spells.other (.text ht) rfl hcolon
  | lastMember _ ih =>
    obtain ⟨name, v, hv⟩ := ih
    exact ⟨(name, v), [], by rwa [Value.memberTokens]⟩
  | members _ _ ih ihrest =>
    obtain ⟨name, v, hv⟩ := ih
    obtain ⟨m, rest, hrest⟩ := ihrest
    refine ⟨(name, v), m :: rest, ?_⟩
    rw [Value.memberTokens_cons_cons]
    exact hv.mark .comma rfl (hmark _ (by simp)) hrest

/-! ### What writes a value is derived -/

/-- The texts around a mark. -/
theorem Spells.exists_mark {tokens' : List Token} {c : Char}
    (h : Spells (tokens ++ token :: tokens') text) (hmark : ∀ w, token.Spelled w → w = [c]) :
    ∃ w w', text = w ++ c :: w' ∧ Spells tokens w ∧ Spells tokens' w' := by
  obtain ⟨w, rest, rfl, hw, hrest⟩ := h.exists_append
  obtain ⟨b, m, w', rfl, hb, hm, hw'⟩ := hrest.exists_cons
  obtain rfl := hmark m hm
  exact ⟨w ++ b, w', by simp, hw.append_spaces hb, hw'⟩

theorem WellFormed.of_token (h : Spells [token] text)
    (hvalue : ∀ w, token.Spelled w → Form.value.Derives w) : WellFormed text := by
  obtain ⟨b, w, b', rfl, hb, hw, hb'⟩ := h.exists_cons
  rw [← List.append_assoc]
  exact .element hb (hvalue w hw) (spells_nil_iff.1 hb')

theorem WellFormed.of_enclosed {first last : Token} {o c : Char}
    (h : Spells (first :: (tokens ++ [last])) text) (hfirst : ∀ w, first.Spelled w → w = [o])
    (hlast : ∀ w, last.Spelled w → w = [c])
    (hvalue : ∀ w, Spells tokens w → Form.value.Derives (o :: (w ++ [c]))) : WellFormed text := by
  rw [← List.nil_append (first :: _)] at h
  obtain ⟨b, rest, rfl, hb, hrest⟩ := h.exists_mark hfirst
  obtain ⟨w, b', rfl, hw, hb'⟩ := hrest.exists_mark hlast
  simpa [WellFormed] using
    Form.Derives.element (spells_nil_iff.1 hb) (hvalue w hw) (spells_nil_iff.1 hb')

/-- White space in front of a comma belongs to the element before it. -/
theorem derives_elements {items : List Value}
    (hitems : ∀ v ∈ items, ∀ w, v.Writes w → WellFormed w) (hne : items ≠ [])
    (h : Spells (Value.itemTokens items) text) : Form.elements.Derives text := by
  induction items generalizing text with
  | nil => exact absurd rfl hne
  | cons v items ih =>
    rw [List.forall_mem_cons] at hitems
    cases items with
    | nil =>
      rw [Value.itemTokens] at h
      exact .lastElement (hitems.1 text h)
    | cons v' items =>
      rw [Value.itemTokens_cons_cons] at h
      obtain ⟨w, rest, rfl, hw, hrest⟩ := h.exists_mark (by rintro _ ⟨⟩; rfl)
      exact .elements (hitems.1 w hw) (ih hitems.2 (List.cons_ne_nil v' items) hrest)

theorem derives_member {name : RawText} {v : Value} (hv : ∀ w, v.Writes w → WellFormed w)
    (h : Spells (.text name :: .colon :: v.tokens) text) : Form.member.Derives text := by
  obtain ⟨b, n, rest, rfl, hb, hn, hrest⟩ := h.exists_cons
  rw [← List.nil_append (.colon :: v.tokens)] at hrest
  obtain ⟨b', w, rfl, hb', hw⟩ := hrest.exists_mark (by rintro _ ⟨⟩; rfl)
  cases hn with
  | text ht => simpa using Form.Derives.member hb ht (spells_nil_iff.1 hb') (hv w hw)

theorem derives_members {members : List (RawText × Value)}
    (hmembers : ∀ m ∈ members, ∀ w, m.2.Writes w → WellFormed w) (hne : members ≠ [])
    (h : Spells (Value.memberTokens members) text) : Form.members.Derives text := by
  induction members generalizing text with
  | nil => exact absurd rfl hne
  | cons m members ih =>
    obtain ⟨name, v⟩ := m
    rw [List.forall_mem_cons] at hmembers
    cases members with
    | nil =>
      rw [Value.memberTokens] at h
      exact .lastMember (derives_member hmembers.1 h)
    | cons m' members =>
      rw [Value.memberTokens_cons_cons, ← List.cons_append, ← List.cons_append] at h
      obtain ⟨w, rest, rfl, hw, hrest⟩ := h.exists_mark (by rintro _ ⟨⟩; rfl)
      exact .members (derives_member hmembers.1 hw)
        (ih hmembers.2 (List.cons_ne_nil m' members) hrest)

/-- The induction is on the value: its parts are written by parts of the text. -/
theorem Value.Writes.wellFormed {v : Value} (h : v.Writes text) : WellFormed text := by
  induction v generalizing text with
  | null => exact .of_token h fun _ .null => .null
  | bool b =>
    cases b with
    | true => exact .of_token h fun _ .true => .true
    | false => exact .of_token h fun _ .false => .false
  | number n => exact .of_token h fun _ (.number hn) => .number hn
  | text t => exact .of_token h fun _ (.text ht) => .text ht
  | array items ih =>
    refine .of_enclosed h (by rintro _ ⟨⟩; rfl) (by rintro _ ⟨⟩; rfl) fun w hw => ?_
    cases items with
    | nil => exact .emptyArray (spells_nil_iff.1 hw)
    | cons v items =>
      exact .array (derives_elements (fun u hu _ => ih u hu) (List.cons_ne_nil v items) hw)
  | object members ih =>
    refine .of_enclosed h (by rintro _ ⟨⟩; rfl) (by rintro _ ⟨⟩; rfl) fun w hw => ?_
    cases members with
    | nil => exact .emptyObject (spells_nil_iff.1 hw)
    | cons m members =>
      exact .object (derives_members (fun u hu _ => ih u hu) (List.cons_ne_nil m members) hw)

/-! ### Well-formed texts -/

theorem wellFormed_iff_exists_writes : WellFormed text ↔ ∃ v : Value, v.Writes text :=
  ⟨fun h => h.meant, fun ⟨_, hv⟩ => hv.wellFormed⟩

/-- A text is well-formed exactly if a value is read from it. -/
theorem wellFormed_iff_isSome : WellFormed text ↔ (parse? text).isSome := by
  rw [wellFormed_iff_exists_writes, Option.isSome_iff_exists]
  exact exists_congr fun _ => parse?_eq_some_iff.symm

instance (text : List Char) : Decidable (WellFormed text) :=
  decidable_of_iff _ wellFormed_iff_isSome.symm

/-- Neither a string without meaning nor a number out of range is a fault of form. -/
example : WellFormed "[\"\\ud800\", 1e999]".toList := by decide

end ContainerBuild.Json
