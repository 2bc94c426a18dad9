import ContainerBuild.Json.Meaning
import ContainerBuild.Json.Printer
import ContainerBuild.Proofs.Json.Reading

/-!
# JSON texts are printed

The indented text of a value spells the value's tokens (`Value.spells_indented`), so
values with the same text have the same tokens and are the same (`Value.indented_inj`).

This is said of *plain* values, which are made of strings without numbers. Their
strings are printed character by character, except that a control character without a
short escape stands as a code unit (`RawText.escaped`), which means the character
(`RawText.decode_escaped`).
-/

namespace ContainerBuild.Json

/-! ### Strings -/

/-- A piece as it is printed: a control character without a short escape stands as a
    code unit. -/
def Piece.escaped : Piece → Piece
  | .char c =>
    if c.toNat < 0x20 ∧ c ∉ ['\x08', '\x0c', '\n', '\r', '\t'] then .unit c.toNat else .char c
  | .unit code => .unit code

/-- A string as it is printed. -/
def RawText.escaped (t : RawText) : RawText :=
  t.map Piece.escaped

/-- The code of a control character in four digits. -/
theorem hexPadded_control : ∀ code < 0x20, Text.hexPadded 4 code =
    ['0', '0', Nat.digitChar (code / 16), Nat.digitChar (code % 16)] := by
  decide

theorem Piece.spelled_escaped (c : Char) : (Piece.char c).escaped.Spelled (escapeChar c) := by
  rw [escapeChar]
  split_ifs with hquote hbackslash hbackspace hformFeed hlineFeed hreturn htab hcontrol
  · subst c
    exact .short .quote
  · subst c
    exact .short .backslash
  · subst c
    exact .short .backspace
  · subst c
    exact .short .formFeed
  · subst c
    exact .short .lineFeed
  · subst c
    exact .short .carriageReturn
  · subst c
    exact .short .tab
  · have hunit : (Piece.char c).escaped =
        .unit (Text.ofDigits 16 [0, 0, c.toNat / 16, c.toNat % 16]) := by
      rw [Piece.escaped, if_pos (by simp [*])]
      simp [Text.ofDigits]
      omega
    rw [hunit, hexPadded_control _ hcontrol]
    have hzero : HexDigit '0' 0 := @HexDigit.lower 0 (by decide)
    exact .unit (.cons hzero (.cons hzero
      (.cons (.lower (by omega)) (.cons (.lower (by omega)) .nil)))) rfl
  · rw [Piece.escaped, if_neg fun h => hcontrol h.1]
    exact .plain hquote hbackslash (Nat.not_lt.1 hcontrol)

theorem RawText.spelled_escaped (text : String) :
    (RawText.ofString text).escaped.Spelled ((RawText.ofString text).flatMap Piece.render) := by
  rw [RawText.escaped, RawText.ofString, List.map_map, List.flatMap_map]
  induction text.toList with
  | nil => exact .nil
  | cons c rest ih => exact .cons (Piece.spelled_escaped c) ih

/-- A string whose characters are written as themselves means the text. -/
theorem RawText.decode_ofString (text : String) : (RawText.ofString text).decode = .ok text := by
  have hchars : ∀ l : List Char, decodeFrom none (l.map .char) = .ok l := by
    intro l
    induction l with
    | nil => rfl
    | cons c l ih => rw [List.map_cons, decodeFrom, ih, Except.map]
  rw [RawText.decode, RawText.ofString, hchars, Except.map, String.ofList_toList]

/-- A printed string means the text. -/
theorem RawText.decode_escaped (text : String) :
    (RawText.ofString text).escaped.decode = .ok text := by
  have hpiece : ∀ (c : Char) (rest : RawText), decodeFrom none ((Piece.char c).escaped :: rest) =
      (decodeFrom none rest).map (c :: ·) := by
    intro c rest
    rw [Piece.escaped]
    split_ifs with hcontrol
    · have hlow : beginsPair c.toNat = false ∧ endsPair c.toNat = false := by
        simp only [beginsPair, endsPair, Bool.and_eq_false_iff, decide_eq_false_iff_not]
        omega
      simp [decodeFrom, hlow]
    · rfl
  have hchars : ∀ l : List Char, decodeFrom none (RawText.escaped (l.map .char)) = .ok l := by
    intro l
    induction l with
    | nil => rfl
    | cons c l ih =>
      rw [RawText.escaped] at ih ⊢
      rw [List.map_cons, List.map_cons, hpiece, ih, Except.map]
  rw [RawText.decode, RawText.ofString, hchars, Except.map, String.ofList_toList]

/-! ### Tokens -/

/-- A token that is no number, and if it is a string, one made of characters. -/
inductive Token.Plain : Token → Prop
  | text (text : String) : Plain (.text (.ofString text))
  | other {token : Token} (hnumber : ∀ n, token ≠ .number n) (htext : ∀ t, token ≠ .text t) :
    Plain token

theorem Token.Mark.plain {token : Token} (h : token.Mark) : token.Plain := by
  cases h <;> exact .other nofun nofun

/-- A token as it is printed. -/
def Token.escaped : Token → Token
  | .text t => .text t.escaped
  | token => token

theorem Token.Plain.escaped_eq {token : Token} (htext : ∀ t, token ≠ .text t) :
    token.escaped = token := by
  cases token with
  | text t => exact absurd rfl (htext t)
  | _ => rfl

/-- Plain tokens that are printed the same way are the same. -/
theorem Token.Plain.eq_of_escaped_eq {token token' : Token} (h : token.Plain) (h' : token'.Plain)
    (heq : token.escaped = token'.escaped) : token = token' := by
  rcases h with text | ⟨-, htext⟩ <;> rcases h' with text' | ⟨-, htext'⟩
  · have hdecode := congrArg RawText.decode (Token.text.inj heq)
    rw [RawText.decode_escaped, RawText.decode_escaped, Except.ok.injEq] at hdecode
    rw [hdecode]
  · rw [escaped_eq htext'] at heq
    exact absurd heq.symm (htext' _)
  · rw [escaped_eq htext] at heq
    exact absurd heq (htext _)
  · rwa [escaped_eq htext, escaped_eq htext'] at heq

/-- What is known of elements from their images is known of lists. -/
theorem map_eq_of_map_eq {α β γ δ : Type} {f : α → γ} {g : β → γ} {n : α → δ} {n' : β → δ}
    {l : List α} {l' : List β} (h : ∀ a ∈ l, ∀ b ∈ l', f a = g b → n a = n' b)
    (heq : l.map f = l'.map g) : l.map n = l'.map n' := by
  induction l generalizing l' with
  | nil =>
    obtain rfl := List.map_eq_nil_iff.1 heq.symm
    rfl
  | cons a l ih =>
    cases l' with
    | nil => cases heq
    | cons b l' =>
      obtain ⟨hhead, htail⟩ := List.cons.inj heq
      rw [List.map_cons, List.map_cons, h a List.mem_cons_self b List.mem_cons_self hhead,
        ih (fun a ha b hb => h a (List.mem_cons_of_mem _ ha) b (List.mem_cons_of_mem _ hb)) htail]

/-- Elements that are known from their images make up lists that are. -/
theorem eq_of_map_eq {α β : Type} {f : α → β} {l l' : List α}
    (h : ∀ a ∈ l, ∀ b ∈ l', f a = f b → a = b) (heq : l.map f = l'.map f) : l = l' := by
  have hid : l.map id = l'.map id := map_eq_of_map_eq h heq
  rwa [List.map_id, List.map_id] at hid

/-! ### Values -/

namespace Value

/-- A value of plain tokens. -/
def Plain (v : Value) : Prop :=
  ∀ token ∈ v.tokens, token.Plain

@[simp]
theorem plain_null : Plain .null := by
  intro token htoken
  rw [tokens, List.mem_singleton] at htoken
  exact .other (by simp [htoken]) (by simp [htoken])

@[simp]
theorem plain_ofString (text : String) : (ofString text).Plain := by
  intro token htoken
  rw [ofString, tokens, List.mem_singleton] at htoken
  exact htoken ▸ .text text

@[simp]
theorem plain_array_iff {items : List Value} : (array items).Plain ↔ ∀ v ∈ items, v.Plain :=
  forall_array_tokens_iff Token.Mark.plain

@[simp]
theorem plain_object_iff {members : List (RawText × Value)} :
    (object members).Plain ↔ ∀ m ∈ members, (Token.text m.1).Plain ∧ m.2.Plain :=
  forall_object_tokens_iff Token.Mark.plain

@[simp]
theorem plain_record_iff {members : List (String × Option Value)} :
    (record members).Plain ↔ ∀ m ∈ members, ∀ v ∈ m.2, v.Plain := by
  rw [record, plain_object_iff]
  constructor
  · rintro h ⟨name, _⟩ hm v rfl
    exact (h (.ofString name, v) (List.mem_filterMap.2 ⟨_, hm, rfl⟩)).2
  · intro h m hm
    obtain ⟨⟨name, v?⟩, hmem, hm⟩ := List.mem_filterMap.1 hm
    obtain ⟨v, hv, rfl⟩ := Option.map_eq_some_iff.1 hm
    exact ⟨.text name, h _ hmem v hv⟩

@[simp]
theorem plain_ofStrings (texts : List String) : (ofStrings texts).Plain := by
  simp [ofStrings]

@[simp]
theorem plain_ofEntries (entries : List (String × String)) : (ofEntries entries).Plain := by
  rw [ofEntries, plain_object_iff, List.forall_mem_map]
  exact fun entry _ => ⟨.text entry.1, plain_ofString entry.2⟩

/-! ### Layout -/

variable {ts : List Token} {rest : List Char}

theorem spells_lineBreak (depth : Nat) (h : Spells ts rest) :
    Spells ts (lineBreak depth ++ rest) := by
  refine .space .lineFeed ?_
  induction 2 * depth with
  | zero => exact h
  | succ n ih => exact .space .blank ih

theorem spells_indentedItems {items : List Value}
    (ih : ∀ v ∈ items, ∀ depth ts rest, Spells ts rest →
      Spells (v.tokens.map Token.escaped ++ ts) (v.indented depth ++ rest))
    (depth : Nat) (h : Spells ts rest) :
    Spells ((itemTokens items).map Token.escaped ++ ts) (indentedItems depth items ++ rest) := by
  induction items with
  | nil => exact h
  | cons v items ih' =>
    obtain ⟨hv, hitems⟩ := List.forall_mem_cons.1 ih
    cases items with
    | nil =>
      rw [itemTokens, indentedItems, List.append_assoc]
      exact spells_lineBreak depth (hv depth ts rest h)
    | cons v' items =>
      have hrest := spells_lineBreak depth (hv depth _ _ (.other .comma rfl (ih' hitems)))
      simpa [itemTokens_cons_cons, indentedItems, Token.escaped] using hrest

/-- The printed text of a string, before any other text. -/
theorem spells_name {t : RawText} (ht : (Token.text t).Plain) (h : Spells ts rest) :
    Spells (.text t.escaped :: ts) (t.render ++ rest) := by
  cases ht with
  | text text =>
    rw [RawText.render]
    exact .other (.text (RawText.spelled_escaped text)) rfl h
  | other _ htext => exact absurd rfl (htext t)

theorem spells_indentedMembers {members : List (RawText × Value)}
    (hnames : ∀ m ∈ members, (Token.text m.1).Plain)
    (ih : ∀ m ∈ members, ∀ depth ts rest, Spells ts rest →
      Spells (m.2.tokens.map Token.escaped ++ ts) (m.2.indented depth ++ rest))
    (depth : Nat) (h : Spells ts rest) :
    Spells ((memberTokens members).map Token.escaped ++ ts)
      (indentedMembers depth members ++ rest) := by
  induction members with
  | nil => exact h
  | cons m members ih' =>
    obtain ⟨name, v⟩ := m
    obtain ⟨hname, hnames⟩ := List.forall_mem_cons.1 hnames
    obtain ⟨hv, hmembers⟩ := List.forall_mem_cons.1 ih
    have hmember : ∀ {ts rest}, Spells ts rest →
        Spells (.text name.escaped :: .colon :: (v.tokens.map Token.escaped ++ ts))
          (lineBreak depth ++ (name.render ++ (':' :: ' ' :: (v.indented depth ++ rest)))) :=
      fun h => spells_lineBreak depth
        (spells_name hname (.other .colon rfl (.space .blank (hv depth _ _ h))))
    cases members with
    | nil => simpa [memberTokens, indentedMembers, Token.escaped] using hmember h
    | cons m members =>
      have hrest := hmember (.other .comma rfl (ih' hnames hmembers))
      simpa [memberTokens_cons_cons, indentedMembers, Token.escaped] using hrest

/-- The indented text of a plain value, at any depth and before any other text, spells
    its tokens. -/
theorem spells_indented {v : Value} (hv : v.Plain) (depth : Nat) (h : Spells ts rest) :
    Spells (v.tokens.map Token.escaped ++ ts) (v.indented depth ++ rest) := by
  induction v generalizing depth ts rest with
  | null => exact .other .null rfl h
  | bool b => cases b <;> exact .other (by constructor) rfl h
  | number n =>
    cases hv (.number n) (List.mem_singleton_self _) with
    | other hnumber _ => exact absurd rfl (hnumber n)
  | text t => exact spells_name (hv (.text t) (List.mem_singleton_self _)) h
  | array items ih =>
    rw [plain_array_iff] at hv
    cases items with
    | nil =>
      -- Nothing stands between the brackets, not even a line break.
      have hempty := Spells.other .openArray rfl (.other .closeArray rfl h)
      exact hempty
    | cons v items =>
      have hitems := spells_indentedItems (fun v hmem depth _ _ => ih v hmem (hv v hmem) depth)
        (depth + 1) (spells_lineBreak depth (.other .closeArray rfl h))
      simpa [tokens, indented, Token.escaped] using Spells.other .openArray rfl hitems
  | object members ih =>
    rw [plain_object_iff] at hv
    cases members with
    | nil =>
      have hempty := Spells.other .openObject rfl (.other .closeObject rfl h)
      exact hempty
    | cons m members =>
      have hmembers := spells_indentedMembers (fun m hmem => (hv m hmem).1)
        (fun m hmem depth _ _ => ih m hmem (hv m hmem).2 depth)
        (depth + 1) (spells_lineBreak depth (.other .closeObject rfl h))
      simpa [tokens, indented, Token.escaped] using Spells.other .openObject rfl hmembers

/-- Plain values with the same indented text are the same. -/
theorem indented_inj {v v' : Value} (hv : v.Plain) (hv' : v'.Plain)
    (h : v.indented 0 = v'.indented 0) : v = v' := by
  have hread : ∀ {v : Value}, v.Plain →
      tokens? (v.indented 0) = some (v.tokens.map Token.escaped) := by
    intro v hv
    have hspells := spells_indented hv 0 .nil
    rw [List.append_nil, List.append_nil] at hspells
    exact tokens?_of_spells hspells
  have htokens : v.tokens = v'.tokens := by
    refine eq_of_map_eq (f := Token.escaped)
      (fun token h token' h' => (hv token h).eq_of_escaped_eq (hv' token' h')) ?_
    refine Option.some.inj ?_
    rw [← hread hv, ← hread hv', h]
  have hvalue := congrArg Parser.value? htokens
  rwa [Parser.value?_tokens, Parser.value?_tokens, Option.some_inj] at hvalue

end Value

end ContainerBuild.Json
