import ContainerBuild.Proofs.Json.Reading

/-!
# Nothing else is read as JSON

A value is read from the texts that write it and from no others (`parse?_eq_some_iff`).
Lexer and parser are followed by what lies behind them.

* The tokens that lead to a state of the parser are told by the state (`Parser.led`). Each
  step adds its token to them (`Parser.led_step`), so in the end they are the tokens of
  the value.
* Where the lexer stands inside a token, the beginning of the token is behind it
  (`Lexer.Begun`). A character goes on with the token or completes it (`Lexer.Goes`). Only
  a number is completed by the character after it, which then begins something else
  (`Lexer.Faithful.leave`).
-/

namespace ContainerBuild.Json

/-! ### The parser -/

namespace Value

/-- The tokens of items that are followed by others. -/
def itemsBefore (items : List Value) : List Token :=
  items.flatMap fun v => v.tokens ++ [.comma]

/-- The tokens of members that are followed by others. -/
def membersBefore (members : List (RawText × Value)) : List Token :=
  members.flatMap fun m => .text m.1 :: .colon :: (m.2.tokens ++ [.comma])

theorem itemTokens_append (items : List Value) (v : Value) (rest : List Value) :
    itemTokens (items ++ v :: rest) = itemsBefore items ++ itemTokens (v :: rest) := by
  induction items with
  | nil => rfl
  | cons v' items ih =>
    have hcons : itemTokens (v' :: (items ++ v :: rest)) =
        v'.tokens ++ .comma :: itemTokens (items ++ v :: rest) := by
      cases items <;> exact itemTokens_cons_cons ..
    rw [List.cons_append, hcons, ih]
    simp [itemsBefore]

theorem itemTokens_concat (items : List Value) (v : Value) :
    itemTokens (items ++ [v]) = itemsBefore items ++ v.tokens := by
  rw [itemTokens_append, itemTokens]

theorem memberTokens_append (members : List (RawText × Value)) (m : RawText × Value)
    (rest : List (RawText × Value)) :
    memberTokens (members ++ m :: rest) = membersBefore members ++ memberTokens (m :: rest) := by
  induction members with
  | nil => rfl
  | cons m' members ih =>
    have hcons : memberTokens (m' :: (members ++ m :: rest)) =
        .text m'.1 :: .colon :: (m'.2.tokens ++ .comma :: memberTokens (members ++ m :: rest)) := by
      cases members <;> exact memberTokens_cons_cons ..
    rw [List.cons_append, hcons, ih]
    simp [membersBefore]

theorem memberTokens_concat (members : List (RawText × Value)) (name : RawText) (v : Value) :
    memberTokens (members ++ [(name, v)]) =
      membersBefore members ++ .text name :: .colon :: v.tokens := by
  rw [memberTokens_append, memberTokens]

end Value

namespace Parser

/-- The tokens before a value in the frames around it. -/
def before : List Frame → List Token
  | [] => []
  | .array items :: outer => before outer ++ .openArray :: Value.itemsBefore items.reverse
  | .object members name :: outer =>
    before outer ++ .openObject :: (Value.membersBefore members.reverse ++ [.text name, .colon])

/-- The tokens that lead to a state. -/
def led : State → List Token
  | .value outer => before outer
  | .firstItem outer => before outer ++ [.openArray]
  | .firstName outer => before outer ++ [.openObject]
  | .name members outer => before outer ++ .openObject :: Value.membersBefore members.reverse
  | .colon members name outer =>
    before outer ++ .openObject :: (Value.membersBefore members.reverse ++ [.text name])
  | .afterItem items outer => before outer ++ .openArray :: Value.itemTokens items.reverse
  | .afterMember members outer =>
    before outer ++ .openObject :: Value.memberTokens members.reverse
  | .done v => v.tokens

theorem led_place (v : Value) (outer : List Frame) :
    led (place v outer) = before outer ++ v.tokens := by
  rcases outer with _ | ⟨items | ⟨members, name⟩, outer⟩
  · rfl
  · simp [place, led, before, Value.itemTokens_concat]
  · simp [place, led, before, Value.memberTokens_concat]

theorem led_begin {outer : List Frame} {token : Token} {next : State}
    (h : begin outer token = some next) : led next = before outer ++ [token] := by
  cases token with
  | openArray | openObject =>
    obtain rfl := Option.some.inj h
    rfl
  | closeArray | closeObject | comma | colon => cases h
  | null | bool | number | text =>
    obtain rfl := Option.some.inj h
    rw [led_place]
    rfl

/-- Behind an item or a member there is at least one. -/
def Started : State → Prop
  | .afterItem items _ => items ≠ []
  | .afterMember members _ => members ≠ []
  | _ => True

theorem started_place (v : Value) (outer : List Frame) : Started (place v outer) := by
  rcases outer with _ | ⟨items | ⟨members, name⟩, outer⟩
  · trivial
  · exact List.cons_ne_nil v items
  · exact List.cons_ne_nil (name, v) members

theorem started_begin {outer : List Frame} {token : Token} {next : State}
    (h : begin outer token = some next) : Started next := by
  cases token with
  | openArray | openObject =>
    obtain rfl := Option.some.inj h
    trivial
  | closeArray | closeObject | comma | colon => cases h
  | null | bool | number | text =>
    obtain rfl := Option.some.inj h
    exact started_place _ outer

/-- A token leads on by itself. -/
theorem led_step {state next : State} {token : Token} (hstate : Started state)
    (h : step state token = some next) : Started next ∧ led next = led state ++ [token] := by
  cases state with
  | value outer => exact ⟨started_begin h, led_begin h⟩
  | firstItem outer =>
    have hitem (h : begin (.array [] :: outer) token = some next) :
        Started next ∧ led next = led (.firstItem outer) ++ [token] := by
      rw [led_begin h]
      exact ⟨started_begin h, by simp [led, before, Value.itemsBefore]⟩
    cases token with
    | closeArray =>
      obtain rfl := Option.some.inj h
      rw [led_place]
      exact ⟨started_place _ outer, by simp [led, Value.tokens, Value.itemTokens]⟩
    | _ => exact hitem h
  | firstName outer =>
    cases token with
    | closeObject =>
      obtain rfl := Option.some.inj h
      rw [led_place]
      exact ⟨started_place _ outer, by simp [led, Value.tokens, Value.memberTokens]⟩
    | text name =>
      obtain rfl := Option.some.inj h
      exact ⟨trivial, by simp [led, Value.membersBefore]⟩
    | _ => cases h
  | name members outer =>
    cases token with
    | text name =>
      obtain rfl := Option.some.inj h
      exact ⟨trivial, by simp [led]⟩
    | _ => cases h
  | colon members name outer =>
    cases token with
    | colon =>
      obtain rfl := Option.some.inj h
      exact ⟨trivial, by simp [led, before]⟩
    | _ => cases h
  | afterItem items outer =>
    cases token with
    | comma =>
      obtain rfl := Option.some.inj h
      -- If no item were before it, the comma would leave no trace.
      obtain ⟨v, items, rfl⟩ := List.exists_cons_of_ne_nil hstate
      refine ⟨trivial, ?_⟩
      rw [led, led, before, List.reverse_cons, Value.itemTokens_concat]
      simp [Value.itemsBefore]
    | closeArray =>
      obtain rfl := Option.some.inj h
      rw [led_place]
      exact ⟨started_place _ outer, by simp [led, Value.tokens]⟩
    | _ => cases h
  | afterMember members outer =>
    cases token with
    | comma =>
      obtain rfl := Option.some.inj h
      obtain ⟨⟨name, v⟩, members, rfl⟩ := List.exists_cons_of_ne_nil hstate
      refine ⟨trivial, ?_⟩
      rw [led, led, List.reverse_cons, Value.memberTokens_concat]
      simp [Value.membersBefore]
    | closeObject =>
      obtain rfl := Option.some.inj h
      rw [led_place]
      exact ⟨started_place _ outer, by simp [led, Value.tokens]⟩
    | _ => cases h
  | done v => cases h

theorem led_run {state next : State} {tokens : List Token} (hstate : Started state)
    (h : run state tokens = some next) : led next = led state ++ tokens := by
  induction tokens generalizing state with
  | nil =>
    obtain rfl := Option.some.inj h
    rw [List.append_nil]
  | cons token rest ih =>
    rw [run] at h
    cases hstep : step state token with
    | none =>
      rw [hstep] at h
      cases h
    | some s =>
      rw [hstep] at h
      obtain ⟨hs, hled⟩ := led_step hstate hstep
      rw [ih hs h, hled, List.append_assoc, List.singleton_append]

/-- A value is read from its own tokens only. -/
theorem tokens_of_value? {tokens : List Token} {v : Value} (h : value? tokens = some v) :
    v.tokens = tokens := by
  rw [value?] at h
  split at h
  · rename_i v' hrun
    obtain rfl := Option.some.inj h
    exact led_run (show Started (.value []) from trivial) hrun
  · cases h

end Parser

/-! ### The lexer -/

namespace Lexer

variable {c : Char} {d : Nat} {n : Number} {st : Stage} {next : Mode} {tokens : List Token}
  {p : List Char}

/-- What stands before some place inside a number, of which the lexer is at a stage. -/
inductive NumberBegun : Stage → Number → List Char → Prop
  | minus : NumberBegun .minus { negative := true, whole := [] } ['-']
  | zero (negative : Bool) :
    NumberBegun .zero { negative, whole := [0] } (signText negative ++ ['0'])
  | whole (negative : Bool) {d : Nat} {ds : List Nat} {w : List Char} (hd : d ≠ 0)
    (hw : Digits (d :: ds) w) :
    NumberBegun .whole { negative, whole := (d :: ds).reverse } (signText negative ++ w)
  | point (negative : Bool) {ds : List Nat} {w : List Char} (hw : Whole ds w) :
    NumberBegun .point { negative, whole := ds.reverse } (signText negative ++ w ++ ['.'])
  | fraction (negative : Bool) {ds fs : List Nat} {w f : List Char} (hw : Whole ds w)
    (hf : Digits fs f) :
    NumberBegun .fraction { negative, whole := ds.reverse, fraction := fs.reverse }
      (signText negative ++ w ++ '.' :: f)
  | mark (negative : Bool) {ds fs : List Nat} {w f : List Char} {c : Char} (hw : Whole ds w)
    (hf : Fraction fs f) (hc : c = 'e' ∨ c = 'E') :
    NumberBegun .mark { negative, whole := ds.reverse, fraction := fs.reverse }
      (signText negative ++ w ++ f ++ [c])
  | sign (negative : Bool) {less : Bool} {ds fs : List Nat} {w f s : List Char} {c : Char}
    (hw : Whole ds w) (hf : Fraction fs f) (hc : c = 'e' ∨ c = 'E') (hs : ExponentSign less s) :
    NumberBegun .sign
      { negative, whole := ds.reverse, fraction := fs.reverse, exponent := some (less, []) }
      (signText negative ++ w ++ f ++ c :: s)
  | exponent (negative : Bool) {less : Bool} {ds fs es : List Nat} {w f s e : List Char} {c : Char}
    (hw : Whole ds w) (hf : Fraction fs f) (hc : c = 'e' ∨ c = 'E') (hs : ExponentSign less s)
    (he : Digits es e) :
    NumberBegun .exponent
      { negative, whole := ds.reverse, fraction := fs.reverse,
        exponent := some (less, es.reverse) }
      (signText negative ++ w ++ f ++ c :: (s ++ e))

/-- What stands before a place inside a token. -/
inductive Begun : Mode → List Char → Prop
  | between : Begun .between []
  | word {token : Token} {rest p : List Char} (h : token.Spelled (p ++ rest))
    (hnumber : token.isNumber = false) : Begun (.word rest token) p
  | number {st : Stage} {n : Number} {p : List Char} (h : NumberBegun st n p) :
    Begun (.number st n) p
  | text {done : RawText} {body : List Char} (h : RawText.Spelled done.reverse body) :
    Begun (.text done) ('"' :: body)
  | escape {done : RawText} {body : List Char} (h : RawText.Spelled done.reverse body) :
    Begun (.escape done) ('"' :: (body ++ ['\\']))
  | unit {done : RawText} {missing : Nat} {body cs : List Char} {ds : List Nat}
    (h : RawText.Spelled done.reverse body) (hdigits : List.Forall₂ HexDigit cs ds)
    (hcount : cs.length + missing = 3) :
    Begun (.unit done missing (Text.ofDigits 16 ds)) ('"' :: (body ++ '\\' :: 'u' :: cs))

/-- A character goes on with a token or completes it. -/
inductive Goes (text : List Char) : List Token → Mode → Prop
  | on {next : Mode} (h : Begun next text) : Goes text [] next
  | complete {token : Token} (h : token.Spelled text) (hnumber : token.isNumber = false) :
    Goes text [token] .between

/-! #### Numbers -/

theorem eq_digitChar (h : Text.digit? c = some d) : d < 10 ∧ c = Nat.digitChar d := by
  obtain ⟨⟨hlow, hhigh⟩, rfl⟩ := Text.digit?_eq_some_iff.1 h
  have hcode : 48 ≤ c.toNat ∧ c.toNat ≤ 57 := ⟨hlow, hhigh⟩
  have hlt : c.toNat - '0'.toNat < 10 := show c.toNat - 48 < 10 by omega
  refine ⟨hlt, Char.toNat_inj.1 ?_⟩
  rw [Nat.toNat_digitChar_of_lt_ten hlt]
  exact (Nat.add_sub_of_le hlow).symm

theorem spelled_number (negative : Bool) {ds fs : List Nat} {e : Option (Bool × List Nat)}
    {w f x : List Char} (hw : Whole ds w) (hf : Fraction fs f) (he : Exponent e x) :
    (Token.number { negative, whole := ds, fraction := fs, exponent := e }).Spelled
      (signText negative ++ w ++ f ++ x) :=
  .number (.intro hw hf he)

/-- A number may end at the end of each of its parts. -/
theorem NumberBegun.spelled (h : NumberBegun st n p) (hst : st.final) :
    (finish n).Spelled p := by
  cases h with
  | minus | point | mark | sign => cases hst
  | zero negative => simpa [finish] using spelled_number negative .zero .none .none
  | whole negative hd hw =>
    simpa [finish] using spelled_number negative (.positive hd hw) .none .none
  | fraction negative hw hf =>
    simpa [finish] using spelled_number negative hw (.some hf) .none
  | exponent negative hw hf hc hs he =>
    simpa [finish] using spelled_number negative hw hf (.some hc hs he)

theorem digits_one (hd : d < 10) : Digits [d] [Nat.digitChar d] where
  nonempty := List.cons_ne_nil d []
  decimal := by simpa using hd
  text_eq := rfl

theorem digits_concat {ds : List Nat} {w : List Char} (h : Digits ds w) (hd : d < 10) :
    Digits (ds ++ [d]) (w ++ [Nat.digitChar d]) where
  nonempty := by simp
  decimal := by simpa [or_imp, forall_and] using ⟨h.decimal, hd⟩
  text_eq := by rw [h.text_eq, List.map_append, List.map_singleton]

/-- A digit goes on with a number. -/
theorem NumberBegun.digit (hn : NumberBegun st n p) (hd : d < 10)
    (h : stepNumber st n (Nat.digitChar d) = some (tokens, next)) :
    Goes (p ++ [Nat.digitChar d]) tokens next := by
  simp only [stepNumber, digit?_digitChar d hd] at h
  cases hn with
  | minus =>
    obtain ⟨rfl, rfl⟩ := Prod.mk.inj (Option.some.inj h)
    split_ifs with hzero
    · subst d
      exact .on (.number (.zero true))
    · exact .on (.number (.whole true hzero (digits_one hd)))
  | zero => cases h
  | whole negative hne hw =>
    obtain ⟨rfl, rfl⟩ := Prod.mk.inj (Option.some.inj h)
    simpa using Goes.on (.number (.whole negative hne (digits_concat hw hd)))
  | point negative hw =>
    obtain ⟨rfl, rfl⟩ := Prod.mk.inj (Option.some.inj h)
    simpa using Goes.on (.number (.fraction negative hw (digits_one hd)))
  | fraction negative hw hf =>
    obtain ⟨rfl, rfl⟩ := Prod.mk.inj (Option.some.inj h)
    simpa using Goes.on (.number (.fraction negative hw (digits_concat hf hd)))
  | mark negative hw hf hc =>
    obtain ⟨rfl, rfl⟩ := Prod.mk.inj (Option.some.inj h)
    simpa using Goes.on (.number (.exponent negative hw hf hc .none (digits_one hd)))
  | sign negative hw hf hc hs =>
    obtain ⟨rfl, rfl⟩ := Prod.mk.inj (Option.some.inj h)
    simpa using Goes.on (.number (.exponent negative hw hf hc hs (digits_one hd)))
  | exponent negative hw hf hc hs he =>
    obtain ⟨rfl, rfl⟩ := Prod.mk.inj (Option.some.inj h)
    simpa using Goes.on (.number (.exponent negative hw hf hc hs (digits_concat he hd)))

/-- A point or the letter of an exponent goes on with the whole part of a number. -/
theorem number_goes_on (negative : Bool) {ds : List Nat} {w : List Char} (hw : Whole ds w)
    (h : (if c = '.' then some ([], .number .point { negative, whole := ds.reverse })
      else if c = 'e' ∨ c = 'E' then some ([], .number .mark { negative, whole := ds.reverse })
      else leaveNumber st { negative, whole := ds.reverse } c) = some (tokens, next)) :
    Goes (signText negative ++ w ++ [c]) tokens next ∨
      leaveNumber st { negative, whole := ds.reverse } c = some (tokens, next) := by
  split_ifs at h with hpoint hmark
  · obtain ⟨rfl, rfl⟩ := Prod.mk.inj (Option.some.inj h)
    subst c
    exact .inl (.on (.number (.point negative hw)))
  · obtain ⟨rfl, rfl⟩ := Prod.mk.inj (Option.some.inj h)
    refine .inl ?_
    simpa using Goes.on (.number (.mark negative hw .none hmark))
  · exact .inr h

/-- Any other character goes on with a number or ends it. -/
theorem NumberBegun.other (hn : NumberBegun st n p) (hc : Text.digit? c = none)
    (h : stepNumber st n c = some (tokens, next)) :
    Goes (p ++ [c]) tokens next ∨ leaveNumber st n c = some (tokens, next) := by
  cases hn with
  | minus | point | sign | exponent =>
    simp only [stepNumber, hc] at h
    exact .inr h
  | zero negative =>
    simp only [stepNumber, hc] at h
    exact number_goes_on negative .zero h
  | whole negative hne hw =>
    simp only [stepNumber, hc] at h
    exact number_goes_on negative (.positive hne hw) h
  | fraction negative hw hf =>
    simp only [stepNumber, hc] at h
    split_ifs at h with hmark
    · obtain ⟨rfl, rfl⟩ := Prod.mk.inj (Option.some.inj h)
      refine .inl ?_
      simpa using Goes.on (.number (.mark negative hw (.some hf) hmark))
    · exact .inr h
  | mark negative hw hf hmark =>
    simp only [stepNumber, hc] at h
    refine .inl ?_
    split_ifs at h with hplus hminus
    · obtain ⟨rfl, rfl⟩ := Prod.mk.inj (Option.some.inj h)
      subst c
      simpa using Goes.on (.number (.sign negative hw hf hmark .plus))
    · obtain ⟨rfl, rfl⟩ := Prod.mk.inj (Option.some.inj h)
      subst c
      simpa using Goes.on (.number (.sign negative hw hf hmark .minus))

/-! #### Strings -/

theorem hexDigit_of_hexDigit? (h : Text.hexDigit? c = some d) : HexDigit c d := by
  have hchars : ∀ code < 103, ∀ d < 16, Text.hexDigit? (Char.ofNat code) = some d →
      Char.ofNat code = Nat.digitChar d ∨ Char.ofNat code = (Nat.digitChar d).toUpper := by
    decide +kernel
  have hrange {low high : Char} (hc : (low ≤ c && c ≤ high) = true) :
      low.toNat ≤ c.toNat ∧ c.toNat ≤ high.toNat := by
    obtain ⟨hlow, hhigh⟩ : low ≤ c ∧ c ≤ high := by simpa using hc
    exact ⟨hlow, hhigh⟩
  have hbounds : c.toNat < 103 ∧ d < 16 := by
    have hvalues : '0'.toNat = 48 ∧ '9'.toNat = 57 ∧ 'a'.toNat = 97 ∧ 'f'.toNat = 102 ∧
        'A'.toNat = 65 ∧ 'F'.toNat = 70 := by decide
    rw [Text.hexDigit?] at h
    split_ifs at h with hdecimal hlower hupper <;> obtain rfl := Option.some.inj h
    · have := hrange hdecimal
      omega
    · have := hrange hlower
      omega
    · have := hrange hupper
      omega
  have hc := hchars c.toNat hbounds.1 d hbounds.2
  rw [Char.ofNat_toNat] at hc
  rcases hc h with rfl | rfl
  · exact .lower hbounds.2
  · exact .upper hbounds.2

theorem shortEscape_of_shortEscape? {e : Char} (h : shortEscape? c = some e) :
    ShortEscape c e := by
  unfold shortEscape? at h
  split at h
  · obtain rfl := Option.some.inj h
    exact .quote
  · obtain rfl := Option.some.inj h
    exact .backslash
  · obtain rfl := Option.some.inj h
    exact .slash
  · obtain rfl := Option.some.inj h
    exact .backspace
  · obtain rfl := Option.some.inj h
    exact .formFeed
  · obtain rfl := Option.some.inj h
    exact .lineFeed
  · obtain rfl := Option.some.inj h
    exact .carriageReturn
  · obtain rfl := Option.some.inj h
    exact .tab
  · cases h

theorem spelled_concat {t : RawText} {piece : Piece} {body w : List Char} (ht : t.Spelled body)
    (hp : piece.Spelled w) : RawText.Spelled (t ++ [piece]) (body ++ w) := by
  induction ht with
  | nil => simpa using RawText.Spelled.cons hp .nil
  | cons hp' _ ih =>
    rw [List.cons_append, List.append_assoc]
    exact .cons hp' ih

/-! #### Any text -/

theorem goes_between (h : stepBetween c = some (tokens, next)) :
    (Space c ∧ tokens = [] ∧ next = .between) ∨ Goes [c] tokens next := by
  unfold stepBetween at h
  split_ifs at h with hspace
  · obtain ⟨rfl, rfl⟩ := Prod.mk.inj (Option.some.inj h)
    refine .inl ⟨?_, rfl, rfl⟩
    have hc : ((c = ' ' ∨ c = '\t') ∨ c = '\n') ∨ c = '\r' := by simpa [isSpace] using hspace
    rcases hc with ((rfl | rfl) | rfl) | rfl <;> constructor
  · right
    split at h
    case h_13 hzero =>
      obtain ⟨d, hd, heq⟩ := Option.map_eq_some_iff.1 h
      obtain ⟨rfl, rfl⟩ := Prod.mk.inj heq
      obtain ⟨hlt, rfl⟩ := eq_digitChar hd
      have hne : d ≠ 0 := by
        rintro rfl
        exact hzero rfl
      exact .on (.number (NumberBegun.whole false hne (digits_one hlt)))
    all_goals obtain ⟨rfl, rfl⟩ := Prod.mk.inj (Option.some.inj h)
    · exact .complete .openArray rfl
    · exact .complete .closeArray rfl
    · exact .complete .openObject rfl
    · exact .complete .closeObject rfl
    · exact .complete .comma rfl
    · exact .complete .colon rfl
    · exact .on (.text .nil)
    · exact .on (.word .null rfl)
    · exact .on (.word .true rfl)
    · exact .on (.word .false rfl)
    · exact .on (.number .minus)
    · exact .on (.number (.zero false))

/-- The modes inside words and strings. -/
inductive Inside : Mode → Prop
  | word {rest : List Char} {token : Token} : Inside (.word rest token)
  | text {done : RawText} : Inside (.text done)
  | escape {done : RawText} : Inside (.escape done)
  | unit {done : RawText} {missing code : Nat} : Inside (.unit done missing code)

/-- Inside a word or a string, a character goes on with it or completes it. -/
theorem Begun.goes {m : Mode} (hm : Begun m p) (hinside : Inside m)
    (h : step m c = some (tokens, next)) : Goes (p ++ [c]) tokens next := by
  cases hm with
  | between | number => cases hinside
  | @word token rest p hword hnot =>
    rcases rest with _ | ⟨letter, _ | ⟨letter', rest⟩⟩
    · cases h
    · rw [step] at h
      split_ifs at h with hletter
      obtain ⟨rfl, rfl⟩ := Prod.mk.inj (Option.some.inj h)
      subst c
      exact .complete hword hnot
    · rw [step] at h
      · split_ifs at h with hletter
        obtain ⟨rfl, rfl⟩ := Prod.mk.inj (Option.some.inj h)
        subst c
        exact .on (.word (by simpa using hword) hnot)
      · simp
  | text hbody =>
    rw [step] at h
    split_ifs at h with hquote hbackslash hcontrol
    · obtain ⟨rfl, rfl⟩ := Prod.mk.inj (Option.some.inj h)
      subst c
      exact .complete (.text hbody) rfl
    · obtain ⟨rfl, rfl⟩ := Prod.mk.inj (Option.some.inj h)
      subst c
      exact .on (.escape hbody)
    · obtain ⟨rfl, rfl⟩ := Prod.mk.inj (Option.some.inj h)
      refine .on (.text ?_)
      rw [List.reverse_cons]
      exact spelled_concat hbody (.plain hquote hbackslash (Nat.not_lt.1 hcontrol))
  | @escape done body hbody =>
    rw [step] at h
    split_ifs at h with hunit
    · obtain ⟨rfl, rfl⟩ := Prod.mk.inj (Option.some.inj h)
      subst c
      have hbegun : Begun (.unit done 3 0) ('"' :: (body ++ ['\\', 'u'])) :=
        .unit hbody .nil rfl
      simpa using Goes.on hbegun
    · obtain ⟨e, he, heq⟩ := Option.map_eq_some_iff.1 h
      obtain ⟨rfl, rfl⟩ := Prod.mk.inj heq
      have hmore := spelled_concat hbody (.short (shortEscape_of_shortEscape? he))
      rw [← List.reverse_cons] at hmore
      simpa using Goes.on (.text hmore)
  | @unit done missing body cs ds hbody hdigits hcount =>
    rw [step] at h
    obtain ⟨d, hd, heq⟩ := Option.map_eq_some_iff.1 h
    have hdigits' : List.Forall₂ HexDigit (cs ++ [c]) (ds ++ [d]) :=
      List.rel_append hdigits (.cons (hexDigit_of_hexDigit? hd) .nil)
    have hcode : Text.ofDigits 16 ds * 16 + d = Text.ofDigits 16 (ds ++ [d]) := by
      simp [Text.ofDigits]
    dsimp only at heq
    rw [hcode] at heq
    cases missing with
    | zero =>
      obtain ⟨rfl, rfl⟩ := Prod.mk.inj heq
      have hmore := spelled_concat hbody (.unit hdigits' (by simp; omega))
      rw [← List.reverse_cons] at hmore
      simpa using Goes.on (.text hmore)
    | succ missing =>
      obtain ⟨rfl, rfl⟩ := Prod.mk.inj heq
      have hbegun : Begun (.unit done missing (Text.ofDigits 16 (ds ++ [d])))
          ('"' :: (body ++ '\\' :: 'u' :: (cs ++ [c]))) :=
        .unit hbody hdigits' (by simp; omega)
      simpa using Goes.on hbegun

/-- From wherever inside a token, only the tokens that it spells are read from a text. -/
def Faithful (text : List Char) : Prop :=
  ∀ {done all : List Token} {m : Mode} {p : List Char}, Begun m p → run done m text = some all →
    ∃ tokens, all = done.reverse ++ tokens ∧ Spells tokens (p ++ text)

section Faithful

variable {done all : List Token} {w rest : List Char}

theorem Faithful.goes (hrest : Faithful rest) (hgoes : Goes w tokens next)
    (h : run (tokens.reverse ++ done) next rest = some all) :
    ∃ tokens, all = done.reverse ++ tokens ∧ Spells tokens (w ++ rest) := by
  cases hgoes with
  | on hnext => exact hrest hnext h
  | @complete token htoken hnumber =>
    obtain ⟨tokens, rfl, htokens⟩ := hrest .between h
    exact ⟨token :: tokens, by simp, .other htoken hnumber htokens⟩

theorem Faithful.between (hrest : Faithful rest) (hc : stepBetween c = some (tokens, next))
    (h : run (tokens.reverse ++ done) next rest = some all) :
    ∃ tokens, all = done.reverse ++ tokens ∧ Spells tokens (c :: rest) := by
  obtain ⟨hspace, rfl, rfl⟩ | hgoes := goes_between hc
  · obtain ⟨tokens, hall, htokens⟩ := hrest .between h
    exact ⟨tokens, hall, .space hspace htokens⟩
  · exact hrest.goes hgoes h

/-- A number ends before a character that goes on with other tokens. -/
theorem not_belongsToNumber (hdigit : Text.digit? c = none)
    (hc : stepBetween c = some (tokens, next)) : ¬belongsToNumber c := by
  rintro (hrange | rfl | rfl | rfl)
  · rw [Text.digit?_eq_some_iff.2 ⟨hrange, rfl⟩] at hdigit
    cases hdigit
  all_goals cases hc

theorem Faithful.leave (hrest : Faithful rest) (hn : NumberBegun st n p)
    (hdigit : Text.digit? c = none) (hc : leaveNumber st n c = some (tokens, next))
    (h : run (tokens.reverse ++ done) next rest = some all) :
    ∃ tokens, all = done.reverse ++ tokens ∧ Spells tokens (p ++ c :: rest) := by
  rw [leaveNumber] at hc
  split_ifs at hc with hfinal
  obtain ⟨⟨more, _⟩, hbetween, heq⟩ := Option.map_eq_some_iff.1 hc
  obtain ⟨rfl, rfl⟩ := Prod.mk.inj heq
  rw [List.reverse_cons, List.append_assoc, List.singleton_append] at h
  -- The character is what the text behind the number begins with.
  obtain ⟨tokens, rfl, htokens⟩ := hrest.between hbetween h
  have hend : (finish n).EndsAt (c :: rest) := by
    rintro - c' hc'
    obtain rfl := Option.some.inj hc'
    exact not_belongsToNumber hdigit hbetween
  exact ⟨finish n :: tokens, by simp, .token (hn.spelled hfinal) hend htokens⟩

end Faithful

theorem faithful (text : List Char) : Faithful text := by
  -- What is behind the lexer is any beginning of a token, as it changes with every character.
  induction text with
  | nil =>
    intro done all m p hm h
    obtain ⟨tokens, hend, rfl⟩ := Option.map_eq_some_iff.1 h
    cases hm with
    | between =>
      obtain rfl := Option.some.inj hend
      exact ⟨[], by simp, .nil⟩
    | @number st n _ hn =>
      rw [atEnd] at hend
      split_ifs at hend with hfinal
      obtain rfl := Option.some.inj hend
      have hends : (finish n).EndsAt [] := by rintro - c ⟨⟩
      exact ⟨[finish n], by simp, .token (hn.spelled hfinal) hends .nil⟩
    | word | text | escape | unit => cases hend
  | cons c rest ih =>
    intro done all m p hm h
    rw [run] at h
    split at h
    case h_2 => cases h
    case h_1 tokens next hstep =>
      cases m with
      | between =>
        cases hm
        exact ih.between hstep h
      | number =>
        obtain ⟨⟩ | ⟨⟩ | hn := hm
        cases hdigit : Text.digit? c with
        | some d =>
          obtain ⟨hlt, rfl⟩ := eq_digitChar hdigit
          simpa using ih.goes (hn.digit hlt hstep) h
        | none =>
          rcases hn.other hdigit hstep with hgoes | hleave
          · simpa using ih.goes hgoes h
          · exact ih.leave hn hdigit hleave h
      | word | text | escape | unit => simpa using ih.goes (hm.goes (by constructor) hstep) h

end Lexer

/-- Only the tokens that a text spells are read from it. -/
theorem spells_of_tokens? {tokens : List Token} {text : List Char}
    (h : tokens? text = some tokens) : Spells tokens text := by
  obtain ⟨tokens, rfl, htokens⟩ := Lexer.faithful text .between h
  exact htokens

/-- A text is read to the value that it writes, and to nothing if it writes none. -/
theorem parse?_eq_some_iff {v : Value} {text : List Char} :
    parse? text = some v ↔ v.Writes text := by
  refine ⟨fun h => ?_, parse?_of_writes⟩
  rw [parse?] at h
  split at h
  · rename_i tokens htokens
    rw [Value.Writes, Parser.tokens_of_value? h]
    exact spells_of_tokens? htokens
  · cases h

end ContainerBuild.Json
