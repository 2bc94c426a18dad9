import ContainerBuild.Json.Parser
import Mathlib.Data.List.Forall2

/-!
# The grammar of JSON texts

What texts write a value (`Value.Writes`) is told apart from how they are read: a text
writes a value if the value's tokens (`Value.tokens`) stand in it one after the other,
with white space before, between and behind them (`Spells`).

* Every character of a string may be written in several ways (`Piece.Spelled`): as
  itself if it is no mark and no control character, by its short escape if it has
  one; a code unit by four hexadecimal digits in either case.
* A number is written with the digits it has (`Number.Spelled`): no zero stands before
  other digits, and at least one digit behind a point or the letter of an exponent.
  What begins behind a number is nothing that could belong to it (`Token.EndsAt`).
-/

namespace ContainerBuild.Json

/-! ### Tokens -/

/-- The letters of the short escapes and the characters that they stand for. -/
inductive ShortEscape : Char → Char → Prop
  | quote : ShortEscape '"' '"'
  | backslash : ShortEscape '\\' '\\'
  | slash : ShortEscape '/' '/'
  | backspace : ShortEscape 'b' '\x08'
  | formFeed : ShortEscape 'f' '\x0c'
  | lineFeed : ShortEscape 'n' '\n'
  | carriageReturn : ShortEscape 'r' '\r'
  | tab : ShortEscape 't' '\t'

/-- A hexadecimal digit, in lower or upper case, and its value. -/
inductive HexDigit : Char → Nat → Prop
  | lower {d : Nat} (hd : d < 16) : HexDigit (Nat.digitChar d) d
  | upper {d : Nat} (hd : d < 16) : HexDigit (Nat.digitChar d).toUpper d

/-- The texts of a written character of a string. -/
inductive Piece.Spelled : Piece → List Char → Prop
  | plain {c : Char} (hquote : c ≠ '"') (hbackslash : c ≠ '\\') (hc : 0x20 ≤ c.toNat) :
    Spelled (.char c) [c]
  | short {letter c : Char} (h : ShortEscape letter c) : Spelled (.char c) ['\\', letter]
  | unit {digits : List Char} {ds : List Nat} (hdigits : List.Forall₂ HexDigit digits ds)
    (hcount : digits.length = 4) :
    Spelled (.unit (Text.ofDigits 16 ds)) ('\\' :: 'u' :: digits)

/-- The texts of the written characters of a string. -/
inductive RawText.Spelled : RawText → List Char → Prop
  | nil : Spelled [] []
  | cons {p : Piece} {t : RawText} {w text : List Char} (hp : p.Spelled w)
      (ht : RawText.Spelled t text) : Spelled (p :: t) (w ++ text)

/-- The text of one or more decimal digits. -/
structure Digits (ds : List Nat) (text : List Char) : Prop where
  nonempty : ds ≠ []
  decimal : ∀ d ∈ ds, d < 10
  text_eq : text = ds.map Nat.digitChar

/-- The texts of the digits before the point. -/
inductive Whole : List Nat → List Char → Prop
  | zero : Whole [0] ['0']
  | positive {d : Nat} {ds : List Nat} {text : List Char} (hd : d ≠ 0)
      (hds : Digits (d :: ds) text) : Whole (d :: ds) text

/-- The texts of the digits behind the point, and of the point. -/
inductive Fraction : List Nat → List Char → Prop
  | none : Fraction [] []
  | some {ds : List Nat} {text : List Char} (hds : Digits ds text) : Fraction ds ('.' :: text)

/-- The texts of the sign of an exponent. -/
inductive ExponentSign : Bool → List Char → Prop
  | none : ExponentSign false []
  | plus : ExponentSign false ['+']
  | minus : ExponentSign true ['-']

/-- The texts of an exponent. -/
inductive Exponent : Option (Bool × List Nat) → List Char → Prop
  | none : Exponent none []
  | some {mark : Char} {negative : Bool} {ds : List Nat} {sign text : List Char}
      (hmark : mark = 'e' ∨ mark = 'E') (hsign : ExponentSign negative sign)
      (hds : Digits ds text) : Exponent (some (negative, ds)) (mark :: (sign ++ text))

/-- The text of the sign of a number. -/
def signText (negative : Bool) : List Char :=
  if negative then ['-'] else []

/-- The texts of a number. -/
inductive Number.Spelled : Number → List Char → Prop
  | intro {n : Number} {whole fraction exponent : List Char} (hwhole : Whole n.whole whole)
      (hfraction : Fraction n.fraction fraction) (hexponent : Exponent n.exponent exponent) :
    Spelled n (signText n.negative ++ whole ++ fraction ++ exponent)

/-- The texts of a token. -/
inductive Token.Spelled : Token → List Char → Prop
  | openArray : Spelled .openArray ['[']
  | closeArray : Spelled .closeArray [']']
  | openObject : Spelled .openObject ['\x7b']
  | closeObject : Spelled .closeObject ['\x7d']
  | comma : Spelled .comma [',']
  | colon : Spelled .colon [':']
  | null : Spelled .null ['n', 'u', 'l', 'l']
  | true : Spelled (.bool true) ['t', 'r', 'u', 'e']
  | false : Spelled (.bool false) ['f', 'a', 'l', 's', 'e']
  | number {n : Number} {text : List Char} (hn : n.Spelled text) : Spelled (.number n) text
  | text {t : RawText} {text : List Char} (ht : t.Spelled text) :
    Spelled (.text t) ('"' :: (text ++ ['"']))

/-- The tokens that stand for no value. -/
inductive Token.Mark : Token → Prop
  | openArray : Mark .openArray
  | closeArray : Mark .closeArray
  | openObject : Mark .openObject
  | closeObject : Mark .closeObject
  | comma : Mark .comma
  | colon : Mark .colon

theorem Token.Mark.exists_spelled {token : Token} (h : token.Mark) : ∃ w, token.Spelled w := by
  cases h <;> exact ⟨_, by constructor⟩

/-- Whether a character behind a number could belong to the number. -/
def belongsToNumber (c : Char) : Prop :=
  ('0' ≤ c ∧ c ≤ '9') ∨ c = '.' ∨ c = 'e' ∨ c = 'E'

/-- Whether a token is a number. -/
def Token.isNumber : Token → Bool
  | .number _ => true
  | _ => false

/-- A token ends where a text begins. Only of a number this is not seen from its own
    text. -/
def Token.EndsAt (token : Token) (text : List Char) : Prop :=
  token.isNumber → ∀ c ∈ text.head?, ¬belongsToNumber c

/-- White space between tokens. -/
inductive Space : Char → Prop
  | blank : Space ' '
  | tab : Space '\t'
  | lineFeed : Space '\n'
  | carriageReturn : Space '\r'

/-- The texts of tokens one after the other, with white space around them. -/
inductive Spells : List Token → List Char → Prop
  | nil : Spells [] []
  | space {c : Char} {tokens : List Token} {text : List Char} (hc : Space c)
      (h : Spells tokens text) : Spells tokens (c :: text)
  | token {token : Token} {tokens : List Token} {w text : List Char} (htoken : token.Spelled w)
      (hend : token.EndsAt text) (h : Spells tokens text) : Spells (token :: tokens) (w ++ text)

/-- Anything may follow a token that is no number. -/
theorem Spells.other {token : Token} {tokens : List Token} {w text : List Char}
    (htoken : token.Spelled w) (hother : token.isNumber = false) (h : Spells tokens text) :
    Spells (token :: tokens) (w ++ text) := by
  refine .token htoken (fun hnumber => ?_) h
  rw [hother] at hnumber
  cases hnumber

/-! ### Values -/

namespace Value

mutual

/-- The tokens of a value. -/
def tokens : Value → List Token
  | .null => [.null]
  | .bool b => [.bool b]
  | .number n => [.number n]
  | .text t => [.text t]
  | .array items => .openArray :: (itemTokens items ++ [.closeArray])
  | .object members => .openObject :: (memberTokens members ++ [.closeObject])

/-- The tokens of the items of an array. -/
def itemTokens : List Value → List Token
  | [] => []
  | [v] => v.tokens
  | v :: rest => v.tokens ++ .comma :: itemTokens rest

/-- The tokens of the members of an object. -/
def memberTokens : List (RawText × Value) → List Token
  | [] => []
  | [(name, v)] => .text name :: .colon :: v.tokens
  | (name, v) :: rest => .text name :: .colon :: (v.tokens ++ .comma :: memberTokens rest)

end

theorem itemTokens_cons_cons (v v' : Value) (rest : List Value) :
    itemTokens (v :: v' :: rest) = v.tokens ++ .comma :: itemTokens (v' :: rest) := by
  rw [itemTokens]
  exact nofun

theorem memberTokens_cons_cons (name : RawText) (v : Value) (m : RawText × Value)
    (rest : List (RawText × Value)) :
    memberTokens ((name, v) :: m :: rest) =
      .text name :: .colon :: (v.tokens ++ .comma :: memberTokens (m :: rest)) := by
  rw [memberTokens]
  exact nofun

section Tokens

variable {P : Token → Prop} (hmark : ∀ {token : Token}, token.Mark → P token)

include hmark

theorem forall_itemTokens_iff {items : List Value} :
    (∀ token ∈ itemTokens items, P token) ↔ ∀ v ∈ items, ∀ token ∈ v.tokens, P token := by
  induction items with
  | nil => simp [itemTokens]
  | cons v items ih =>
    cases items with
    | nil => simp [itemTokens]
    | cons v' items =>
      rw [itemTokens_cons_cons, List.forall_mem_append, List.forall_mem_cons, ih,
        and_iff_right (hmark .comma), List.forall_mem_cons (a := v)]

theorem forall_memberTokens_iff {members : List (RawText × Value)} :
    (∀ token ∈ memberTokens members, P token) ↔
      ∀ m ∈ members, P (.text m.1) ∧ ∀ token ∈ m.2.tokens, P token := by
  induction members with
  | nil => simp [memberTokens]
  | cons m members ih =>
    obtain ⟨name, v⟩ := m
    cases members with
    | nil => simp [memberTokens, hmark .colon]
    | cons m' members =>
      rw [memberTokens_cons_cons, List.forall_mem_cons, List.forall_mem_cons,
        List.forall_mem_append, List.forall_mem_cons, and_iff_right (hmark .colon),
        and_iff_right (hmark .comma), List.forall_mem_cons (a := (name, v)), and_assoc]
      exact and_congr_right fun _ => and_congr_right fun _ => ih

/-- What holds of all marks holds of all tokens of an array if it does of all tokens of the
    items. -/
theorem forall_array_tokens_iff {items : List Value} :
    (∀ token ∈ (array items).tokens, P token) ↔ ∀ v ∈ items, ∀ token ∈ v.tokens, P token := by
  rw [tokens, List.forall_mem_cons, List.forall_mem_append, List.forall_mem_singleton,
    forall_itemTokens_iff hmark, and_iff_right (hmark .openArray),
    and_iff_left (hmark .closeArray)]

/-- The same of an object. -/
theorem forall_object_tokens_iff {members : List (RawText × Value)} :
    (∀ token ∈ (object members).tokens, P token) ↔
      ∀ m ∈ members, P (.text m.1) ∧ ∀ token ∈ m.2.tokens, P token := by
  rw [tokens, List.forall_mem_cons, List.forall_mem_append, List.forall_mem_singleton,
    forall_memberTokens_iff hmark, and_iff_right (hmark .openObject),
    and_iff_left (hmark .closeObject)]

end Tokens

/-- A text writes a value. -/
def Writes (v : Value) (text : List Char) : Prop :=
  Spells v.tokens text

/-- A value whose strings and numbers can be written. -/
def Spellable (v : Value) : Prop :=
  ∀ token ∈ v.tokens, ∃ w, token.Spelled w

/-- Such a value is written by some text, as tokens may be set apart by blanks. -/
theorem Spellable.exists_writes {v : Value} (h : v.Spellable) : ∃ text, v.Writes text := by
  have htokens : ∀ tokens : List Token, (∀ token ∈ tokens, ∃ w, token.Spelled w) →
      ∃ text, Spells tokens text := by
    intro tokens htokens
    induction tokens with
    | nil => exact ⟨[], .nil⟩
    | cons token tokens ih =>
      rw [List.forall_mem_cons] at htokens
      obtain ⟨⟨w, hw⟩, hrest⟩ := htokens
      obtain ⟨text, htext⟩ := ih hrest
      have hend : token.EndsAt (' ' :: text) := by
        rintro - c hc
        obtain rfl := Option.some.inj hc
        simp [belongsToNumber]
      exact ⟨_, .token hw hend (.space .blank htext)⟩
  exact htokens v.tokens h

/-- What holds of a value if it holds of the values in it holds of every value. -/
@[elab_as_elim, induction_eliminator]
theorem induction {P : Value → Prop} (null : P .null) (bool : ∀ b, P (.bool b))
    (number : ∀ n, P (.number n)) (text : ∀ t, P (.text t))
    (array : ∀ items, (∀ v ∈ items, P v) → P (.array items))
    (object : ∀ members, (∀ m ∈ members, P m.2) → P (.object members)) (v : Value) : P v :=
  @Value.rec P (fun items => ∀ v ∈ items, P v) (fun members => ∀ m ∈ members, P m.2)
    (fun m => P m.2)
    null bool number text array object
    nofun (fun _ _ hv hrest => List.forall_mem_cons.2 ⟨hv, hrest⟩)
    nofun (fun _ _ hm hrest => List.forall_mem_cons.2 ⟨hm, hrest⟩)
    (fun _ _ hv => hv) v

end Value

end ContainerBuild.Json
