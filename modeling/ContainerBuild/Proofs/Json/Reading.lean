import ContainerBuild.Proofs.Json.Grammar
import ContainerBuild.Proofs.Text.Decimal

/-!
# JSON texts are read

Whatever text writes a value, the value is read from it (`parse?_of_writes`). The lexer
is followed from one token to the next: a text *gives* tokens between two modes
(`Lexer.Gives`), and texts that give tokens do so one after the other. The parser is
followed from the beginning of a value to its end, whatever arrays and objects are open
around it (`Parser.run_tokens`).
-/

namespace ContainerBuild.Json

/-! ### The lexer -/

namespace Lexer

variable {m m' m'' : Mode} {w w' : List Char} {ts ts' : List Token} {c : Char} {d : Nat}
  {ds : List Nat} {n : Number} {st : Stage}

/-- From a mode on, a text gives tokens and leads to another mode. -/
def Gives (m : Mode) (w : List Char) (ts : List Token) (m' : Mode) : Prop :=
  ∀ done rest, run done m (w ++ rest) = run (ts.reverse ++ done) m' rest

theorem Gives.nil : Gives m [] [] m :=
  fun _ _ => rfl

theorem Gives.append (h : Gives m w ts m') (h' : Gives m' w' ts' m'') :
    Gives m (w ++ w') (ts ++ ts') m'' := by
  intro done rest
  rw [List.append_assoc, h, h', List.reverse_append, List.append_assoc]

theorem gives_step (h : step m c = some (ts, m')) : Gives m [c] ts m' := by
  intro done rest
  rw [List.singleton_append, run, h]

/-- A character that completes no token, and what comes behind it. -/
theorem Gives.cons (hc : step m c = some ([], m')) (h : Gives m' w ts m'') :
    Gives m (c :: w) ts m'' :=
  (gives_step hc).append h

/-! #### Numbers -/

theorem digit?_digitChar : ∀ d < 10, Text.digit? (Nat.digitChar d) = some d := by
  decide

/-- More digits at a stage at which the digits are collected as `put` does. -/
theorem gives_digits (st : Stage) (put : List Nat → Number)
    (hput : ∀ d < 10, ∀ ds, step (.number st (put ds)) (Nat.digitChar d) =
      some ([], .number st (put (d :: ds))))
    (hds : ∀ d ∈ ds, d < 10) (before : List Nat) :
    Gives (.number st (put before)) (ds.map Nat.digitChar) []
      (.number st (put (ds.reverse ++ before))) := by
  induction ds generalizing before with
  | nil => exact .nil
  | cons d ds ih =>
    rw [List.forall_mem_cons] at hds
    rw [List.map_cons, List.reverse_cons, List.append_assoc]
    exact .cons (hput d hds.1 before) (ih hds.2 (d :: before))

theorem gives_firstDigit (negative : Bool) (hd : d < 10) :
    Gives .between (signText negative ++ [Nat.digitChar d]) []
      (.number (if d = 0 then .zero else .whole) { negative, whole := [d] }) := by
  cases negative with
  | true =>
    have hstep : step (.number .minus { negative := true, whole := [] }) (Nat.digitChar d) =
        some ([],
          .number (if d = 0 then .zero else .whole) { negative := true, whole := [d] }) := by
      simp only [step, stepNumber, digit?_digitChar d hd]
    exact .cons rfl (gives_step hstep)
  | false =>
    have hstep : ∀ d < 10, step .between (Nat.digitChar d) =
        some ([], .number (if d = 0 then .zero else .whole) { whole := [d] }) := by decide
    exact gives_step (hstep d hd)

theorem gives_whole (negative : Bool) (h : Whole ds w) :
    ∃ st, (st = .zero ∨ st = .whole) ∧
      Gives .between (signText negative ++ w) []
        (.number st { negative, whole := ds.reverse }) := by
  cases h with
  | zero => exact ⟨.zero, .inl rfl, gives_firstDigit negative (d := 0) (by decide)⟩
  | @positive d ds _ hne h =>
    obtain ⟨hd, hds⟩ := List.forall_mem_cons.1 h.decimal
    have hfirst := gives_firstDigit negative hd
    rw [if_neg hne] at hfirst
    have hmore := gives_digits .whole (fun ds => { negative, whole := ds })
      (fun d hd ds => by simp only [step, stepNumber, digit?_digitChar d hd]) hds [d]
    rw [h.text_eq, List.map_cons, List.reverse_cons]
    have := hfirst.append hmore
    rw [List.append_assoc] at this
    exact ⟨.whole, .inr rfl, this⟩

theorem gives_fraction (hst : st = .zero ∨ st = .whole) (hn : n.fraction = [])
    (h : Fraction ds w) :
    ∃ st', (st' = .zero ∨ st' = .whole ∨ st' = .fraction) ∧
      Gives (.number st n) w [] (.number st' { n with fraction := ds.reverse }) := by
  cases h with
  | none =>
    refine ⟨st, by tauto, ?_⟩
    rw [List.reverse_nil, ← hn]
    exact .nil
  | @some _ w h =>
    obtain ⟨d, ds, rfl⟩ := List.exists_cons_of_ne_nil h.nonempty
    obtain ⟨hd, hds⟩ := List.forall_mem_cons.1 h.decimal
    have hpoint : step (.number st n) '.' = some ([], .number .point n) := by
      rcases hst with rfl | rfl <;> rfl
    have hfirst : step (.number .point n) (Nat.digitChar d) =
        some ([], .number .fraction { n with fraction := [d] }) := by
      simp only [step, stepNumber, digit?_digitChar d hd]
    have hmore := gives_digits .fraction (fun ds => { n with fraction := ds })
      (fun d hd ds => by simp only [step, stepNumber, digit?_digitChar d hd]) hds [d]
    rw [h.text_eq, List.map_cons, List.reverse_cons]
    exact ⟨.fraction, by tauto, .cons hpoint (.cons hfirst hmore)⟩

theorem gives_exponent {e : Option (Bool × List Nat)}
    (hst : st = .zero ∨ st = .whole ∨ st = .fraction) (hn : n.exponent = none)
    (h : Exponent e w) :
    ∃ st', st'.final ∧ Gives (.number st n) w []
      (.number st' { n with exponent := e.map fun (negative, ds) => (negative, ds.reverse) }) := by
  cases h with
  | none =>
    refine ⟨st, by rcases hst with rfl | rfl | rfl <;> rfl, ?_⟩
    rw [Option.map_none, ← hn]
    exact .nil
  | @some mark negative _ sign w hmark hsign h =>
    obtain ⟨d, ds, rfl⟩ := List.exists_cons_of_ne_nil h.nonempty
    obtain ⟨hd, hds⟩ := List.forall_mem_cons.1 h.decimal
    have hletter : step (.number st n) mark = some ([], .number .mark n) := by
      rcases hst with rfl | rfl | rfl <;> rcases hmark with rfl | rfl <;> rfl
    have hfirst : Gives (.number .mark n) (sign ++ [Nat.digitChar d]) []
        (.number .exponent { n with exponent := some (negative, [d]) }) := by
      cases hsign with
      | none => exact gives_step (by simp only [step, stepNumber, digit?_digitChar d hd])
      | plus =>
        have hplus : step (.number .mark n) '+' =
            some ([], .number .sign { n with exponent := some (false, []) }) := rfl
        exact .cons hplus (gives_step (by
          simp only [step, stepNumber, digit?_digitChar d hd, Option.map_some]))
      | minus =>
        have hminus : step (.number .mark n) '-' =
            some ([], .number .sign { n with exponent := some (true, []) }) := rfl
        exact .cons hminus (gives_step (by
          simp only [step, stepNumber, digit?_digitChar d hd, Option.map_some]))
    have hmore := gives_digits .exponent (fun ds => { n with exponent := some (negative, ds) })
      (fun d hd ds => by simp only [step, stepNumber, digit?_digitChar d hd, Option.map_some])
      hds [d]
    have hdigits := hfirst.append hmore
    rw [List.append_assoc] at hdigits
    simp only [h.text_eq, List.map_cons, Option.map_some, List.reverse_cons]
    exact ⟨.exponent, rfl, .cons hletter hdigits⟩

theorem gives_number (h : n.Spelled w) :
    ∃ st n', st.final ∧ finish n' = .number n ∧ Gives .between w [] (.number st n') := by
  obtain ⟨hwhole, hfraction, hexponent⟩ := h
  obtain ⟨_, hst, hwhole⟩ := gives_whole n.negative hwhole
  obtain ⟨_, hst, hfraction⟩ := gives_fraction
    (n := { negative := n.negative, whole := n.whole.reverse }) hst rfl hfraction
  obtain ⟨st, hst, hexponent⟩ := gives_exponent
    (n := { negative := n.negative, whole := n.whole.reverse, fraction := n.fraction.reverse })
    hst rfl hexponent
  refine ⟨st, _, hst, ?_, (hwhole.append hfraction).append hexponent⟩
  cases n
  simp [finish, Function.comp_def]

/-- Behind a number that is complete, the lexer goes on as between tokens. -/
theorem run_number {done : List Token} {text : List Char} (hst : st.final)
    (hend : ∀ c ∈ text.head?, ¬belongsToNumber c) :
    run done (.number st n) text = run (finish n :: done) .between text := by
  cases text with
  | nil =>
    simp [run, atEnd, hst]
  | cons c rest =>
    obtain ⟨hdigit, hpoint, hmark, hmark'⟩ :
        ¬('0' ≤ c ∧ c ≤ '9') ∧ c ≠ '.' ∧ c ≠ 'e' ∧ c ≠ 'E' := by
      simpa [belongsToNumber, not_or] using hend c rfl
    have hdigit : Text.digit? c = none := by
      rw [Option.eq_none_iff_forall_ne_some]
      exact fun d hd => hdigit (Text.digit?_eq_some_iff.1 hd).1
    have hleave : step (.number st n) c = leaveNumber st n c := by
      cases st <;> simp [step, stepNumber, hdigit, hpoint, hmark, hmark', Stage.final] at hst ⊢
    rw [run, hleave, leaveNumber, if_pos hst, run, step]
    rcases stepBetween c with _ | ⟨tokens, next⟩
    · rfl
    · simp

/-! #### Strings -/

theorem hexDigit?_eq (h : HexDigit c d) : Text.hexDigit? c = some d := by
  have hlower : ∀ d < 16, Text.hexDigit? (Nat.digitChar d) = some d := by decide
  have hupper : ∀ d < 16, Text.hexDigit? (Nat.digitChar d).toUpper = some d := by decide
  rcases h with hd | hd
  · exact hlower d hd
  · exact hupper d hd

/-- A digit of a `\u` escape. -/
theorem step_unit {done : RawText} {missing code : Nat} (h : HexDigit c d) :
    step (.unit done missing code) c = some (match missing with
      | 0 => ([], .text (.unit (code * 16 + d) :: done))
      | missing + 1 => ([], .unit done missing (code * 16 + d))) := by
  rw [step, hexDigit?_eq h]
  rfl

/-- The digits that a `\u` escape lacks. -/
theorem gives_unit {done : RawText} {digits : List Char} {ds : List Nat}
    (h : List.Forall₂ HexDigit digits ds) {missing : Nat} (hcount : digits.length = missing + 1)
    (code : Nat) :
    Gives (.unit done missing code) digits []
      (.text (.unit (ds.foldl (fun value d => value * 16 + d) code) :: done)) := by
  induction h generalizing missing code with
  | nil => cases hcount
  | @cons c d digits ds hd h ih =>
    cases missing with
    | zero =>
      obtain rfl := List.eq_nil_of_length_eq_zero (Nat.succ.inj hcount)
      obtain rfl := List.forall₂_nil_left_iff.1 h
      exact gives_step (step_unit hd)
    | succ missing => exact .cons (step_unit hd) (ih (Nat.succ.inj hcount) (code * 16 + d))

theorem gives_piece {p : Piece} {done : RawText} (h : p.Spelled w) :
    Gives (.text done) w [] (.text (p :: done)) := by
  cases h with
  | plain hquote hbackslash hc =>
    exact gives_step (by rw [step, if_neg hquote, if_neg hbackslash, if_neg (Nat.not_lt.2 hc)])
  | @short letter c h =>
    have hletter : step (.escape done) letter = some ([], .text (.char c :: done)) := by
      cases h <;> rfl
    exact .cons rfl (gives_step hletter)
  | unit hdigits hcount =>
    have hbackslash : step (.text done) '\\' = some ([], .escape done) := rfl
    have hletter : step (.escape done) 'u' = some ([], .unit done 3 0) := rfl
    exact .cons hbackslash (.cons hletter (gives_unit hdigits hcount 0))

theorem gives_pieces {t : RawText} (h : t.Spelled w) (done : RawText) :
    Gives (.text done) w [] (.text (t.reverse ++ done)) := by
  induction h generalizing done with
  | nil => exact .nil
  | @cons p t _ _ hp _ ih =>
    rw [List.reverse_cons, List.append_assoc]
    exact (gives_piece hp).append (ih (p :: done))

theorem gives_text {t : RawText} (h : t.Spelled w) :
    Gives .between ('"' :: (w ++ ['"'])) [.text t] .between := by
  have hend : Gives (.text t.reverse) ['"'] [.text t] .between :=
    gives_step (by rw [step, if_pos rfl, List.reverse_reverse])
  have hquote : step .between '"' = some ([], .text []) := rfl
  have hpieces := gives_pieces h []
  rw [List.append_nil] at hpieces
  exact .cons hquote (hpieces.append hend)

/-! #### Tokens one after the other -/

/-- A token is read between tokens if it ends where the rest of the text begins. -/
theorem run_token {token : Token} {done : List Token} {rest : List Char} (h : token.Spelled w)
    (hend : token.EndsAt rest) :
    run done .between (w ++ rest) = run (token :: done) .between rest := by
  cases h with
  | number h =>
    obtain ⟨st, n', hst, hn', hgives⟩ := gives_number h
    rw [hgives, ← hn']
    exact run_number hst (hend rfl)
  | text h => exact gives_text h done rest
  | _ => rfl

theorem run_space {done : List Token} {rest : List Char} (hc : Space c) :
    run done .between (c :: rest) = run done .between rest := by
  cases hc <;> rfl

/-- The tokens of a text are all read. -/
theorem run_spells {tokens : List Token} {text : List Char} (h : Spells tokens text)
    (done : List Token) : run done .between text = some (done.reverse ++ tokens) := by
  induction h generalizing done with
  | nil => simp [run, atEnd]
  | space hc _ ih =>
    rw [run_space hc, ih]
  | @token token _ _ _ htoken hend _ ih =>
    rw [run_token htoken hend, ih, List.reverse_cons, List.append_assoc, List.singleton_append]

end Lexer

theorem tokens?_of_spells {tokens : List Token} {text : List Char} (h : Spells tokens text) :
    tokens? text = some tokens :=
  Lexer.run_spells h []

/-! ### The parser -/

namespace Parser

variable {outer : List Frame} {rest : List Token}

/-- No item begins like the end of an array. -/
theorem run_firstItem (v : Value) (items : List Value) :
    run (.firstItem outer) (Value.itemTokens (v :: items) ++ rest) =
      run (.value (.array [] :: outer)) (Value.itemTokens (v :: items) ++ rest) := by
  cases items <;> cases v <;> rfl

/-- No member begins like the end of an object. -/
theorem run_firstName (m : RawText × Value) (members : List (RawText × Value)) :
    run (.firstName outer) (Value.memberTokens (m :: members) ++ rest) =
      run (.name [] outer) (Value.memberTokens (m :: members) ++ rest) := by
  cases members <;> rfl

/-- The items of an array, if each of them is read. -/
theorem run_items {items : List Value} (done : List Value) (hne : items ≠ [])
    (ih : ∀ v ∈ items, ∀ outer rest,
      run (.value outer) (v.tokens ++ rest) = run (place v outer) rest) :
    run (.value (.array done :: outer)) (Value.itemTokens items ++ .closeArray :: rest) =
      run (place (.array (done.reverse ++ items)) outer) rest := by
  induction items generalizing done with
  | nil => exact absurd rfl hne
  | cons v items ih' =>
    obtain ⟨hv, hitems⟩ := List.forall_mem_cons.1 ih
    -- Whether a comma or a bracket comes next depends on whether this is the last item.
    cases items with
    | nil => rw [Value.itemTokens, hv, place, run, step, List.reverse_cons]
    | cons v' items =>
      have hrest := ih' (v :: done) (List.cons_ne_nil v' items) hitems
      rw [List.reverse_cons, List.append_assoc, List.singleton_append] at hrest
      rw [Value.itemTokens_cons_cons, List.append_assoc, List.cons_append, hv, ← hrest]
      rfl

/-- The members of an object, if the value of each of them is read. -/
theorem run_members {members : List (RawText × Value)} (done : List (RawText × Value))
    (hne : members ≠ [])
    (ih : ∀ m ∈ members, ∀ outer rest,
      run (.value outer) (m.2.tokens ++ rest) = run (place m.2 outer) rest) :
    run (.name done outer) (Value.memberTokens members ++ .closeObject :: rest) =
      run (place (.object (done.reverse ++ members)) outer) rest := by
  induction members generalizing done with
  | nil => exact absurd rfl hne
  | cons m members ih' =>
    obtain ⟨name, v⟩ := m
    obtain ⟨hv, hmembers⟩ := List.forall_mem_cons.1 ih
    have hname : ∀ rest, run (.name done outer) (.text name :: .colon :: (v.tokens ++ rest)) =
        run (.afterMember ((name, v) :: done) outer) rest :=
      hv (.object done name :: outer)
    cases members with
    | nil =>
      rw [Value.memberTokens, List.cons_append, List.cons_append, hname, run, step,
        List.reverse_cons]
    | cons m members =>
      have hrest := ih' ((name, v) :: done) (List.cons_ne_nil m members) hmembers
      rw [List.reverse_cons, List.append_assoc, List.singleton_append] at hrest
      rw [Value.memberTokens_cons_cons, List.cons_append, List.cons_append, List.append_assoc,
        hname, ← hrest]
      rfl

/-- The tokens of a value are read to the value, whatever is open around it. -/
theorem run_tokens (v : Value) (outer : List Frame) (rest : List Token) :
    run (.value outer) (v.tokens ++ rest) = run (place v outer) rest := by
  induction v generalizing outer rest with
  | array items ih =>
    rw [Value.tokens, List.cons_append, List.append_assoc, List.singleton_append]
    cases items with
    | nil => rfl
    | cons v items =>
      exact (run_firstItem v items).trans (run_items [] (List.cons_ne_nil v items) ih)
  | object members ih =>
    rw [Value.tokens, List.cons_append, List.append_assoc, List.singleton_append]
    cases members with
    | nil => rfl
    | cons m members =>
      exact (run_firstName m members).trans (run_members [] (List.cons_ne_nil m members) ih)
  | _ => rfl

theorem value?_tokens (v : Value) : value? v.tokens = some v := by
  rw [value?, ← List.append_nil v.tokens, run_tokens, place, run]

end Parser

/-- Whatever text writes a value, the value is read from it. -/
theorem parse?_of_writes {v : Value} {text : List Char} (h : v.Writes text) :
    parse? text = some v := by
  rw [parse?, tokens?_of_spells h]
  exact Parser.value?_tokens v

end ContainerBuild.Json
