import ContainerBuild.BuildFile.Source
import Mathlib.Tactic.SplitIfs

/-!
# Encoded texts

Every text is read back from its bytes (`decode?_encode`). A character is written
with one to four bytes, of which the first one tells how many there are, and what
the second one can be; it is read back whatever follows it
(`unitsFrom_encodeChar`). A byte below 0x80 is always a character of its own, so
what stands before and behind it can be decoded apart (`decodeLossy_append_ascii`).
-/

namespace ContainerBuild.Text.Utf8

/-! ### The bytes of a text -/

theorem toList_eq (bytes : ByteArray) : bytes.toList = bytes.data.toList := by
  have hloop : ∀ i l, ByteArray.toList.loop bytes i l = l.reverse ++ bytes.data.toList.drop i := by
    intro i l
    fun_induction ByteArray.toList.loop bytes i l with
    | case1 i l hi ih =>
      have hlength : i < bytes.data.toList.length := hi
      have hget : bytes.get! i = bytes.data.toList[i] := getElem!_pos bytes.data i hi
      rw [ih, List.drop_eq_getElem_cons hlength, hget, List.reverse_cons, List.append_assoc,
        List.singleton_append]
    | case2 i l hi => rw [List.drop_eq_nil_of_le (Nat.not_lt.1 hi), List.append_nil]
  exact hloop 0 []

theorem encode_ofList (l : List Char) :
    encode (String.ofList l) = l.flatMap String.utf8EncodeChar := by
  rw [encode, toList_eq]
  exact List.toList_data_toByteArray

/-! ### The bytes of a character -/

theorem unitsFrom_start (b : UInt8) (rest : List UInt8) :
    unitsFrom .start (b :: rest) = (begin b).1 ++ unitsFrom (begin b).2 rest := rfl

/-- The first byte of a character, by its value. -/
theorem begin_eq (b : UInt8) : begin b =
    if b.toNat < 0x80 then ([some (Char.ofNat b.toNat)], .start)
    else if b.toNat < 0xC2 then ([none], .start)
    else if b.toNat < 0xE0 then ([], .within (b.toNat - 0xC0) 0x80 0xBF 0)
    else if b.toNat = 0xE0 then ([], .within 0 0xA0 0xBF 1)
    else if b.toNat = 0xED then ([], .within 0xD 0x80 0x9F 1)
    else if b.toNat < 0xF0 then ([], .within (b.toNat - 0xE0) 0x80 0xBF 1)
    else if b.toNat = 0xF0 then ([], .within 0 0x90 0xBF 2)
    else if b.toNat < 0xF4 then ([], .within (b.toNat - 0xF0) 0x80 0xBF 2)
    else if b.toNat = 0xF4 then ([], .within 4 0x80 0x8F 2)
    else ([none], .start) := by
  simp only [begin, UInt8.lt_iff_toNat_lt, ← UInt8.toNat_inj]
  rfl

/-- The first of two bytes. -/
theorem begin_two {b : UInt8} (h : 0xC2 ≤ b.toNat) (h' : b.toNat < 0xE0) :
    begin b = ([], .within (b.toNat - 0xC0) 0x80 0xBF 0) := by
  rw [begin_eq, if_neg (by omega), if_neg (by omega), if_pos h']

/-- The first of three bytes. What is too small or a surrogate is left out by the
    second one. -/
theorem begin_three {b : UInt8} (h : 0xE0 ≤ b.toNat) (h' : b.toNat < 0xF0) :
    ∃ low high, begin b = ([], .within (b.toNat - 0xE0) low high 1) ∧
      low.toNat = (if b.toNat = 0xE0 then 0xA0 else 0x80) ∧
      high.toNat = if b.toNat = 0xED then 0x9F else 0xBF := by
  rw [begin_eq, if_neg (by omega), if_neg (by omega), if_neg (by omega), if_pos h']
  by_cases hE0 : b.toNat = 0xE0
  · exact ⟨0xA0, 0xBF, by rw [if_pos hE0, hE0], by rw [if_pos hE0]; rfl, by rw [hE0]; rfl⟩
  by_cases hED : b.toNat = 0xED
  · exact ⟨0x80, 0x9F, by rw [if_neg hE0, if_pos hED, hED], by rw [hED]; rfl,
      by rw [if_pos hED]; rfl⟩
  · exact ⟨0x80, 0xBF, by rw [if_neg hE0, if_neg hED], by rw [if_neg hE0]; rfl,
      by rw [if_neg hED]; rfl⟩

/-- The first of four bytes. What is too small or too large is left out by the
    second one. -/
theorem begin_four {b : UInt8} (h : 0xF0 ≤ b.toNat) (h' : b.toNat ≤ 0xF4) :
    ∃ low high, begin b = ([], .within (b.toNat - 0xF0) low high 2) ∧
      low.toNat = (if b.toNat = 0xF0 then 0x90 else 0x80) ∧
      high.toNat = if b.toNat = 0xF4 then 0x8F else 0xBF := by
  rw [begin_eq, if_neg (by omega), if_neg (by omega), if_neg (by omega), if_neg (by omega),
    if_neg (by omega), if_neg (by omega)]
  by_cases hF0 : b.toNat = 0xF0
  · exact ⟨0x90, 0xBF, by rw [if_pos hF0, hF0], by rw [if_pos hF0]; rfl, by rw [hF0]; rfl⟩
  by_cases hF4 : b.toNat = 0xF4
  · exact ⟨0x80, 0x8F, by rw [hF4]; rfl, by rw [hF4]; rfl, by rw [if_pos hF4]; rfl⟩
  · exact ⟨0x80, 0xBF, by rw [if_neg hF0, if_pos (by omega)], by rw [if_neg hF0]; rfl,
      by rw [if_neg hF4]; rfl⟩

theorem toNat_ofNat {n : Nat} (h : n < 0x100) : (UInt8.ofNat n).toNat = n :=
  UInt8.toNat_ofNat_of_lt' h

section Continuation

variable {value more digit : Nat} {low high : UInt8} {rest : List UInt8}

theorem step_within (h : digit < 0x40) (hlow : low.toNat ≤ digit + 0x80)
    (hhigh : digit + 0x80 ≤ high.toNat) :
    step (.within value low high more) (UInt8.ofNat (digit + 0x80)) =
      match more with
      | 0 => ([some (Char.ofNat (value * 64 + digit))], .start)
      | more + 1 => ([], .within (value * 64 + digit) 0x80 0xBF more) := by
  have hdigit : (UInt8.ofNat (digit + 0x80)).toNat = digit + 0x80 := toNat_ofNat (by omega)
  rw [← hdigit, ← UInt8.le_iff_toNat_le] at hlow hhigh
  cases more with
  | zero => simp only [step, if_pos (And.intro hlow hhigh), hdigit, Nat.add_sub_cancel]
  | succ more => simp only [step, if_pos (And.intro hlow hhigh), hdigit, Nat.add_sub_cancel]

/-- The last byte of a character. -/
theorem unitsFrom_last (h : digit < 0x40) :
    unitsFrom (.within value 0x80 0xBF 0) (UInt8.ofNat (digit + 0x80) :: rest) =
      some (Char.ofNat (value * 64 + digit)) :: unitsFrom .start rest := by
  have hhigh : digit + 0x80 ≤ (0xBF : UInt8).toNat := show digit + 0x80 ≤ 0xBF by omega
  rw [unitsFrom, step_within h (Nat.le_add_left _ _) hhigh]
  rfl

/-- A byte of a character that is neither the first nor the last one. -/
theorem unitsFrom_more (h : digit < 0x40) (hlow : low.toNat ≤ digit + 0x80)
    (hhigh : digit + 0x80 ≤ high.toNat) :
    unitsFrom (.within value low high (more + 1)) (UInt8.ofNat (digit + 0x80) :: rest) =
      unitsFrom (.within (value * 64 + digit) 0x80 0xBF more) rest := by
  rw [unitsFrom, step_within h hlow hhigh]
  rfl

end Continuation

/-- A character is read back from its bytes, whatever follows them. -/
theorem unitsFrom_encodeChar (c : Char) (rest : List UInt8) :
    unitsFrom .start (String.utf8EncodeChar c ++ rest) = some c :: unitsFrom .start rest := by
  have hvalid : c.val.toNat < 0xD800 ∨ 0xDFFF < c.val.toNat ∧ c.val.toNat < 0x110000 := c.valid
  have hc : Char.ofNat c.val.toNat = c := Char.ofNat_toNat c
  rw [String.utf8EncodeChar]
  generalize c.val.toNat = n at hvalid hc ⊢
  rw [← hc]
  split_ifs with hone htwo hthree <;> simp only [List.cons_append, List.nil_append]
  · have hb : (UInt8.ofNat n).toNat = n := toNat_ofNat (by omega)
    rw [unitsFrom_start, begin_eq, hb, if_pos (by omega)]
    rfl
  · have hb : (UInt8.ofNat (n / 64 % 0x20 + 0xC0)).toNat = n / 64 % 0x20 + 0xC0 :=
      toNat_ofNat (by omega)
    have hn : n / 64 % 0x20 * 64 + n % 0x40 = n := by omega
    rw [unitsFrom_start, begin_two (by omega) (by omega), hb, List.nil_append, Nat.add_sub_cancel,
      unitsFrom_last (by omega), hn]
  · have hb : (UInt8.ofNat (n / 4096 % 0x10 + 0xE0)).toNat = n / 4096 % 0x10 + 0xE0 :=
      toNat_ofNat (by omega)
    have hn : (n / 4096 % 0x10 * 64 + n / 64 % 0x40) * 64 + n % 0x40 = n := by omega
    obtain ⟨low, high, hbegin, hlow, hhigh⟩ :=
      begin_three (b := UInt8.ofNat (n / 4096 % 0x10 + 0xE0)) (by omega) (by omega)
    rw [hb] at hbegin hlow hhigh
    rw [unitsFrom_start, hbegin, List.nil_append, Nat.add_sub_cancel,
      unitsFrom_more (by omega) (by split_ifs at hlow <;> omega)
        (by split_ifs at hhigh <;> omega),
      unitsFrom_last (by omega), hn]
  · have hb : (UInt8.ofNat (n / 262144 % 0x08 + 0xF0)).toNat = n / 262144 % 0x08 + 0xF0 :=
      toNat_ofNat (by omega)
    have hn : ((n / 262144 % 0x08 * 64 + n / 4096 % 0x40) * 64 + n / 64 % 0x40) * 64 +
        n % 0x40 = n := by omega
    obtain ⟨low, high, hbegin, hlow, hhigh⟩ :=
      begin_four (b := UInt8.ofNat (n / 262144 % 0x08 + 0xF0)) (by omega) (by omega)
    rw [hb] at hbegin hlow hhigh
    rw [unitsFrom_start, hbegin, List.nil_append, Nat.add_sub_cancel,
      unitsFrom_more (by omega) (by split_ifs at hlow <;> omega)
        (by split_ifs at hhigh <;> omega),
      unitsFrom_more (by omega) (Nat.le_add_left _ _)
        (show n / 64 % 0x40 + 0x80 ≤ 0xBF by omega),
      unitsFrom_last (by omega), hn]

/-! ### Bytes below 0x80 -/

/-- All bytes that a character can go on with lie above those that are characters of their own. -/
inductive Reading.Proper : Reading → Prop
  | start : Proper .start
  | within {value more : Nat} {low high : UInt8} : 0x80 ≤ low → Proper (.within value low high more)

theorem proper_begin (b : UInt8) : (begin b).2.Proper := by
  unfold begin
  dsimp only
  split_ifs
  all_goals first | exact .start | exact .within (by decide)

theorem proper_step (r : Reading) (b : UInt8) : (step r b).2.Proper := by
  cases r with
  | start => exact proper_begin b
  | within value low high more =>
    rw [step]
    split_ifs
    · cases more with
      | zero => exact .start
      | succ more => exact .within (by decide)
    · exact proper_begin b

theorem unitsFrom_cons (r : Reading) (b : UInt8) (rest : List UInt8) :
    unitsFrom r (b :: rest) = (step r b).1 ++ unitsFrom (step r b).2 rest := by
  cases r <;> rfl

section Ascii

variable {r : Reading} {b : UInt8}

/-- A byte below 0x80 is a character of its own, and ends the one that is being read. -/
theorem unitsFrom_ascii (hr : r.Proper) (hb : b < 0x80) (rest : List UInt8) :
    unitsFrom r (b :: rest) =
      unitsFrom r [] ++ some (Char.ofNat b.toNat) :: unitsFrom .start rest := by
  have hbegin : begin b = ([some (Char.ofNat b.toNat)], .start) := by
    rw [begin, if_pos hb]
  cases hr with
  | start =>
    rw [unitsFrom_start, hbegin]
    rfl
  | @within value more low high hlow =>
    have hlow : ¬(low ≤ b ∧ b ≤ high) := fun h => UInt8.not_lt.2 (UInt8.le_trans hlow h.1) hb
    rw [unitsFrom_cons, step, if_neg hlow, hbegin]
    rfl

/-- So what stands before such a byte is read as if nothing followed. -/
theorem unitsFrom_append_ascii (hr : r.Proper) (hb : b < 0x80) (bytes rest : List UInt8) :
    unitsFrom r (bytes ++ b :: rest) =
      unitsFrom r bytes ++ some (Char.ofNat b.toNat) :: unitsFrom .start rest := by
  induction bytes generalizing r with
  | nil => exact unitsFrom_ascii hr hb rest
  | cons c bytes ih =>
    rw [List.cons_append, unitsFrom_cons, unitsFrom_cons, ih (proper_step r c), List.append_assoc]

/-- No replacement character stands for bytes on both sides of such a byte. -/
theorem decodeLossy_append_ascii (hb : b < 0x80) (bytes rest : List UInt8) :
    decodeLossy (bytes ++ b :: rest) =
      decodeLossy bytes ++ Char.ofNat b.toNat :: decodeLossy rest := by
  rw [decodeLossy, units, unitsFrom_append_ascii .start hb, List.map_append]
  rfl

end Ascii

/-! ### Texts -/

/-- Every text is read back from its bytes. -/
theorem decode?_encode (text : String) : decode? (encode text) = some text.toList := by
  have hunits : ∀ l : List Char, units (l.flatMap String.utf8EncodeChar) = l.map some := by
    intro l
    induction l with
    | nil => rfl
    | cons c l ih =>
      rw [List.flatMap_cons, units, unitsFrom_encodeChar]
      exact congrArg (some c :: ·) ih
  have hid : ∀ l : List Char, (l.map some).mapM id = some l := by
    intro l
    induction l with
    | nil => rfl
    | cons c l ih => rw [List.map_cons, List.mapM_cons, ih]; rfl
  obtain ⟨l, rfl⟩ : ∃ l, text = String.ofList l := ⟨_, String.ofList_toList.symm⟩
  rw [encode_ofList, decode?, hunits, hid, String.toList_ofList]

end ContainerBuild.Text.Utf8

/-- The text of a file is read, whatever the file is used for. -/
theorem ContainerBuild.FileUse.decode_encode (use : FileUse) (text : String) :
    use.decode (some (Text.Utf8.encode text)) = .ok text := by
  rw [decode, Option.bind_some, Text.Utf8.decode?_encode]
  exact congrArg Except.ok String.ofList_toList
