import ContainerBuild.Text.Digit
import Mathlib.Data.Nat.Digits.Defs

/-!
# Decimal notation

A text that is read as a number (`decimal?`) is one in decimal notation.
-/

namespace ContainerBuild.Text

/-- A text is a number in decimal notation: one or more digits of ASCII, of which
    the last one counts the ones. -/
structure Decimal (text : List Char) (n : Nat) : Prop where
  nonempty : text ≠ []
  digits : ∀ c ∈ text, '0' ≤ c ∧ c ≤ '9'
  value : Nat.ofDigits 10 (text.reverse.map fun c => c.toNat - '0'.toNat) = n

theorem digit?_eq_some_iff {c : Char} {d : Nat} :
    digit? c = some d ↔ ('0' ≤ c ∧ c ≤ '9') ∧ c.toNat - '0'.toNat = d := by
  rw [digit?]
  split_ifs with hc
  · rw [Bool.and_eq_true, decide_eq_true_eq, decide_eq_true_eq] at hc
    rw [Option.some_inj, and_iff_right hc]
  · rw [Bool.and_eq_true, decide_eq_true_eq, decide_eq_true_eq] at hc
    exact ⟨nofun, fun h => absurd h.1 hc⟩

theorem mapM_digit?_eq_some_iff {text : List Char} {ds : List Nat} :
    text.mapM digit? = some ds ↔
      (∀ c ∈ text, '0' ≤ c ∧ c ≤ '9') ∧ text.map (fun c => c.toNat - '0'.toNat) = ds := by
  induction text generalizing ds with
  | nil =>
    refine ⟨fun h => ⟨nofun, Option.some.inj h⟩, fun h => congrArg some h.2⟩
  | cons c text ih =>
    rw [List.mapM_cons, List.forall_mem_cons, List.map_cons]
    constructor
    · intro h
      obtain ⟨d, hd, h⟩ := Option.bind_eq_some_iff.1 h
      obtain ⟨ds, hds, h⟩ := Option.bind_eq_some_iff.1 h
      obtain rfl := Option.some.inj h
      obtain ⟨hc, rfl⟩ := digit?_eq_some_iff.1 hd
      obtain ⟨htext, rfl⟩ := ih.1 hds
      exact ⟨⟨hc, htext⟩, rfl⟩
    · rintro ⟨⟨hc, htext⟩, rfl⟩
      rw [digit?_eq_some_iff.2 ⟨hc, rfl⟩, ih.2 ⟨htext, rfl⟩]
      rfl

theorem ofDigits_eq (ds : List Nat) : ofDigits 10 ds = Nat.ofDigits 10 ds.reverse := by
  rw [ofDigits, Nat.ofDigits_eq_foldr, List.foldr_reverse]
  congr 1
  funext value d
  rw [Nat.add_comm, Nat.mul_comm]
  rfl

theorem decimal?_eq_some_iff {text : List Char} {n : Nat} :
    decimal? text = some n ↔ Decimal text n := by
  rw [decimal?]
  split_ifs with hempty
  · exact ⟨nofun, fun h => absurd (List.isEmpty_iff.1 hempty) h.nonempty⟩
  · rw [List.isEmpty_iff] at hempty
    constructor
    · intro h
      obtain ⟨ds, hds, rfl⟩ := Option.map_eq_some_iff.1 h
      obtain ⟨hdigits, rfl⟩ := mapM_digit?_eq_some_iff.1 hds
      exact ⟨hempty, hdigits, by rw [ofDigits_eq, List.map_reverse]⟩
    · rintro ⟨-, hdigits, rfl⟩
      rw [mapM_digit?_eq_some_iff.2 ⟨hdigits, rfl⟩, Option.map_some, ofDigits_eq, List.map_reverse]

end ContainerBuild.Text
