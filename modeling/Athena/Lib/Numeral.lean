import Mathlib.Data.Int.Notation
import Mathlib.Tactic.Ring

/-!
# Decimal numerals

The integers as texts: `readInt?` accepts what `big.Int.SetString` accepts in base 10, an
optional sign before at least one digit, and `showInt` writes the canonical numeral.  What
is written is read back (`readInt?_showInt`).
-/

namespace Athena.Lib.Numeral

def readNat? (digits : List Char) : Option ℕ :=
  if digits ≠ [] ∧ digits.all Char.isDigit then some (Nat.ofDigitChars 10 digits 0) else none

/-- `new(big.Int).SetString(text, 10)` -/
def readInt? (text : String) : Option ℤ :=
  match text.toList with
  | '+' :: digits => (readNat? digits).map Int.ofNat
  | '-' :: digits => (readNat? digits).map fun n => -(n : ℤ)
  | digits => (readNat? digits).map Int.ofNat

/-- `(*big.Int).String` -/
def showInt : ℤ → String
  | .ofNat n => String.ofList (Nat.toDigits 10 n)
  | .negSucc n => String.ofList ('-' :: Nat.toDigits 10 (n + 1))

theorem readNat?_toDigits (n : ℕ) : readNat? (Nat.toDigits 10 n) = some n := by
  have hdigits : (Nat.toDigits 10 n).all Char.isDigit :=
    List.all_eq_true.mpr fun c hc => Nat.isDigit_of_mem_toDigits (by decide) (by decide) hc
  rw [readNat?, if_pos ⟨Nat.toDigits_ne_nil, hdigits⟩,
    Nat.ofDigitChars_toDigits (by decide) (by decide)]

theorem readInt?_of_digit {text : String} {c : Char} {rest : List Char}
    (htext : text.toList = c :: rest) (hc : c.isDigit) :
    readInt? text = (readNat? (c :: rest)).map Int.ofNat := by
  have hplus : c ≠ '+' := by rintro rfl; simp at hc
  have hminus : c ≠ '-' := by rintro rfl; simp at hc
  rw [readInt?, htext]
  split
  · rename_i h
    exact absurd (List.cons.inj h).1 hplus
  · rename_i h
    exact absurd (List.cons.inj h).1 hminus
  · rfl

theorem readInt?_showInt (z : ℤ) : readInt? (showInt z) = some z := by
  cases z with
  | ofNat n =>
    cases hdigits : Nat.toDigits 10 n with
    | nil => exact absurd hdigits Nat.toDigits_ne_nil
    | cons c rest =>
      have hc : c.isDigit :=
        Nat.isDigit_of_mem_toDigits (by decide) (by decide) (hdigits ▸ List.mem_cons_self)
      have htext : (showInt (.ofNat n)).toList = c :: rest := by simp [showInt, hdigits]
      rw [readInt?_of_digit htext hc, ← hdigits, readNat?_toDigits]
      rfl
  | negSucc n =>
    have htext : (showInt (.negSucc n)).toList = '-' :: Nat.toDigits 10 (n + 1) := by
      simp [showInt]
    simp only [readInt?, htext, readNat?_toDigits]
    rfl

example : readInt? "-120" = some (-120) := by decide

end Athena.Lib.Numeral
