import Mathlib.Data.Rat.Defs
import Mathlib.Tactic.FieldSimp
import Mathlib.Tactic.Ring
import Mathlib.Algebra.Order.Field.Rat

/-!
# Decimal numbers

A decimal number is a coefficient and a scale, the number of its digits that stand
after the point.  Two decimals are compared at a common scale, and trailing zeros may
be dropped; neither leaves the rational numbers that the decimals denote.
-/

namespace Athena.Lib

open List

/-- `coefficient / 10 ^ scale`. -/
structure Decimal where
  coefficient : ℕ
  scale : ℕ
  deriving DecidableEq

namespace Decimal

variable (d e : Decimal)

def value : ℚ := d.coefficient / 10 ^ d.scale

def scaled (scale : ℕ) : ℕ := d.coefficient * 10 ^ (scale - d.scale)

theorem scaled_eq {k : ℕ} (h : d.scale ≤ k) : (d.scaled k : ℚ) = d.value * 10 ^ k := by
  have hpow : (10 : ℚ) ^ k = 10 ^ d.scale * 10 ^ (k - d.scale) := by
    rw [← pow_add, Nat.add_sub_cancel' h]
  rw [scaled, value, hpow]
  push_cast
  field_simp

def cmp : Ordering := compare (d.scaled (max d.scale e.scale)) (e.scaled (max d.scale e.scale))

/-- Decimals compare as the numbers they denote. -/
theorem cmp_eq_compare : d.cmp e = compare d.value e.value := by
  have hd := d.scaled_eq (le_max_left d.scale e.scale)
  have he := e.scaled_eq (le_max_right d.scale e.scale)
  have hpow : (0 : ℚ) < 10 ^ max d.scale e.scale := pow_pos (by norm_num) _
  unfold cmp
  rcases lt_trichotomy d.value e.value with h | h | h
  · rw [compare_lt_iff_lt.mpr h, compare_lt_iff_lt, ← Nat.cast_lt (α := ℚ), hd, he]
    exact mul_lt_mul_of_pos_right h hpow
  · rw [compare_eq_iff_eq.mpr h, compare_eq_iff_eq, ← Nat.cast_inj (R := ℚ), hd, he, h]
  · rw [compare_gt_iff_gt.mpr h, compare_gt_iff_gt, ← Nat.cast_lt (α := ℚ), hd, he]
    exact mul_lt_mul_of_pos_right h hpow

theorem cmp_eq_lt_iff : d.cmp e = .lt ↔ d.value < e.value := by
  rw [cmp_eq_compare, compare_lt_iff_lt]

def sumEquals (total : Decimal) : Bool :=
  let scale := max (max d.scale e.scale) total.scale
  d.scaled scale + e.scaled scale = total.scaled scale

theorem sumEquals_iff (total : Decimal) :
    d.sumEquals e total ↔ d.value + e.value = total.value := by
  have hd := d.scaled_eq (k := max (max d.scale e.scale) total.scale) (by simp)
  have he := e.scaled_eq (k := max (max d.scale e.scale) total.scale) (by simp)
  have ht := total.scaled_eq (k := max (max d.scale e.scale) total.scale) (by simp)
  have hpow : (10 : ℚ) ^ max (max d.scale e.scale) total.scale ≠ 0 := pow_ne_zero _ (by norm_num)
  rw [sumEquals, decide_eq_true_iff, ← Nat.cast_inj (R := ℚ), Nat.cast_add, hd, he, ht, ← add_mul]
  exact mul_left_inj' hpow

def sub : Decimal :=
  ⟨d.scaled (max d.scale e.scale) - e.scaled (max d.scale e.scale), max d.scale e.scale⟩

theorem value_sub (h : e.value ≤ d.value) : (d.sub e).value = d.value - e.value := by
  have hd := d.scaled_eq (le_max_left d.scale e.scale)
  have he := e.scaled_eq (le_max_right d.scale e.scale)
  have hpow : (0 : ℚ) < 10 ^ max d.scale e.scale := pow_pos (by norm_num) _
  have hle : e.scaled (max d.scale e.scale) ≤ d.scaled (max d.scale e.scale) := by
    rw [← Nat.cast_le (α := ℚ), hd, he]
    exact (mul_le_mul_iff_left₀ hpow).mpr h
  rw [value, sub, Nat.cast_sub hle, hd, he, ← sub_mul]
  exact mul_div_cancel_right₀ _ hpow.ne'

def strip (coefficient : ℕ) : ℕ → Decimal
  | 0 => ⟨coefficient, 0⟩
  | scale + 1 =>
    if coefficient % 10 = 0 then strip (coefficient / 10) scale else ⟨coefficient, scale + 1⟩

/-- Trailing zeros do not count. -/
theorem value_strip (c k : ℕ) : (strip c k).value = (c : ℚ) / 10 ^ k := by
  induction k generalizing c with
  | zero => rfl
  | succ k ih =>
    rw [strip]
    split
    next h =>
      obtain ⟨q, rfl⟩ := Nat.dvd_of_mod_eq_zero h
      rw [ih, Nat.mul_div_cancel_left q (by omega), pow_succ]
      push_cast
      field_simp
    next => rfl

/-! ## Numerals -/

def isDigit (c : Char) : Bool := '0' ≤ c && c ≤ '9'

theorem utf8ByteSize_ofList {l : List Char} (h : ∀ c ∈ l, isDigit c ∨ c = '.') :
    (String.ofList l).utf8ByteSize = l.length := by
  induction l with
  | nil => rfl
  | cons c l ih =>
    obtain ⟨hc, hl⟩ := forall_mem_cons.mp h
    have hsize : c.utf8Size = 1 := by
      rcases hc with hc | rfl
      · simp only [isDigit, Bool.and_eq_true, decide_eq_true_eq, Char.le_def] at hc
        have hle : c.val ≤ 0x7f := UInt32.le_trans hc.2 (by decide)
        simp [Char.utf8Size, hle]
      · rfl
    rw [String.ofList_cons, String.utf8ByteSize_append, String.utf8ByteSize_singleton, hsize, ih hl,
      length_cons, Nat.add_comm]

def digit (c : Char) : ℕ := c.toNat - '0'.toNat

def ofDigits (digits : List Char) : ℕ := digits.foldl (fun n c => 10 * n + digit c) 0

private theorem foldl_digits (l : List Char) (n : ℕ) :
    l.foldl (fun n c => 10 * n + digit c) n = n * 10 ^ l.length + ofDigits l := by
  induction l generalizing n with
  | nil => simp [ofDigits]
  | cons c l ih =>
    rw [ofDigits, foldl_cons, foldl_cons, ih, ih, length_cons, pow_succ]
    ring

theorem ofDigits_append (l l' : List Char) :
    ofDigits (l ++ l') = ofDigits l * 10 ^ l'.length + ofDigits l' := by
  rw [ofDigits, foldl_append, foldl_digits]
  rfl

def read (whole fraction : List Char) : Decimal :=
  strip (ofDigits (whole ++ fraction)) fraction.length

/-- A text denotes a number: digits, and after a point, if there is one, more digits. -/
def Denotes (text : String) (q : ℚ) : Prop :=
  ∃ whole fraction : List Char, whole.all isDigit ∧ fraction.all isDigit ∧
    (text.toList = whole ∧ fraction = [] ∨ text.toList = whole ++ '.' :: fraction) ∧
    q = ofDigits whole + ofDigits fraction / 10 ^ fraction.length

theorem Denotes.nonneg {text : String} {q : ℚ} (h : Denotes text q) : 0 ≤ q := by
  obtain ⟨whole, fraction, -, -, -, rfl⟩ := h
  exact add_nonneg (Nat.cast_nonneg _) (div_nonneg (Nat.cast_nonneg _) (pow_nonneg (by norm_num) _))

private theorem takeWhile_digits {whole rest : List Char} (h : whole.all isDigit) :
    (whole ++ '.' :: rest).takeWhile isDigit = whole ∧
      (whole ++ '.' :: rest).dropWhile isDigit = '.' :: rest := by
  have hdot : isDigit '.' = false := by decide
  constructor
  · rw [takeWhile_append_of_pos (all_eq_true.mp h), takeWhile_cons_of_neg (by simp [hdot]),
      append_nil]
  · rw [dropWhile_append_of_pos (all_eq_true.mp h), dropWhile_cons_of_neg (by simp [hdot])]

/-- A text denotes one number at most. -/
theorem Denotes.unique {text : String} {q q' : ℚ} (h : Denotes text q) (h' : Denotes text q') :
    q = q' := by
  obtain ⟨whole, fraction, hwhole, -, htext, rfl⟩ := h
  obtain ⟨whole', fraction', hwhole', -, htext', rfl⟩ := h'
  have hplain {w w' f : List Char} (hw : w.all isDigit) (heq : w = w' ++ '.' :: f) : False := by
    have hdot : isDigit '.' := all_eq_true.mp hw '.' (by simp [heq])
    exact absurd hdot (by decide)
  obtain ⟨htext, rfl⟩ | htext := htext <;> obtain ⟨htext', rfl⟩ | htext' := htext'
  · rw [← htext, htext']
  · exact absurd (htext.symm.trans htext') (hplain hwhole)
  · exact absurd (htext'.symm.trans htext) (hplain hwhole')
  · have heq := htext.symm.trans htext'
    have hw := congrArg (takeWhile isDigit) heq
    have hf := congrArg (dropWhile isDigit) heq
    rw [(takeWhile_digits hwhole).1, (takeWhile_digits hwhole').1] at hw
    rw [(takeWhile_digits hwhole).2, (takeWhile_digits hwhole').2] at hf
    rw [hw, (cons.inj hf).2]

theorem value_read (whole fraction : List Char) : (read whole fraction).value =
    ofDigits whole + ofDigits fraction / 10 ^ fraction.length := by
  rw [read, value_strip, ofDigits_append]
  push_cast
  field_simp

/-- The digits of a coefficient, with zeros before them when they are too few for the scale. -/
def digits : List Char :=
  let digits := Nat.toDigits 10 d.coefficient
  List.replicate (d.scale + 1 - digits.length) '0' ++ digits

theorem scale_lt_length_digits : d.scale < d.digits.length := by
  simp only [digits, length_append, length_replicate]
  omega

theorem all_isDigit_digits : d.digits.all isDigit := by
  rw [digits, all_append, all_replicate, Bool.and_eq_true]
  refine ⟨by simp [isDigit], all_eq_true.mpr fun c hc => ?_⟩
  exact Nat.isDigit_of_mem_toDigits (by decide) (by decide) hc

theorem ofDigits_digits : ofDigits d.digits = d.coefficient := by
  have hzeros (n : ℕ) : ofDigits (replicate n '0') = 0 := by
    induction n with
    | zero => rfl
    | succ n ih =>
      rw [replicate_succ', ofDigits_append, ih]
      rfl
  rw [digits, ofDigits_append, hzeros, zero_mul, zero_add]
  exact Nat.ofDigitChars_toDigits (by decide) (by decide)

def text : String :=
  if d.scale = 0 then String.ofList (Nat.toDigits 10 d.coefficient)
  else
    let index := d.digits.length - d.scale
    String.ofList (d.digits.take index ++ '.' :: d.digits.drop index)

/-- A decimal is written as a text that denotes it. -/
theorem denotes_text : Denotes d.text d.value := by
  have hlength := d.scale_lt_length_digits
  by_cases hscale : d.scale = 0
  · refine ⟨Nat.toDigits 10 d.coefficient, [], ?_, rfl, .inl ⟨by simp [text, hscale], rfl⟩, ?_⟩
    · exact all_eq_true.mpr fun c hc => Nat.isDigit_of_mem_toDigits (by decide) (by decide) hc
    · have hdigits : ofDigits (Nat.toDigits 10 d.coefficient) = d.coefficient :=
        Nat.ofDigitChars_toDigits (by decide) (by decide)
      have hnil : ofDigits [] = 0 := rfl
      simp [value, hscale, hdigits, hnil]
  · have hdrop : (d.digits.drop (d.digits.length - d.scale)).length = d.scale := by
      rw [length_drop]
      omega
    have hsplit := take_append_drop (d.digits.length - d.scale) d.digits
    have hall := d.all_isDigit_digits
    rw [← hsplit, all_append, Bool.and_eq_true] at hall
    refine ⟨_, _, hall.1, hall.2, .inr (by simp [text, hscale]), ?_⟩
    have hvalue := value_read (d.digits.take (d.digits.length - d.scale))
      (d.digits.drop (d.digits.length - d.scale))
    rw [← hvalue, read, value_strip, hsplit, hdrop, ofDigits_digits, value]

end Decimal
end Athena.Lib
