import Athena.Preview.Builder

/-!
# Amounts

The amounts of a preview are decimals of at most 128 characters.  They are compared, added and
written without a loss.  A difference is written and parsed again, and its text can be longer
than any text that is accepted: then the program panics.
-/

namespace Athena.Preview

open Athena.Lib List Decimal
open Athena.Execution (parseExecutionPreviewDecimal isNonNegativeDecimalString
  executionPreviewDecimalMaxLength denotes_of_parse)

/-! ## The text of a decimal -/

theorem isDigit_toDigits (n : ℕ) : ∀ c ∈ Nat.toDigits 10 n, isDigit c :=
  fun _ hc => Nat.isDigit_of_mem_toDigits (by decide) (by decide) hc

theorem head?_toDigits {n : ℕ} (h : 0 < n) :
    (Nat.toDigits 10 n).head?.any fun c => '1' ≤ c && c ≤ '9' := by
  induction n using Nat.strongRecOn with
  | ind n ih =>
    by_cases hn : n < 10
    · obtain rfl | rfl | rfl | rfl | rfl | rfl | rfl | rfl | rfl :
        n = 1 ∨ n = 2 ∨ n = 3 ∨ n = 4 ∨ n = 5 ∨ n = 6 ∨ n = 7 ∨ n = 8 ∨ n = 9 := by omega
      all_goals decide
    · rw [Nat.toDigits_of_base_le (by decide) (by omega),
        head?_append_of_ne_nil _ Nat.toDigits_ne_nil]
      exact ih (n / 10) (by omega) (by omega)

variable (d : Decimal)

theorem whole_digits : d.digits.take (d.digits.length - d.scale) = ['0'] ∨
    (d.digits.take (d.digits.length - d.scale)).head?.any fun c => '1' ≤ c && c ≤ '9' := by
  have hpos : 0 < (Nat.toDigits 10 d.coefficient).length := Nat.length_toDigits_pos
  by_cases hshort : (Nat.toDigits 10 d.coefficient).length ≤ d.scale
  · left
    obtain ⟨k, hk⟩ : ∃ k, d.scale + 1 - (Nat.toDigits 10 d.coefficient).length = k + 1 :=
      Nat.exists_eq_add_one.mpr (by omega)
    have hlength : d.digits.length - d.scale = 1 := by
      simp only [digits, length_append, length_replicate]
      omega
    rw [hlength, digits, hk, replicate_succ]
    rfl
  · have hzero : d.scale + 1 - (Nat.toDigits 10 d.coefficient).length = 0 := by omega
    rw [digits, hzero, replicate_zero, nil_append]
    rcases Nat.eq_zero_or_pos d.coefficient with hc | hc
    · left
      have hdigits : Nat.toDigits 10 d.coefficient = ['0'] := by rw [hc]; rfl
      have hscale : d.scale = 0 := by
        rw [hdigits, length_singleton] at hshort
        omega
      rw [hdigits, hscale]
      rfl
    · right
      have hindex : (Nat.toDigits 10 d.coefficient).length - d.scale ≠ 0 := by omega
      rw [head?_take, if_neg hindex]
      exact head?_toDigits hc

theorem isNonNegativeDecimalString_text : isNonNegativeDecimalString d.text := by
  have hall := all_eq_true.mp d.all_isDigit_digits
  have hnodot : ∀ l : List Char, (∀ c ∈ l, isDigit c) → ∀ c ∈ l, decide (c ≠ '.') := by
    intro l hl c hc
    have := hl c hc
    by_contra hdot
    obtain rfl : c = '.' := by simpa using hdot
    exact absurd this (by decide)
  have hwhole := whole_digits d
  by_cases hscale : d.scale = 0
  · have hdigits : d.digits = Nat.toDigits 10 d.coefficient := by
      have hpos : 0 < (Nat.toDigits 10 d.coefficient).length := Nat.length_toDigits_pos
      have hzero : d.scale + 1 - (Nat.toDigits 10 d.coefficient).length = 0 := by omega
      rw [digits, hzero]
      rfl
    rw [hscale, Nat.sub_zero, take_length, hdigits] at hwhole
    have hdot := hnodot _ (isDigit_toDigits d.coefficient)
    simp only [isNonNegativeDecimalString, text, if_pos hscale, String.toList_ofList,
      takeWhile_eq_self_iff.mpr hdot, dropWhile_eq_nil_iff.mpr hdot]
    rcases hwhole with hwhole | hwhole
    · simp [hwhole]
    · simp [hwhole, all_eq_true.mpr (isDigit_toDigits d.coefficient)]
  · have hlength := d.scale_lt_length_digits
    have htake : ∀ c ∈ d.digits.take (d.digits.length - d.scale), isDigit c :=
      fun c hc => hall c (mem_of_mem_take hc)
    have hdrop : ∀ c ∈ d.digits.drop (d.digits.length - d.scale), isDigit c :=
      fun c hc => hall c (mem_of_mem_drop hc)
    have hne : d.digits.drop (d.digits.length - d.scale) ≠ [] := by
      rw [Ne, drop_eq_nil_iff]
      omega
    have hdot := hnodot _ htake
    simp only [isNonNegativeDecimalString, text, if_neg hscale, String.toList_ofList,
      takeWhile_append_of_pos hdot, dropWhile_append_of_pos hdot]
    rcases hwhole with hwhole | hwhole
    · simp [hwhole, hne, all_eq_true.mpr hdrop]
    · simp [hwhole, hne, all_eq_true.mpr hdrop, all_eq_true.mpr htake]

theorem parse_text : (∃ r, parseExecutionPreviewDecimal d.text = some r ∧ r.value = d.value) ↔
    d.text.utf8ByteSize ≤ executionPreviewDecimalMaxLength := by
  have hvalid := isNonNegativeDecimalString_text d
  constructor
  · rintro ⟨r, hr, -⟩
    unfold parseExecutionPreviewDecimal at hr
    by_contra hlong
    simp [Nat.lt_of_not_le hlong] at hr
  · intro hshort
    have hsome : ∃ r, parseExecutionPreviewDecimal d.text = some r := by
      simp [parseExecutionPreviewDecimal, hvalid, Nat.not_lt.mpr hshort]
    obtain ⟨r, hr⟩ := hsome
    exact ⟨r, hr, (denotes_of_parse hr).unique d.denotes_text⟩

theorem utf8ByteSize_text : d.text.utf8ByteSize =
    if d.scale = 0 then (Nat.toDigits 10 d.coefficient).length else d.digits.length + 1 := by
  have hlength := d.scale_lt_length_digits
  have hall := all_eq_true.mp d.all_isDigit_digits
  unfold text
  split
  · exact utf8ByteSize_ofList fun c hc => .inl (isDigit_toDigits _ c hc)
  · rw [utf8ByteSize_ofList]
    · simp only [length_append, length_take, length_cons, length_drop]
      omega
    · intro c hc
      rcases mem_append.mp hc with hc | hc
      · exact .inl (hall c (mem_of_mem_take hc))
      · rcases mem_cons.mp hc with rfl | hc
        · exact .inr rfl
        · exact .inl (hall c (mem_of_mem_drop hc))

/-! ## Parsed values -/

theorem strip_spec (c k : ℕ) : (strip c k).scale ≤ k ∧
    (strip c k).coefficient * 10 ^ (k - (strip c k).scale) = c := by
  induction k generalizing c with
  | zero => simp [strip]
  | succ k ih =>
    rw [strip]
    split
    · rename_i h
      obtain ⟨hle, heq⟩ := ih (c / 10)
      refine ⟨by omega, ?_⟩
      rw [Nat.succ_sub hle, pow_succ, ← Nat.mul_assoc, heq]
      omega
    · simp

theorem ofDigits_lt {l : List Char} (h : ∀ c ∈ l, isDigit c) :
    ofDigits l < 10 ^ l.length := by
  induction l using reverseRecOn with
  | nil => decide
  | append_singleton l c ih =>
    have hc : digit c < 10 := by
      have := h c (by simp)
      simp only [isDigit, check_iff, Char.le_def] at this
      have hle : c.val.toNat ≤ 57 := UInt32.le_iff_toNat_le.mp this.2
      have hnat : c.toNat = c.val.toNat := rfl
      unfold digit
      have hzero : '0'.toNat = 48 := rfl
      omega
    have := ih fun c hc => h c (by simp [hc])
    have hone : ofDigits [c] = digit c := by simp [ofDigits]
    rw [ofDigits_append, hone, length_append, length_singleton, pow_one, pow_succ]
    omega

theorem digits_of_parse {value : String} {d : Decimal}
    (h : parseExecutionPreviewDecimal value = some d) :
    ∃ whole fraction : List Char, whole ≠ [] ∧ (∀ c ∈ whole ++ fraction, isDigit c) ∧
      d = read whole fraction ∧
      whole.length + (if fraction = [] then 0 else fraction.length + 1) ≤
        executionPreviewDecimalMaxLength := by
  unfold parseExecutionPreviewDecimal at h
  split at h
  · cases h
  rename_i hvalid
  simp only [check_iff, Bool.not_eq_true', not_or, Bool.not_eq_false, isNonNegativeDecimalString,
    Nat.not_lt] at hvalid
  obtain ⟨hshort, hwhole, hrest⟩ := hvalid
  have hsplit := takeWhile_append_dropWhile (p := fun c => decide (c ≠ '.')) (l := value.toList)
  have hhead : ∀ c ∈ (value.toList.dropWhile (· ≠ '.')).head?, c = '.' := by
    intro c hc
    have := head?_dropWhile_not (fun c => decide (c ≠ '.')) value.toList
    rw [hc] at this
    simpa using this
  generalize value.toList.takeWhile (· ≠ '.') = whole at *
  generalize value.toList.dropWhile (· ≠ '.') = rest at *
  have hwholeDigits : ∀ c ∈ whole, isDigit c := by
    rcases hwhole with rfl | h
    · intro c hc
      rw [mem_singleton.mp hc]
      rfl
    · exact all_eq_true.mp h.2
  have hrestDigits : ∀ c ∈ rest.drop 1, isDigit c := by
    rcases hrest with rfl | h
    · simp
    · exact all_eq_true.mp h.2
  have hsize : value.utf8ByteSize = whole.length + rest.length := by
    rw [← String.ofList_toList (s := value), utf8ByteSize_ofList, ← hsplit, length_append]
    intro c hc
    rw [← hsplit] at hc
    rcases mem_append.mp hc with hc | hc
    · exact .inl (hwholeDigits c hc)
    · cases rest with
      | nil => cases hc
      | cons =>
        rcases mem_cons.mp hc with rfl | hc
        · exact .inr (hhead c rfl)
        · exact .inl (hrestDigits c hc)
  refine ⟨whole, rest.drop 1, ?_, ?_, (Option.some.inj h).symm, ?_⟩
  · rintro rfl
    simp at hwhole
  · intro c hc
    rcases mem_append.mp hc with hc | hc
    · exact hwholeDigits c hc
    · exact hrestDigits c hc
  · cases rest with
    | nil => simpa [hsize] using hshort
    | cons =>
      rw [hsize, length_cons] at hshort
      simp only [drop_succ_cons, drop_zero]
      split <;> omega

theorem utf8ByteSize_text_of_parse {value : String} {d : Decimal}
    (h : parseExecutionPreviewDecimal value = some d) :
    d.text.utf8ByteSize ≤ executionPreviewDecimalMaxLength := by
  obtain ⟨whole, fraction, hne, hdigits, rfl, hshort⟩ := digits_of_parse h
  have hpos := length_pos_iff.mpr hne
  obtain ⟨hscale, hcoefficient⟩ := strip_spec (ofDigits (whole ++ fraction)) fraction.length
  have hlt := ofDigits_lt hdigits
  have hread : read whole fraction =
    strip (ofDigits (whole ++ fraction)) fraction.length := rfl
  rw [← hread] at hscale hcoefficient
  rw [length_append, ← hcoefficient] at hlt
  generalize read whole fraction = d at *
  have hbound : d.coefficient < 10 ^ (whole.length + d.scale) := by
    have hpow : 10 ^ (whole.length + fraction.length) =
        10 ^ (whole.length + d.scale) * 10 ^ (fraction.length - d.scale) := by
      rw [← pow_add]
      congr 1
      omega
    rw [hpow] at hlt
    exact Nat.lt_of_mul_lt_mul_right hlt
  have hlength := (Nat.length_toDigits_le_iff (by decide) (by omega)).mpr hbound
  rw [utf8ByteSize_text]
  split
  · omega
  · have hfraction : fraction ≠ [] := by
      rintro rfl
      simp only [length_nil] at hscale
      omega
    rw [if_neg hfraction] at hshort
    simp only [digits, length_append, length_replicate]
    omega

theorem bounds_of_parse {value : String} {d : Decimal}
    (h : parseExecutionPreviewDecimal value = some d) :
    d.scale < 127 ∧ (d.scale = 0 → d.coefficient < 10 ^ 128) := by
  have hshort := utf8ByteSize_text_of_parse h
  have hlength := d.scale_lt_length_digits
  rw [utf8ByteSize_text, executionPreviewDecimalMaxLength] at hshort
  split at hshort
  · exact ⟨by omega, fun _ => (Nat.length_toDigits_le_iff (by decide) (by decide)).mp hshort⟩
  · exact ⟨by omega, fun hscale => absurd hscale ‹_›⟩

/-- With a point, 127 digits fit; the number of them is a bound on the value. -/
theorem text_fits_iff (hscale : d.scale < 127) (hwhole : d.scale = 0 → d.coefficient < 10 ^ 128) :
    d.text.utf8ByteSize ≤ executionPreviewDecimalMaxLength ↔
      d.scale = 0 ∨ d.value < 10 ^ (127 - d.scale) := by
  have hvalue : d.value < 10 ^ (127 - d.scale) ↔ d.coefficient < 10 ^ 127 := by
    rw [value, div_lt_iff₀ (pow_pos (by norm_num) _), ← pow_add, Nat.sub_add_cancel hscale.le]
    norm_cast
  rw [utf8ByteSize_text, hvalue, ← Nat.length_toDigits_le_iff (by decide) (by decide)]
  split
  · have := (Nat.length_toDigits_le_iff (by decide) (by decide)).mpr (hwhole ‹_›)
    simp [*, executionPreviewDecimalMaxLength]
  · simp only [digits, length_append, length_replicate, executionPreviewDecimalMaxLength]
    omega

/-- Of amounts that are accepted: comparison is that of the numbers, so is the test of a sum, a
text is parsed back, and a difference is exact when it needs no more than 127 digits or the
operands are whole, and else a panic. -/
theorem amounts_exact (left right total : String) (d e t : Decimal)
    (hd : parseExecutionPreviewDecimal left = some d)
    (he : parseExecutionPreviewDecimal right = some e)
    (_ : parseExecutionPreviewDecimal total = some t) :
    d.cmp e = compare d.value e.value ∧ (d.sumEquals e t ↔ d.value + e.value = t.value) ∧
      (∃ r, parseExecutionPreviewDecimal d.text = some r ∧ r.value = d.value) ∧
      (e.value ≤ d.value → ((∃ r, subtract d e = .ok r ∧ r.value = d.value - e.value) ↔
        max d.scale e.scale = 0 ∨ d.value - e.value < 10 ^ (127 - max d.scale e.scale))) := by
  refine ⟨d.cmp_eq_compare e, d.sumEquals_iff e t,
    (parse_text d).mpr (utf8ByteSize_text_of_parse hd), fun hle => ?_⟩
  have hcmp : d.cmp e ≠ .lt := fun h => not_lt.mpr hle ((d.cmp_eq_lt_iff e).mp h)
  obtain ⟨hdscale, hdwhole⟩ := bounds_of_parse hd
  have hfits := text_fits_iff (d.sub e) (max_lt hdscale (bounds_of_parse he).1) ?_
  · rw [value_sub d e hle] at hfits
    rw [← show (d.sub e).scale = max d.scale e.scale from rfl, ← hfits, ← parse_text,
      value_sub d e hle]
    simp [subtract, ensure_of hcmp]
  · -- a whole difference has no more digits than the minuend
    intro hzero
    have hzero : max d.scale e.scale = 0 := hzero
    refine (Nat.sub_le _ _).trans_lt ?_
    rw [hzero, scaled, Nat.zero_sub, pow_zero, Nat.mul_one]
    exact hdwhole (by omega)

theorem sample_amounts : ∃ r, subtract ⟨15, 1⟩ ⟨1, 0⟩ = .ok r ∧
    r.value = value ⟨15, 1⟩ - value ⟨1, 0⟩ := by
  have hle : value ⟨1, 0⟩ ≤ value ⟨15, 1⟩ := by
    rw [← not_lt, ← cmp_eq_lt_iff]
    decide
  refine ((amounts_exact "1.5" "1" "2.5" ⟨15, 1⟩ ⟨1, 0⟩ ⟨25, 1⟩ (by decide +kernel)
    (by decide +kernel) (by decide +kernel)).2.2.2 hle).mpr (.inr ?_)
  exact lt_of_lt_of_le (by decide +kernel) (one_le_pow₀ (by norm_num))

/-- The difference of `10 ^ 127` and `10 ^ -126`, both of 128 characters, is a panic. -/
theorem difference_panics :
    parseExecutionPreviewDecimal (String.ofList ('1' :: List.replicate 127 '0')) =
        some ⟨10 ^ 127, 0⟩ ∧
      parseExecutionPreviewDecimal
        (String.ofList ('0' :: '.' :: (List.replicate 125 '0' ++ ['1']))) =
        some ⟨1, 126⟩ ∧
      value ⟨1, 126⟩ ≤ value ⟨10 ^ 127, 0⟩ ∧
      subtract ⟨10 ^ 127, 0⟩ ⟨1, 126⟩ = .error .normalizationFailed := by
  refine ⟨by decide +kernel, by decide +kernel, ?_, by decide +kernel⟩
  rw [← not_lt, ← cmp_eq_lt_iff]
  decide +kernel

end Athena.Preview
