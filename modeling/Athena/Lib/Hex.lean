import Athena.Lib.Text
import Mathlib.Data.String.Basic

/-!
# Hexadecimal texts

Bytes as texts of hexadecimal digits: `encode` writes small digits, `decode` reads small and
capital ones, and what is written is read back (`decode_encode`).
-/

namespace Athena.Lib.Hex

def digit (n : ℕ) : Char := if n < 10 then Char.ofNat (48 + n) else Char.ofNat (87 + n)

def value? (c : Char) : Option ℕ :=
  if '0' ≤ c && c ≤ '9' then some (c.toNat - 48)
  else if 'a' ≤ c && c ≤ 'f' then some (c.toNat - 87)
  else if 'A' ≤ c && c ≤ 'F' then some (c.toNat - 55)
  else none

theorem digit_spec {n : ℕ} (h : n < 16) : value? (digit n) = some n ∧
    Text.isSpace (digit n) = false ∧ (digit n).utf8Size = 1 ∧ digit n ≠ 'x' ∧ digit n ≠ 'X' := by
  have hall : ∀ i : Fin 16, value? (digit i) = some i.val ∧ Text.isSpace (digit i) = false ∧
    (digit i).utf8Size = 1 ∧ digit i ≠ 'x' ∧ digit i ≠ 'X' := by decide
  exact hall ⟨n, h⟩

def digits : List UInt8 → List Char
  | [] => []
  | b :: bytes => digit (b.toNat / 16) :: digit (b.toNat % 16) :: digits bytes

/-- `hex.EncodeToString` -/
def encode (bytes : List UInt8) : String := String.ofList (digits bytes)

def bytes? : List Char → Option (List UInt8)
  | [] => some []
  | [_] => none
  | high :: low :: rest => do
      let h ← value? high
      let l ← value? low
      let bytes ← bytes? rest
      some (UInt8.ofNat (16 * h + l) :: bytes)

/-- `hex.DecodeString` -/
def decode (text : String) : Option (List UInt8) := bytes? text.toList

private theorem nibbles_lt (b : UInt8) : b.toNat / 16 < 16 ∧ b.toNat % 16 < 16 := by
  have := b.toNat_lt
  omega

theorem bytes?_digits (bytes : List UInt8) : bytes? (digits bytes) = some bytes := by
  induction bytes with
  | nil => rfl
  | cons b bytes ih =>
    obtain ⟨hhigh, hlow⟩ := nibbles_lt b
    have hb : UInt8.ofNat (16 * (b.toNat / 16) + b.toNat % 16) = b := by
      rw [Nat.div_add_mod, UInt8.ofNat_toNat]
    simp only [digits, bytes?, digit_spec hhigh, digit_spec hlow, ih, Option.bind_eq_bind,
      Option.bind_some, hb]

@[simp] theorem decode_encode (bytes : List UInt8) : decode (encode bytes) = some bytes := by
  rw [decode, encode, String.toList_ofList, bytes?_digits]

theorem isSpace_of_mem_digits {bytes : List UInt8} {c : Char} (h : c ∈ digits bytes) :
    Text.isSpace c = false := by
  induction bytes with
  | nil => exact absurd h List.not_mem_nil
  | cons b _ ih =>
    obtain ⟨hhigh, hlow⟩ := nibbles_lt b
    rcases List.mem_cons.mp h with rfl | h
    · exact (digit_spec hhigh).2.1
    rcases List.mem_cons.mp h with rfl | h
    · exact (digit_spec hlow).2.1
    · exact ih h

@[simp] theorem trimSpace_encode (bytes : List UInt8) :
    Text.trimSpace (encode bytes) = encode bytes :=
  Text.trimSpace_of_forall fun c hc => isSpace_of_mem_digits (by simpa [encode] using hc)

theorem utf8ByteSize_encode (bytes : List UInt8) :
    (encode bytes).utf8ByteSize = 2 * bytes.length := by
  rw [encode, String.utf8ByteSize_ofList]
  induction bytes with
  | nil => rfl
  | cons b _ ih =>
    obtain ⟨hhigh, hlow⟩ := nibbles_lt b
    simp only [digits, String.utf8Len_cons, ih, digit_spec hhigh, digit_spec hlow,
      List.length_cons]
    omega

theorem length_le_of_decode {text : String} {bytes : List UInt8} (h : decode text = some bytes) :
    2 * bytes.length ≤ text.utf8ByteSize := by
  rw [← String.utf8Len_toList]
  unfold decode at h
  generalize text.toList = l at h
  induction l using bytes?.induct generalizing bytes with
  | case1 =>
    cases h
    exact Nat.zero_le _
  | case2 => cases h
  | case3 high low _ ih =>
    simp only [bytes?, Option.bind_eq_bind, Option.bind_eq_some_iff] at h
    obtain ⟨_, -, _, -, bytes', hbytes, ⟨⟩⟩ := h
    have := ih hbytes
    have := high.utf8Size_pos
    have := low.utf8Size_pos
    simp only [String.utf8Len_cons, List.length_cons]
    omega

example : encode [0, 0xab] = "00ab" := by decide
example : decode "00AB" = some [0, 0xab] := by decide

end Athena.Lib.Hex
