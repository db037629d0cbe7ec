import Mathlib.Data.List.DropRight
import Mathlib.Tactic.Ring

/-!
# Text

The two normalisations of the Go standard library that the program applies to texts,
`strings.TrimSpace` and `strings.ToLower`, and the texts that encode a public key.

`toLower` follows the Unicode simple mapping only where the result is an ASCII
letter.  That is enough for a comparison with an ASCII constant: a character
outside the table below is mapped to no ASCII letter by either function.
-/

namespace Athena.Lib.Text

def isSpace (c : Char) : Bool :=
  c = ' ' || (9 ≤ c.toNat && c.toNat ≤ 13) || c.toNat = 0x85 || c.toNat = 0xa0 ||
    c.toNat = 0x1680 || (0x2000 ≤ c.toNat && c.toNat ≤ 0x200a) || c.toNat = 0x2028 ||
    c.toNat = 0x2029 || c.toNat = 0x202f || c.toNat = 0x205f || c.toNat = 0x3000

def isControl (c : Char) : Bool := c.toNat < 0x20 || (0x7f ≤ c.toNat && c.toNat < 0xa0)

def trimSpace (s : String) : String :=
  String.ofList ((s.toList.dropWhile isSpace).rdropWhile isSpace)

/-- The lower case of a character, where that is an ASCII letter.  The dotted
capital I and the Kelvin sign are the only characters beyond ASCII whose simple
lower case is in ASCII. -/
def lowerChar (c : Char) : Char :=
  if c.toNat = 0x130 then 'i' else if c.toNat = 0x212a then 'k' else c.toLower

/-- `strings.ToLower`, for comparison with ASCII constants. -/
def toLower (s : String) : String := String.ofList (s.toList.map lowerChar)

private theorem dropWhile_rdropWhile_dropWhile (p : Char → Bool) (l : List Char) :
    ((l.dropWhile p).rdropWhile p).dropWhile p = (l.dropWhile p).rdropWhile p := by
  rw [List.dropWhile_eq_self_iff]
  intro hpos
  have hpre := List.rdropWhile_prefix p (l := l.dropWhile p)
  rw [hpre.getElem hpos]
  exact List.dropWhile_get_zero_not p l (hpos.trans_le hpre.length_le)

@[simp] theorem trimSpace_trimSpace (s : String) : trimSpace (trimSpace s) = trimSpace s := by
  simp only [trimSpace, String.toList_ofList]
  rw [dropWhile_rdropWhile_dropWhile, List.rdropWhile_idempotent]

theorem trimSpace_of_forall {s : String} (h : ∀ c ∈ s.toList, isSpace c = false) :
    trimSpace s = s := by
  have hdrop : s.toList.dropWhile isSpace = s.toList := by
    cases hl : s.toList with
    | nil => rfl
    | cons c => exact List.dropWhile_cons_of_neg (by simp [h c (by simp [hl])])
  have hrdrop : s.toList.rdropWhile isSpace = s.toList := by
    rw [List.rdropWhile_eq_self_iff]
    exact fun hne => by simp [h _ (List.getLast_mem hne)]
  rw [trimSpace, hdrop, hrdrop, String.ofList_toList]

/-! ## Base58 -/

def base58Alphabet : List Char :=
  "123456789ABCDEFGHJKLMNPQRSTUVWXYZabcdefghijkmnopqrstuvwxyz".toList

def base58Value (digits : List Char) : ℕ :=
  digits.foldl (fun n c => 58 * n + base58Alphabet.idxOf c) 0

/-- The text encodes 32 bytes in base 58, where each leading `1` stands for a zero byte. -/
def isBase58Key (s : String) : Bool :=
  let zeros := (s.toList.takeWhile (· = '1')).length
  let n := base58Value s.toList
  s.toList.all (base58Alphabet.contains ·) && zeros ≤ 32 &&
    if zeros = 32 then n = 0 else 256 ^ (31 - zeros) ≤ n && n < 256 ^ (32 - zeros)

end Athena.Lib.Text
