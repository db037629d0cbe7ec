import Mathlib.Logic.Basic

/-!
# Texts as bytes

Which byte strings are texts in UTF-8: no sequence is longer than it needs to be, none encodes
half of a surrogate pair, and none is beyond the last code point.  A text column of a database
takes these, but not the byte zero.
-/

namespace Athena.Lib.Utf8

def isContinuation (b : UInt8) : Bool := 0x80 ≤ b && b ≤ 0xbf

def isSecond (a b : UInt8) : Bool :=
  if a = 0xe0 then 0xa0 ≤ b && b ≤ 0xbf
  else if a = 0xed then 0x80 ≤ b && b ≤ 0x9f
  else if a = 0xf0 then 0x90 ≤ b && b ≤ 0xbf
  else if a = 0xf4 then 0x80 ≤ b && b ≤ 0x8f
  else isContinuation b

def valid : List UInt8 → Bool
  | [] => true
  | a :: rest =>
    if a < 0x80 then valid rest
    else match rest with
      | [] => false
      | b :: rest =>
        if 0xc2 ≤ a && a ≤ 0xdf then isContinuation b && valid rest
        else match rest with
          | [] => false
          | c :: rest =>
            if 0xe0 ≤ a && a ≤ 0xef then isSecond a b && isContinuation c && valid rest
            else match rest with
              | [] => false
              | d :: rest =>
                0xf0 ≤ a && a ≤ 0xf4 && isSecond a b && isContinuation c &&
                  isContinuation d && valid rest

def storable (bytes : List UInt8) : Bool := valid bytes && !bytes.contains 0

end Athena.Lib.Utf8
