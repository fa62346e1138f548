import Mathlib.Algebra.Group.Nat.Defs
import Mathlib.Algebra.Ring.Int.Defs
import Mathlib.Data.List.Basic

/-!
Reading and comparing text as the standard libraries of Go and Rust do. Case
folding is only covered against ASCII text: a rune outside ASCII folds to an
ASCII letter in two cases, the long s and the Kelvin sign.
-/
namespace KGuardian.TextScan

def foldRune (c : Char) : Char :=
  if c = '\u017f' then 'S' else if c = '\u212a' then 'K' else c.toUpper

def equalFold (s t : String) : Bool :=
  s.toList.map foldRune = t.toList.map foldRune

@[simp] theorem equalFold_self (s : String) : equalFold s s = true := by
  simp [equalFold]

def isDigit (c : Char) : Bool := '0' ≤ c && c ≤ '9'

def digitVal (c : Char) : ℕ := c.toNat - '0'.toNat

/-- The value of a non-empty string of digits. -/
def parseDigits : List Char → Option ℕ
  | [] => none
  | s => if s.all isDigit then some (s.foldl (fun acc c => acc * 10 + digitVal c) 0) else none

/-- A decimal integer with an optional sign and no more than `bits` bits, as read
by `strconv.Atoi` and by `str::parse` at a signed type. -/
def parseSigned (bits : ℕ) (s : String) : Option ℤ :=
  match s.toList with
  | '-' :: rest =>
      (parseDigits rest).bind fun n => if n ≤ 2 ^ (bits - 1) then some (-(n : ℤ)) else none
  | '+' :: rest =>
      (parseDigits rest).bind fun n => if n < 2 ^ (bits - 1) then some (n : ℤ) else none
  | rest => (parseDigits rest).bind fun n => if n < 2 ^ (bits - 1) then some (n : ℤ) else none

/-- The characters with the Unicode property White_Space. -/
def isWhitespace (c : Char) : Bool :=
  ('\u0009' ≤ c && c ≤ '\u000d') || c = ' ' || c = '\u0085' || c = '\u00a0' || c = '\u1680' ||
    ('\u2000' ≤ c && c ≤ '\u200a') || c = '\u2028' || c = '\u2029' || c = '\u202f' ||
    c = '\u205f' || c = '\u3000'

def trim (s : List Char) : List Char :=
  ((s.dropWhile isWhitespace).reverse.dropWhile isWhitespace).reverse

end KGuardian.TextScan
