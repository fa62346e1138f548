import KGuardian.TextScan
import Mathlib.Data.List.TakeWhile
import Mathlib.Data.Nat.Log
import Mathlib.Data.String.Basic

/-!
Text in the TypeScript half of the repository. Reading numbers, trimming and the
default sort follow the language; upper case and collation rest on tables of the
runtime, so they are parameters with the documented behaviour as hypotheses.
-/
namespace KGuardian.JsText

open TextScan

/-- The white space and line terminators of the language. -/
def isSpace (c : Char) : Bool := (isWhitespace c && c ≠ '\u0085') || c = '\ufeff'

def trimSpace (s : List Char) : List Char :=
  ((s.dropWhile isSpace).reverse.dropWhile isSpace).reverse

/-- The UTF-16 code units of a character. -/
def codeUnits (c : Char) : List ℕ :=
  if c.toNat < 0x10000 then [c.toNat]
  else [0xd800 + (c.toNat - 0x10000) / 0x400, 0xdc00 + (c.toNat - 0x10000) % 0x400]

/-- The order of the default sort, by code units. -/
def unitsLe (s t : String) : Bool := s.toList.flatMap codeUnits ≤ t.toList.flatMap codeUnits

/-- A finite number as it is written: `mantissa * 10 ^ exponent`, with a sign. -/
structure Numeral where
  negative : Bool
  mantissa : ℕ
  exponent : ℤ
  deriving DecidableEq

/-- The exponent after a mantissa, which may be absent. -/
def exponentPart : List Char → Option ℤ
  | [] => some 0
  | c :: rest =>
      if c = 'e' ∨ c = 'E' then
        match rest with
        | '-' :: ds => (parseDigits ds).map fun n => -(n : ℤ)
        | '+' :: ds => (parseDigits ds).map fun n => (n : ℤ)
        | ds => (parseDigits ds).map fun n => (n : ℤ)
      else none

/-- The digits after a decimal point, and what follows them. -/
def fractionPart : List Char → List Char × List Char
  | '.' :: rest => (rest.takeWhile isDigit, rest.dropWhile isDigit)
  | rest => ([], rest)

def decimalLiteral (negative : Bool) (s : List Char) : Option Numeral :=
  let whole := s.takeWhile isDigit
  let fraction := fractionPart (s.dropWhile isDigit)
  (parseDigits (whole ++ fraction.1)).bind fun m =>
    (exponentPart fraction.2).map fun e => ⟨negative, m, e - fraction.1.length⟩

/-- The value of a digit in bases up to sixteen. -/
def hexVal (c : Char) : Option ℕ :=
  if isDigit c then some (digitVal c)
  else if 'a' ≤ c ∧ c ≤ 'f' then some (c.toNat - 'a'.toNat + 10)
  else if 'A' ≤ c ∧ c ≤ 'F' then some (c.toNat - 'A'.toNat + 10)
  else none

def radixDigits (radix : ℕ) : ℕ → List Char → Option ℕ
  | acc, [] => some acc
  | acc, c :: rest =>
      match hexVal c with
      | some d => if d < radix then radixDigits radix (acc * radix + d) rest else none
      | none => none

def radixLiteral (radix : ℕ) (s : List Char) : Option Numeral :=
  if s = [] then none else (radixDigits radix 0 s).map fun n => ⟨false, n, 0⟩

/-- The conversion `Number(s)` before rounding. There is no numeral for `NaN`
and the infinities. -/
def stringToNumber (s : String) : Option Numeral :=
  match trimSpace s.toList with
  | [] => some ⟨false, 0, 0⟩
  | '0' :: 'x' :: rest | '0' :: 'X' :: rest => radixLiteral 16 rest
  | '0' :: 'o' :: rest | '0' :: 'O' :: rest => radixLiteral 8 rest
  | '0' :: 'b' :: rest | '0' :: 'B' :: rest => radixLiteral 2 rest
  | '-' :: rest => decimalLiteral true rest
  | '+' :: rest => decimalLiteral false rest
  | rest => decimalLiteral false rest

/-- The double nearest to `num / den` is the integer `n`, for `0 < n < 2 ^ 53`:
they are half a step apart or less. Steps below a power of two are half as long,
and ties go to `n`, whose last bit is even while `n` is small. -/
def roundsTo (num den n : ℕ) : Bool :=
  (num - n * den) * 2 ^ (53 - n.log2) ≤ den &&
    (n * den - num) * 2 ^ (if n = 2 ^ n.log2 then 54 - n.log2 else 53 - n.log2) ≤ den

/-- The positive integer that a numeral stands for after rounding to a double,
among those below `2 ^ 17`. -/
def Numeral.toInteger (v : Numeral) : Option ℕ :=
  let num := v.mantissa * 10 ^ v.exponent.toNat
  let den := 10 ^ (-v.exponent).toNat
  let n := (2 * num + den) / (2 * den)
  if v.negative || n = 0 || 2 ^ 17 ≤ n then none
  else if roundsTo num den n then some n else none

/-- What the runtime brings: upper case and the collation of its locale. -/
structure Runtime where
  toUpperCase : String → String
  localeCompare : String → String → ℤ

/-- Printable ASCII. -/
def isPrintable (c : Char) : Bool := ' ' ≤ c && c ≤ '~'

/-- The documented behaviour: a consistent comparison that tells printable ASCII
texts apart, orders digits and full stops as ASCII does and protocol names
alphabetically; and upper case as ASCII has it on ASCII texts. -/
structure Runtime.Documented (js : Runtime) : Prop where
  upperAscii : ∀ s : String, (∀ c ∈ s.toList, c.toNat < 128) →
    js.toUpperCase s = String.ofList (s.toList.map Char.toUpper)
  total : ∀ a b, js.localeCompare a b ≤ 0 ∨ js.localeCompare b a ≤ 0
  trans : ∀ a b c, js.localeCompare a b ≤ 0 → js.localeCompare b c ≤ 0 →
    js.localeCompare a c ≤ 0
  printable : ∀ a b : String, a.toList.all isPrintable → b.toList.all isPrintable →
    js.localeCompare a b ≤ 0 → js.localeCompare b a ≤ 0 → a = b
  addresses : ∀ a b : String, a.toList.all (fun c => isDigit c || c = '.') →
    b.toList.all (fun c => isDigit c || c = '.') → (js.localeCompare a b ≤ 0 ↔ a ≤ b)
  protocols : ∀ a ∈ ["SCTP", "TCP", "UDP"], ∀ b ∈ ["SCTP", "TCP", "UDP"],
    (js.localeCompare a b ≤ 0 ↔ a ≤ b)

/-- A runtime for ASCII, in the order of the character codes. -/
def asciiRuntime : Runtime where
  toUpperCase s := String.ofList (s.toList.map Char.toUpper)
  localeCompare a b := if a < b then -1 else if a = b then 0 else 1

theorem asciiRuntime_compare (a b : String) : asciiRuntime.localeCompare a b ≤ 0 ↔ a ≤ b := by
  rw [asciiRuntime]
  rcases lt_trichotomy a b with hlt | rfl | hgt
  · simp [hlt, hlt.le]
  · simp
  · simp [hgt.not_gt, hgt.ne', hgt.not_ge]

theorem asciiRuntime_documented : asciiRuntime.Documented where
  upperAscii _ _ := rfl
  total a b := by
    simpa only [asciiRuntime_compare] using le_total a b
  trans a b c := by
    simpa only [asciiRuntime_compare] using le_trans
  printable a b _ _ := by
    simpa only [asciiRuntime_compare] using le_antisymm
  addresses a b _ _ := asciiRuntime_compare a b
  protocols a _ b _ := asciiRuntime_compare a b

/-- The number that the digits at the front make. -/
def leadingDigits (radix : ℕ) (s : List Char) : Option ℕ :=
  let digits := s.takeWhile fun c => (hexVal c).any fun d => d < radix
  if digits = [] then none else radixDigits radix 0 digits

def unsignedInt : List Char → Option ℕ
  | '0' :: 'x' :: rest | '0' :: 'X' :: rest => leadingDigits 16 rest
  | rest => leadingDigits 10 rest

/-- The function `parseInt`, without a radix and before rounding. -/
def parseInt (s : String) : Option ℤ :=
  match s.toList.dropWhile isSpace with
  | '-' :: rest => (unsignedInt rest).map fun n : ℕ => -(n : ℤ)
  | '+' :: rest => (unsignedInt rest).map fun n : ℕ => (n : ℤ)
  | rest => (unsignedInt rest).map fun n : ℕ => (n : ℤ)

/-- Lower case as the runtime has it. On ASCII texts it is that of ASCII. -/
structure LowerCase where
  toLowerCase : String → String
  ascii : ∀ s : String, (∀ c ∈ s.toList, c.toNat < 128) →
    toLowerCase s = String.ofList (s.toList.map Char.toLower)

def asciiLowerCase : LowerCase where
  toLowerCase s := String.ofList (s.toList.map Char.toLower)
  ascii _ _ := rfl

/-! Plain decimals are read as they are written. -/

theorem all_isDigit_of_parseDigits {s : List Char} {n : ℕ} (h : parseDigits s = some n) :
    s ≠ [] ∧ ∀ c ∈ s, isDigit c = true := by
  cases s with
  | nil => exact absurd h (by simp [parseDigits])
  | cons c rest =>
      refine ⟨List.cons_ne_nil _ _, ?_⟩
      simp only [parseDigits] at h
      by_contra hall
      rw [if_neg fun hcase => hall (List.all_eq_true.mp hcase)] at h
      exact absurd h (by simp)

theorem decimalLiteral_digits {s : List Char} {n : ℕ} (h : parseDigits s = some n) :
    decimalLiteral false s = some ⟨false, n, 0⟩ := by
  have hdigits := (all_isDigit_of_parseDigits h).2
  have htake : s.takeWhile isDigit = s := List.takeWhile_eq_self_iff.mpr hdigits
  have hdrop : s.dropWhile isDigit = [] := List.dropWhile_eq_nil_iff.mpr hdigits
  simp [decimalLiteral, htake, hdrop, fractionPart, h, exponentPart]

theorem isSpace_of_isDigit {c : Char} (h : isDigit c = true) : isSpace c = false := by
  simp [isDigit, isSpace, isWhitespace, Char.le_def, UInt32.le_iff_toNat_le, Char.ext_iff,
    ← UInt32.toNat_inj] at h ⊢
  omega

theorem digitVal_lt {c : Char} (h : isDigit c = true) : digitVal c < 10 := by
  simp [isDigit, digitVal, Char.le_def, UInt32.le_iff_toNat_le] at h ⊢
  omega

theorem parseDigits_of_isDigit {s : List Char} (hne : s ≠ []) (h : ∀ c ∈ s, isDigit c = true) :
    parseDigits s = some (s.foldl (fun acc c => acc * 10 + digitVal c) 0) := by
  cases s with
  | nil => exact absurd rfl hne
  | cons c rest => rw [parseDigits, if_pos (List.all_eq_true.mpr h)]; simp

theorem parseDigits_toString (n : ℕ) : parseDigits (toString n).toList = some n := by
  rw [Nat.toString_eq_ofList_toDigits, String.toList_ofList]
  have hdigits : ∀ c ∈ Nat.toDigits 10 n, isDigit c = true := by
    intro c hc
    exact Nat.isDigit_of_mem_toDigits (by decide) (by decide) hc
  rw [parseDigits_of_isDigit Nat.toDigits_ne_nil hdigits]
  conv_rhs => rw [← Nat.ofDigitChars_ten_toDigits (n := n), Nat.ofDigitChars_eq_foldl]
  simp only [digitVal, Nat.mul_comm]

theorem dropWhile_isSpace_eq_self {s : List Char} (h : ∀ c ∈ s, isSpace c = false) :
    s.dropWhile isSpace = s := by
  cases s with
  | nil => rfl
  | cons c rest => simp [h c List.mem_cons_self]

theorem trimSpace_eq_self {s : List Char} (h : ∀ c ∈ s, isSpace c = false) : trimSpace s = s := by
  have hreverse : ∀ c ∈ s.reverse, isSpace c = false := fun c hc => h c (List.mem_reverse.mp hc)
  rw [trimSpace, dropWhile_isSpace_eq_self h, dropWhile_isSpace_eq_self hreverse,
    List.reverse_reverse]

theorem trimSpace_digits {s : List Char} (h : ∀ c ∈ s, isDigit c = true) : trimSpace s = s :=
  trimSpace_eq_self fun c hc => isSpace_of_isDigit (h c hc)

theorem stringToNumber_digits {s : String} {n : ℕ} (h : parseDigits s.toList = some n) :
    stringToNumber s = some ⟨false, n, 0⟩ := by
  obtain ⟨hne, hdigits⟩ := all_isDigit_of_parseDigits h
  have hliteral := decimalLiteral_digits h
  rw [stringToNumber, trimSpace_digits hdigits]
  split
  all_goals simp_all [isDigit]

theorem toInteger_digits {n : ℕ} (hpos : 0 < n) (hlt : n < 2 ^ 17) :
    (⟨false, n, 0⟩ : Numeral).toInteger = some n := by
  have hround : (2 * n + 1) / 2 = n := by omega
  simp [Numeral.toInteger, hround, hpos.ne', roundsTo]
  omega

theorem radixDigits_digits {s : List Char} (h : ∀ c ∈ s, isDigit c = true) (acc : ℕ) :
    radixDigits 10 acc s = some (s.foldl (fun acc c => acc * 10 + digitVal c) acc) := by
  induction s generalizing acc with
  | nil => rfl
  | cons c rest ih =>
      obtain ⟨hc, hrest⟩ := List.forall_mem_cons.mp h
      rw [radixDigits, hexVal, if_pos hc]
      simp only [digitVal_lt hc, if_true]
      exact ih hrest _

theorem unsignedInt_digits {s : List Char} {n : ℕ} (h : parseDigits s = some n) :
    unsignedInt s = some n := by
  obtain ⟨hne, hdigits⟩ := all_isDigit_of_parseDigits h
  have htake : s.takeWhile (fun c => (hexVal c).any fun d => d < 10) = s := by
    rw [List.takeWhile_eq_self_iff]
    intro c hc
    simp [hexVal, hdigits c hc, digitVal_lt (hdigits c hc)]
  rw [unsignedInt.eq_3]
  · rw [leadingDigits, htake, if_neg hne, radixDigits_digits hdigits, ← h,
      parseDigits_of_isDigit hne hdigits]
  · rintro rest rfl
    exact absurd (hdigits 'x' (.tail _ (.head _))) (by decide)
  · rintro rest rfl
    exact absurd (hdigits 'X' (.tail _ (.head _))) (by decide)

theorem parseInt_digits {s : String} {n : ℕ} (h : parseDigits s.toList = some n) :
    parseInt s = some (n : ℤ) := by
  obtain ⟨-, hdigits⟩ := all_isDigit_of_parseDigits h
  have hspace : s.toList.dropWhile isSpace = s.toList :=
    dropWhile_isSpace_eq_self fun c hc => isSpace_of_isDigit (hdigits c hc)
  rw [parseInt, hspace]
  split
  · rename_i heq
    exact absurd (hdigits '-' (heq ▸ List.mem_cons_self)) (by decide)
  · rename_i heq
    exact absurd (hdigits '+' (heq ▸ List.mem_cons_self)) (by decide)
  · rw [unsignedInt_digits h, Option.map_some]

end KGuardian.JsText
