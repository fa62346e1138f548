import KGuardian.BlockYaml
import KGuardian.Patterns

/-!
How YAML 1.1 resolves plain text: by the words and the patterns of its types null, bool, int,
float and timestamp. What matches none of them is a string.
-/
namespace KGuardian.PlainScalars

open BlockYaml Patterns RegularExpression

def nullWords : List (List Char) := ["null", "Null", "NULL"].map String.toList

def trueWords : List (List Char) :=
  ["y", "Y", "yes", "Yes", "YES", "true", "True", "TRUE", "on", "On", "ON"].map String.toList

def falseWords : List (List Char) :=
  ["n", "N", "no", "No", "NO", "false", "False", "FALSE", "off", "Off", "OFF"].map String.toList

def digitChars : List Char := "0123456789".toList

def digit : RegularExpression Char := oneOf digitChars

def positive : RegularExpression Char := oneOf "123456789".toList

def digitsFrom : RegularExpression Char := (oneOf ('_' :: digitChars)).star

def decimal : RegularExpression Char := char '0' + positive * digitsFrom

def binary : RegularExpression Char := char '0' * (char 'b' * atLeastOne (oneOf "01_".toList))

def octal : RegularExpression Char := char '0' * atLeastOne (oneOf "01234567_".toList)

def hexadecimal : RegularExpression Char :=
  char '0' * (char 'x' * atLeastOne (oneOf ("_abcdefABCDEF".toList ++ digitChars)))

/-- A part of a number to the base of sixty. -/
def sixtieth : RegularExpression Char :=
  char ':' * (optional (oneOf "012345".toList) * digit)

def sexagesimal : RegularExpression Char := positive * (digitsFrom * atLeastOne sixtieth)

def sign : RegularExpression Char := optional (oneOf ['+', '-'])

def exponent : RegularExpression Char := oneOf ['e', 'E'] * (oneOf ['+', '-'] * atLeastOne digit)

def spelled (words : List String) : RegularExpression Char :=
  (words.map fun w => (w.toList.map char).foldr (· * ·) 1).foldr (· + ·) 0

/-- Numbers with a fraction, to either base, infinities and what is no number. -/
def float : RegularExpression Char :=
  sign * (optional (digit * digitsFrom) * (char '.' * ((oneOf ('.' :: digitChars)).star *
      optional exponent))) +
    sign * (digit * (digitsFrom * (atLeastOne sixtieth * (char '.' * digitsFrom)))) +
    sign * spelled [".inf", ".Inf", ".INF"] + spelled [".nan", ".NaN", ".NAN"]

def oneOrTwo : RegularExpression Char := digit * optional digit

def zone : RegularExpression Char :=
  char 'Z' + oneOf ['+', '-'] * (oneOrTwo * optional (char ':' * (digit * digit)))

def clock : RegularExpression Char :=
  oneOrTwo * (char ':' * (digit * (digit * (char ':' * (digit * (digit *
    (optional (char '.' * digit.star) *
      optional ((oneOf [' ', '\t']).star * zone))))))))

/-- A date, or a date and a time. -/
def timestamp : RegularExpression Char :=
  digit ^ 4 * (char '-' * (digit ^ 2 * (char '-' * digit ^ 2))) +
    digit ^ 4 * (char '-' * (oneOrTwo * (char '-' * (oneOrTwo *
      ((oneOf ['T', 't'] + atLeastOne (oneOf [' ', '\t'])) * clock)))))

/-- The value and the merge key have types of their own. -/
def special : RegularExpression Char := spelled ["=", "<<"]

def digitValue (c : Char) : ℕ :=
  if c.isDigit then c.toNat - 48 else if c.isLower then c.toNat - 87 else c.toNat - 55

def inBase (base : ℕ) (text : List Char) : ℕ :=
  (text.filter fun c => c != '_').foldl (fun n c => base * n + digitValue c) 0

def natOf (text : List Char) : Option ℕ :=
  if decimal.rmatch text then some (inBase 10 text)
  else if binary.rmatch text then some (inBase 2 (text.drop 2))
  else if octal.rmatch text then some (inBase 8 text)
  else if hexadecimal.rmatch text then some (inBase 16 (text.drop 2))
  else if sexagesimal.rmatch text then
    some ((text.splitOn ':').foldl (fun n part => 60 * n + inBase 10 part) 0)
  else none

def intOf : List Char → Option ℤ
  | '-' :: rest => (natOf rest).map fun n : ℕ => -(n : ℤ)
  | '+' :: rest => (natOf rest).map fun n : ℕ => (n : ℤ)
  | text => (natOf text).map fun n : ℕ => (n : ℤ)

def wordOf (text : List Char) : Scalar :=
  if nullWords.contains text then .null
  else if trueWords.contains text then .bool true
  else if falseWords.contains text then .bool false
  else .str text

def resolve : List Char → Scalar
  | [] => .null
  | ['~'] => .null
  | c :: rest =>
      if c.isAlpha then wordOf (c :: rest)
      else match intOf (c :: rest) with
        | some n => .int n
        | none =>
            if (float + timestamp + special).rmatch (c :: rest) then .other (c :: rest)
            else .str (c :: rest)

/-! Decimal numbers. -/

theorem digitChar_spec {d : ℕ} (h : d < 10) :
    digitValue (Nat.digitChar d) = d ∧ Nat.digitChar d ∈ digitChars ∧ Nat.digitChar d ≠ '_' ∧
      (0 < d → Nat.digitChar d ∈ "123456789".toList) := by
  have hall : ∀ d : Fin 10, digitValue (Nat.digitChar d) = d ∧
      Nat.digitChar d ∈ digitChars ∧ Nat.digitChar d ≠ '_' ∧
      (0 < d.val → Nat.digitChar d ∈ "123456789".toList) := by
    decide
  exact hall ⟨d, h⟩

theorem inBase_append_digit (text : List Char) {d : ℕ} (h : d < 10) :
    inBase 10 (text ++ [Nat.digitChar d]) = 10 * inBase 10 text + d := by
  obtain ⟨hvalue, -, hline, -⟩ := digitChar_spec h
  have hkept : [Nat.digitChar d].filter (fun c => c != '_') = [Nat.digitChar d] := by
    simp [hline]
  rw [inBase, List.filter_append, hkept, List.foldl_append, List.foldl_cons, List.foldl_nil,
    hvalue, inBase]

theorem inBase_toDigits (n : ℕ) : inBase 10 (Nat.toDigits 10 n) = n := by
  induction n using Nat.strongRecOn with
  | ind n ih =>
      rw [Nat.toDigits_eq_if (by omega)]
      split
      · rename_i hsmall
        have hdigit := inBase_append_digit [] hsmall
        rw [List.nil_append] at hdigit
        rw [hdigit]
        exact Nat.zero_add n
      · rw [inBase_append_digit _ (Nat.mod_lt n (by omega)), ih (n / 10) (by omega)]
        omega

/-- The first digit of a number is not zero. -/
theorem toDigits_positive {n : ℕ} (h : 0 < n) : ∃ c rest, Nat.toDigits 10 n = c :: rest ∧
    c ∈ "123456789".toList ∧ ∀ d ∈ rest, d ∈ '_' :: digitChars := by
  induction n using Nat.strongRecOn with
  | ind n ih =>
      rw [Nat.toDigits_eq_if (by omega)]
      split
      · rename_i hsmall
        exact ⟨_, [], rfl, (digitChar_spec hsmall).2.2.2 h, fun d hd => by cases hd⟩
      · obtain ⟨c, rest, hdigits, hc, hrest⟩ := ih (n / 10) (by omega) (by omega)
        have hlast := (digitChar_spec (Nat.mod_lt n (show 0 < 10 by omega))).2.1
        refine ⟨c, rest ++ [Nat.digitChar (n % 10)], by rw [hdigits]; rfl, hc, ?_⟩
        intro d hd
        obtain hold | hnew := List.mem_append.mp hd
        · exact hrest d hold
        · rw [List.mem_singleton.mp hnew]
          exact List.mem_cons_of_mem _ hlast

theorem decimal_toDigits (n : ℕ) : decimal.rmatch (Nat.toDigits 10 n) = true := by
  rw [rmatch_iff_matches', decimal, matches'_add, Language.mem_add]
  by_cases hzero : n = 0
  · subst hzero
    exact .inl rfl
  · obtain ⟨c, rest, hdigits, hc, hrest⟩ := toDigits_positive (Nat.pos_of_ne_zero hzero)
    rw [hdigits]
    exact .inr (mem_mul.mpr ⟨[c], mem_oneOf.mpr ⟨c, hc, rfl⟩, rest, mem_star_oneOf.mpr hrest, rfl⟩)

theorem natOf_toDigits (n : ℕ) : natOf (Nat.toDigits 10 n) = some n := by
  rw [natOf, if_pos (decimal_toDigits n), inBase_toDigits]

/-- The number of an integer starts with a sign or a digit. -/
theorem isDigit_of_toDigits {n : ℕ} {c : Char} {rest : List Char}
    (h : Nat.toDigits 10 n = c :: rest) : c.isDigit = true := by
  apply Nat.isDigit_of_mem_toDigits (b := 10) (n := n) (by omega) (by omega)
  rw [h]
  exact List.mem_cons_self

theorem intOf_intText (n : ℤ) : intOf (intText n) = some n := by
  unfold intText
  split
  · rw [intOf, natOf_toDigits, Option.map_some]
    congr 1
    omega
  · rw [intOf, natOf_toDigits, Option.map_some]
    · congr 1
      omega
    · intro rest h
      exact absurd (isDigit_of_toDigits h) (by decide)
    · intro rest h
      exact absurd (isDigit_of_toDigits h) (by decide)

theorem not_isAlpha_of_isDigit {c : Char} (h : c.isDigit = true) : c.isAlpha = false := by
  have hnine : c.toNat ≤ 57 := (Char.isDigit_iff_toNat.mp h).2
  rw [← Bool.not_eq_true]
  intro halpha
  have hletter := toNat_of_isAlpha halpha
  omega

theorem intText_cons (n : ℤ) : ∃ c rest, intText n = c :: rest ∧ c.isAlpha = false ∧ c ≠ '~' := by
  obtain ⟨d, rest, hdigits⟩ := List.exists_cons_of_ne_nil (toDigits_ne_nil n.natAbs)
  unfold intText
  split
  · exact ⟨'-', _, rfl, by decide, by decide⟩
  · refine ⟨d, rest, hdigits, ?_, ?_⟩
    · exact not_isAlpha_of_isDigit (isDigit_of_toDigits hdigits)
    · rintro rfl
      exact absurd (isDigit_of_toDigits hdigits) (by decide)

/-! The types together. -/

theorem resolve_alpha {c : Char} (h : c.isAlpha = true) (rest : List Char) :
    resolve (c :: rest) = wordOf (c :: rest) := by
  unfold resolve
  split
  · rename_i heq
    cases heq
  · rename_i heq
    obtain ⟨rfl, -⟩ := List.cons.inj heq
    cases h
  · rename_i heq
    obtain ⟨rfl, rfl⟩ := List.cons.inj heq
    rw [if_pos h]

theorem resolve_number {c : Char} {rest : List Char} (halpha : c.isAlpha = false)
    (htilde : c ≠ '~') {n : ℤ} (h : intOf (c :: rest) = some n) :
    resolve (c :: rest) = .int n := by
  unfold resolve
  split
  · rename_i heq
    cases heq
  · rename_i heq
    exact absurd (List.cons.inj heq).1 htilde
  · rename_i heq
    obtain ⟨rfl, rfl⟩ := List.cons.inj heq
    rw [if_neg (by rw [halpha]; decide), h]

theorem wordOf_str {text s : List Char} (h : wordOf text = .str s) : s = text := by
  unfold wordOf at h
  split at h
  · cases h
  · split at h
    · cases h
    · split at h
      · cases h
      · exact (Scalar.str.inj h).symm

theorem resolve_str {text s : List Char} (h : resolve text = .str s) : s = text := by
  unfold resolve at h
  split at h
  · cases h
  · cases h
  · split at h
    · exact wordOf_str h
    · split at h
      · cases h
      · split at h
        · cases h
        · exact (Scalar.str.inj h).symm

theorem wordOf_other {text : List Char} (h : text ∉ reservedWords) : wordOf text = .str text := by
  have hwords : ∀ w ∈ nullWords ++ trueWords ++ falseWords, w ∈ reservedWords := by decide
  have hnot : ∀ l : List (List Char), (∀ w ∈ l, w ∈ nullWords ++ trueWords ++ falseWords) →
      l.contains text = false := by
    intro l hl
    rw [List.contains_eq_mem, decide_eq_false_iff_not]
    exact fun hmem => h (hwords text (hl text hmem))
  rw [wordOf, hnot nullWords fun w hw => by simp [hw], hnot trueWords fun w hw => by simp [hw],
    hnot falseWords fun w hw => by simp [hw]]
  rfl

/-- The resolution of YAML 1.1. -/
def yaml11 : Resolution where
  plain := resolve
  empty := rfl
  text := fun _ _ h => resolve_str h
  number := by
    intro n
    obtain ⟨c, rest, htext, halpha, htilde⟩ := intText_cons n
    have hint := intOf_intText n
    rw [htext] at hint ⊢
    exact resolve_number halpha htilde hint
  truth := by
    intro b
    cases b with
    | true => rfl
    | false => rfl
  word := by
    intro c rest halpha hword
    rw [resolve_alpha halpha, wordOf_other hword]

end KGuardian.PlainScalars
