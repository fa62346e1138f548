import Mathlib.Computability.RegularExpressions

/-!
Regular expressions over character classes with bounded repetition, on top of Mathlib's
regular expressions. An anchored pattern accepts exactly the words of its language.
-/
namespace KGuardian.Patterns

open RegularExpression

variable {α : Type*}

/-- One of the listed characters. -/
def oneOf (chars : List α) : RegularExpression α := (chars.map char).foldr (· + ·) 0

def atLeastOne (P : RegularExpression α) : RegularExpression α := P * P.star

def optional (P : RegularExpression α) : RegularExpression α := 1 + P

def upTo : ℕ → RegularExpression α → RegularExpression α
  | 0, _ => 1
  | n + 1, P => 1 + P * upTo n P

/-- From `low` to `high` times. -/
def between (low high : ℕ) (P : RegularExpression α) : RegularExpression α :=
  P ^ low * upTo (high - low) P

theorem mem_char {c : α} {s : List α} : s ∈ (char c).matches' ↔ s = [c] := Iff.rfl

theorem mem_oneOf {chars s : List α} :
    s ∈ (oneOf chars).matches' ↔ ∃ c ∈ chars, s = [c] := by
  induction chars with
  | nil => simp [oneOf]
  | cons c rest ih =>
      have hcons : oneOf (c :: rest) = char c + oneOf rest := rfl
      rw [hcons, matches'_add, Language.mem_add, ih, mem_char]
      simp

theorem mem_optional {P : RegularExpression α} {s : List α} :
    s ∈ (optional P).matches' ↔ s = [] ∨ s ∈ P.matches' := by
  rw [optional, matches'_add, Language.mem_add]
  rfl

theorem mem_mul {P Q : RegularExpression α} {s : List α} :
    s ∈ (P * Q).matches' ↔ ∃ a ∈ P.matches', ∃ b ∈ Q.matches', a ++ b = s := by
  rw [matches'_mul]
  exact Language.mem_mul

theorem mem_char_mul {c : α} {P : RegularExpression α} {s : List α} :
    s ∈ (char c * P).matches' ↔ ∃ b ∈ P.matches', s = c :: b := by
  rw [mem_mul]
  constructor
  · rintro ⟨a, ha, b, hb, rfl⟩
    rw [mem_char.mp ha]
    exact ⟨b, hb, rfl⟩
  · rintro ⟨b, hb, rfl⟩
    exact ⟨[c], mem_char.mpr rfl, b, hb, rfl⟩

/-- Two parts with a separator between them. -/
theorem append_mem_mul_char {P Q : RegularExpression α} {c : α} {a b : List α}
    (ha : a ∈ P.matches') (hb : b ∈ Q.matches') : a ++ c :: b ∈ (P * (char c * Q)).matches' :=
  mem_mul.mpr ⟨a, ha, c :: b, mem_char_mul.mpr ⟨b, hb, rfl⟩, rfl⟩

theorem mem_star_oneOf {chars s : List α} :
    s ∈ (oneOf chars).star.matches' ↔ ∀ c ∈ s, c ∈ chars := by
  rw [matches'_star, Language.mem_kstar]
  constructor
  · rintro ⟨words, rfl, hwords⟩ c hc
    obtain ⟨word, hword, hmem⟩ := List.mem_flatten.mp hc
    obtain ⟨d, hd, rfl⟩ := mem_oneOf.mp (hwords word hword)
    rwa [List.mem_singleton.mp hmem]
  · intro h
    refine ⟨s.map fun c => [c], (List.flatMap_singleton' s).symm, ?_⟩
    intro word hword
    obtain ⟨c, hc, rfl⟩ := List.mem_map.mp hword
    exact mem_oneOf.mpr ⟨c, h c hc, rfl⟩

theorem mem_atLeastOne_oneOf {chars s : List α} :
    s ∈ (atLeastOne (oneOf chars)).matches' ↔ s ≠ [] ∧ ∀ c ∈ s, c ∈ chars := by
  rw [atLeastOne, mem_mul]
  constructor
  · rintro ⟨a, ha, b, hb, rfl⟩
    obtain ⟨c, hc, rfl⟩ := mem_oneOf.mp ha
    refine ⟨by simp, ?_⟩
    simpa [hc] using mem_star_oneOf.mp hb
  · rintro ⟨hne, hall⟩
    cases s with
    | nil => exact absurd rfl hne
    | cons c rest =>
        obtain ⟨hc, hrest⟩ := List.forall_mem_cons.mp hall
        exact ⟨[c], mem_oneOf.mpr ⟨c, hc, rfl⟩, rest, mem_star_oneOf.mpr hrest, rfl⟩

theorem mem_pow_oneOf {chars : List α} (n : ℕ) {s : List α} :
    s ∈ (oneOf chars ^ n).matches' ↔ s.length = n ∧ ∀ c ∈ s, c ∈ chars := by
  induction n generalizing s with
  | zero =>
      have hzero : oneOf chars ^ 0 = 1 := rfl
      rw [hzero, matches'_epsilon, Language.mem_one, List.length_eq_zero_iff]
      constructor
      · rintro rfl
        simp
      · exact And.left
  | succ n ih =>
      have hsucc : oneOf chars ^ (n + 1) = oneOf chars ^ n * oneOf chars := rfl
      rw [hsucc, mem_mul]
      constructor
      · rintro ⟨a, ha, b, hb, rfl⟩
        obtain ⟨hlength, hall⟩ := ih.mp ha
        obtain ⟨c, hc, rfl⟩ := mem_oneOf.mp hb
        refine ⟨by simp [hlength], ?_⟩
        intro d hd
        rcases List.mem_append.mp hd with hleft | hright
        · exact hall d hleft
        · rwa [List.mem_singleton.mp hright]
      · rintro ⟨hlength, hall⟩
        obtain ⟨a, c, rfl⟩ : ∃ a c, s = a ++ [c] := by
          have hne : s ≠ [] := by
            rintro rfl
            simp at hlength
          exact ⟨s.dropLast, s.getLast hne, (List.dropLast_append_getLast hne).symm⟩
        refine ⟨a, ih.mpr ⟨by simpa using hlength, fun d hd => hall d (by simp [hd])⟩, [c],
          mem_oneOf.mpr ⟨c, hall c (by simp), rfl⟩, rfl⟩

theorem mem_upTo_oneOf {chars : List α} (n : ℕ) {s : List α} :
    s ∈ (upTo n (oneOf chars)).matches' ↔ s.length ≤ n ∧ ∀ c ∈ s, c ∈ chars := by
  induction n generalizing s with
  | zero =>
      rw [upTo, matches'_epsilon, Language.mem_one]
      constructor
      · rintro rfl
        simp
      · exact fun h => List.length_eq_zero_iff.mp (by omega)
  | succ n ih =>
      have hupTo : upTo (n + 1) (oneOf chars) = optional (oneOf chars * upTo n (oneOf chars)) := rfl
      rw [hupTo, mem_optional, mem_mul]
      constructor
      · rintro (rfl | ⟨a, ha, b, hb, rfl⟩)
        · simp
        · obtain ⟨c, hc, rfl⟩ := mem_oneOf.mp ha
          obtain ⟨hlength, hall⟩ := ih.mp hb
          exact ⟨by simpa using hlength, List.forall_mem_cons.mpr ⟨hc, hall⟩⟩
      · rintro ⟨hlength, hall⟩
        cases s with
        | nil => exact .inl rfl
        | cons c rest =>
            obtain ⟨hc, hrest⟩ := List.forall_mem_cons.mp hall
            exact .inr ⟨[c], mem_oneOf.mpr ⟨c, hc, rfl⟩, rest,
              ih.mpr ⟨by simpa using hlength, hrest⟩, rfl⟩

theorem mem_between_oneOf {chars : List α} {low high : ℕ} (h : low ≤ high) {s : List α} :
    s ∈ (between low high (oneOf chars)).matches' ↔
      low ≤ s.length ∧ s.length ≤ high ∧ ∀ c ∈ s, c ∈ chars := by
  rw [between, mem_mul]
  constructor
  · rintro ⟨a, ha, b, hb, rfl⟩
    obtain ⟨hlow, halow⟩ := (mem_pow_oneOf low).mp ha
    obtain ⟨hhigh, hahigh⟩ := (mem_upTo_oneOf (high - low)).mp hb
    rw [List.length_append]
    refine ⟨by omega, by omega, ?_⟩
    intro c hc
    rcases List.mem_append.mp hc with hleft | hright
    · exact halow c hleft
    · exact hahigh c hright
  · rintro ⟨hlow, hhigh, hall⟩
    refine ⟨s.take low, (mem_pow_oneOf low).mpr ⟨by simp [hlow], ?_⟩, s.drop low,
      (mem_upTo_oneOf (high - low)).mpr ⟨by simp; omega, ?_⟩, List.take_append_drop low s⟩
    · exact fun c hc => hall c (List.mem_of_mem_take hc)
    · exact fun c hc => hall c (List.mem_of_mem_drop hc)

/-- Two texts with the same front part, in which a character outside the class or the end
comes after it. -/
theorem append_inj_of_class {p : α → Prop} {a b x y : List α} (ha : ∀ c ∈ a, p c)
    (hb : ∀ c ∈ b, p c) (hx : ∀ c ∈ x.head?, ¬ p c) (hy : ∀ c ∈ y.head?, ¬ p c)
    (h : a ++ x = b ++ y) : a = b ∧ x = y := by
  induction a generalizing b with
  | nil =>
      cases b with
      | nil => exact ⟨rfl, h⟩
      | cons d rest =>
          have hhead : x.head? = some d := by simp at h; simp [h]
          exact absurd (hb d List.mem_cons_self) (hx d hhead)
  | cons c a ih =>
      cases b with
      | nil =>
          have hhead : y.head? = some c := by simp at h; simp [← h]
          exact absurd (ha c List.mem_cons_self) (hy c hhead)
      | cons d rest =>
          simp only [List.cons_append, List.cons.injEq] at h
          obtain ⟨rfl, htail⟩ := h
          obtain ⟨rfl, rfl⟩ := ih (fun e he => ha e (List.mem_cons_of_mem _ he))
            (fun e he => hb e (List.mem_cons_of_mem _ he)) htail
          exact ⟨rfl, rfl⟩

end KGuardian.Patterns
