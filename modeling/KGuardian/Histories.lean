import Mathlib.Data.List.DropRight
import Mathlib.Data.List.Induction

/-!
What a list of events says about its end: the last event of a kind, and what came
before it.
-/
namespace KGuardian.Histories

variable {α : Type*}

/-- The last element of a kind. -/
def lastWith (p : α → Prop) [DecidablePred p] (l : List α) : Option α :=
  (l.filter fun a => p a).getLast?

/-- What comes before the last element of a kind, and nothing when there is none. -/
def beforeLast (p : α → Bool) (l : List α) : List α := (l.rdropWhile fun a => !p a).dropLast

theorem lastWith_concat (p : α → Prop) [DecidablePred p] (l : List α) (a : α) :
    lastWith p (l ++ [a]) = if p a then some a else lastWith p l := by
  rw [lastWith, List.filter_append]
  by_cases h : p a
  · simp [h]
  · simp [h, lastWith]

theorem lastWith_eq_none {p : α → Prop} [DecidablePred p] {l : List α} (h : ∀ a ∈ l, ¬ p a) :
    lastWith p l = none := by
  rw [lastWith, List.getLast?_eq_none_iff, List.filter_eq_nil_iff]
  simpa using h

/-- The only element of a kind is the last one. -/
theorem lastWith_eq_some {p : α → Prop} [DecidablePred p] {l : List α} {a : α} (ha : a ∈ l)
    (hp : p a) (honly : ∀ b ∈ l, p b → b = a) : lastWith p l = some a := by
  cases hlast : lastWith p l with
  | none =>
      rw [lastWith, List.getLast?_eq_none_iff, List.filter_eq_nil_iff] at hlast
      exact absurd (by simpa using hp) (hlast a ha)
  | some b =>
      have hb := List.mem_filter.mp (List.mem_of_getLast? hlast)
      rw [honly b hb.1 (by simpa using hb.2)]

theorem beforeLast_concat (p : α → Bool) (l : List α) (a : α) :
    beforeLast p (l ++ [a]) = if p a then l else beforeLast p l := by
  rw [beforeLast, List.rdropWhile_concat]
  cases h : p a with
  | true => simp
  | false => rfl

theorem beforeLast_initial (p : α → Bool) (l : List α) : beforeLast p l <+: l := by
  have hdropped := List.dropLast_prefix (l.rdropWhile fun a => !p a)
  exact hdropped.trans <| List.rdropWhile_prefix _ _

end KGuardian.Histories
