import Mathlib.Data.Set.Function

/-!
Two parts joined by a separator that both parts may contain. Two pairs are joined to one text
exactly when they are equal or one of them is the other with the separator at a later place.
-/
namespace KGuardian.JoinedNames

variable {α : Type*} (sep : α)

def join (p : List α × List α) : List α := p.1 ++ sep :: p.2

/-- The second pair has more before its separator: what it has there too is the start of the
second part of the first pair. -/
def Shifted (p q : List α × List α) : Prop :=
  ∃ middle, q.1 = p.1 ++ sep :: middle ∧ p.2 = middle ++ sep :: q.2

variable {sep}

theorem Shifted.join_eq {p q : List α × List α} (h : Shifted sep p q) :
    join sep p = join sep q := by
  obtain ⟨middle, hfirst, hsecond⟩ := h
  rw [join, join, hfirst, hsecond, List.append_assoc, List.cons_append]

theorem Shifted.ne {p q : List α × List α} (h : Shifted sep p q) : p ≠ q := by
  obtain ⟨middle, hfirst, -⟩ := h
  rintro rfl
  have hlength := congrArg List.length hfirst
  rw [List.length_append, List.length_cons] at hlength
  omega

theorem eq_or_shifted {p q : List α × List α} {middle : List α} (hfirst : q.1 = p.1 ++ middle)
    (hsecond : sep :: p.2 = middle ++ sep :: q.2) : p = q ∨ Shifted sep p q := by
  cases middle with
  | nil =>
      obtain ⟨-, htail⟩ := List.cons.inj hsecond
      exact .inl (Prod.ext (by rw [hfirst, List.append_nil]) htail)
  | cons c middle =>
      obtain ⟨rfl, htail⟩ := List.cons.inj hsecond
      exact .inr ⟨middle, hfirst, htail⟩

theorem join_eq_iff {p q : List α × List α} :
    join sep p = join sep q ↔ p = q ∨ Shifted sep p q ∨ Shifted sep q p := by
  constructor
  · intro h
    obtain ⟨middle, hfirst, hsecond⟩ | ⟨middle, hfirst, hsecond⟩ := List.append_eq_append_iff.mp h
    · obtain heq | hshifted := eq_or_shifted hfirst hsecond
      · exact .inl heq
      · exact .inr (.inl hshifted)
    · obtain heq | hshifted := eq_or_shifted hfirst hsecond
      · exact .inl heq.symm
      · exact .inr (.inr hshifted)
  · rintro (rfl | h | h)
    · rfl
    · exact h.join_eq
    · exact h.join_eq.symm

/-- The joined texts of a set tell its pairs apart exactly when no pair is another one
shifted. -/
theorem injOn_join_iff {s : Set (List α × List α)} :
    Set.InjOn (join sep) s ↔ ∀ p ∈ s, ∀ q ∈ s, ¬ Shifted sep p q := by
  constructor
  · intro h p hp q hq hshifted
    exact hshifted.ne (h hp hq hshifted.join_eq)
  · intro h p hp q hq heq
    obtain rfl | hshifted | hshifted := join_eq_iff.mp heq
    · rfl
    · exact absurd hshifted (h p hp q hq)
    · exact absurd hshifted (h q hq p hp)

end KGuardian.JoinedNames
