import Mathlib.Data.List.Basic

/-!
Bounded channels. A send to a channel that is full is refused, and what was sent
is received in the same order.
-/
namespace KGuardian.Channels

variable {α : Type*} {capacity : ℕ}

/-- The values of a channel that were not received yet, the oldest first. -/
structure Channel (α : Type*) (capacity : ℕ) where
  waiting : List α
  bounded : waiting.length ≤ capacity

namespace Channel

def empty : Channel α capacity := ⟨[], Nat.zero_le capacity⟩

/-- A send that does not wait. -/
def trySend (c : Channel α capacity) (a : α) : Option (Channel α capacity) :=
  if h : c.waiting.length < capacity then
    some ⟨c.waiting ++ [a], by
      rw [List.length_append, List.length_singleton]
      exact h⟩
  else none

/-- The oldest value, and what is left. -/
def recv (c : Channel α capacity) : Option (α × Channel α capacity) :=
  match h : c.waiting with
  | [] => none
  | a :: rest => some (a, ⟨rest, by
      have hbounded := c.bounded
      rw [h] at hbounded
      exact Nat.le_of_succ_le hbounded⟩)

theorem waiting_of_trySend {c c' : Channel α capacity} {a : α} (h : c.trySend a = some c') :
    c'.waiting = c.waiting ++ [a] := by
  rw [trySend] at h
  split at h
  · obtain rfl := Option.some.inj h
    rfl
  · cases h

theorem waiting_of_recv {c c' : Channel α capacity} {a : α} (h : c.recv = some (a, c')) :
    c.waiting = a :: c'.waiting := by
  rw [recv] at h
  split at h
  · cases h
  · rename_i hwaiting
    obtain ⟨rfl, rfl⟩ := Prod.mk.inj (Option.some.inj h)
    exact hwaiting

end Channel

end KGuardian.Channels
