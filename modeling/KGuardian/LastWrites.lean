import Mathlib.Data.List.Basic
import Mathlib.Logic.Function.Basic

/-!
One place that several writers write, each of them in an order of its own. What
counts as current changes with the time, and the place shows the last write that
came. It shows something current at the end if each writer ends with what is
current, whatever the order among the writers.
-/
namespace KGuardian.LastWrites

variable {ν α : Type*} {current : α → Prop} {todo : ν → List α} {shows : Prop}

/-- What a writer still has to write ends with what is current. -/
def EndsCurrent (current : α → Prop) (l : List α) : Prop := ∀ a ∈ l.getLast?, current a

/-- Something current is shown, or is still to be written, and is not overwritten then. -/
structure Settling (current : α → Prop) (todo : ν → List α) (shows : Prop) : Prop where
  ends : ∀ w, EndsCurrent current (todo w)
  written : shows ∨ ∃ w, todo w ≠ []

theorem endsCurrent_nil : EndsCurrent current [] := by
  intro a ha
  cases ha

theorem EndsCurrent.tail {a : α} {l : List α} (h : EndsCurrent current (a :: l)) :
    EndsCurrent current l := by
  cases l with
  | nil => exact endsCurrent_nil
  | cons b l =>
      intro c hc
      exact h c (by rwa [List.getLast?_cons_cons])

theorem endsCurrent_concat {l : List α} {a : α} (h : current a) :
    EndsCurrent current (l ++ [a]) := by
  intro b hb
  rw [List.getLast?_concat] at hb
  exact Option.some.inj hb ▸ h

/-- A list in which everything is current. -/
theorem endsCurrent_of_forall {l : List α} (h : ∀ a ∈ l, current a) : EndsCurrent current l := by
  intro a ha
  exact h a (List.mem_of_getLast? ha)

/-- One writer writes what comes next. -/
theorem Settling.write [DecidableEq ν] (h : Settling current todo shows) {w : ν} {a : α}
    {rest : List α} (htodo : todo w = a :: rest) {shows' : Prop} (hshows : current a → shows') :
    Settling current (Function.update todo w rest) shows' where
  ends := by
    intro v
    by_cases hv : v = w
    · subst hv
      rw [Function.update_self]
      exact (htodo ▸ h.ends v).tail
    · rw [Function.update_of_ne hv]
      exact h.ends v
  written := by
    by_cases hrest : rest = []
    · subst hrest
      have hlast : current a := by
        apply h.ends w a
        rw [htodo]
        rfl
      exact Or.inl (hshows hlast)
    · refine Or.inr ⟨w, ?_⟩
      rwa [Function.update_self]

/-- One writer starts over. -/
theorem Settling.restart [DecidableEq ν] (h : Settling current todo shows) (w : ν) {l : List α}
    (hl : EndsCurrent current l) (hne : l ≠ []) :
    Settling current (Function.update todo w l) shows where
  ends := by
    intro v
    by_cases hv : v = w
    · subst hv
      rwa [Function.update_self]
    · rw [Function.update_of_ne hv]
      exact h.ends v
  written := by
    refine Or.inr ⟨w, ?_⟩
    rwa [Function.update_self]

/-- What has become current is to be written by all. -/
theorem settling_append [Nonempty ν] (todo : ν → List α) {a : α} (ha : current a) :
    Settling current (fun w => todo w ++ [a]) shows where
  ends w := endsCurrent_concat ha
  written := Or.inr ⟨Classical.arbitrary ν, by simp⟩

/-- Once nothing is to be written, something current is shown. -/
theorem Settling.shown (h : Settling current todo shows) (hrest : ∀ w, todo w = []) : shows := by
  obtain hshows | ⟨w, hw⟩ := h.written
  · exact hshows
  · exact absurd (hrest w) hw

end KGuardian.LastWrites
