import Mathlib.Data.List.AList

/-!
Collecting the items of a list by key, as a loop over a map does: the entry of a
key is the concatenation of the items of its elements, in order.
-/
namespace KGuardian.Grouping

variable {α κ β : Type*} [DecidableEq κ] (key : α → κ) (items : α → List β)

/-- One turn of the loop: append to the entry, which starts empty. -/
def addItems (m : AList fun _ : κ => List β) (a : α) : AList fun _ : κ => List β :=
  m.insert (key a) ((m.lookup (key a)).getD [] ++ items a)

def collect (l : List α) : AList fun _ : κ => List β := l.foldl (addItems key items) ∅

theorem lookup_addItems (m : AList fun _ : κ => List β) (a : α) (k : κ) :
    ((addItems key items m a).lookup k).getD [] =
      (m.lookup k).getD [] ++ if key a = k then items a else [] := by
  by_cases hk : key a = k
  · subst hk
    simp [addItems]
  · simp [addItems, AList.lookup_insert_ne (Ne.symm hk), hk]

theorem mem_addItems (m : AList fun _ : κ => List β) (a : α) (k : κ) :
    k ∈ addItems key items m a ↔ k = key a ∨ k ∈ m := by
  simp [addItems]

/-- An item is in the entry of a key when an element of that key has it. -/
theorem mem_lookup_collect (l : List α) (k : κ) (x : β) :
    x ∈ ((collect key items l).lookup k).getD [] ↔ ∃ a ∈ l, key a = k ∧ x ∈ items a := by
  have hloop (m : AList fun _ : κ => List β) :
      x ∈ ((l.foldl (addItems key items) m).lookup k).getD [] ↔
        x ∈ (m.lookup k).getD [] ∨ ∃ a ∈ l, key a = k ∧ x ∈ items a := by
    induction l generalizing m with
    | nil => simp
    | cons a rest ih =>
        rw [List.foldl_cons, ih, lookup_addItems, List.mem_append, List.exists_mem_cons_iff,
          or_assoc]
        by_cases hk : key a = k
        · simp [hk]
        · simp [hk]
  rw [collect, hloop]
  simp

theorem mem_keys_collect (l : List α) (k : κ) :
    k ∈ (collect key items l).keys ↔ ∃ a ∈ l, key a = k := by
  have hloop (m : AList fun _ : κ => List β) :
      k ∈ l.foldl (addItems key items) m ↔ k ∈ m ∨ ∃ a ∈ l, key a = k := by
    induction l generalizing m with
    | nil => simp
    | cons a rest ih =>
        rw [List.foldl_cons, ih, mem_addItems, List.exists_mem_cons_iff, eq_comm (a := k)]
        tauto
  rw [← AList.mem_keys, collect, hloop]
  simp

end KGuardian.Grouping
