import Mathlib.Data.List.Nodup

/-!
Lists whose elements carry a key, with one element per key: putting an element
in the place of the one with its key, and removing by key.
-/
namespace KGuardian.KeyedLists

variable {α κ : Type*} [DecidableEq κ]

def put (key : α → κ) (l : List α) (a : α) : List α := l.filter (fun b => key b ≠ key a) ++ [a]

def drop (key : α → κ) (l : List α) (k : κ) : List α := l.filter fun b => key b ≠ k

theorem mem_put (key : α → κ) (l : List α) (a b : α) :
    b ∈ put key l a ↔ b = a ∨ b ∈ l ∧ key b ≠ key a := by
  simp only [put, List.mem_append, List.mem_filter, List.mem_singleton, decide_eq_true_eq]
  exact or_comm

theorem mem_drop (key : α → κ) (l : List α) (k : κ) (b : α) :
    b ∈ drop key l k ↔ b ∈ l ∧ key b ≠ k := by
  simp only [drop, List.mem_filter, decide_eq_true_eq]

theorem nodup_drop (key : α → κ) (l : List α) (k : κ) (h : (l.map key).Nodup) :
    ((drop key l k).map key).Nodup :=
  h.sublist (List.filter_sublist.map key)

theorem nodup_put (key : α → κ) (l : List α) (a : α) (h : (l.map key).Nodup) :
    ((put key l a).map key).Nodup := by
  have hrest : ((l.filter fun b => key b ≠ key a).map key).Nodup := nodup_drop key l (key a) h
  rw [put, List.map_append, List.nodup_append]
  refine ⟨hrest, List.nodup_singleton _, ?_⟩
  intro k hk k' hk' heq
  obtain ⟨b, hb, rfl⟩ := List.mem_map.mp hk
  have hne : key b ≠ key a := by simpa using (List.mem_filter.mp hb).2
  exact hne (heq.trans (List.mem_singleton.mp hk'))

/-- After a put, the element alone has its key. -/
theorem filter_put (key : α → κ) (l : List α) (a : α) (k : κ) :
    (put key l a).filter (fun b => key b = k) =
      if key a = k then [a] else l.filter fun b => key b = k := by
  rw [put, List.filter_append, List.filter_filter]
  split
  · rename_i hkey
    subst hkey
    simp
  · rename_i hkey
    rw [List.filter_cons_of_neg (by simpa using hkey), List.filter_nil, List.append_nil]
    refine List.filter_congr fun b _ => ?_
    by_cases hb : key b = k
    · simp [hb, Ne.symm hkey]
    · simp [hb]

theorem filter_drop (key : α → κ) (l : List α) (k k' : κ) :
    (drop key l k).filter (fun b => key b = k') =
      if k = k' then [] else l.filter fun b => key b = k' := by
  rw [drop, List.filter_filter]
  split
  · rename_i hkey
    subst hkey
    simp
  · rename_i hkey
    refine List.filter_congr fun b _ => ?_
    by_cases hb : key b = k'
    · simp [hb, Ne.symm hkey]
    · simp [hb]

end KGuardian.KeyedLists
