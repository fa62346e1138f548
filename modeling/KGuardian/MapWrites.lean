import Mathlib.Data.List.Nodup
import Mathlib.Data.List.Perm.Basic

/-!
A map that is filled once and only read then, as the list of its writes: a key has the
value that was written last. And a list whose elements are shared out to keys: the keys
together hold what has one of them.
-/
namespace KGuardian.MapWrites

variable {κ α : Type*} [DecidableEq κ]

/-- What `get` finds is what was set last. -/
def get (writes : List (κ × α)) (k : κ) : Option α := writes.reverse.lookup k

section

variable {writes : List (κ × α)} {k : κ} {a : α}

theorem mem_of_get (h : get writes k = some a) : (k, a) ∈ writes := by
  obtain ⟨before, after, hsplit, -⟩ := List.lookup_eq_some_iff.mp h
  rw [← List.mem_reverse, hsplit]
  simp

theorem exists_get (h : (k, a) ∈ writes) : ∃ b, get writes k = some b := by
  refine Option.ne_none_iff_exists'.mp fun hnone => ?_
  have hne := List.lookup_eq_none_iff.mp hnone (k, a) (List.mem_reverse.mpr h)
  simp at hne

/-- Nothing else matters where all writes of a key agree. -/
theorem get_of_forall (h : (k, a) ∈ writes) (hsame : ∀ b, (k, b) ∈ writes → b = a) :
    get writes k = some a := by
  obtain ⟨b, hb⟩ := exists_get h
  rw [hb, hsame b (mem_of_get hb)]

end

/-- The elements of one key, out of a list of the elements that have a key. -/
theorem filter_filterMap_key (key : α → Option κ) (k : κ) (l : List α) :
    ((l.filterMap fun a => (key a).map fun k => (k, a)).filter fun p => p.1 = k).map Prod.snd =
      l.filter fun a => key a = some k := by
  induction l with
  | nil => rfl
  | cons a l ih =>
      cases ha : key a with
      | none => simpa [ha] using ih
      | some k' =>
          by_cases hk : k' = k
          · simpa [ha, hk] using ih
          · simpa [ha, hk] using ih

/-- The elements by their keys, one key after the other. -/
theorem flatMap_filter_perm (key : α → Option κ) (l : List α) {keys : List κ}
    (hnodup : keys.Nodup) :
    (keys.flatMap fun k => l.filter fun a => key a = some k).Perm
      (l.filter fun a => (key a).any (· ∈ keys)) := by
  induction keys with
  | nil => simp
  | cons k keys ih =>
      obtain ⟨hnew, hnodup⟩ := List.nodup_cons.mp hnodup
      have hof : (l.filter fun a => key a = some k) =
          (l.filter fun a => (key a).any (· ∈ k :: keys)).filter fun a => key a = some k := by
        rw [List.filter_filter]
        refine List.filter_congr fun a _ => ?_
        by_cases ha : key a = some k
        · simp [ha]
        · simp [ha]
      have hothers : (l.filter fun a => (key a).any (· ∈ keys)) =
          (l.filter fun a => (key a).any (· ∈ k :: keys)).filter fun a => !(key a = some k) := by
        rw [List.filter_filter]
        refine List.filter_congr fun a _ => ?_
        cases ha : key a with
        | none => rfl
        | some k' =>
            by_cases hk : k' = k
            · subst hk
              simp [hnew]
            · simp [hk]
      rw [List.flatMap_cons]
      refine ((ih hnodup).append_left _).trans ?_
      rw [hof, hothers]
      exact List.filter_append_perm _ _

end KGuardian.MapWrites
