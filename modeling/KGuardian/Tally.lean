import Mathlib.Data.List.AList

/-!
Counting how often each key comes, as a loop over a map of counters does. Each
count raises the counter of its key and the total by one.
-/
namespace KGuardian.Tally

variable {κ : Type*}

abbrev Counters (κ : Type*) := AList fun _ : κ => ℕ

def totalOf (entries : List (Sigma fun _ : κ => ℕ)) : ℕ := entries.foldr (fun e n => e.2 + n) 0

def total (m : Counters κ) : ℕ := totalOf m.entries

theorem totalOf_sublist {l l' : List (Sigma fun _ : κ => ℕ)} (h : l.Sublist l') :
    totalOf l ≤ totalOf l' := by
  induction h with
  | slnil => exact le_rfl
  | cons e _ ih =>
      change totalOf _ ≤ e.2 + totalOf _
      omega
  | cons_cons e _ ih =>
      change e.2 + totalOf _ ≤ e.2 + totalOf _
      omega

theorem totalOf_perm {l l' : List (Sigma fun _ : κ => ℕ)} (h : l.Perm l') :
    totalOf l = totalOf l' := by
  induction h with
  | nil => rfl
  | cons e _ ih =>
      change e.2 + totalOf _ = e.2 + totalOf _
      rw [ih]
  | swap e e' l =>
      change e'.2 + (e.2 + totalOf l) = e.2 + (e'.2 + totalOf l)
      omega
  | trans _ _ ih ih' => exact ih.trans ih'

variable [DecidableEq κ]

/-- One more of the key, which starts at zero. -/
def bump (m : Counters κ) (k : κ) : Counters κ := m.insert k ((m.lookup k).getD 0 + 1)

def count (m : Counters κ) (k : κ) : ℕ := (m.lookup k).getD 0

theorem count_bump (m : Counters κ) (k k' : κ) :
    count (bump m k) k' = count m k' + if k' = k then 1 else 0 := by
  by_cases hk : k' = k
  · subst hk
    simp [count, bump]
  · simp [count, bump, AList.lookup_insert_ne hk, hk]

theorem totalOf_kerase (entries : List (Sigma fun _ : κ => ℕ)) (k : κ) :
    totalOf entries = (entries.dlookup k).getD 0 + totalOf (entries.kerase k) := by
  induction entries with
  | nil => rfl
  | cons e rest ih =>
      by_cases hk : k = e.1
      · subst hk
        rw [List.kerase_cons_eq rfl, List.dlookup_cons_eq]
        rfl
      · rw [List.kerase_cons_ne hk, List.dlookup_cons_ne _ _ hk]
        change e.2 + totalOf rest = _ + (e.2 + totalOf (rest.kerase k))
        omega

theorem total_bump (m : Counters κ) (k : κ) : total (bump m k) = total m + 1 := by
  have hinsert : total (bump m k) = (m.lookup k).getD 0 + 1 + totalOf (m.entries.kerase k) := rfl
  have herase := totalOf_kerase m.entries k
  rw [hinsert, total, herase]
  change _ = (m.entries.dlookup k).getD 0 + _ + 1
  rw [AList.lookup]
  omega

end KGuardian.Tally
