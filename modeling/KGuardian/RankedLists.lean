import Mathlib.Data.List.Sort

/-!
The first elements of a list by a preorder that tells its elements apart. Whether an element
is among them is a matter of how many come before it, and keeping some of them is the same as
taking the first of those that are kept.
-/
namespace KGuardian.RankedLists

variable {α : Type*} (le : α → α → Prop) [DecidableRel le]

def Before (a b : α) : Prop := le a b ∧ ¬ le b a

instance : DecidableRel (Before le) := fun _ _ => inferInstanceAs (Decidable (_ ∧ _))

/-- An `ORDER BY` with a `LIMIT`. -/
def firstBy (n : ℕ) (rows : List α) : List α := (rows.insertionSort le).take n

/-- The order is total, and no two places of the list are alike to it. -/
structure Ranks (rows : List α) : Prop where
  total : ∀ a b, le a b ∨ le b a
  trans : ∀ a b c, le a b → le b c → le a c
  apart : rows.Pairwise fun a b => ¬ (le a b ∧ le b a)

variable {le} {rows : List α}

omit [DecidableRel le] in
theorem Ranks.filter (h : Ranks le rows) (p : α → Bool) : Ranks le (rows.filter p) :=
  ⟨h.total, h.trans, h.apart.filter p⟩

theorem Ranks.ordered (h : Ranks le rows) : (rows.insertionSort le).Pairwise (Before le) := by
  have htotal : Std.Total le := ⟨h.total⟩
  have htrans : IsTrans α le := ⟨h.trans⟩
  have hsorted := List.pairwise_insertionSort le rows
  have hapart : (rows.insertionSort le).Pairwise fun a b => ¬ (le a b ∧ le b a) :=
    h.apart.perm (List.perm_insertionSort le rows).symm fun hab hba => hab ⟨hba.2, hba.1⟩
  exact (hapart.and hsorted).imp fun hboth => ⟨hboth.2, fun hba => hboth.1 ⟨hboth.2, hba⟩⟩

/-- In a list that is ordered, an element is among the first when few come before it. -/
theorem mem_take_iff {l : List α} (h : l.Pairwise (Before le)) (n : ℕ) (a : α) :
    a ∈ l.take n ↔ a ∈ l ∧ l.countP (fun b => Before le b a) < n := by
  induction l generalizing n with
  | nil => simp
  | cons x rest ih =>
    obtain ⟨hx, hrest⟩ := List.pairwise_cons.mp h
    cases n with
    | zero => simp
    | succ n =>
      rw [List.take_succ_cons, List.mem_cons, List.mem_cons, ih hrest n]
      by_cases hfirst : a = x
      · have hnone : (x :: rest).countP (fun b => decide (Before le b x)) = 0 := by
          refine List.countP_eq_zero.mpr fun b hb => ?_
          simp only [decide_eq_true_eq]
          intro hbefore
          obtain rfl | hmem := List.mem_cons.mp hb
          · exact hbefore.2 hbefore.1
          · exact (hx b hmem).2 hbefore.1
        subst hfirst
        simp [hnone]
      · have hone (hmem : a ∈ rest) : (x :: rest).countP (fun b => decide (Before le b a)) =
            rest.countP (fun b => decide (Before le b a)) + 1 := by
          rw [List.countP_cons_of_pos (by simpa using hx a hmem)]
        simp only [hfirst, false_or]
        constructor
        · intro hrank
          exact ⟨hrank.1, by rw [hone hrank.1]; omega⟩
        · intro hrank
          have hcount := hrank.2
          rw [hone hrank.1] at hcount
          exact ⟨hrank.1, by omega⟩

theorem Ranks.mem_firstBy (h : Ranks le rows) (n : ℕ) (a : α) :
    a ∈ firstBy le n rows ↔ a ∈ rows ∧ rows.countP (fun b => Before le b a) < n := by
  have hperm := List.perm_insertionSort le rows
  rw [firstBy, mem_take_iff h.ordered, hperm.mem_iff, hperm.countP_eq]

theorem Ranks.firstBy_ordered (h : Ranks le rows) (n : ℕ) :
    (firstBy le n rows).Pairwise (Before le) := h.ordered.sublist (List.take_sublist _ _)

omit [DecidableRel le] in
theorem Ranks.nodup (h : Ranks le rows) : rows.Nodup := by
  refine h.apart.imp fun {a b} hapart heq => hapart ?_
  subst heq
  exact ⟨(h.total a a).elim id id, (h.total a a).elim id id⟩

/-- The first elements, in whatever order, are those with few before them. -/
theorem Ranks.firstBy_perm (h : Ranks le rows) (n : ℕ) :
    (firstBy le n rows).Perm
      (rows.filter fun a => decide (rows.countP (fun b => Before le b a) < n)) := by
  have hsorted : (rows.insertionSort le).Nodup :=
    (List.perm_insertionSort le rows).nodup_iff.mpr h.nodup
  refine (List.perm_ext_iff_of_nodup (hsorted.sublist (List.take_sublist _ _))
    (h.nodup.filter _)).mpr fun a => ?_
  rw [List.mem_filter, decide_eq_true_eq]
  exact h.mem_firstBy n a

/-- Sorting the rows that are kept is keeping them among the sorted ones. -/
theorem Ranks.insertionSort_filter (h : Ranks le rows) (p : α → Bool) :
    (rows.filter p).insertionSort le = (rows.insertionSort le).filter p := by
  have hperm : ((rows.filter p).insertionSort le).Perm ((rows.insertionSort le).filter p) :=
    (List.perm_insertionSort _ _).trans ((List.perm_insertionSort le rows).symm.filter p)
  refine hperm.eq_of_pairwise (fun a b _ _ hab hba => ?_) (h.filter p).ordered (h.ordered.filter p)
  exact absurd hba.1 hab.2

/-- What is kept of the first rows are the first of those that are kept. -/
theorem Ranks.beginning_filter_firstBy (h : Ranks le rows) (n : ℕ) (p : α → Bool) :
    (firstBy le n rows).filter p <+: firstBy le n (rows.filter p) := by
  rw [firstBy, firstBy, h.insertionSort_filter p]
  have hbegins : ((rows.insertionSort le).take n).filter p <+: (rows.insertionSort le).filter p :=
    (List.take_prefix n _).filter p
  have hlength : (((rows.insertionSort le).take n).filter p).length ≤ n :=
    (List.length_filter_le _ _).trans (List.length_take_le n _)
  exact List.prefix_take_iff.mpr ⟨hbegins, hlength⟩

end KGuardian.RankedLists
