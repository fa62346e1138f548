import Mathlib.Data.List.Induction
import Mathlib.Data.List.Sort

/-!
Sorting by a comparison that may leave ties, and values grouped by key. Two sorts
of a list agree exactly when the comparisons agree on the pairs in the order of
the list, and sorted groups are determined by the values that each key has.
-/
namespace KGuardian.SortedGroups

variable {α κ β γ : Type*}

section Sorting

variable (r s : α → α → Prop) [DecidableRel r] [DecidableRel s]

theorem orderedInsert_congr {a : α} {l : List α} (h : ∀ b ∈ l, r a b ↔ s a b) :
    l.orderedInsert r a = l.orderedInsert s a := by
  induction l with
  | nil => rfl
  | cons b rest ih =>
      have hb := h b List.mem_cons_self
      have hrest := ih fun c hc => h c (List.mem_cons_of_mem _ hc)
      rw [List.orderedInsert_cons, List.orderedInsert_cons, hrest]
      simp only [hb]

theorem insertionSort_congr {l : List α} (h : l.Pairwise fun a b => r a b ↔ s a b) :
    l.insertionSort r = l.insertionSort s := by
  induction l with
  | nil => rfl
  | cons a rest ih =>
      obtain ⟨hfirst, hrest⟩ := List.pairwise_cons.mp h
      rw [List.insertionSort_cons, List.insertionSort_cons, ih hrest]
      exact orderedInsert_congr r s fun b hb => hfirst b ((List.mem_insertionSort s).mp hb)

/-- A pair keeps its order in the sort exactly when the comparison allows it. -/
theorem pair_sublist_insertionSort_iff [Std.Total r] [IsTrans α r] {a b : α} {l : List α}
    (h : [a, b].Sublist l) : [a, b].Sublist (l.insertionSort r) ↔ r a b := by
  constructor
  · intro hsorted
    exact List.pairwise_pair.mp ((List.pairwise_insertionSort r l).sublist hsorted)
  · intro hab
    exact List.pair_sublist_insertionSort hab h

theorem insertionSort_eq_iff [Std.Total r] [IsTrans α r] [Std.Total s] [IsTrans α s]
    (l : List α) :
    l.insertionSort r = l.insertionSort s ↔ l.Pairwise fun a b => r a b ↔ s a b := by
  constructor
  · intro heq
    rw [List.pairwise_iff_forall_sublist]
    intro a b hab
    rw [← pair_sublist_insertionSort_iff r hab, ← pair_sublist_insertionSort_iff s hab, heq]
  · exact insertionSort_congr r s

/-- The comparison need only be total and transitive on the list. -/
theorem pairwise_insertionSort_of_mem {l : List α} (htotal : ∀ a ∈ l, ∀ b ∈ l, r a b ∨ r b a)
    (htrans : ∀ a ∈ l, ∀ b ∈ l, ∀ c ∈ l, r a b → r b c → r a c) :
    (l.insertionSort r).Pairwise r := by
  let r' : {a // a ∈ l} → {a // a ∈ l} → Prop := fun a b => r a.1 b.1
  have : DecidableRel r' := fun a b => inferInstanceAs (Decidable (r a.1 b.1))
  have : Std.Total r' := ⟨fun a b => htotal a.1 a.2 b.1 b.2⟩
  have : IsTrans _ r' := ⟨fun a b c => htrans a.1 a.2 b.1 b.2 c.1 c.2⟩
  have hmap : (l.attach.insertionSort r').map Subtype.val = l.insertionSort r := by
    rw [List.map_insertionSort r' r Subtype.val l.attach fun a _ b _ => Iff.rfl,
      List.attach_map_subtype_val]
  rw [← hmap, List.pairwise_map]
  exact List.pairwise_insertionSort r' l.attach

end Sorting

/-- The value is in the group of the key. -/
def InGroup (groups : List (κ × List β)) (k : κ) (b : β) : Prop :=
  ∃ g ∈ groups, g.1 = k ∧ b ∈ g.2

theorem inGroup_cons (g : κ × List β) (rest : List (κ × List β)) (k : κ) (b : β) :
    InGroup (g :: rest) k b ↔ (g.1 = k ∧ b ∈ g.2) ∨ InGroup rest k b := by
  simp only [InGroup, List.exists_mem_cons_iff]

theorem eraseDups_concat [BEq κ] [LawfulBEq κ] (l : List κ) (k : κ) :
    (l ++ [k]).eraseDups = if k ∈ l then l.eraseDups else l.eraseDups ++ [k] := by
  rw [List.eraseDups_append]
  split
  · rename_i hmem
    simp [List.removeAll, hmem]
  · rename_i hmem
    simp [List.removeAll, hmem, List.eraseDups_cons]

theorem nodup_eraseDups [BEq κ] [LawfulBEq κ] (l : List κ) : l.eraseDups.Nodup := by
  induction l using List.reverseRecOn with
  | nil => exact List.nodup_nil
  | append_singleton l k ih =>
      rw [eraseDups_concat]
      split
      · exact ih
      · rename_i hmem
        rw [List.nodup_append]
        refine ⟨ih, List.nodup_singleton k, fun a ha b hb heq => hmem ?_⟩
        rwa [← List.mem_eraseDups, ← List.mem_singleton.mp hb, ← heq]

section Merging

variable [DecidableEq κ] [DecidableEq β]

/-- Adds a value to the group of a key, which may be new. -/
def merge (k : κ) (b : β) : List (κ × List β) → List (κ × List β)
  | [] => [(k, [b])]
  | g :: rest =>
      if g.1 = k then
        if b ∈ g.2 then g :: rest else (g.1, g.2 ++ [b]) :: rest
      else g :: merge k b rest

def mergeAll (entries : List (κ × β)) : List (κ × List β) :=
  entries.foldl (fun groups e => merge e.1 e.2 groups) []

theorem inGroup_merge (k : κ) (b : β) (groups : List (κ × List β)) (k' : κ) (b' : β) :
    InGroup (merge k b groups) k' b' ↔ InGroup groups k' b' ∨ (k' = k ∧ b' = b) := by
  induction groups with
  | nil => simp [merge, InGroup, eq_comm (a := k')]
  | cons g rest ih =>
      by_cases hkey : g.1 = k
      · by_cases hmem : b ∈ g.2
        · rw [merge, if_pos hkey, if_pos hmem]
          refine (or_iff_left_of_imp ?_).symm
          intro h
          obtain ⟨rfl, rfl⟩ := h
          exact ⟨g, List.mem_cons_self, hkey, hmem⟩
        · rw [merge, if_pos hkey, if_neg hmem, inGroup_cons, inGroup_cons, hkey,
            List.mem_append, List.mem_singleton, eq_comm (a := k')]
          tauto
      · rw [merge, if_neg hkey, inGroup_cons, inGroup_cons, ih, or_assoc]

theorem inGroup_mergeAll (entries : List (κ × β)) (k : κ) (b : β) :
    InGroup (mergeAll entries) k b ↔ (k, b) ∈ entries := by
  induction entries using List.reverseRecOn with
  | nil => simp [mergeAll, InGroup]
  | append_singleton entries e ih =>
      rw [mergeAll, List.foldl_concat, ← mergeAll, inGroup_merge, ih, List.mem_append,
        List.mem_singleton, Prod.ext_iff]

theorem keys_merge (k : κ) (b : β) (groups : List (κ × List β)) :
    (merge k b groups).map Prod.fst =
      if k ∈ groups.map Prod.fst then groups.map Prod.fst else groups.map Prod.fst ++ [k] := by
  induction groups with
  | nil => rfl
  | cons g rest ih =>
      rw [List.map_cons]
      by_cases hkey : g.1 = k
      · have hmem : k ∈ g.1 :: rest.map Prod.fst := by rw [hkey]; exact List.mem_cons_self
        rw [merge, if_pos hkey, if_pos hmem]
        split <;> rfl
      · rw [merge, if_neg hkey, List.map_cons, ih]
        by_cases hmem : k ∈ rest.map Prod.fst
        · rw [if_pos hmem, if_pos (List.mem_cons_of_mem _ hmem)]
        · rw [if_neg hmem, if_neg (List.not_mem_cons_of_ne_of_not_mem (Ne.symm hkey) hmem),
            List.cons_append]

/-- The keys stand in the order in which they come first. -/
theorem keys_mergeAll (entries : List (κ × β)) :
    (mergeAll entries).map Prod.fst = (entries.map Prod.fst).eraseDups := by
  induction entries using List.reverseRecOn with
  | nil => rfl
  | append_singleton entries e ih =>
      rw [mergeAll, List.foldl_concat, ← mergeAll, keys_merge, ih, List.map_append,
        List.map_singleton, eraseDups_concat]
      simp only [List.mem_eraseDups]

theorem merge_values {P : List β → Prop} (hsingle : ∀ b, P [b])
    (happend : ∀ l b, P l → b ∉ l → P (l ++ [b])) (k : κ) (b : β) {groups : List (κ × List β)}
    (h : ∀ g ∈ groups, P g.2) : ∀ g ∈ merge k b groups, P g.2 := by
  induction groups with
  | nil => simpa [merge] using hsingle b
  | cons g rest ih =>
      obtain ⟨hfirst, hrest⟩ := List.forall_mem_cons.mp h
      rw [merge]
      split
      · split
        · exact h
        · rename_i hmem
          exact List.forall_mem_cons.mpr ⟨happend g.2 b hfirst hmem, hrest⟩
      · exact List.forall_mem_cons.mpr ⟨hfirst, ih hrest⟩

/-- Groups are neither empty nor do they repeat a value. -/
theorem mergeAll_values (entries : List (κ × β)) :
    ∀ g ∈ mergeAll entries, g.2 ≠ [] ∧ g.2.Nodup := by
  induction entries using List.reverseRecOn with
  | nil => exact fun g hg => absurd hg List.not_mem_nil
  | append_singleton entries e ih =>
      rw [mergeAll, List.foldl_concat, ← mergeAll]
      refine merge_values (P := fun l => l ≠ [] ∧ l.Nodup) (fun b => by simp) ?_ _ _ ih
      intro l b hl hb
      exact ⟨by simp, List.nodup_append.mpr ⟨hl.2, List.nodup_singleton b,
        fun a ha a' ha' heq => hb ((heq.trans (List.mem_singleton.mp ha')) ▸ ha)⟩⟩

end Merging

/-- Keys and values are sorted without repetition, and no group is empty. -/
structure Sorted (r : κ → κ → Prop) (s : β → β → Prop) (groups : List (κ × List β)) : Prop where
  keys : (groups.map Prod.fst).Pairwise r
  keysNodup : (groups.map Prod.fst).Nodup
  values : ∀ g ∈ groups, g.2.Pairwise s
  valuesNodup : ∀ g ∈ groups, g.2.Nodup
  nonempty : ∀ g ∈ groups, g.2 ≠ []

variable {r : κ → κ → Prop} {s : β → β → Prop} {groups groups' : List (κ × List β)}

theorem Sorted.mem_keys_iff (h : Sorted r s groups) (k : κ) :
    k ∈ groups.map Prod.fst ↔ ∃ b, InGroup groups k b := by
  constructor
  · intro hk
    obtain ⟨g, hg, rfl⟩ := List.mem_map.mp hk
    obtain ⟨b, hb⟩ := List.exists_mem_of_ne_nil _ (h.nonempty g hg)
    exact ⟨b, g, hg, rfl, hb⟩
  · intro hk
    obtain ⟨b, g, hg, rfl, hb⟩ := hk
    exact List.mem_map_of_mem hg

theorem Sorted.mem_values_iff (h : Sorted r s groups) {g : κ × List β} (hg : g ∈ groups) (b : β) :
    b ∈ g.2 ↔ InGroup groups g.1 b := by
  constructor
  · intro hb
    exact ⟨g, hg, rfl, hb⟩
  · intro hb
    obtain ⟨g', hg', hkey, hb⟩ := hb
    rwa [← List.inj_on_of_nodup_map h.keysNodup hg' hg hkey]

/-- Groups with the same keys are equal when each pair of groups is. -/
theorem eq_of_keys_eq (hkeys : groups.map Prod.fst = groups'.map Prod.fst)
    (hvalues : ∀ i (hi : i < groups.length) (hi' : i < groups'.length),
      groups[i].1 = groups'[i].1 → groups[i].2 = groups'[i].2) : groups = groups' := by
  have hlength : groups.length = groups'.length := by simpa using congrArg List.length hkeys
  refine List.ext_getElem hlength fun i hi hi' => ?_
  have hkey : groups[i].1 = groups'[i].1 := by
    have := congrArg (fun l => l[i]?) hkeys
    simpa [hi, hi'] using this
  exact Prod.ext hkey (hvalues i hi hi' hkey)

/-- Sorted groups with the same values are equal, if ties are. -/
theorem Sorted.ext (h : Sorted r s groups) (h' : Sorted r s groups')
    (hkeys : ∀ k ∈ groups.map Prod.fst, ∀ k' ∈ groups.map Prod.fst, r k k' → r k' k → k = k')
    (hvalues : ∀ g ∈ groups, ∀ b ∈ g.2, ∀ b' ∈ g.2, s b b' → s b' b → b = b')
    (hsame : ∀ k b, InGroup groups k b ↔ InGroup groups' k b) : groups = groups' := by
  have hmem (k : κ) : k ∈ groups.map Prod.fst ↔ k ∈ groups'.map Prod.fst := by
    rw [h.mem_keys_iff, h'.mem_keys_iff]
    exact exists_congr (hsame k)
  have hperm := (List.perm_ext_iff_of_nodup h.keysNodup h'.keysNodup).mpr hmem
  refine eq_of_keys_eq (hperm.eq_of_pairwise ?_ h.keys h'.keys) fun i hi hi' hkey => ?_
  · intro k k' hk hk'
    exact hkeys k hk k' ((hmem k').mpr hk')
  have hg := List.getElem_mem hi
  have hg' := List.getElem_mem hi'
  have hmem (b : β) : b ∈ groups[i].2 ↔ b ∈ groups'[i].2 := by
    rw [h.mem_values_iff hg, h'.mem_values_iff hg', hkey, hsame]
  have hperm :=
    (List.perm_ext_iff_of_nodup (h.valuesNodup _ hg) (h'.valuesNodup _ hg')).mpr hmem
  refine hperm.eq_of_pairwise ?_ (h.values _ hg) (h'.values _ hg')
  intro b b' hb hb'
  exact hvalues _ hg b hb b' ((hmem b').mpr hb')

theorem eq_of_map_eq {f : α → γ} {l l' : List α}
    (hf : ∀ a ∈ l, ∀ b ∈ l', f a = f b → a = b) (h : l.map f = l'.map f) : l = l' := by
  have hlength : l.length = l'.length := by simpa using congrArg List.length h
  refine List.ext_getElem hlength fun i hi hi' => ?_
  refine hf _ (List.getElem_mem hi) _ (List.getElem_mem hi') ?_
  have := congrArg (fun l => l[i]?) h
  simpa [hi, hi'] using this

/-- When values are only taken away, what is built from the groups stays the same
exactly if no value is. -/
theorem Sorted.map_eq_iff_of_subset (h : Sorted r s groups) (h' : Sorted r s groups')
    (hkeys : ∀ k ∈ groups.map Prod.fst, ∀ k' ∈ groups.map Prod.fst, r k k' → r k' k → k = k')
    (hvalues : ∀ g ∈ groups, ∀ b ∈ g.2, ∀ b' ∈ g.2, s b b' → s b' b → b = b')
    (hsubset : ∀ k b, InGroup groups' k b → InGroup groups k b)
    (f : κ × List β → γ)
    (hf : ∀ g ∈ groups, ∀ g' ∈ groups', g.1 = g'.1 → f g = f g' → g.2 = g'.2) :
    groups.map f = groups'.map f ↔ ∀ k b, InGroup groups k b → InGroup groups' k b := by
  constructor
  · intro heq
    have hlength : groups.length = groups'.length := by simpa using congrArg List.length heq
    have hmem : groups'.map Prod.fst ⊆ groups.map Prod.fst := by
      intro k hk
      obtain ⟨b, hb⟩ := (h'.mem_keys_iff k).mp hk
      exact (h.mem_keys_iff k).mpr ⟨b, hsubset k b hb⟩
    have hperm : (groups'.map Prod.fst).Perm (groups.map Prod.fst) :=
      (List.subperm_of_subset h'.keysNodup hmem).perm_of_length_le (by simp [hlength])
    have hkeysEq : groups.map Prod.fst = groups'.map Prod.fst :=
      hperm.symm.eq_of_pairwise
        (fun k k' hk hk' => hkeys k hk k' (hmem hk')) h.keys h'.keys
    have hgroups : groups = groups' := by
      refine eq_of_keys_eq hkeysEq fun i hi hi' hkey => ?_
      refine hf _ (List.getElem_mem hi) _ (List.getElem_mem hi') hkey ?_
      have := congrArg (fun l => l[i]?) heq
      simpa [hi, hi'] using this
    exact fun k b hb => hgroups ▸ hb
  · intro hback
    rw [h.ext h' hkeys hvalues fun k b => ⟨hback k b, hsubset k b⟩]

end KGuardian.SortedGroups
