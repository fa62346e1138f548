import KGuardian.SortedGroups
import KGuardian.StatusPatches
import Mathlib.Data.Prod.Lex
import Mathlib.Data.String.Basic

/-!
The offenders that a status lists (`topOffenders` in `pkg/status/aggregator.go`). The counters
are read in the order in which a loop over a map comes to them, and the sort need not keep the
order of equal elements. The result depends on neither, since no two entries are equal in the
order of the offenders.
-/
namespace KGuardian.TopOffenders

open StatusPatches

structure TupleKey where
  srcPod : String
  dstPod : String
  protocol : String
  direction : String
  dstPort : ℤ
  deriving DecidableEq

abbrev Counters := AList fun _ : TupleKey => ℤ

/-- A loop over a map meets its entries in any order. -/
structure Iteration (m : Counters) where
  entries : List (Sigma fun _ : TupleKey => ℤ)
  perm : entries.Perm m.entries

/-! The sort. -/

/-- A comparison for which a sorted slice is defined. -/
structure StrictWeak {α : Type*} (less : α → α → Bool) : Prop where
  irrefl : ∀ a, less a a = false
  trans : ∀ a b c, less a b = true → less b c = true → less a c = true
  split : ∀ a b c, less a c = true → less a b = true ∨ less b c = true

/-- What `sort.Slice` promises, which is not stable. -/
structure SortSlice (α : Type*) where
  sort : (α → α → Bool) → List α → List α
  perm : ∀ less l, (sort less l).Perm l
  ordered : ∀ less l, StrictWeak less → (sort less l).Pairwise fun a b => less b a = false

section Slices

variable {α : Type*} {less : α → α → Bool}

theorem StrictWeak.total (h : StrictWeak less) (a b : α) : less b a = false ∨ less a b = false := by
  cases hba : less b a with
  | false => exact .inl rfl
  | true =>
      cases hab : less a b with
      | false => exact .inr rfl
      | true =>
          have hself := h.trans a b a hab hba
          rw [h.irrefl] at hself
          cases hself

theorem StrictWeak.trans_not (h : StrictWeak less) {a b c : α} (hab : less b a = false)
    (hbc : less c b = false) : less c a = false := by
  cases hca : less c a with
  | false => rfl
  | true =>
      obtain hcb | hba := h.split c b a hca
      · rw [hbc] at hcb
        cases hcb
      · rw [hab] at hba
        cases hba

/-- The insertion sort keeps the promise. -/
def insertionSlice : SortSlice α where
  sort less l := l.insertionSort fun a b => less b a = false
  perm _ l := List.perm_insertionSort _ l
  ordered _ _ h := SortedGroups.pairwise_insertionSort_of_mem _
    (fun a _ b _ => h.total a b) fun _ _ _ _ _ _ hab hbc => h.trans_not hab hbc

/-- The first elements of a sorted list come before all others. -/
theorem take_before {lt : α → α → Prop} {l : List α} (h : l.Pairwise lt) (n : ℕ) :
    ∀ a ∈ l.take n, ∀ b ∈ l, b ∉ l.take n → lt a b := by
  intro a ha b hb hrest
  have hsplit : l.take n ++ l.drop n = l := List.take_append_drop n l
  rw [← hsplit] at h hb
  obtain htaken | hdropped := List.mem_append.mp hb
  · exact absurd htaken hrest
  · exact (List.pairwise_append.mp h).2.2 a ha b hdropped

end Slices

/-! The function. -/

structure Sorted where
  k : TupleKey
  c : ℤ

def less (a b : Sorted) : Bool :=
  if a.c ≠ b.c then a.c > b.c
  else if a.k.srcPod ≠ b.k.srcPod then a.k.srcPod < b.k.srcPod
  else if a.k.dstPod ≠ b.k.dstPod then a.k.dstPod < b.k.dstPod
  else if a.k.dstPort ≠ b.k.dstPort then a.k.dstPort < b.k.dstPort
  else if a.k.protocol ≠ b.k.protocol then a.k.protocol < b.k.protocol
  else a.k.direction < b.k.direction

def Sorted.summary (s : Sorted) : OffenderSummary :=
  ⟨s.k.srcPod, s.k.dstPod, s.k.dstPort, s.k.protocol, s.k.direction, s.c⟩

def topOffenders (slice : SortSlice Sorted) (entries : List (Sigma fun _ : TupleKey => ℤ))
    (n : ℤ) : List OffenderSummary :=
  if n ≤ 0 || entries.isEmpty then []
  else
    let all := slice.sort less (entries.map fun e => ⟨e.1, e.2⟩)
    let all := if (all.length : ℤ) > n then all.take n.toNat else all
    all.map Sorted.summary

/-! What it is for. -/

def tupleOf (o : OffenderSummary) : TupleKey :=
  ⟨o.srcPod, o.dstPod, o.protocol, o.direction, o.dstPort⟩

/-- Higher counts first, then by source, destination, port, protocol and direction. -/
def rank (k : TupleKey) (c : ℤ) : ℤ ×ₗ String ×ₗ String ×ₗ ℤ ×ₗ String ×ₗ String :=
  toLex (-c, toLex (k.srcPod, toLex (k.dstPod, toLex (k.dstPort, toLex (k.protocol, k.direction)))))

/-- The first `n` entries of a map by their rank. -/
structure Top (m : Counters) (n : ℕ) (offenders : List OffenderSummary) : Prop where
  length : offenders.length = min n m.entries.length
  distinct : (offenders.map tupleOf).Nodup
  counts : ∀ o ∈ offenders, m.lookup (tupleOf o) = some o.count
  ranked : offenders.Pairwise fun a b => rank (tupleOf a) a.count < rank (tupleOf b) b.count
  best : ∀ o ∈ offenders, ∀ k c, m.lookup k = some c → k ∉ offenders.map tupleOf →
    rank (tupleOf o) o.count < rank k c

/-! The comparison is that of the ranks. -/

theorem less_iff (a b : Sorted) : less a b = true ↔ rank a.k a.c < rank b.k b.c := by
  unfold less rank
  simp only [Prod.Lex.toLex_lt_toLex, neg_lt_neg_iff, neg_inj]
  split_ifs <;> simp_all

theorem strictWeak_less : StrictWeak less where
  irrefl a := by
    rw [← Bool.not_eq_true, less_iff]
    exact lt_irrefl _
  trans a b c hab hbc := by
    rw [less_iff] at hab hbc ⊢
    exact hab.trans hbc
  split a b c hac := by
    rw [less_iff] at hac ⊢
    rw [less_iff]
    obtain hab | hba := lt_or_ge (rank a.k a.c) (rank b.k b.c)
    · exact .inl hab
    · exact .inr (lt_of_le_of_lt hba hac)

/-- Entries of one rank have one tuple and one count. -/
theorem rank_inj {a b : Sorted} (h : rank a.k a.c = rank b.k b.c) : a = b := by
  obtain ⟨⟨_, _, _, _, _⟩, _⟩ := a
  obtain ⟨⟨_, _, _, _, _⟩, _⟩ := b
  simp only [rank, toLex_inj, Prod.mk.injEq, neg_inj] at h
  obtain ⟨rfl, rfl, rfl, rfl, rfl, rfl⟩ := h
  rfl

section Run

variable (slice slice' : SortSlice Sorted) {m : Counters} (order order' : Iteration m)

def sortedOf (entries : List (Sigma fun _ : TupleKey => ℤ)) : List Sorted :=
  entries.map fun e => ⟨e.1, e.2⟩

theorem nodup_tuples : ((sortedOf order.entries).map Sorted.k).Nodup := by
  rw [sortedOf, List.map_map]
  exact (order.perm.map Sigma.fst).nodup_iff.mpr m.nodupKeys

/-- Whatever the sort does with equal elements, the ranks grow. -/
theorem ranked_sort :
    (slice.sort less (sortedOf order.entries)).Pairwise fun a b => rank a.k a.c < rank b.k b.c := by
  have hperm := slice.perm less (sortedOf order.entries)
  have hnodup : (slice.sort less (sortedOf order.entries)).Pairwise fun a b => a.k ≠ b.k :=
    List.pairwise_map.mp ((hperm.map Sorted.k).nodup_iff.mpr (nodup_tuples order))
  have hboth := hnodup.and (slice.ordered less (sortedOf order.entries) strictWeak_less)
  refine hboth.imp fun {a b} ⟨hne, hless⟩ => ?_
  rw [← Bool.not_eq_true, less_iff, not_lt] at hless
  exact lt_of_le_of_ne hless fun heq => hne (congrArg Sorted.k (rank_inj heq))

/-- Neither the order of the loop nor the sort makes a difference. -/
theorem sort_eq :
    slice.sort less (sortedOf order.entries) = slice'.sort less (sortedOf order'.entries) := by
  have hentries : (sortedOf order.entries).Perm (sortedOf order'.entries) :=
    (order.perm.trans order'.perm.symm).map _
  have hperm := ((slice.perm less _).trans hentries).trans (slice'.perm less _).symm
  refine hperm.eq_of_pairwise (fun a b _ _ hab hba => ?_) (ranked_sort slice order)
    (ranked_sort slice' order')
  exact absurd (hab.trans hba) (lt_irrefl _)

theorem topOffenders_eq_take (entries : List (Sigma fun _ : TupleKey => ℤ)) (n : ℕ) :
    topOffenders slice entries n =
      ((slice.sort less (sortedOf entries)).take n).map Sorted.summary := by
  have hlength : (slice.sort less (sortedOf entries)).length = entries.length := by
    rw [(slice.perm less _).length_eq, sortedOf, List.length_map]
  unfold topOffenders
  by_cases hnone : n = 0 ∨ entries = []
  · have htake : (slice.sort less (sortedOf entries)).take n = [] := by
      rw [List.take_eq_nil_iff]
      obtain hzero | hnil := hnone
      · exact .inl hzero
      · exact .inr (List.length_eq_zero_iff.mp (by rw [hlength, hnil, List.length_nil]))
    rw [if_pos (by simpa using hnone), htake, List.map_nil]
  · rw [if_neg (by simpa using hnone)]
    show ((if _ then _ else slice.sort less (sortedOf entries)).map _) = _
    split
    · rfl
    · rename_i hle
      have hle' : (slice.sort less (sortedOf entries)).length ≤ n := by
        rw [gt_iff_lt, not_lt] at hle
        exact Int.ofNat_le.mp hle
      rw [List.take_of_length_le hle']

theorem topOffenders_stable (n : ℤ) :
    topOffenders slice order.entries n = topOffenders slice' order'.entries n := by
  have hempty := (order.perm.trans order'.perm.symm).isEmpty_eq
  have hsort := sort_eq slice slice' order order'
  unfold sortedOf at hsort
  unfold topOffenders
  rw [hempty, hsort]

end Run

/-- The offenders are the first entries by rank. -/
theorem topOffenders_top (slice : SortSlice Sorted) {m : Counters} (order : Iteration m) (n : ℕ) :
    Top m n (topOffenders slice order.entries n) := by
  rw [topOffenders_eq_take]
  have hperm := slice.perm less (sortedOf order.entries)
  have hranked := ranked_sort slice order
  have hmem : ∀ s, s ∈ slice.sort less (sortedOf order.entries) ↔ m.lookup s.k = some s.c := by
    intro s
    rw [hperm.mem_iff, sortedOf, List.mem_map, ← Option.mem_def, AList.mem_lookup_iff]
    constructor
    · rintro ⟨e, he, rfl⟩
      exact order.perm.mem_iff.mp he
    · intro hs
      exact ⟨⟨s.k, s.c⟩, order.perm.mem_iff.mpr hs, rfl⟩
  generalize slice.sort less (sortedOf order.entries) = all at hperm hranked hmem
  have hkeys : ((all.take n).map Sorted.summary).map tupleOf = (all.take n).map Sorted.k := by
    rw [List.map_map]
    rfl
  constructor
  · rw [List.length_map, List.length_take, hperm.length_eq, sortedOf, List.length_map,
      order.perm.length_eq]
  · rw [hkeys]
    exact ((hperm.map Sorted.k).nodup_iff.mpr (nodup_tuples order)).sublist
      ((List.take_sublist n all).map Sorted.k)
  · intro o ho
    obtain ⟨s, hs, rfl⟩ := List.mem_map.mp ho
    exact (hmem s).mp (List.mem_of_mem_take hs)
  · exact List.pairwise_map.mpr (hranked.sublist (List.take_sublist n all))
  · intro o ho k c hk hleft
    obtain ⟨s, hs, rfl⟩ := List.mem_map.mp ho
    rw [hkeys] at hleft
    refine take_before hranked n s hs ⟨k, c⟩ ((hmem _).mpr hk) fun htaken => ?_
    exact hleft (List.mem_map_of_mem htaken)

/-- This holds in whatever order the counters are read and whatever the sort does with equal
elements, and neither changes the offenders. -/
theorem topOffenders_any_order (slice slice' : SortSlice Sorted) {m : Counters}
    (order order' : Iteration m) (n : ℕ) :
    Top m n (topOffenders slice order.entries n) ∧
      topOffenders slice order.entries n = topOffenders slice' order'.entries n :=
  ⟨topOffenders_top slice order n, topOffenders_stable slice slice' order order' n⟩

/-! The status of a policy, whose tuples have a direction and not its text. -/

def keyOf (k : StatusAggregator.TupleKey) : TupleKey :=
  ⟨k.srcPod, k.dstPod, k.protocol, directionText k.direction, k.dstPort⟩

def countersOf (m : Tally.Counters StatusAggregator.TupleKey) :
    List (Sigma fun _ : TupleKey => ℤ) :=
  m.entries.map fun e => ⟨keyOf e.1, e.2⟩

theorem offenderLess_iff (a b : TupleCount) :
    offenderLess a b = true ↔ less ⟨keyOf a.1, a.2⟩ ⟨keyOf b.1, b.2⟩ = true := by
  unfold offenderLess less keyOf
  simp only [ne_eq, Nat.cast_inj, gt_iff_lt, Nat.cast_lt]

theorem statusPatches_topOffenders_eq (m : Tally.Counters StatusAggregator.TupleKey) (n : ℕ) :
    StatusPatches.topOffenders m n = topOffenders insertionSlice (countersOf m) n := by
  let entryOf : TupleCount → Sorted := fun e => ⟨keyOf e.1, e.2⟩
  have hsort : (m.entries.insertionSort fun a b => offenderLess b a = false).map entryOf =
      insertionSlice.sort less (sortedOf (countersOf m)) := by
    have hmap : sortedOf (countersOf m) = m.entries.map entryOf := by
      rw [sortedOf, countersOf, List.map_map]
      rfl
    rw [hmap]
    refine List.map_insertionSort _ _ entryOf m.entries fun a _ b _ => ?_
    rw [← Bool.not_eq_true, ← Bool.not_eq_true, offenderLess_iff]
  rw [topOffenders_eq_take, ← hsort, ← List.map_take, List.map_map, StatusPatches.topOffenders]
  split
  · rename_i hle
    have hzero : n = 0 := by omega
    rw [hzero, List.take_zero, List.map_nil]
  · rw [Int.toNat_natCast]
    rfl

/-- A status lists the first tuples, if no two of its tuples differ in the direction alone and
have one text for it. -/
theorem statusPatches_topOffenders_top {m : Tally.Counters StatusAggregator.TupleKey}
    (h : (countersOf m).NodupKeys) (n : ℕ) :
    Top ⟨countersOf m, h⟩ n (StatusPatches.topOffenders m n) := by
  rw [statusPatches_topOffenders_eq]
  exact topOffenders_top insertionSlice ⟨countersOf m, List.Perm.refl _⟩ n

end KGuardian.TopOffenders
