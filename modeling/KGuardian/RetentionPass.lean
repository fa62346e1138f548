import KGuardian.BrokerAudit
import KGuardian.DeadPods

/-!
A pass over the table `audit_verdicts` (`run_pass` in `broker/src/retention.rs`). It deletes the
rows that have left the window in batches, each of them a statement of its own, until a batch
deletes nothing, one fails or the cap is reached. Between two batches other statements insert
rows.
-/
namespace KGuardian.RetentionPass

open BrokerAudit KeyedTables
open DeadPods (maxBatchesPerPass microsPerDay)

/-- A row by its serial number and the time of the verdict, in microseconds. -/
structure AuditVerdict where
  id : ℕ
  observedAt : ℤ
  verdict : AuditVerdictInsert

abbrev VerdictTable := Table AuditVerdict.id

def defaultBatchSize : ℕ := 5000

def minBatchSize : ℕ := 100

def maxBatchSize : ℕ := 100000

abbrev BatchSize := {n : ℕ // minBatchSize ≤ n ∧ n ≤ maxBatchSize}

theorem default_within : minBatchSize ≤ defaultBatchSize ∧ defaultBatchSize ≤ maxBatchSize := by
  decide

theorem clamped_within (n : ℕ) : minBatchSize ≤ min (max n minBatchSize) maxBatchSize ∧
    min (max n minBatchSize) maxBatchSize ≤ maxBatchSize := by
  unfold minBatchSize maxBatchSize
  omega

/-- The number that was configured, if it is one, within its bounds. -/
def retentionBatchSize (configured : Option ℤ) : BatchSize :=
  match configured with
  | none => ⟨defaultBatchSize, default_within⟩
  | some n => ⟨min (max n.toNat minBatchSize) maxBatchSize, clamped_within n.toNat⟩

variable (days : ℕ)

def isExpired (now : ℤ) (row : AuditVerdict) : Bool :=
  row.observedAt < now - days * microsPerDay

/-- The first rows in the order of their ids that have left the window. -/
def expiredIds (now : ℤ) (batchSize : ℕ) (t : VerdictTable) : List ℕ :=
  (((t.rows.filter (isExpired days now)).map AuditVerdict.id).insertionSort (· ≤ ·)).take batchSize

/-- The table afterwards, and the rows that were deleted. -/
def runBatch (now : ℤ) (batchSize : ℕ) (t : VerdictTable) : VerdictTable × List AuditVerdict :=
  let expired := expiredIds days now batchSize t
  (t.delete fun row => expired.contains row.id, t.rows.filter fun row => expired.contains row.id)

inductive Failure where
  | pool
  | diesel
  | panicked

/-- What happens around the batches of a pass: the time of each, the rows that are inserted before
it, and whether it fails. Time does not go back behind the start of the pass. -/
structure Surroundings where
  start : ℤ
  now : ℕ → ℤ
  started : ∀ batch, start ≤ now batch
  inserts : ℕ → List AuditVerdict
  failure : ℕ → Option Failure

/-- Rows are inserted unless their id is taken. The second list has those that were. -/
def insertRows (t : VerdictTable) : List AuditVerdict → VerdictTable × List AuditVerdict
  | [] => (t, [])
  | row :: rest =>
      match t.insert row with
      | none => insertRows t rest
      | some t' => ((insertRows t' rest).1, row :: (insertRows t' rest).2)

/-- The table, what was inserted and deleted since the start, with the batch that deleted it, and
the number that the pass logs. -/
structure Progress where
  table : VerdictTable
  inserted : List AuditVerdict
  deleted : List (ℕ × AuditVerdict)
  totalDeleted : ℕ

inductive End where
  | windowEmpty
  | failed (failure : Failure)
  | capReached

variable (env : Surroundings) (batchSize : BatchSize)

def Progress.afterInserts (p : Progress) (batch : ℕ) : Progress :=
  let (table, accepted) := insertRows p.table (env.inserts batch)
  { p with table, inserted := p.inserted ++ accepted }

def Progress.afterBatch (p : Progress) (batch : ℕ) : Progress :=
  let (table, deleted) := runBatch days (env.now batch) batchSize p.table
  { p with
    table
    deleted := p.deleted ++ deleted.map fun row => (batch, row)
    totalDeleted := p.totalDeleted + deleted.length }

def runBatches : ℕ → ℕ → Progress → Progress × End
  | 0, _, p => (p, .capReached)
  | left + 1, batch, p =>
      let p := p.afterInserts env batch
      match env.failure batch with
      | some failure => (p, .failed failure)
      | none =>
          let next := p.afterBatch days env batchSize batch
          if (runBatch days (env.now batch) batchSize p.table).2.length = 0 then
            (next, .windowEmpty)
          else runBatches left (batch + 1) next

def runPass (t : VerdictTable) : Progress × End :=
  runBatches days env batchSize maxBatchesPerPass 0 ⟨t, [], [], 0⟩

/-! One batch. -/

section Batch

variable (now : ℤ) (size : ℕ) (t : VerdictTable)

theorem mem_expiredIds {id : ℕ} (h : id ∈ expiredIds days now size t) :
    ∃ row ∈ t.rows, isExpired days now row = true ∧ row.id = id := by
  have hmem := (List.mem_insertionSort _).mp (List.mem_of_mem_take h)
  obtain ⟨row, hrow, rfl⟩ := List.mem_map.mp hmem
  obtain ⟨hrow, hexpired⟩ := List.mem_filter.mp hrow
  exact ⟨row, hrow, hexpired, rfl⟩

/-- Only rows that have left the window are deleted. -/
theorem isExpired_of_deleted {row : AuditVerdict} (h : row ∈ (runBatch days now size t).2) :
    isExpired days now row = true := by
  obtain ⟨hrow, hid⟩ := List.mem_filter.mp h
  rw [List.contains_iff_mem] at hid
  obtain ⟨row', hrow', hexpired, heq⟩ := mem_expiredIds days now size t hid
  have hsame := List.inj_on_of_nodup_map t.keys hrow' hrow heq
  exact hsame ▸ hexpired

theorem length_deleted_le : (runBatch days now size t).2.length ≤ size := by
  have hnodup : ((runBatch days now size t).2.map AuditVerdict.id).Nodup :=
    t.keys.sublist (List.filter_sublist.map _)
  have hsubset : (runBatch days now size t).2.map AuditVerdict.id ⊆ expiredIds days now size t := by
    intro id hid
    obtain ⟨row, hrow, rfl⟩ := List.mem_map.mp hid
    exact List.contains_iff_mem.mp (List.mem_filter.mp hrow).2
  have hle := (List.subperm_of_subset hnodup hsubset).length_le
  rw [List.length_map] at hle
  exact hle.trans (List.length_take_le _ _)

/-- The rows of the table are those that stay and those that are deleted. -/
theorem runBatch_perm :
    ((runBatch days now size t).1.rows ++ (runBatch days now size t).2).Perm t.rows := by
  have hsplit := List.filter_append_perm
    (fun row : AuditVerdict => (expiredIds days now size t).contains row.id) t.rows
  exact List.perm_append_comm.trans hsplit

/-- A batch that deletes nothing finds no row that has left the window. -/
theorem none_expired_of_empty (hsize : 0 < size) (h : (runBatch days now size t).2.length = 0) :
    ∀ row ∈ t.rows, isExpired days now row = false := by
  intro row hrow
  by_contra hne
  have hexpired : isExpired days now row = true := by simpa using hne
  have hmem : row.id ∈ ((t.rows.filter (isExpired days now)).map AuditVerdict.id).insertionSort
      (· ≤ ·) :=
    (List.mem_insertionSort _).mpr (List.mem_map_of_mem (List.mem_filter.mpr ⟨hrow, hexpired⟩))
  have hids : expiredIds days now size t ≠ [] := by
    intro hnil
    obtain hzero | hempty := List.take_eq_nil_iff.mp hnil
    · omega
    · exact List.ne_nil_of_mem hmem hempty
  obtain ⟨id, hid⟩ := List.exists_mem_of_ne_nil _ hids
  obtain ⟨first, hfirst, -, rfl⟩ := mem_expiredIds days now size t hid
  have hdeleted : first ∈ (runBatch days now size t).2 :=
    List.mem_filter.mpr ⟨hfirst, List.contains_iff_mem.mpr hid⟩
  rw [List.length_eq_zero_iff] at h
  rw [h] at hdeleted
  exact List.not_mem_nil hdeleted

/-- A batch that deletes nothing leaves the table as it was. -/
theorem runBatch_rows_of_empty (h : (runBatch days now size t).2.length = 0) :
    (runBatch days now size t).1.rows.Perm t.rows := by
  have hperm := runBatch_perm days now size t
  rw [List.length_eq_zero_iff] at h
  rwa [h, List.append_nil] at hperm

end Batch

/-- The rows that were inserted are in the table. -/
theorem insertRows_perm (t : VerdictTable) (rows : List AuditVerdict) :
    (insertRows t rows).1.rows.Perm (t.rows ++ (insertRows t rows).2) := by
  induction rows generalizing t with
  | nil => rw [insertRows, List.append_nil]
  | cons row rest ih =>
      rw [insertRows]
      cases hinsert : t.insert row with
      | none => exact ih t
      | some t' =>
          have hrows : t'.rows = t.rows ++ [row] := by
            unfold Table.insert at hinsert
            split at hinsert
            · cases hinsert
            · rw [← Option.some.inj hinsert]
          have hrest := ih t'
          rw [hrows, List.append_assoc] at hrest
          exact hrest

/-! A pass. -/

/-- What holds after some batches of a pass. -/
structure Sound (t : VerdictTable) (batches : ℕ) (p : Progress) : Prop where
  expired : ∀ d ∈ p.deleted, isExpired days (env.now d.1) d.2 = true
  bounded : p.deleted.length ≤ batchSize * batches
  total : p.totalDeleted = p.deleted.length
  accounted : (p.table.rows ++ p.deleted.map Prod.snd).Perm (t.rows ++ p.inserted)

/-- What is left at the end, if a batch deleted nothing. -/
def Complete (r : Progress × End) : Prop :=
  r.2 = .windowEmpty → ∀ row ∈ r.1.table.rows, isExpired days env.start row = false

variable {days env batchSize} {t : VerdictTable} {batches : ℕ} {p : Progress}

theorem Sound.afterInserts (h : Sound days env batchSize t batches p) (batch : ℕ) :
    Sound days env batchSize t batches (p.afterInserts env batch) where
  expired := h.expired
  bounded := h.bounded
  total := h.total
  accounted := by
    show ((insertRows p.table (env.inserts batch)).1.rows ++ _).Perm
      (t.rows ++ (p.inserted ++ (insertRows p.table (env.inserts batch)).2))
    have hrows := (insertRows_perm p.table (env.inserts batch)).append_right
      (p.deleted.map Prod.snd)
    have hswap : (p.table.rows ++ (insertRows p.table (env.inserts batch)).2 ++
        p.deleted.map Prod.snd).Perm (p.table.rows ++ p.deleted.map Prod.snd ++
          (insertRows p.table (env.inserts batch)).2) := by
      rw [List.append_assoc, List.append_assoc]
      exact List.perm_append_comm.append_left _
    rw [← List.append_assoc]
    exact (hrows.trans hswap).trans (h.accounted.append_right _)

theorem Sound.afterBatch (h : Sound days env batchSize t batches p) :
    Sound days env batchSize t (batches + 1) (p.afterBatch days env batchSize batches) where
  expired := by
    intro d hd
    obtain hbefore | hnow := List.mem_append.mp hd
    · exact h.expired d hbefore
    · obtain ⟨row, hrow, rfl⟩ := List.mem_map.mp hnow
      exact isExpired_of_deleted days _ _ _ hrow
  bounded := by
    have hbatch := length_deleted_le days (env.now batches) batchSize p.table
    have hbefore := h.bounded
    show (p.deleted ++ (runBatch days (env.now batches) batchSize p.table).2.map _).length ≤ _
    rw [List.length_append, List.length_map, Nat.mul_add, Nat.mul_one]
    omega
  total := by
    have hbefore := h.total
    show p.totalDeleted + _ = (p.deleted ++ _).length
    rw [List.length_append, List.length_map, hbefore]
  accounted := by
    let batch := runBatch days (env.now batches) batchSize p.table
    show (batch.1.rows ++ (p.deleted ++ batch.2.map fun row => (batches, row)).map Prod.snd).Perm _
    have hdeleted : (p.deleted ++ batch.2.map fun row => (batches, row)).map Prod.snd =
        p.deleted.map Prod.snd ++ batch.2 := by
      rw [List.map_append, List.map_map]
      congr 1
      exact List.map_id _
    have hrows : (batch.1.rows ++ batch.2).Perm p.table.rows :=
      runBatch_perm days (env.now batches) batchSize p.table
    rw [hdeleted]
    refine List.Perm.trans ?_ h.accounted
    refine List.Perm.trans ?_ (hrows.append_right _)
    rw [List.append_assoc]
    exact List.perm_append_comm.append_left _

/-- The induction is on the batches that are left. -/
theorem sound_runBatches (left : ℕ) (h : Sound days env batchSize t batches p) :
    Sound days env batchSize t (batches + left) (runBatches days env batchSize left batches p).1 ∧
      Complete days env (runBatches days env batchSize left batches p) := by
  induction left generalizing batches p with
  | zero => exact ⟨h, fun hend => by cases hend⟩
  | succ left ih =>
      have hwiden (n : ℕ) (hn : n ≤ batches + (left + 1)) {q : Progress}
          (hq : Sound days env batchSize t n q) :
          Sound days env batchSize t (batches + (left + 1)) q :=
        ⟨hq.expired, hq.bounded.trans (Nat.mul_le_mul_left _ hn), hq.total, hq.accounted⟩
      have hinserts := h.afterInserts batches
      rw [runBatches]
      dsimp only
      cases env.failure batches with
      | some failure => exact ⟨hwiden batches (by omega) hinserts, fun hend => by cases hend⟩
      | none =>
          have hbatch := hinserts.afterBatch
          dsimp only
          split
          · rename_i hempty
            refine ⟨hwiden (batches + 1) (by omega) hbatch, fun _ row hrow => ?_⟩
            -- The rows after an empty batch are those that it looked at.
            have hpos : 0 < (batchSize : ℕ) := Nat.lt_of_lt_of_le (by decide) batchSize.2.1
            have hlooked := (runBatch_rows_of_empty days _ _ _ hempty).mem_iff.mp hrow
            have hnow := none_expired_of_empty days _ _ _ hpos hempty row hlooked
            have hstart := env.started batches
            simp only [isExpired, decide_eq_false_iff_not] at hnow ⊢
            omega
          · have hrest := ih hbatch
            rwa [Nat.add_right_comm, Nat.add_assoc] at hrest

/-- Whatever is inserted between the batches, and whether or not one fails, a pass deletes rows that
have left the window at that time and no more than its batches may, it counts what it deletes, and
if it ends with a batch that deletes nothing, no row is left that was expired at its start. -/
theorem runPass_prunes (days : ℕ) (env : Surroundings) (batchSize : BatchSize) (t : VerdictTable) :
    Sound days env batchSize t maxBatchesPerPass (runPass days env batchSize t).1 ∧
      Complete days env (runPass days env batchSize t) := by
  have hstart : Sound days env batchSize t 0 ⟨t, [], [], 0⟩ :=
    ⟨fun d hd => absurd hd List.not_mem_nil, Nat.zero_le _, rfl, by simp⟩
  have hpass := sound_runBatches maxBatchesPerPass hstart
  rwa [Nat.zero_add] at hpass

/-! Before the second batch two rows come in, one of them late. -/

def verdictRow (id : ℕ) (day : ℤ) : AuditVerdict where
  id
  observedAt := day * microsPerDay
  verdict := ⟨"uid-1", "shop", "web-policy", .ingress, none, none, some "shop", some "web-0", 8080,
    "TCP", none, .wouldDeny⟩

def busyDay : Surroundings where
  start := 10 * microsPerDay
  now batch := 10 * microsPerDay + batch
  started _ := Int.le_add_of_nonneg_right (Int.natCast_nonneg _)
  inserts batch := if batch = 1 then [verdictRow 3 2, verdictRow 4 10] else []
  failure _ := none

def oldTable : VerdictTable := ⟨[verdictRow 1 1, verdictRow 2 9], by decide⟩

/-- The late row goes with the second batch, the third deletes nothing. -/
theorem busyDay_prunes :
    let pass := runPass 7 busyDay (retentionBatchSize none) oldTable
    pass.1.deleted.map (fun d => (d.1, d.2.id)) = [(0, 1), (1, 3)] ∧
      (pass.1.table.rows ++ pass.1.deleted.map Prod.snd).Perm (oldTable.rows ++ pass.1.inserted) ∧
      ∀ row ∈ pass.1.table.rows, isExpired 7 busyDay.start row = false := by
  obtain ⟨hsound, hcomplete⟩ := runPass_prunes 7 busyDay (retentionBatchSize none) oldTable
  exact ⟨by decide, hsound.accounted, hcomplete rfl⟩

end KGuardian.RetentionPass
