import KGuardian.PodRecords
import KGuardian.Runs

/-!
Retention of dead pods in the broker (`broker/src/retention.rs`). A pass goes by the
time stamp of a row, which is the time of its last upsert, while a row is dead from its
mark on. What the pass keeps is told against the marks.
-/
namespace KGuardian.DeadPods

open KeyedTables PodRecords Runs SyscallIngest

/-- How the database reads a time stamp, in microseconds, and orders names. -/
structure Database where
  instant : NaiveDateTime → ℤ
  nameLe : String → String → Bool

def microsPerDay : ℤ := 86400000000

def defaultDeadPodRetentionDays : ℕ := 7

def deadPodRetentionWindow (auditDays : ℕ) : ℕ :=
  if auditDays > 0 then auditDays else defaultDeadPodRetentionDays

/-- Without audit retention the window is still there. -/
theorem deadPodRetentionWindow_pos (auditDays : ℕ) : 0 < deadPodRetentionWindow auditDays := by
  unfold deadPodRetentionWindow defaultDeadPodRetentionDays
  split <;> omega

def maxBatchesPerPass : ℕ := 200

variable (db : Database) (days : ℕ)

/-- The filter of the pass. -/
def isExpired (now : ℤ) (row : PodDetail) : Bool :=
  row.isDead && db.instant row.timeStamp < now - days * microsPerDay

/-- The table afterwards, and how many rows were deleted. -/
def runDeadPodBatch (now : ℤ) (batchSize : ℕ) (t : PodTable) : PodTable × ℕ :=
  let expired := (((t.rows.filter (isExpired db days now)).map PodDetail.podName).insertionSort
    fun a b => db.nameLe a b).take batchSize
  (t.delete fun row => expired.contains row.podName,
    t.rows.countP fun row => expired.contains row.podName)

/-- Batches until one of them deletes nothing. -/
def runBatches (now : ℤ) (batchSize : ℕ) : ℕ → PodTable → PodTable
  | 0, t => t
  | left + 1, t =>
      let (t', deleted) := runDeadPodBatch db days now batchSize t
      if deleted = 0 then t' else runBatches now batchSize left t'

def runDeadPodPass (now : ℤ) (batchSize : ℕ) (t : PodTable) : PodTable :=
  runBatches db days now batchSize maxBatchesPerPass t

/-! The rows over time. -/

/-- The table, and for each name when its row was last marked dead, with that row. A row
that is deleted leaves its mark, and an upsert takes it away. -/
structure State where
  now : ℤ
  table : PodTable
  marked : String → Option (ℤ × PodDetail)

/-- Of a pod that was seen, by the watcher or a resync, only one that is ready is posted.
An outage of the controller is time without its events. The batches of a pass are
statements of their own, so anything can happen between them. -/
inductive Event where
  | passed (micros : ℕ)
  | seen (w : WatchedPod) (ready : Bool)
  | markedDead (pod : String) (ip : Option String)
  | batch (batchSize : ℕ)

def nextTable (s : State) : Event → PodTable
  | .passed _ => s.table
  | .seen w ready => if ready then addPodDetails s.table (updatePodsDetails w) else s.table
  | .markedDead pod ip => (markPodAsDead s.table pod ip).1
  | .batch batchSize => (runDeadPodBatch db days s.now batchSize s.table).1

/-- The marks after a change of the table. -/
def nextMarked (s : State) (t : PodTable) (name : String) : Option (ℤ × PodDetail) :=
  match t.lookup name with
  | none => s.marked name
  | some row =>
      if !row.isDead then none
      else if (s.table.lookup name).any PodDetail.isDead then s.marked name
      else some (s.now, row)

def step (s : State) (e : Event) : State where
  now := match e with
    | .passed micros => s.now + micros
    | _ => s.now
  table := nextTable db days s e
  marked := nextMarked s (nextTable db days s e)

def machine (start : ℤ) : Machine State Event where
  init := ⟨start, Table.empty, fun _ => none⟩
  step s e := some (step db days s e)

/-! What the window promises. -/

/-- Within the window after its mark, a row is still there as it was marked. -/
def Resolvable (s : State) : Prop :=
  ∀ name deadAt row, s.marked name = some (deadAt, row) → s.now < deadAt + days * microsPerDay →
    s.table.lookup name = some row

/-- A row that the step deletes has been dead for the window. -/
def DeletesLongDead (s s' : State) : Prop :=
  ∀ name row, s.table.lookup name = some row → s'.table.lookup name = none →
    ∃ deadAt, s.marked name = some (deadAt, row) ∧ deadAt + days * microsPerDay ≤ s.now

/-- A batch does not run while the stamp of a dead row has left the window and its mark
has not. -/
def OutsideGap (s : State) : Event → Prop
  | .batch _ => ∀ name row deadAt, s.table.lookup name = some row → row.isDead = true →
      s.marked name = some (deadAt, row) →
      s.now ≤ db.instant row.timeStamp + days * microsPerDay ∨
        deadAt + days * microsPerDay ≤ s.now
  | _ => True

/-! One step. -/

/-- What an event can do to the row of a name. -/
inductive RowChange (s : State) (e : Event) (name : String) : Prop
  | same (h : (nextTable db days s e).lookup name = s.table.lookup name)
  | alive (row : PodDetail) (h : (nextTable db days s e).lookup name = some row)
      (halive : row.isDead = false)
  | died (row : PodDetail) (hold : s.table.lookup name = some row) (halive : row.isDead = false)
      (h : (nextTable db days s e).lookup name = some { row with isDead := true })
  | deleted (row : PodDetail) (batchSize : ℕ) (he : e = .batch batchSize)
      (hold : s.table.lookup name = some row) (hexpired : isExpired db days s.now row = true)
      (h : (nextTable db days s e).lookup name = none)

theorem mem_expired {now : ℤ} {batchSize : ℕ} {t : PodTable} {name : String}
    (h : name ∈ (((t.rows.filter (isExpired db days now)).map PodDetail.podName).insertionSort
      fun a b => db.nameLe a b).take batchSize) :
    ∃ row, t.lookup name = some row ∧ isExpired db days now row = true := by
  have hmem := (List.mem_insertionSort _).mp (List.mem_of_mem_take h)
  obtain ⟨row, hrow, rfl⟩ := List.mem_map.mp hmem
  obtain ⟨hrow, hexpired⟩ := List.mem_filter.mp hrow
  exact ⟨row, Table.lookup_of_mem hrow, hexpired⟩

theorem rowChange (s : State) (e : Event) (name : String) : RowChange db days s e name := by
  cases e with
  | passed micros => exact .same rfl
  | seen w ready =>
      cases ready with
      | false => exact .same rfl
      | true =>
          by_cases hname : name = w.pod.name
          · subst hname
            have hnamed : ¬ Blank (updatePodsDetails w).podName := w.pod.not_blank
            obtain ⟨row, hlookup, halive⟩ : ∃ row,
                (addPodDetails s.table (updatePodsDetails w)).lookup w.pod.name = some row ∧
                  row.isDead = false := by
              rw [addPodDetails, if_neg hnamed, upsertPodDetails]
              refine ⟨_, (Table.lookup_upsert s.table _ _ _ w.pod.name).trans (if_pos rfl), ?_⟩
              cases s.table.lookup w.pod.name <;> rfl
            exact .alive row hlookup halive
          · exact .same (lookup_addPodDetails_of_ne s.table w hname)
  | markedDead pod ip =>
      by_cases hblank : trim pod = ""
      · have hsame : (markPodAsDead s.table pod ip).1 = s.table := by
          rw [markPodAsDead, if_pos hblank]
        exact .same (congrArg (fun t => t.lookup name) hsame)
      have hlookup : (nextTable db days s (.markedDead pod ip)).lookup name =
          (s.table.lookup name).map (markRow (trim pod) ip) :=
        lookup_markDead s.table hblank ip name
      cases hrow : s.table.lookup name with
      | none =>
          rw [hrow] at hlookup
          exact .same (hlookup.trans hrow.symm)
      | some row =>
          rw [hrow, Option.map_some] at hlookup
          by_cases hself : markRow (trim pod) ip row = row
          · rw [hself] at hlookup
            exact .same (hlookup.trans hrow.symm)
          · obtain ⟨hmarked, hdead⟩ := not_or.mp (mt (markRow_eq_self_iff _ _ _).mpr hself)
            rw [markRow, if_pos (Bool.not_eq_false _ ▸ hmarked)] at hlookup
            exact .died row hrow (Bool.eq_false_iff.mpr hdead) hlookup
  | batch batchSize =>
      have hlookup := Table.lookup_delete s.table (fun row =>
        ((((s.table.rows.filter (isExpired db days s.now)).map PodDetail.podName).insertionSort
          fun a b => db.nameLe a b).take batchSize).contains row.podName) name
      change (nextTable db days s (.batch batchSize)).lookup name = _ at hlookup
      cases hrow : s.table.lookup name with
      | none =>
          rw [hrow] at hlookup
          exact .same (hlookup.trans hrow.symm)
      | some row =>
          rw [hrow, Option.filter_some] at hlookup
          split at hlookup
          · exact .same (hlookup.trans hrow.symm)
          · rename_i hcontains
            rw [Bool.not_eq_true', Bool.not_eq_false] at hcontains
            have hmem := List.contains_iff_mem.mp hcontains
            obtain ⟨row', hrow', hexpired⟩ := mem_expired db days hmem
            rw [Table.key_of_lookup hrow, hrow] at hrow'
            obtain rfl := Option.some.inj hrow'
            exact .deleted row batchSize rfl hrow hexpired hlookup

/-! The marks of the rows. -/

/-- The mark of a dead row is the row, and a row that is alive has none. -/
def Marked (s : State) : Prop :=
  ∀ name row, s.table.lookup name = some row →
    if row.isDead then ∃ deadAt, s.marked name = some (deadAt, row) else s.marked name = none

theorem marked_step {s : State} (h : Marked s) (e : Event) : Marked (step db days s e) := by
  intro name row hrow
  change (nextTable db days s e).lookup name = some row at hrow
  change if row.isDead then
      ∃ deadAt, nextMarked s (nextTable db days s e) name = some (deadAt, row)
    else nextMarked s (nextTable db days s e) name = none
  have hmark : nextMarked s (nextTable db days s e) name =
      if !row.isDead then none
      else if (s.table.lookup name).any PodDetail.isDead then s.marked name
      else some (s.now, row) := by
    rw [nextMarked, hrow]
  rw [hmark]
  cases hdead : row.isDead with
  | false => exact rfl
  | true =>
      cases hlookup : s.table.lookup name with
      | none => exact ⟨s.now, rfl⟩
      | some old =>
          cases holdDead : old.isDead with
          | false => exact ⟨s.now, by simp [holdDead]⟩
          | true =>
              have hkept := h name old hlookup
              rw [if_pos holdDead] at hkept
              obtain ⟨deadAt, hkept⟩ := hkept
              refine ⟨deadAt, ?_⟩
              cases rowChange db days s e name with
              | same hsame =>
                  rw [hrow, hlookup] at hsame
                  simp [holdDead, hkept, Option.some.inj hsame]
              | alive row' hrow' halive =>
                  rw [Option.some.inj (hrow.symm.trans hrow'), halive] at hdead
                  cases hdead
              | died row' hold' halive _ =>
                  rw [Option.some.inj (hlookup.symm.trans hold'), halive] at holdDead
                  cases holdDead
              | deleted _ _ _ _ _ hnone =>
                  rw [hnone] at hrow
                  cases hrow

theorem now_le_step (s : State) (e : Event) : s.now ≤ (step db days s e).now := by
  cases e with
  | passed micros =>
      change s.now ≤ s.now + micros
      omega
  | _ => exact le_refl _

/-- A row that goes was expired, and outside of the gap its mark is as old. -/
theorem deletesLongDead_step {s : State} (hmarked : Marked s) (e : Event)
    (houtside : OutsideGap db days s e) : DeletesLongDead days s (step db days s e) := by
  intro name row hrow hgone
  change (nextTable db days s e).lookup name = none at hgone
  cases rowChange db days s e name with
  | same hsame =>
      rw [hgone, hrow] at hsame
      cases hsame
  | alive _ h _ =>
      rw [hgone] at h
      cases h
  | died _ _ _ h =>
      rw [hgone] at h
      cases h
  | deleted row' batchSize he hold hexpired _ =>
      obtain rfl := Option.some.inj (hrow.symm.trans hold)
      subst he
      rw [isExpired, Bool.and_eq_true, decide_eq_true_eq] at hexpired
      obtain ⟨hdead, hstamp⟩ := hexpired
      have hmark := hmarked name row hrow
      rw [if_pos hdead] at hmark
      obtain ⟨deadAt, hmark⟩ := hmark
      refine ⟨deadAt, hmark, ?_⟩
      rcases houtside name row deadAt hrow hdead hmark with hfresh | hlong
      · omega
      · exact hlong

theorem resolvable_step {s : State} (hmarked : Marked s) (h : Resolvable days s) (e : Event)
    (houtside : OutsideGap db days s e) : Resolvable days (step db days s e) := by
  intro name deadAt row hmark hwindow
  have hnow := now_le_step db days s e
  cases hrow : (step db days s e).table.lookup name with
  | some row' =>
      have hmark' := marked_step db days hmarked e name row' hrow
      split at hmark'
      · obtain ⟨_, hmark'⟩ := hmark'
        rw [hmark] at hmark'
        rw [(Prod.mk.inj (Option.some.inj hmark')).2]
      · rw [hmark] at hmark'
        cases hmark'
  | none =>
      -- Without a row the mark is the old one, so the row went in this step.
      have hkept : s.marked name = some (deadAt, row) := by
        change nextMarked s (step db days s e).table name = _ at hmark
        rw [nextMarked, hrow] at hmark
        exact hmark
      have hold := h name deadAt row hkept (by omega)
      obtain ⟨deadAt', hmark', hlong⟩ :=
        deletesLongDead_step db days hmarked e houtside name row hold hrow
      rw [hkept] at hmark'
      have heq := (Prod.mk.inj (Option.some.inj hmark')).1
      omega

/-- The condition is exact for a batch that has room for all rows. -/
theorem outsideGap_of_deletesLongDead {s : State} (batchSize : ℕ)
    (hroom : s.table.rows.length ≤ batchSize)
    (h : DeletesLongDead days s (step db days s (.batch batchSize))) :
    OutsideGap db days s (.batch batchSize) := by
  intro name row deadAt hrow hdead hmark
  by_contra hgap
  obtain ⟨hstamp, hwindow⟩ := not_or.mp hgap
  have hexpired : isExpired db days s.now row = true := by
    rw [isExpired, hdead, Bool.true_and, decide_eq_true_eq]
    omega
  have hmem : row.podName ∈ (((s.table.rows.filter (isExpired db days s.now)).map
      PodDetail.podName).insertionSort fun a b => db.nameLe a b).take batchSize := by
    rw [List.take_of_length_le, List.mem_insertionSort]
    · exact List.mem_map_of_mem (List.mem_filter.mpr ⟨Table.mem_of_lookup hrow, hexpired⟩)
    · rw [List.length_insertionSort, List.length_map]
      exact (List.length_filter_le _ _).trans hroom
  have hgone : (step db days s (.batch batchSize)).table.lookup name = none := by
    refine (Table.lookup_delete s.table _ name).trans ?_
    rw [hrow, Option.filter_some, if_neg]
    rw [Bool.not_eq_true', Bool.not_eq_false]
    exact List.contains_iff_mem.mpr hmem
  obtain ⟨deadAt', hmark', hlong⟩ := h name row hrow hgone
  rw [hmark] at hmark'
  rw [← (Prod.mk.inj (Option.some.inj hmark')).1] at hlong
  exact hwindow hlong

/-- A pass with no other event between its batches. -/
theorem runDeadPodPass_eq (s : State) (batchSize : ℕ) :
    ∃ count ≤ maxBatchesPerPass, runDeadPodPass db days s.now batchSize s.table =
      ((List.replicate count (Event.batch batchSize)).foldl (step db days) s).table := by
  have hloop (left : ℕ) (s : State) : ∃ count ≤ left,
      runBatches db days s.now batchSize left s.table =
        ((List.replicate count (Event.batch batchSize)).foldl (step db days) s).table := by
    induction left generalizing s with
    | zero => exact ⟨0, le_refl 0, rfl⟩
    | succ left ih =>
        rw [runBatches]
        dsimp only
        split
        · exact ⟨1, by omega, rfl⟩
        · obtain ⟨count, hcount, hrest⟩ := ih (step db days s (.batch batchSize))
          exact ⟨count + 1, by omega, hrest⟩
  exact hloop maxBatchesPerPass s

/-- In a run whose batches all stay outside of the gap, rows go only after they were dead
for the window, and until then they can be resolved. -/
theorem deadPods_outlive (start : ℤ) (events : List Event)
    (houtside : (machine db days start).EveryStep events fun _ s e _ => OutsideGap db days s e) :
    ((machine db days start).EveryStep events fun _ s _ s' => DeletesLongDead days s s') ∧
    (machine db days start).EveryState events fun _ s => Resolvable days s := by
  have hinv (before : List Event) (s : State) (hrun : (machine db days start).run before = some s)
      (hbefore : (machine db days start).EveryStep before
        fun _ s e _ => OutsideGap db days s e) : Marked s ∧ Resolvable days s := by
    have hinit : Marked (machine db days start).init ∧
        Resolvable days (machine db days start).init := by
      constructor
      · intro name row hrow
        cases hrow
      · intro name deadAt row hmark
        cases hmark
    refine Machine.invariant_of_everyStep (P := fun _ s => Marked s ∧ Resolvable days s)
      hinit ?_ hrun hbefore
    intro _ s e s' _ hs hstep hgap
    obtain rfl := Option.some.inj hstep
    exact ⟨marked_step db days hs.1 e, resolvable_step db days hs.1 hs.2 e hgap⟩
  constructor
  · intro before e after s s' hevents hrun hstep
    have hgap := houtside before e after s s' hevents hrun hstep
    obtain rfl := Option.some.inj hstep
    rw [hevents] at houtside
    exact deletesLongDead_step db days (hinv before s hrun houtside.of_append).1 e hgap
  · intro before after s hevents hrun
    rw [hevents] at houtside
    exact (hinv before s hrun houtside.of_append).2

/-! A pod that is not ready for eight days before it is deleted. -/

def webSeen : WatchedPod where
  pod := ⟨"shop", "web-0", by simp [TextScan.isWhitespace]⟩
  podIp := "10.0.0.7"
  podObj := .obj []
  timeStamp := 0
  nodeName := "node-a"
  podIdentity := none
  workloadSelectorLabels := none

/-- The one stamp of the run is the start of the clock. -/
def epoch : Database := ⟨fun t => t / 1000, fun a b => a ≤ b⟩

def unreadyRun : List Event :=
  [.seen webSeen true, .passed (8 * 86400000000), .seen webSeen false,
    .markedDead "web-0" (some "10.0.0.7"), .batch 5000]

/-- With a window of seven days the row goes at the moment of its mark. -/
theorem unready_pod_deleted :
    ¬ ((machine epoch 7 0).EveryStep unreadyRun fun _ s _ s' => DeletesLongDead 7 s s') ∧
    ¬ (machine epoch 7 0).EveryState unreadyRun fun _ s => Resolvable 7 s := by
  constructor
  · intro h
    obtain ⟨deadAt, hmark, hlong⟩ := h (unreadyRun.take 4) (.batch 5000) [] _ _ rfl rfl rfl
      "web-0" _ rfl rfl
    have heq : 8 * 86400000000 = deadAt := (Prod.mk.inj (Option.some.inj hmark)).1
    subst heq
    exact absurd hlong (by decide)
  · intro h
    have hgone := h unreadyRun [] _ rfl rfl "web-0" (8 * 86400000000) _ rfl (by decide)
    cases hgone

/-- The same pod, deleted a minute after it was last seen ready. -/
def promptRun : List Event :=
  [.seen webSeen true, .passed 60000000, .markedDead "web-0" (some "10.0.0.7"),
    .passed (8 * 86400000000), .batch 5000]

theorem promptRun_outsideGap :
    (machine epoch 7 0).EveryStep promptRun fun _ s e _ => OutsideGap epoch 7 s e := by
  intro before e after s s' hevents hrun _
  cases e with
  | batch batchSize =>
      obtain rfl : before = promptRun.take 4 := by
        rcases before with _ | ⟨e₁, _ | ⟨e₂, _ | ⟨e₃, _ | ⟨e₄, _ | ⟨e₅, rest⟩⟩⟩⟩⟩ <;>
          simp_all [promptRun]
      obtain rfl := Option.some.inj hrun
      intro name row deadAt hrow _ hmark
      have hname : name = "web-0" := by
        have hmem := Table.mem_of_lookup hrow
        rw [← Table.key_of_lookup hrow]
        exact congrArg PodDetail.podName (List.mem_singleton.mp hmem)
      subst hname
      have heq : 60000000 = deadAt := (Prod.mk.inj (Option.some.inj hmark)).1
      right
      subst heq
      decide
  | _ => trivial

theorem promptRun_resolvable :
    ((machine epoch 7 0).EveryStep promptRun fun _ s _ s' => DeletesLongDead 7 s s') ∧
    (machine epoch 7 0).EveryState promptRun fun _ s => Resolvable 7 s :=
  deadPods_outlive epoch 7 0 promptRun promptRun_outsideGap

end KGuardian.DeadPods
