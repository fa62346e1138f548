import KGuardian.AuditRun
import KGuardian.Runs
import KGuardian.StatusAggregator

/-!
What an audited row leaves behind (`broker/src/audit.rs`, `pkg/server`). The evaluator
records its verdicts while it answers, the broker stores them when the answer has
come, and an answer or an insert can be lost. Both sides are shown to tell the same
story, about traffic that was observed and policies that were known.
-/
namespace KGuardian.AuditTrail

open Selectors Matcher PolicySemantics PolicyStore Server BrokerTraffic BrokerAudit NetworkProbe
  NetworkEvents Runs
open AuditRun (System SystemStep Audited Controller flushStep addPodsBatch tryEnqueue
  controllers_setController_self controllers_setController_ne)
open StatusAggregator (PolicyKey TupleKey PolicyAgg)

/-- The pipeline with what its evaluations lead to: the rows that were answered, the
calls of `Record`, the answers that are not stored yet, and the table
`audit_verdicts`. -/
structure Trail where
  system : System
  evaluated : List Audited
  recorded : List Record
  answers : List (List AuditVerdictInsert)
  verdicts : List AuditVerdictInsert
  lost : List AuditVerdictInsert

/-- A request can fail before the evaluator sees it, and its answer or the insert
after that. -/
inductive Event where
  | pipeline (x : SystemStep)
  | unreachable (index : ℕ)
  | evaluated (index : ℕ)
  | persisted (index : ℕ)
  | failed (index : ℕ)

section

variable (api : Apimachinery)

/-- The rows that the answer for a request leads to. -/
def rowsOf (a : Audited) : List AuditVerdictInsert :=
  evaluateAndPersist api a.store.lookup a.store a.traffic

/-- The calls of `Record` for a request. -/
def recordsOf (a : Audited) : List Record :=
  match buildFlowForTraffic a.traffic with
  | none => []
  | some flow => (handleEvaluate api a.store.lookup flow.received a.store).recorded

variable (capacity : ℕ)

/-- A row of an unknown traffic type is taken from the queue and not sent. -/
def step (t : Trail) : Event → Option Trail
  | .pipeline (.evaluate _) => none
  | .pipeline x => some { t with system := AuditRun.step capacity t.system x }
  | .unreachable index =>
      t.system.queue[index]?.map fun _ =>
        { t with system := AuditRun.step capacity t.system (.evaluate index) }
  | .evaluated index =>
      match t.system.queue[index]? with
      | none => none
      | some traffic =>
          if (buildFlowForTraffic traffic).isSome then
            let a : Audited := ⟨traffic, t.system.store⟩
            some { t with
              system := AuditRun.step capacity t.system (.evaluate index)
              evaluated := t.evaluated ++ [a]
              recorded := t.recorded ++ recordsOf api a
              answers := t.answers ++ [rowsOf api a] }
          else none
  | .persisted index =>
      t.answers[index]?.map fun rows =>
        { t with answers := t.answers.eraseIdx index, verdicts := t.verdicts ++ rows }
  | .failed index =>
      t.answers[index]?.map fun rows =>
        { t with answers := t.answers.eraseIdx index, lost := t.lost ++ rows }

def start (table : Table) (store : Store) : Trail where
  system := { AuditRun.start store with table }
  evaluated := []
  recorded := []
  answers := []
  verdicts := []
  lost := []

def machine (table : Table) (store : Store) : Machine Trail Event :=
  ⟨start table store, step api capacity⟩

end

/-! What a step does to the stored and the queued rows. -/

/-- The rows of a batch that were stored, and those of them that were queued. -/
structure Ingested (s s' : System) (rows queued : List PodTraffic) : Prop where
  table : s'.table = s.table ++ rows
  queue : s'.queue = s.queue ++ queued
  kept : queued.Sublist rows
  dropped : s'.dropped + queued.length = s.dropped + rows.length
  audited : s'.audited = s.audited
  distinct : (rows.map PodTraffic.uuid).Nodup
  new : ∀ row ∈ rows, row.uuid ∉ s.table.map PodTraffic.uuid
  posted : ∃ node, rows ⊆ (s.controllers node).batch

/-- A step that stores nothing. -/
theorem ingested_nil {s s' : System} (htable : s'.table = s.table) (hqueue : s'.queue = s.queue)
    (hdropped : s'.dropped = s.dropped) (haudited : s'.audited = s.audited) :
    Ingested s s' [] [] where
  table := by rw [htable, List.append_nil]
  queue := by rw [hqueue, List.append_nil]
  kept := List.Sublist.refl _
  dropped := by rw [hdropped]
  audited := haudited
  distinct := List.nodup_nil
  new _ h := absurd h List.not_mem_nil
  posted := ⟨"", List.nil_subset _⟩

/-- What does not fit into the queue is counted. -/
theorem foldl_tryEnqueue_counts (capacity : ℕ) (s : System) (rows : List PodTraffic) :
    ∃ queued drops, rows.foldl (tryEnqueue capacity) s =
      { s with queue := s.queue ++ queued, dropped := s.dropped + drops } ∧
      queued.Sublist rows ∧ queued.length + drops = rows.length := by
  induction rows generalizing s with
  | nil => exact ⟨[], 0, by simp, List.Sublist.refl _, rfl⟩
  | cons row rest ih =>
      obtain ⟨queued, drops, heq, hsub, hlength⟩ := ih (tryEnqueue capacity s row)
      rw [List.foldl_cons, heq]
      by_cases hroom : s.queue.length < capacity
      · refine ⟨row :: queued, drops, by simp [tryEnqueue, hroom], hsub.cons_cons row, ?_⟩
        rw [List.length_cons, List.length_cons]
        omega
      · refine ⟨queued, drops + 1, ?_, hsub.cons row, ?_⟩
        · simp only [tryEnqueue, hroom, if_false, Nat.add_assoc, Nat.add_comm 1 drops]
        · rw [List.length_cons]
          omega

theorem insertInto_ok {t rows t' : Table} (h : insertInto t rows = .ok t') :
    t' = t ++ rows ∧ (rows.map PodTraffic.uuid).Nodup ∧
      ∀ row ∈ rows, row.uuid ∉ t.map PodTraffic.uuid := by
  rw [insertInto] at h
  split at h
  · rename_i hkeys
    exact ⟨(Except.ok.inj h).symm, hkeys⟩
  · cases h

/-- The rows that an accepted batch adds are of the batch and have new keys. -/
theorem createPodTrafficBatch_ok {t t' : Table} {batch inserted : List PodTraffic}
    (h : createPodTrafficBatch t batch = .ok (t', inserted)) :
    t' = t ++ inserted ∧ inserted ⊆ batch ∧ (inserted.map PodTraffic.uuid).Nodup ∧
      ∀ row ∈ inserted, row.uuid ∉ t.map PodTraffic.uuid := by
  have hsubset : inserted ⊆ batch := by
    rw [AuditRun.inserted_of_ok h]
    exact (DedupTable.newRows_sublist _ _ _).subset
  have hnone : t' = t ∧ inserted = [] → t' = t ++ inserted ∧ inserted ⊆ batch ∧
      (inserted.map PodTraffic.uuid).Nodup ∧
      ∀ row ∈ inserted, row.uuid ∉ t.map PodTraffic.uuid := by
    rintro ⟨rfl, rfl⟩
    exact ⟨(List.append_nil _).symm, hsubset, List.nodup_nil, fun _ hrow => nomatch hrow⟩
  unfold createPodTrafficBatch at h
  split at h
  · cases h
    exact hnone ⟨rfl, rfl⟩
  · simp only at h
    split at h
    · cases h
      exact hnone ⟨rfl, rfl⟩
    · cases hinsert : insertInto t (DedupTable.newRows trafficContentKey
          (fun e => (getRow t e).isSome) [] batch) with
      | error e => simp [hinsert, Except.map] at h
      | ok t'' =>
          simp only [hinsert, Except.map, Except.ok.injEq, Prod.mk.injEq] at h
          obtain ⟨rfl, rfl⟩ := h
          obtain ⟨htable, hkeys⟩ := insertInto_ok hinsert
          exact ⟨htable, hsubset, hkeys⟩

theorem ingested_addPodsBatch {capacity : ℕ} {s s' : System} {node : String}
    (h : addPodsBatch capacity s (s.controllers node).batch = .ok s') :
    ∃ rows queued, Ingested s s' rows queued ∧ s'.controllers = s.controllers := by
  unfold addPodsBatch at h
  cases hbatch : createPodTrafficBatch s.table (s.controllers node).batch with
  | error e => simp [hbatch, Except.map] at h
  | ok out =>
      obtain ⟨table, inserted⟩ := out
      obtain ⟨queued, drops, heq, hsub, hlength⟩ :=
        foldl_tryEnqueue_counts capacity { s with table } inserted
      simp only [hbatch, Except.map, heq, Except.ok.injEq] at h
      subst h
      obtain ⟨htable, hbatched, hdistinct, hnew⟩ := createPodTrafficBatch_ok hbatch
      refine ⟨inserted, queued, ⟨htable, rfl, hsub, ?_, rfl, hdistinct, hnew, node, hbatched⟩, rfl⟩
      change s.dropped + drops + queued.length = s.dropped + inserted.length
      omega

section

variable (capacity : ℕ)

theorem ingested_flush (s : System) (node : String) (delivered : Bool) :
    ∃ rows queued, Ingested s (flushStep capacity s node delivered) rows queued := by
  have hkept (c : Controller) : Ingested s (s.setController node c) [] [] :=
    ingested_nil rfl rfl rfl rfl
  rw [flushStep]
  split
  · exact ⟨[], [], ingested_nil rfl rfl rfl rfl⟩
  · split
    · rename_i s' hposted
      cases delivered with
      | false => exact absurd hposted (by simp)
      | true =>
          obtain ⟨rows, queued, h, -⟩ := ingested_addPodsBatch hposted
          exact ⟨rows, queued, h.table, h.queue, h.kept, h.dropped, h.audited, h.distinct, h.new,
            h.posted⟩
    · exact ⟨[], [], hkept _⟩

/-- Each step but an evaluation stores the new rows of a batch, or none. -/
theorem ingested_step (s : System) (x : SystemStep) (hx : ∀ index, x ≠ .evaluate index) :
    ∃ rows queued, Ingested s (AuditRun.step capacity s x) rows queued := by
  cases x with
  | flush node delivered => exact ingested_flush capacity s node delivered
  | evaluate index => exact absurd rfl (hx index)
  | _ => exact ⟨[], [], ingested_nil rfl rfl rfl rfl⟩

/-- The step is the observation that the row was made of. -/
def Observes (x : SystemStep) (row : PodTraffic) : Prop :=
  ∃ node data podData uuid key, x = .observe node data podData uuid ∧
    cacheKey data podData = some key ∧ row = trafficRow key podData.podNamespace uuid

theorem observes_of_build {cache cache' : List TrafficKey} {node : String}
    {data : NetworkEventData} {podData : PodInfo} {uuid : String} {row : PodTraffic}
    (h : buildTrafficEvent cache data podData uuid = (cache', some row)) :
    Observes (.observe node data podData uuid) row := by
  obtain ⟨key, hkey, hrow⟩ := exists_key_of_build (congrArg Prod.snd h)
  exact ⟨node, data, podData, uuid, key, rfl, hkey, hrow⟩

theorem batch_setController {s s' : System} {node node' : String} {cache : List TrafficKey}
    {batch : List PodTraffic} (hbatch : batch ⊆ (s.controllers node').batch)
    (hsame : s'.controllers = s.controllers) {row : PodTraffic}
    (hrow : row ∈ ((s'.setController node' ⟨cache, batch⟩).controllers node).batch) :
    row ∈ (s.controllers node).batch := by
  by_cases hnode : node = node'
  · subst hnode
    rw [controllers_setController_self] at hrow
    exact hbatch hrow
  · rwa [controllers_setController_ne _ _ hnode, hsame] at hrow

theorem flushNetworkBatch_subset (batch : List PodTraffic) (posted : Bool) :
    flushNetworkBatch batch posted ⊆ batch := by
  rw [flushNetworkBatch]
  split
  · exact List.nil_subset _
  · exact List.drop_subset _ _

theorem batch_flush (s : System) (node' : String) (delivered : Bool) {node : String}
    {row : PodTraffic}
    (hrow : row ∈ ((flushStep capacity s node' delivered).controllers node).batch) :
    row ∈ (s.controllers node).batch := by
  rw [flushStep] at hrow
  split at hrow
  · exact hrow
  · split at hrow
    · rename_i s' hposted
      cases delivered with
      | false => exact absurd hposted (by simp)
      | true =>
          obtain ⟨-, -, -, hsame⟩ := ingested_addPodsBatch hposted
          exact batch_setController (flushNetworkBatch_subset _ _) hsame hrow
    · exact batch_setController (flushNetworkBatch_subset _ _) rfl hrow

theorem batch_step (s : System) (x : SystemStep) {node : String} {row : PodTraffic}
    (hrow : row ∈ ((AuditRun.step capacity s x).controllers node).batch) :
    row ∈ (s.controllers node).batch ∨ Observes x row := by
  cases x with
  | observe node' data podData uuid =>
      cases hbuild : buildTrafficEvent (s.controllers node').cache data podData uuid with
      | mk cache traffic =>
          simp only [AuditRun.step, hbuild] at hrow
          by_cases hnode : node = node'
          · subst hnode
            rw [controllers_setController_self] at hrow
            rcases List.mem_append.mp hrow with hold | hnew
            · exact Or.inl hold
            · rw [Option.mem_toList] at hnew
              obtain rfl := Option.mem_def.mp hnew
              exact Or.inr (observes_of_build hbuild)
          · rw [controllers_setController_ne _ _ hnode] at hrow
            exact Or.inl hrow
  | evict node' keep => exact Or.inl (batch_setController (List.Subset.refl _) rfl hrow)
  | flush node' delivered => exact Or.inl (batch_flush capacity s node' delivered hrow)
  | evaluate index =>
      simp only [AuditRun.step] at hrow
      split at hrow
      · exact Or.inl hrow
      · exact Or.inl hrow
  | _ => exact Or.inl hrow

end

/-! One step. -/

def ObservedIn (events : List Event) (row : PodTraffic) : Prop :=
  ∃ x, .pipeline x ∈ events ∧ Observes x row

/-- Each row that was inserted is in one place or was dropped, and each verdict of
an answer is recorded, and stored, lost or on the way. -/
structure Inv (api : Apimachinery) (table : Table) (events : List Event) (t : Trail)
    (inserted : List PodTraffic) : Prop where
  new : ∀ row ∈ inserted, row.uuid ∉ table.map PodTraffic.uuid
  table : t.system.table = table ++ inserted
  distinct : (inserted.map PodTraffic.uuid).Nodup
  once : (t.system.queue ++ t.system.audited.map Audited.traffic).Subperm inserted
  dropped : t.system.queue.length + t.system.audited.length + t.system.dropped = inserted.length
  observed : ∀ row ∈ inserted, ObservedIn events row
  pending : ∀ node, ∀ row ∈ (t.system.controllers node).batch, ObservedIn events row
  evaluated : t.evaluated.Sublist t.system.audited
  recorded : t.recorded = t.evaluated.flatMap (recordsOf api)
  answered :
    (t.verdicts ++ t.lost ++ t.answers.flatten).Perm (t.evaluated.flatMap (rowsOf api))

section

variable {api : Apimachinery} {capacity : ℕ} {table : Table} {events : List Event} {t : Trail}
  {inserted : List PodTraffic}

theorem ObservedIn.append {row : PodTraffic} (h : ObservedIn events row) (more : List Event) :
    ObservedIn (events ++ more) row := by
  obtain ⟨x, hx, hrow⟩ := h
  exact ⟨x, List.mem_append_left _ hx, hrow⟩

theorem inv_start (store : Store) : Inv api table [] (start table store) [] where
  new _ h := absurd h List.not_mem_nil
  table := (List.append_nil _).symm
  distinct := List.nodup_nil
  once := List.nil_subperm
  dropped := rfl
  observed _ h := absurd h List.not_mem_nil
  pending _ _ h := absurd h List.not_mem_nil
  evaluated := List.Sublist.refl _
  recorded := rfl
  answered := List.Perm.refl _

theorem Inv.pipeline (h : Inv api table events t inserted) {x : SystemStep}
    (hx : ∀ index, x ≠ .evaluate index) :
    ∃ inserted', Inv api table (events ++ [.pipeline x])
      { t with system := AuditRun.step capacity t.system x } inserted' := by
  obtain ⟨rows, queued, hin⟩ := ingested_step capacity t.system x hx
  have hbatch (node : String) (row : PodTraffic)
      (hrow : row ∈ ((AuditRun.step capacity t.system x).controllers node).batch) :
      ObservedIn (events ++ [.pipeline x]) row := by
    rcases batch_step capacity t.system x hrow with hold | hnew
    · exact (h.pending node row hold).append _
    · exact ⟨x, List.mem_append_right _ List.mem_cons_self, hnew⟩
  have hnew (row : PodTraffic) (hrow : row ∈ rows) :
      row.uuid ∉ table.map PodTraffic.uuid ++ inserted.map PodTraffic.uuid := by
    rw [← List.map_append, ← h.table]
    exact hin.new row hrow
  refine ⟨inserted ++ rows, ?_, ?_, ?_, ?_, ?_, ?_, hbatch, ?_, h.recorded, h.answered⟩
  · intro row hrow
    rcases List.mem_append.mp hrow with hold | hrow
    · exact h.new row hold
    · exact fun hkey => hnew row hrow (List.mem_append_left _ hkey)
  · rw [hin.table, h.table, List.append_assoc]
  · rw [List.map_append, List.nodup_append]
    refine ⟨h.distinct, hin.distinct, ?_⟩
    intro k hk k' hk' heq
    obtain ⟨row, hrow, rfl⟩ := List.mem_map.mp hk'
    exact hnew row hrow (List.mem_append_right _ (heq ▸ hk))
  · have hmoved : (t.system.queue ++ queued ++ t.system.audited.map Audited.traffic).Perm
        (t.system.queue ++ t.system.audited.map Audited.traffic ++ queued) := by
      simp only [List.append_assoc]
      exact List.perm_append_comm.append_left _
    rw [hin.queue, hin.audited]
    exact hmoved.subperm.trans (h.once.append hin.kept.subperm)
  · have hold := h.dropped
    have hnew := hin.dropped
    simp only [hin.queue, hin.audited, List.length_append]
    omega
  · intro row hrow
    rcases List.mem_append.mp hrow with hold | hnew
    · exact (h.observed row hold).append _
    · obtain ⟨node, hposted⟩ := hin.posted
      exact (h.pending node row (hposted hnew)).append _
  · rw [hin.audited]
    exact h.evaluated

theorem step_evaluate {s : System} {index : ℕ} {row : PodTraffic}
    (hrow : s.queue[index]? = some row) :
    AuditRun.step capacity s (.evaluate index) =
      { s with
        queue := s.queue.eraseIdx index
        audited := s.audited ++ [⟨row, s.store⟩] } := by
  rw [AuditRun.step, hrow]

/-- A row that is taken from the queue is in the log instead. The fields that tell
what came of it are left to the caller. -/
theorem Inv.taken (h : Inv api table events t inserted) (e : Event) {index : ℕ}
    {row : PodTraffic} (hrow : t.system.queue[index]? = some row) {t' : Trail}
    (hsystem : t'.system = AuditRun.step capacity t.system (.evaluate index))
    (hevaluated : t'.evaluated.Sublist (t.system.audited ++ [⟨row, t.system.store⟩]))
    (hrecorded : t'.recorded = t'.evaluated.flatMap (recordsOf api))
    (hanswered : (t'.verdicts ++ t'.lost ++ t'.answers.flatten).Perm
      (t'.evaluated.flatMap (rowsOf api))) :
    Inv api table (events ++ [e]) t' inserted := by
  rw [step_evaluate hrow] at hsystem
  obtain ⟨hindex, rfl⟩ := List.getElem?_eq_some_iff.mp hrow
  refine ⟨h.new, ?_, h.distinct, ?_, ?_, fun r hr => (h.observed r hr).append _, ?_, ?_,
    hrecorded, hanswered⟩
  · rw [hsystem]
    exact h.table
  · rw [hsystem]
    refine List.Perm.subperm ?_ |>.trans h.once
    have hmoved := List.getElem_cons_eraseIdx_perm hindex
    rw [List.map_append, List.map_singleton, ← List.append_assoc]
    refine List.perm_append_comm.trans ?_
    rw [List.singleton_append, ← List.cons_append]
    exact hmoved.append_right _
  · have hdropped := h.dropped
    have hlength := List.length_eraseIdx_add_one hindex
    rw [hsystem]
    simp only [List.length_append, List.length_singleton]
    omega
  · intro node r hr
    rw [hsystem] at hr
    exact (h.pending node r hr).append _
  · rw [hsystem]
    exact hevaluated

/-- The request never reached the evaluator. -/
theorem Inv.unreachable (h : Inv api table events t inserted) (capacity : ℕ) {index : ℕ}
    {row : PodTraffic} (hrow : t.system.queue[index]? = some row) :
    Inv api table (events ++ [.unreachable index])
      { t with system := AuditRun.step capacity t.system (.evaluate index) } inserted :=
  @Inv.taken _ capacity _ _ _ _ h _ _ _ hrow _ rfl
    (h.evaluated.trans (List.sublist_append_left _ _)) h.recorded h.answered

theorem Inv.evaluate (h : Inv api table events t inserted) (capacity : ℕ) {index : ℕ}
    {row : PodTraffic} (hrow : t.system.queue[index]? = some row) :
    Inv api table (events ++ [.evaluated index])
      { t with
        system := AuditRun.step capacity t.system (.evaluate index)
        evaluated := t.evaluated ++ [⟨row, t.system.store⟩]
        recorded := t.recorded ++ recordsOf api ⟨row, t.system.store⟩
        answers := t.answers ++ [rowsOf api ⟨row, t.system.store⟩] } inserted := by
  refine @Inv.taken _ capacity _ _ _ _ h _ _ _ hrow _ rfl
    (h.evaluated.append (List.Sublist.refl _)) ?_ ?_
  · simp only [h.recorded, List.flatMap_append, List.flatMap_singleton]
  · have hanswered := h.answered
    simp only [List.flatten_append, List.flatten_singleton, List.flatMap_append,
      List.flatMap_singleton, List.append_assoc] at hanswered ⊢
    simpa only [List.append_assoc] using
      hanswered.append_right (rowsOf api ⟨row, t.system.store⟩)

/-- The rows of an answer move from the pending ones to one of the two lists. -/
theorem Inv.settled (h : Inv api table events t inserted) (e : Event) {index : ℕ}
    {rows : List AuditVerdictInsert} (hrows : t.answers[index]? = some rows)
    {verdicts lost : List AuditVerdictInsert}
    (hmoved : (verdicts ++ lost).Perm (t.verdicts ++ t.lost ++ rows)) :
    Inv api table (events ++ [e])
      { t with answers := t.answers.eraseIdx index, verdicts, lost } inserted := by
  obtain ⟨hindex, rfl⟩ := List.getElem?_eq_some_iff.mp hrows
  refine ⟨h.new, h.table, h.distinct, h.once, h.dropped, fun r hr => (h.observed r hr).append _,
    fun node r hr => (h.pending node r hr).append _, h.evaluated, h.recorded, ?_⟩
  refine .trans ?_ h.answered
  have hflat := (List.getElem_cons_eraseIdx_perm hindex).flatten
  rw [List.flatten_cons] at hflat
  refine (hmoved.append_right _).trans ?_
  rw [List.append_assoc]
  exact hflat.append_left _

theorem inv_step {t' : Trail} {e : Event} (h : Inv api table events t inserted)
    (hstep : step api capacity t e = some t') :
    ∃ inserted', Inv api table (events ++ [e]) t' inserted' := by
  cases e with
  | pipeline x =>
      have hx : ∀ index, x ≠ .evaluate index := by
        rintro index rfl
        cases hstep
      have heq : t' = { t with system := AuditRun.step capacity t.system x } := by
        cases x with
        | evaluate index => exact absurd rfl (hx index)
        | _ => exact (Option.some.inj hstep).symm
      subst heq
      exact h.pipeline hx
  | unreachable index =>
      obtain ⟨row, hrow, rfl⟩ := Option.map_eq_some_iff.mp hstep
      exact ⟨inserted, h.unreachable capacity hrow⟩
  | evaluated index =>
      rw [step] at hstep
      split at hstep
      · cases hstep
      · rename_i row hrow
        obtain ⟨-, rfl⟩ := Machine.of_guard hstep
        exact ⟨inserted, h.evaluate capacity hrow⟩
  | persisted index =>
      obtain ⟨rows, hrows, rfl⟩ := Option.map_eq_some_iff.mp hstep
      refine ⟨inserted, h.settled _ hrows ?_⟩
      simp only [List.append_assoc]
      exact List.perm_append_comm.append_left _
  | failed index =>
      obtain ⟨rows, hrows, rfl⟩ := Option.map_eq_some_iff.mp hstep
      refine ⟨inserted, h.settled _ hrows ?_⟩
      rw [List.append_assoc]

theorem inv_run {store : Store} (h : (machine api capacity table store).run events = some t) :
    ∃ inserted, Inv api table events t inserted := by
  refine Machine.invariant (P := fun events t => ∃ inserted, Inv api table events t inserted)
    ⟨[], inv_start store⟩ ?_ h
  rintro events t e t' - ⟨inserted, hinv⟩ hstep
  exact inv_step hinv hstep

end

/-! What a row says. -/

/-- The row is about the policy and the ends of the flow, and about whether the
policy allows the flow. -/
structure Tells (flow : AuditFlow) (ns name uid : String) (applies allowed : Direction → Prop)
    (v : AuditVerdictInsert) : Prop where
  policy : v.policyNamespace = ns ∧ v.policyName = name ∧ v.policyUid = uid
  source : v.srcNamespace = flow.srcPodNamespace ∧ v.srcPod = flow.srcPodName
  destination : v.dstNamespace = flow.dstPodNamespace ∧ v.dstPod = flow.dstPodName
  service : v.dstPort = flow.dstPort ∧ v.protocol = flow.protocol
  applies : applies v.direction
  verdict : v.verdict = .allow ∧ allowed v.direction ∨
    v.verdict = .wouldDeny ∧ ¬ allowed v.direction

def TellsPolicy (api : Apimachinery) (a : Audited) (flow : AuditFlow) (p : AuditNetworkPolicy)
    (v : AuditVerdictInsert) : Prop :=
  Restricts p.spec.policyTypes p.spec.egress v.direction ∧
    Tells flow p.ns p.name p.uid (Applies api a.store.lookup p flow.received)
      (Allowed api a.store.lookup p.ns p.spec flow.received) v

def TellsCluster (api : Apimachinery) (a : Audited) (flow : AuditFlow)
    (p : AuditClusterNetworkPolicy) (v : AuditVerdictInsert) : Prop :=
  Restricts p.spec.policyTypes p.spec.egress v.direction ∧
    Tells flow "" p.name p.uid (AppliesCluster api a.store.lookup p flow.received)
      (fun d => Allowed api a.store.lookup (subjectNamespace flow.received d)
        p.spec.toNetworkPolicySpec flow.received d) v

/-- The row is about a policy that was known when the flow was evaluated. -/
def Justified (api : Apimachinery) (a : Audited) (v : AuditVerdictInsert) : Prop :=
  ∃ flow, buildFlowForTraffic a.traffic = some flow ∧
    ((∃ p ∈ a.store.policies, TellsPolicy api a flow p v) ∨
      ∃ p ∈ a.store.clusterPolicies, TellsCluster api a flow p v)

/-- Each policy that restricts the flow in a direction and applies to it has a row. -/
def Covered (api : Apimachinery) (a : Audited) (rows : List AuditVerdictInsert) : Prop :=
  ∀ flow, buildFlowForTraffic a.traffic = some flow →
    (∀ p ∈ a.store.policies, ∀ d, Restricts p.spec.policyTypes p.spec.egress d →
      Applies api a.store.lookup p flow.received d →
      ∃ v ∈ rows, v.direction = d ∧ TellsPolicy api a flow p v) ∧
    ∀ p ∈ a.store.clusterPolicies, ∀ d, Restricts p.spec.policyTypes p.spec.egress d →
      AppliesCluster api a.store.lookup p flow.received d →
      ∃ v ∈ rows, v.direction = d ∧ TellsCluster api a flow p v

theorem isPersistableVerdict_iff (r : Result) :
    isPersistableVerdict r.verdict = true ↔ isCounted r = true := by
  cases h : r.verdict <;> simp [isPersistableVerdict, isCounted, h]

theorem tells_auditVerdict {flow : AuditFlow} {r : Result} {applies allowed : Direction → Prop}
    (hdecides : Decides r.verdict (applies r.direction) (allowed r.direction))
    (hcounted : isCounted r = true) :
    Tells flow r.policyNamespace r.policyName r.policyUID applies allowed
      (auditVerdict flow r) := by
  have happlies : applies r.direction := by
    by_contra hnot
    simp [isCounted, hdecides.notApplicable.mpr hnot] at hcounted
  refine ⟨⟨rfl, rfl, rfl⟩, ⟨rfl, rfl⟩, ⟨rfl, rfl⟩, ⟨rfl, rfl⟩, happlies, ?_⟩
  by_cases hallowed : allowed r.direction
  · exact Or.inl ⟨hdecides.allow.mpr ⟨happlies, hallowed⟩, hallowed⟩
  · exact Or.inr ⟨hdecides.wouldDeny.mpr ⟨happlies, hallowed⟩, hallowed⟩

theorem result_policy (policy : AuditNetworkPolicy) (api : Apimachinery) (flow : Flow)
    (lookup : Lookup) (d : Direction) :
    let r := matchDirection api flow policy lookup d
    r.policyNamespace = policy.ns ∧ r.policyName = policy.name ∧ r.policyUID = policy.uid := by
  unfold matchDirection
  repeat' split
  all_goals exact ⟨rfl, rfl, rfl⟩

theorem result_clusterPolicy (policy : AuditClusterNetworkPolicy) (api : Apimachinery)
    (flow : Flow) (lookup : Lookup) (d : Direction) :
    let r := matchClusterDirection api flow policy lookup d
    r.policyNamespace = "" ∧ r.policyName = policy.name ∧ r.policyUID = policy.uid := by
  unfold matchClusterDirection
  repeat' split
  all_goals exact ⟨rfl, rfl, rfl⟩

section

variable {api : Apimachinery} {a : Audited} {flow : AuditFlow}
  (hflow : buildFlowForTraffic a.traffic = some flow)
include hflow

/-- The rows of an answer are those of a scan of the whole store. -/
theorem mem_rowsOf {v : AuditVerdictInsert} : v ∈ rowsOf api a ↔
    ∃ r ∈ fullScan api a.store.lookup flow.received a.store, isCounted r = true ∧
      auditVerdict flow r = v := by
  have hscan (r : Result) := @mem_counted_iff api a.store.lookup flow.received
    a.store.lookup_sound a.store.lookup_anonymous a.store r
  simp only [rowsOf, evaluateAndPersist, hflow, handleEvaluate, List.mem_map, List.mem_filter,
    isPersistableVerdict_iff] at hscan ⊢
  simp only [hscan, and_assoc]

end

section

variable {api : Apimachinery} (hapi : api.Documented) {a : Audited} {flow : AuditFlow}
include hapi

theorem tellsPolicy_of_matchDirection {p : AuditNetworkPolicy} {d : Direction}
    (hd : Restricts p.spec.policyTypes p.spec.egress d)
    (hcounted : isCounted (matchDirection api flow.received p a.store.lookup d) = true) :
    TellsPolicy api a flow p
      (auditVerdict flow (matchDirection api flow.received p a.store.lookup d)) := by
  have hdecides := matchDirection_decides hapi flow.received p a.store.lookup
    a.store.lookup_sound d
  have hdirection := direction_matchDirection api flow.received p a.store.lookup d
  obtain ⟨hns, hname, huid⟩ := result_policy p api flow.received a.store.lookup d
  generalize matchDirection api flow.received p a.store.lookup d = r at *
  subst hdirection
  refine ⟨hd, ?_⟩
  rw [← hns, ← hname, ← huid]
  exact tells_auditVerdict (hns ▸ hdecides) hcounted

theorem tellsCluster_of_matchClusterDirection {p : AuditClusterNetworkPolicy} {d : Direction}
    (hd : Restricts p.spec.policyTypes p.spec.egress d)
    (hcounted : isCounted (matchClusterDirection api flow.received p a.store.lookup d) = true) :
    TellsCluster api a flow p
      (auditVerdict flow (matchClusterDirection api flow.received p a.store.lookup d)) := by
  have hdecides := matchClusterDirection_decides hapi flow.received p a.store.lookup d
  have hdirection := direction_matchClusterDirection api flow.received p a.store.lookup d
  obtain ⟨hns, hname, huid⟩ := result_clusterPolicy p api flow.received a.store.lookup d
  generalize matchClusterDirection api flow.received p a.store.lookup d = r at *
  subst hdirection
  refine ⟨hd, ?_⟩
  rw [← hns, ← hname, ← huid]
  exact tells_auditVerdict hdecides hcounted

theorem justified_of_mem {v : AuditVerdictInsert} (hv : v ∈ rowsOf api a) : Justified api a v := by
  cases hflow : buildFlowForTraffic a.traffic with
  | none => simp [rowsOf, evaluateAndPersist, hflow] at hv
  | some flow =>
      obtain ⟨r, hr, hcounted, rfl⟩ := (mem_rowsOf hflow).mp hv
      refine ⟨flow, hflow, ?_⟩
      rcases List.mem_append.mp hr with hpolicy | hcluster
      · obtain ⟨p, hp, hr⟩ := List.mem_flatMap.mp hpolicy
        obtain ⟨d, hd, rfl⟩ := List.mem_map.mp hr
        rw [effectivePolicyTypes, mem_effectiveTypes] at hd
        exact Or.inl ⟨p, hp, tellsPolicy_of_matchDirection hapi hd hcounted⟩
      · obtain ⟨p, hp, hr⟩ := List.mem_flatMap.mp hcluster
        obtain ⟨d, hd, rfl⟩ := List.mem_map.mp hr
        rw [effectivePolicyTypesCluster, mem_effectiveTypes] at hd
        exact Or.inr ⟨p, hp, tellsCluster_of_matchClusterDirection hapi hd hcounted⟩

/-- An answer leaves out no policy that applies. -/
theorem covered_rowsOf : Covered api a (rowsOf api a) := by
  intro flow hflow
  constructor
  · intro p hp d hd happlies
    have hdecides := matchDirection_decides hapi flow.received p a.store.lookup
      a.store.lookup_sound d
    have hcounted : isCounted (matchDirection api flow.received p a.store.lookup d) = true := by
      simpa [isCounted, hdecides.notApplicable] using happlies
    refine ⟨_, (mem_rowsOf hflow).mpr ⟨_, ?_, hcounted, rfl⟩,
      direction_matchDirection api flow.received p a.store.lookup d,
      tellsPolicy_of_matchDirection hapi hd hcounted⟩
    refine List.mem_append_left _ (List.mem_flatMap.mpr ⟨p, hp, List.mem_map_of_mem ?_⟩)
    rwa [effectivePolicyTypes, mem_effectiveTypes]
  · intro p hp d hd happlies
    have hdecides := matchClusterDirection_decides hapi flow.received p a.store.lookup d
    have hcounted :
        isCounted (matchClusterDirection api flow.received p a.store.lookup d) = true := by
      simpa [isCounted, hdecides.notApplicable] using happlies
    refine ⟨_, (mem_rowsOf hflow).mpr ⟨_, ?_, hcounted, rfl⟩,
      direction_matchClusterDirection api flow.received p a.store.lookup d,
      tellsCluster_of_matchClusterDirection hapi hd hcounted⟩
    refine List.mem_append_right _ (List.mem_flatMap.mpr ⟨p, hp, List.mem_map_of_mem ?_⟩)
    rwa [effectivePolicyTypesCluster, mem_effectiveTypes]

end

theorem Covered.mono {api : Apimachinery} {a : Audited} {rows more : List AuditVerdictInsert}
    (h : Covered api a rows) (hsub : rows ⊆ more) : Covered api a more := by
  intro flow hflow
  obtain ⟨hpolicies, hclusters⟩ := h flow hflow
  constructor
  · intro p hp d hd happlies
    obtain ⟨v, hv, htells⟩ := hpolicies p hp d hd happlies
    exact ⟨v, hsub hv, htells⟩
  · intro p hp d hd happlies
    obtain ⟨v, hv, htells⟩ := hclusters p hp d hd happlies
    exact ⟨v, hsub hv, htells⟩

/-- The rows that a run adds to the table, each of them once. Each waits, was taken or was
dropped, and those that were taken are evaluated once or not at all. -/
structure Placed (table : Table) (events : List Event) (t : Trail) (inserted : List PodTraffic) :
    Prop where
  new : ∀ row ∈ inserted, row.uuid ∉ table.map PodTraffic.uuid
  table : t.system.table = table ++ inserted
  storedOnce : (inserted.map PodTraffic.uuid).Nodup
  observed : ∀ row ∈ inserted, ObservedIn events row
  places : t.system.queue ++ t.system.audited.map Audited.traffic ⊆ inserted
  takenOnce :
    ((t.system.queue ++ t.system.audited.map Audited.traffic).map PodTraffic.uuid).Nodup
  dropped : t.system.queue.length + t.system.audited.length + t.system.dropped = inserted.length
  evaluated : t.evaluated.Sublist t.system.audited
  evaluatedOnce : (t.evaluated.map fun a => a.traffic.uuid).Nodup

theorem Inv.toPlaced {api : Apimachinery} {table : Table} {events : List Event} {t : Trail}
    {inserted : List PodTraffic} (h : Inv api table events t inserted) :
    Placed table events t inserted := by
  have htaken :
      ((t.system.queue ++ t.system.audited.map Audited.traffic).map PodTraffic.uuid).Nodup := by
    obtain ⟨sub, hperm, hsub⟩ := h.once
    exact (hperm.map _).nodup_iff.mp (h.distinct.sublist (hsub.map _))
  refine ⟨h.new, h.table, h.distinct, h.observed, h.once.subset, htaken, h.dropped,
    h.evaluated, ?_⟩
  rw [List.map_append, List.map_map] at htaken
  exact (List.nodup_append.mp htaken).2.1.sublist (h.evaluated.map _)

/-- In every run each new row is stored once, waits, was taken or was dropped, and none is
taken or evaluated twice, each stored verdict is justified by an observed row and the
policies known when it was evaluated, and once nothing is lost or on the way no verdict is
missing. -/
theorem audit_trail (api : Apimachinery) (hapi : api.Documented) (capacity : ℕ) (table : Table)
    (store : Store) {events : List Event} {t : Trail}
    (hrun : (machine api capacity table store).run events = some t) :
    (∃ inserted, Placed table events t inserted) ∧
    (∀ v ∈ t.verdicts, ∃ a ∈ t.evaluated, ObservedIn events a.traffic ∧ Justified api a v) ∧
    (t.lost = [] → t.answers = [] → ∀ a ∈ t.evaluated, Covered api a t.verdicts) := by
  obtain ⟨inserted, h⟩ := inv_run hrun
  have hobserved (a : Audited) (ha : a ∈ t.evaluated) : ObservedIn events a.traffic :=
    h.observed _ <| h.once.subset <| List.mem_append_right _ <|
      List.mem_map_of_mem (h.evaluated.subset ha)
  refine ⟨⟨inserted, h.toPlaced⟩, ?_, ?_⟩
  · intro v hv
    have hmem : v ∈ t.evaluated.flatMap (rowsOf api) :=
      h.answered.subset (by simp [hv])
    obtain ⟨a, ha, hrow⟩ := List.mem_flatMap.mp hmem
    exact ⟨a, ha, hobserved a ha, justified_of_mem hapi hrow⟩
  · intro hlost hanswers a ha
    refine (covered_rowsOf hapi).mono ?_
    intro v hv
    have hanswered := h.answered
    rw [hlost, hanswers, List.append_nil, List.flatten_nil, List.append_nil] at hanswered
    exact hanswered.symm.subset (List.mem_flatMap.mpr ⟨a, ha, hv⟩)

/-! The counters of the evaluator and the rows of the broker. -/

def rowPolicy (v : AuditVerdictInsert) : PolicyKey := ⟨v.policyNamespace, v.policyName⟩

def rowTuple (v : AuditVerdictInsert) : TupleKey :=
  ⟨v.srcNamespace.getD "" ++ "/" ++ v.srcPod.getD "",
    v.dstNamespace.getD "" ++ "/" ++ v.dstPod.getD "", v.protocol, v.direction, v.dstPort⟩

/-- What a row and a call of `Record` have in common. -/
def rowView (v : AuditVerdictInsert) : PolicyKey × TupleKey × Bool :=
  (rowPolicy v, rowTuple v, v.verdict = .wouldDeny)

def recordView (r : Record) : PolicyKey × TupleKey × Bool :=
  (⟨r.policyNamespace, r.policyName⟩, ⟨r.srcPod, r.dstPod, r.protocol, r.direction, r.dstPort⟩,
    r.wouldDeny)

/-- An answer leads to as many rows as calls, about the same. -/
theorem map_view (api : Apimachinery) (a : Audited) :
    (rowsOf api a).map rowView = (recordsOf api a).map recordView := by
  rw [rowsOf, recordsOf, evaluateAndPersist]
  cases buildFlowForTraffic a.traffic with
  | none => rfl
  | some flow =>
      have hfilter (results : List Result) :
          results.filter (fun r => isPersistableVerdict r.verdict) = results.filter isCounted := by
        refine List.filter_congr fun r _ => ?_
        rw [Bool.eq_iff_iff]
        exact isPersistableVerdict_iff r
      simp only [handleEvaluate, recordResults_eq, hfilter, List.map_map]
      rfl

/-- The calls of `Record` in a run of the aggregator. -/
def verdictsIn (events : List StatusAggregator.Event) : List StatusAggregator.Verdict :=
  events.filterMap fun
    | .recorded v => some v
    | _ => none

/-- An entry that was never dropped counts all verdicts of its policy. -/
theorem counted_of_kept {key : PolicyKey} {events : List StatusAggregator.Event}
    (hkept : ∀ e ∈ events, e ≠ .evicted key) :
    StatusAggregator.counted key events =
      (verdictsIn events).filter fun v => StatusAggregator.policyKey v = key := by
  induction events using List.reverseRecOn with
  | nil => rfl
  | append_singleton events e ih =>
      rw [StatusAggregator.counted_concat, ih fun e he => hkept e (List.mem_append_left _ he),
        verdictsIn, verdictsIn, List.filterMap_append, List.filter_append]
      have he := hkept e (by simp)
      cases e with
      | recorded v =>
          by_cases hkey : StatusAggregator.policyKey v = key <;>
            simp [StatusAggregator.countVerdict, hkey]
      | evicted key' =>
          have hkey : key' ≠ key := fun h => he (by rw [h])
          simp [StatusAggregator.countVerdict, hkey]
      | _ => simp [StatusAggregator.countVerdict]

/-- The counters of a policy are those of its rows. -/
structure Shows (agg : PolicyAgg) (key : PolicyKey) (rows : List AuditVerdictInsert) : Prop where
  flowsEvaluated : agg.flowsEvaluated = rows.countP fun v => rowPolicy v = key
  flowsWouldDeny :
    agg.flowsWouldDeny = rows.countP fun v => rowPolicy v = key ∧ v.verdict = .wouldDeny
  tuples : ∀ tk, Tally.count agg.tuples tk =
    rows.countP fun v => rowPolicy v = key ∧ v.verdict = .wouldDeny ∧ rowTuple v = tk

/-- Verdicts with the views of the rows have their counts. -/
theorem shows_of_perm {key : PolicyKey} {vs : List StatusAggregator.Verdict}
    {rows : List AuditVerdictInsert} {agg : PolicyAgg}
    (hviews : (vs.map fun v => recordView v.record).Perm (rows.map rowView))
    (hexact : StatusAggregator.Exact
      (vs.filter fun v => StatusAggregator.policyKey v = key) agg) : Shows agg key rows := by
  have hcount (q : PolicyKey × TupleKey × Bool → Prop) [DecidablePred q] :
      vs.countP (fun v => q (recordView v.record)) = rows.countP fun v => q (rowView v) := by
    have hboth := hviews.countP_eq fun x => q x
    rwa [List.countP_map, List.countP_map] at hboth
  have hdenials : StatusAggregator.denials
      (vs.filter fun v => StatusAggregator.policyKey v = key) =
      vs.filter fun v => StatusAggregator.policyKey v = key ∧ v.record.wouldDeny := by
    rw [StatusAggregator.denials, List.filter_filter]
    refine List.filter_congr fun v _ => ?_
    by_cases hkey : StatusAggregator.policyKey v = key <;> simp [hkey]
  refine ⟨?_, ?_, fun tk => ?_⟩
  · rw [hexact.flowsEvaluated, ← List.countP_eq_length_filter]
    exact hcount fun x => x.1 = key
  · rw [hexact.flowsWouldDeny, hdenials, ← List.countP_eq_length_filter]
    refine (hcount fun x => x.1 = key ∧ x.2.2 = true).trans (List.countP_congr fun v _ => ?_)
    rw [decide_eq_true_iff, decide_eq_true_iff, rowView, decide_eq_true_iff]
  · rw [hexact.tuples, hdenials, List.count, List.countP_map, List.countP_filter]
    refine .trans (List.countP_congr fun v _ => ?_) <|
      (hcount fun x => x.1 = key ∧ x.2.2 = true ∧ x.2.1 = tk).trans <|
        List.countP_congr fun v _ => ?_
    · rw [Bool.and_eq_true, decide_eq_true_iff, decide_eq_true_iff, Function.comp, beq_iff_eq,
        and_comm, and_assoc]
      exact Iff.rfl
    · rw [decide_eq_true_iff, decide_eq_true_iff, rowView, decide_eq_true_iff]

/-- In every run, and in whatever order the aggregator takes the calls of `Record`
among its flushes, the counters of a policy whose entry was not dropped are those of
its rows: the stored ones, those on the way and the lost ones. -/
theorem status_agrees (api : Apimachinery) (capacity : ℕ) (table : Table) (store : Store)
    {events : List Event} {t : Trail}
    (hrun : (machine api capacity table store).run events = some t)
    {aggregated : List StatusAggregator.Event} {s : StatusAggregator.State}
    (haggregated : StatusAggregator.Run aggregated s)
    (hsame : ((verdictsIn aggregated).map StatusAggregator.Verdict.record).Perm t.recorded)
    (key : PolicyKey) (hkept : ∀ e ∈ aggregated, e ≠ .evicted key) :
    (s.counts.lookup key = none ↔
      ∀ v ∈ t.verdicts ++ t.lost ++ t.answers.flatten, rowPolicy v ≠ key) ∧
    ∀ agg, s.counts.lookup key = some agg →
      Shows agg key (t.verdicts ++ t.lost ++ t.answers.flatten) := by
  obtain ⟨inserted, h⟩ := inv_run hrun
  have hviews : ((verdictsIn aggregated).map fun v => recordView v.record).Perm
      ((t.verdicts ++ t.lost ++ t.answers.flatten).map rowView) := by
    have hrecorded := hsame.map recordView
    rw [List.map_map, h.recorded, List.map_flatMap] at hrecorded
    refine hrecorded.trans ?_
    have hanswered := h.answered.map rowView
    rw [List.map_flatMap] at hanswered
    simp only [map_view] at hanswered
    exact hanswered.symm
  rw [StatusAggregator.lookup_counts haggregated, counted_of_kept hkept,
    StatusAggregator.entryOf]
  constructor
  · have hnone : (verdictsIn aggregated).filter
          (fun v => StatusAggregator.policyKey v = key) = [] ↔
        ∀ v ∈ verdictsIn aggregated, (recordView v.record).1 ≠ key := by
      rw [List.filter_eq_nil_iff]
      refine forall₂_congr fun v _ => not_congr ?_
      rw [decide_eq_true_iff]
      exact Iff.rfl
    have hrows : (∀ v ∈ verdictsIn aggregated, (recordView v.record).1 ≠ key) ↔
        ∀ v ∈ t.verdicts ++ t.lost ++ t.answers.flatten, rowPolicy v ≠ key := by
      constructor
      · intro hall v hv
        obtain ⟨w, hw, heq⟩ := List.mem_map.mp (hviews.symm.subset (List.mem_map_of_mem hv))
        have hne := hall w hw
        rwa [heq] at hne
      · intro hall w hw
        obtain ⟨v, hv, heq⟩ := List.mem_map.mp (hviews.subset (List.mem_map_of_mem hw))
        have hne := hall v hv
        rwa [← heq]
    rw [← hrows, ← hnone]
    split
    · rename_i hnil
      exact iff_of_true rfl hnil
    · rename_i hsome
      exact iff_of_false (by simp) hsome
  · intro agg hagg
    refine shows_of_perm hviews ?_
    split at hagg
    · cases hagg
    · rw [← Option.some.inj hagg]
      exact StatusAggregator.exact_aggOf _

/-! The frontend calls the api of the shop. The pod of the api is known, and the
answer of the evaluator is stored while the aggregator is flushed. -/

def liveStore : Store :=
  { shopStore with
    pods := AList.insert ("shop", "api-0") apiPod ∅
    podsFiled := by
      intro key pod hpod
      by_cases hkey : key = ("shop", "api-0")
      · subst hkey
        rw [AList.lookup_insert] at hpod
        obtain rfl := Option.some.inj hpod
        exact ⟨rfl, rfl⟩
      · rw [AList.lookup_insert_ne hkey] at hpod
        cases hpod }

def webTraffic : PodTraffic := trafficRow AuditRun.webKey (some "shop") "a1"

def webRun : List Event :=
  [.pipeline (.observe "node-a" AuditRun.webEvent AuditRun.apiInfo "a1"),
    .pipeline (.flush "node-a" true), .evaluated 0, .persisted 0]

def webTrail : Trail where
  system :=
    { controllers := ((AuditRun.start liveStore).setController "node-a"
        ⟨[AuditRun.webKey], [webTraffic]⟩ |>.setController "node-a"
          ⟨[AuditRun.webKey], []⟩).controllers
      table := [webTraffic]
      queue := []
      dropped := 0
      store := liveStore
      audited := [⟨webTraffic, liveStore⟩] }
  evaluated := [⟨webTraffic, liveStore⟩]
  recorded := recordsOf reference ⟨webTraffic, liveStore⟩
  answers := []
  verdicts := rowsOf reference ⟨webTraffic, liveStore⟩
  lost := []

def webVerdict : AuditVerdictInsert :=
  ⟨"7f1c", "shop", "api", .ingress, none, none, some "shop", some "api-0", 8080, "TCP",
    some "no ingress rule matched both peer and port", .wouldDeny⟩

theorem run_webRun : (machine reference 2048 [] liveStore).run webRun = some webTrail := rfl

theorem webTrail_justified : webTrail.verdicts = [webVerdict] ∧
    ∀ v ∈ webTrail.verdicts, ∃ a ∈ webTrail.evaluated,
      ObservedIn webRun a.traffic ∧ Justified reference a v :=
  ⟨by decide, (audit_trail reference reference_documented 2048 [] liveStore run_webRun).2.1⟩

def webRecorded : StatusAggregator.Verdict :=
  ⟨⟨"shop", "api", "/", "shop/api-0", "TCP", .ingress, 8080, true, 1⟩, "2024-05-01T10:00:00Z",
    "7f1c"⟩

theorem webTrail_shown : Shows (StatusAggregator.aggOf [webRecorded]) ⟨"shop", "api"⟩
    [webVerdict] := by
  have hrun := StatusAggregator.Run.init.step (.started ∅)
  have hrun := hrun.step (.recorded _ _ webRecorded)
  exact (status_agrees reference 2048 [] liveStore run_webRun hrun
    (show List.Perm [webRecorded.record] webTrail.recorded by decide) ⟨"shop", "api"⟩
    (by simp)).2 _ rfl

end KGuardian.AuditTrail
