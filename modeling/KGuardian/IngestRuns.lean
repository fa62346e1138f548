import Mathlib.Data.List.Induction
import KGuardian.BrokerTraffic

/-!
Batches posted one after another. Whether a batch that was processed can be
posted again without effect depends on the columns that the lookups compare:
where one of them is null, the lookup finds nothing, its own row included.
-/
namespace KGuardian.IngestRuns

open DedupTable BrokerTraffic

/-- The events of a batch that are first of their content and not found. -/
def newEvents (t : Table) (batch : List PodTraffic) : List PodTraffic :=
  newRows trafficContentKey (fun e => t.any (sameLookup e)) [] batch

/-- The primary key lets the new events in. -/
def Accepts (t : Table) (batch : List PodTraffic) : Prop :=
  ((newEvents t batch).map PodTraffic.uuid).Nodup ∧
    ∀ row ∈ newEvents t batch, row.uuid ∉ t.map PodTraffic.uuid

instance (t : Table) (batch : List PodTraffic) : Decidable (Accepts t batch) :=
  inferInstanceAs (Decidable (_ ∧ _))

theorem createPodTrafficBatch_accepted {t : Table} {batch : List PodTraffic}
    (h : Accepts t batch) :
    createPodTrafficBatch t batch = .ok (t ++ newEvents t batch, newEvents t batch) := by
  by_cases hbatch : batch = []
  · subst hbatch
    simp [createPodTrafficBatch, newEvents, newRows]
  · simp only [createPodTrafficBatch, if_neg hbatch, getRow_isSome]
    by_cases hnone : newEvents t batch = []
    · have hnone' : newRows trafficContentKey (fun e => t.any (sameLookup e)) [] batch = [] := hnone
      rw [hnone, if_pos hnone', List.append_nil]
    · have hinsert : insertInto t (newEvents t batch) = .ok (t ++ newEvents t batch) := if_pos h
      have hnone' : newRows trafficContentKey (fun e => t.any (sameLookup e)) [] batch ≠ [] := hnone
      rw [if_neg hnone']
      change (insertInto t (newEvents t batch)).map _ = _
      rw [hinsert]
      rfl

theorem createPodTrafficBatch_refused {t : Table} {batch : List PodTraffic}
    (h : ¬ Accepts t batch) : ∃ message, createPodTrafficBatch t batch = .error message := by
  have hnew : newEvents t batch ≠ [] := by
    intro hnone
    refine h ⟨?_, ?_⟩ <;> simp [hnone]
  have hbatch : batch ≠ [] := by
    intro hnil
    subst hnil
    exact hnew rfl
  simp only [createPodTrafficBatch, if_neg hbatch, getRow_isSome]
  have hnew' : newRows trafficContentKey (fun e => t.any (sameLookup e)) [] batch ≠ [] := hnew
  have hinsert : insertInto t (newEvents t batch) = .error _ := if_neg h
  rw [if_neg hnew']
  change ∃ message, (insertInto t (newEvents t batch)).map _ = .error message
  rw [hinsert]
  exact ⟨_, rfl⟩

/-- The table and the batches whose handler succeeded. -/
structure IngestLog where
  table : Table
  processed : List (List PodTraffic)

/-- One handler after another. A refused insert leaves no trace. -/
def process (s : IngestLog) (batch : List PodTraffic) : IngestLog :=
  match createPodTrafficBatch s.table batch with
  | .ok (t, _) => ⟨t, s.processed ++ [batch]⟩
  | .error _ => s

def processAll (batches : List (List PodTraffic)) : IngestLog := batches.foldl process ⟨[], []⟩

theorem process_accepted {s : IngestLog} {batch : List PodTraffic} (h : Accepts s.table batch) :
    process s batch = ⟨s.table ++ newEvents s.table batch, s.processed ++ [batch]⟩ := by
  rw [process, createPodTrafficBatch_accepted h]

theorem process_refused {s : IngestLog} {batch : List PodTraffic} (h : ¬ Accepts s.table batch) :
    process s batch = s := by
  obtain ⟨message, herror⟩ := createPodTrafficBatch_refused h
  rw [process, herror]

theorem processAll_concat (batches : List (List PodTraffic)) (batch : List PodTraffic) :
    processAll (batches ++ [batch]) = process (processAll batches) batch := by
  rw [processAll, List.foldl_append]
  rfl

/-- Nothing that was processed or stored is ever lost. -/
theorem process_grows (s : IngestLog) (batch : List PodTraffic) :
    s.table <+: (process s batch).table ∧ s.processed <+: (process s batch).processed := by
  by_cases h : Accepts s.table batch
  · rw [process_accepted h]
    exact ⟨List.prefix_append _ _, List.prefix_append _ _⟩
  · rw [process_refused h]
    exact ⟨List.prefix_rfl, List.prefix_rfl⟩

theorem processAll_grows {done batches : List (List PodTraffic)} (h : done <+: batches) :
    (processAll done).table <+: (processAll batches).table ∧
      (processAll done).processed <+: (processAll batches).processed := by
  obtain ⟨rest, rfl⟩ := h
  induction rest using List.reverseRecOn with
  | nil =>
      rw [List.append_nil]
      exact ⟨List.prefix_rfl, List.prefix_rfl⟩
  | append_singleton rest batch ih =>
      rw [← List.append_assoc, processAll_concat]
      obtain ⟨htable, hprocessed⟩ := process_grows (processAll (done ++ rest)) batch
      exact ⟨ih.1.trans htable, ih.2.trans hprocessed⟩

theorem sqlEq_isSome {a b : Option String} (h : sqlEq a b = true) : b.isSome = true := by
  cases a <;> cases b <;> simp_all [sqlEq]

/-- The columns that some lookup for the event compares are all set. Either
lookup of a UDP event will do, so one of the two ports may be missing. -/
def LookupColumnsSet (e : PodTraffic) : Prop :=
  e.podIp.isSome ∧ e.trafficType.isSome ∧ e.trafficInOutIp.isSome ∧ e.decision.isSome ∧
    if e.ipProtocol = some "UDP" then e.podPort.isSome ∨ e.trafficInOutPort.isSome
    else e.podPort.isSome ∧ e.trafficInOutPort.isSome

instance (e : PodTraffic) : Decidable (LookupColumnsSet e) :=
  inferInstanceAs (Decidable (_ ∧ _))

/-- With these columns set, the lookup finds every row of the same content. -/
theorem sameLookup_of_set {e row : PodTraffic} (h : LookupColumnsSet e)
    (hkey : trafficContentKey row = trafficContentKey e) : sameLookup e row = true := by
  simp only [trafficContentKey, TrafficContentKey.mk.injEq] at hkey
  obtain ⟨k1, k2, -, k4, k5, k6, k7⟩ := hkey
  obtain ⟨h1, h4, h5, h7, hports⟩ := h
  rw [sameLookup]
  by_cases hudp : e.ipProtocol = some "UDP"
  · rw [if_pos hudp] at hports ⊢
    rcases hports with h2 | h6
    · simp [udpByPodPort, k1, k2, k4, k5, k7, sqlEq_self h1, sqlEq_self h2, sqlEq_self h4,
        sqlEq_self h5, sqlEq_self h7]
    · simp [udpByPeerPort, k1, k4, k5, k6, k7, sqlEq_self h1, sqlEq_self h4, sqlEq_self h5,
        sqlEq_self h6, sqlEq_self h7]
  · rw [if_neg hudp] at hports ⊢
    simp [byBothPorts, k1, k2, k4, k5, k6, k7, sqlEq_self h1, sqlEq_self hports.1, sqlEq_self h4,
      sqlEq_self h5, sqlEq_self hports.2, sqlEq_self h7]

/-- With one of them null, the lookup finds no row at all. -/
theorem set_of_sameLookup {e row : PodTraffic} (h : sameLookup e row = true) :
    LookupColumnsSet e := by
  rw [sameLookup] at h
  by_cases hudp : e.ipProtocol = some "UDP"
  · rw [if_pos hudp] at h
    rcases Bool.or_eq_true_iff.mp h with h | h
    · simp only [udpByPeerPort, Bool.and_eq_true] at h
      obtain ⟨⟨⟨⟨h1, h4⟩, h5⟩, h6⟩, h7⟩ := h
      refine ⟨sqlEq_isSome h1, sqlEq_isSome h4, sqlEq_isSome h5, sqlEq_isSome h7, ?_⟩
      rw [if_pos hudp]
      exact Or.inr (sqlEq_isSome h6)
    · simp only [udpByPodPort, Bool.and_eq_true] at h
      obtain ⟨⟨⟨⟨h1, h2⟩, h4⟩, h5⟩, h7⟩ := h
      refine ⟨sqlEq_isSome h1, sqlEq_isSome h4, sqlEq_isSome h5, sqlEq_isSome h7, ?_⟩
      rw [if_pos hudp]
      exact Or.inl (sqlEq_isSome h2)
  · rw [if_neg hudp] at h
    simp only [byBothPorts, Bool.and_eq_true] at h
    obtain ⟨⟨⟨⟨⟨h1, h2⟩, h4⟩, h5⟩, h6⟩, h7⟩ := h
    refine ⟨sqlEq_isSome h1, sqlEq_isSome h4, sqlEq_isSome h5, sqlEq_isSome h7, ?_⟩
    rw [if_neg hudp]
    exact ⟨sqlEq_isSome h2, sqlEq_isSome h6⟩

/-- What the table does not answer for is new, once for each content key. -/
theorem exists_newEvents {t : Table} {batch : List PodTraffic} {e : PodTraffic} (he : e ∈ batch)
    (hmissing : ¬ ∃ row ∈ t, sameLookup e row = true) :
    ∃ e' ∈ newEvents t batch, trafficContentKey e' = trafficContentKey e := by
  have hnone : t.any (sameLookup e) = false := by
    rw [Bool.eq_false_iff]
    exact fun hany => hmissing (List.any_eq_true.mp hany)
  refine exists_newRows (fun e => t.any (sameLookup e)) he List.not_mem_nil fun e' _ hkey => ?_
  rw [sameLookup_congr e' e hkey, hnone]

/-- A batch has nothing new exactly when the table answers for each event. -/
theorem newEvents_eq_nil_iff (t : Table) (batch : List PodTraffic) :
    newEvents t batch = [] ↔ ∀ e ∈ batch, ∃ row ∈ t, sameLookup e row = true := by
  constructor
  · intro hnone e he
    by_contra hmissing
    obtain ⟨e', he', -⟩ := exists_newEvents he hmissing
    rw [hnone] at he'
    exact List.not_mem_nil he'
  · intro hfound
    rw [List.eq_nil_iff_forall_not_mem]
    intro e he
    obtain ⟨hbatch, hnone, -⟩ := mem_newRows he
    rw [List.any_eq_true.mpr (hfound e hbatch)] at hnone
    exact Bool.false_ne_true hnone.symm

theorem createPodTrafficBatch_eq_unchanged_iff (t : Table) (batch : List PodTraffic) :
    createPodTrafficBatch t batch = .ok (t, []) ↔
      ∀ e ∈ batch, ∃ row ∈ t, sameLookup e row = true := by
  rw [← newEvents_eq_nil_iff]
  by_cases h : Accepts t batch
  · rw [createPodTrafficBatch_accepted h]
    simp only [Except.ok.injEq, Prod.mk.injEq, List.append_right_eq_self, and_self]
  · obtain ⟨message, herror⟩ := createPodTrafficBatch_refused h
    rw [herror]
    refine iff_of_false (by simp) fun hnone => h ⟨?_, ?_⟩ <;> simp [hnone]

/-- Everything about an event but its identifier. -/
def content (e : PodTraffic) : PodTraffic := { e with uuid := "" }

theorem trafficContentKey_content (e : PodTraffic) :
    trafficContentKey (content e) = trafficContentKey e := rfl

/-- No content is stored twice, and the contents of a processed batch can be
posted again without inserting, counting or forwarding anything. -/
def Idempotent (s : IngestLog) : Prop :=
  (s.table.map trafficContentKey).Nodup ∧
    ∀ batch ∈ s.processed, ∀ again : List PodTraffic, again.map content = batch.map content →
      createPodTrafficBatch s.table again = .ok (s.table, [])

/-- What holds while every processed event has its lookup columns set. -/
structure Settled (s : IngestLog) : Prop where
  nodup : (s.table.map trafficContentKey).Nodup
  found : ∀ batch ∈ s.processed, ∀ e ∈ batch, ∃ row ∈ s.table, sameLookup e row = true

theorem Settled.idempotent {s : IngestLog} (h : Settled s) : Idempotent s := by
  refine ⟨h.nodup, fun batch hbatch again hsame => ?_⟩
  rw [createPodTrafficBatch_eq_unchanged_iff]
  intro e he
  have hcontent : content e ∈ batch.map content := hsame ▸ List.mem_map_of_mem he
  obtain ⟨e', he', heq⟩ := List.mem_map.mp hcontent
  have hkey : trafficContentKey e' = trafficContentKey e := by
    rw [← trafficContentKey_content e', heq, trafficContentKey_content]
  rw [← sameLookup_congr e' e hkey]
  exact h.found batch hbatch e' he'

theorem nodup_newEvents {t : Table} {batch : List PodTraffic}
    (hset : ∀ e ∈ batch, LookupColumnsSet e) (h : (t.map trafficContentKey).Nodup) :
    ((t ++ newEvents t batch).map trafficContentKey).Nodup := by
  rw [List.map_append, List.nodup_append]
  refine ⟨h, nodup_newRows _ _ _, ?_⟩
  intro k hk k' hk' heq
  obtain ⟨row, hrow, rfl⟩ := List.mem_map.mp hk
  obtain ⟨e, he, rfl⟩ := List.mem_map.mp hk'
  obtain ⟨hbatch, hnone, -⟩ := mem_newRows he
  have hfound : t.any (sameLookup e) = true :=
    List.any_eq_true.mpr ⟨row, hrow, sameLookup_of_set (hset e hbatch) heq⟩
  rw [hnone] at hfound
  exact Bool.false_ne_true hfound

theorem found_after {t : Table} {batch : List PodTraffic} {e : PodTraffic} (he : e ∈ batch)
    (hset : LookupColumnsSet e) :
    ∃ row ∈ t ++ newEvents t batch, sameLookup e row = true := by
  by_cases hfound : ∃ row ∈ t, sameLookup e row = true
  · obtain ⟨row, hrow, hhit⟩ := hfound
    exact ⟨row, List.mem_append_left _ hrow, hhit⟩
  · obtain ⟨e', he', hkey⟩ := exists_newEvents he hfound
    exact ⟨e', List.mem_append_right _ he', sameLookup_of_set hset hkey⟩

theorem Settled.process {s : IngestLog} (h : Settled s) (batch : List PodTraffic)
    (hset : Accepts s.table batch → ∀ e ∈ batch, LookupColumnsSet e) :
    Settled (process s batch) := by
  by_cases haccepts : Accepts s.table batch
  · rw [process_accepted haccepts]
    refine ⟨nodup_newEvents (hset haccepts) h.nodup, fun b hb e he => ?_⟩
    rcases List.mem_append.mp hb with hold | hnew
    · obtain ⟨row, hrow, hhit⟩ := h.found b hold e he
      exact ⟨row, List.mem_append_left _ hrow, hhit⟩
    · obtain rfl := List.mem_singleton.mp hnew
      exact found_after he (hset haccepts e he)
  · rw [process_refused haccepts]
    exact h

theorem settled_processAll (batches : List (List PodTraffic))
    (hset : ∀ batch ∈ (processAll batches).processed, ∀ e ∈ batch, LookupColumnsSet e) :
    Settled (processAll batches) := by
  induction batches using List.reverseRecOn with
  | nil => exact ⟨List.nodup_nil, fun batch hbatch => absurd hbatch List.not_mem_nil⟩
  | append_singleton batches batch ih =>
      rw [processAll_concat] at hset ⊢
      have hgrows := (process_grows (processAll batches) batch).2
      refine (ih fun b hb => hset b (hgrows.subset hb)).process batch fun haccepts => ?_
      refine hset batch ?_
      rw [process_accepted haccepts]
      exact List.mem_append_right _ (List.mem_singleton_self batch)

/-- Ingest is idempotent in every table reached exactly when every processed
event has the columns set that its lookup compares. -/
theorem idempotent_run_iff (batches : List (List PodTraffic)) :
    (∀ done, done <+: batches → Idempotent (processAll done)) ↔
      ∀ batch ∈ (processAll batches).processed, ∀ e ∈ batch, LookupColumnsSet e := by
  constructor
  · intro h batch hbatch e he
    have hagain := (h batches List.prefix_rfl).2 batch hbatch batch rfl
    obtain ⟨row, -, hhit⟩ := (createPodTrafficBatch_eq_unchanged_iff _ _).mp hagain e he
    exact set_of_sameLookup hhit
  · intro hset done hdone
    have hgrows := (processAll_grows hdone).2
    exact (settled_processAll done fun b hb => hset b (hgrows.subset hb)).idempotent

/-- A connection whose port on the pod was not recorded. -/
def portlessEvent (uuid : String) : PodTraffic :=
  ⟨uuid, some "web-0", some "shop", some "10.0.0.7", none, some "TCP", some "EGRESS",
    some "10.0.0.8", some "8080", some "ALLOW"⟩

/-- It is stored each time it is reported. -/
theorem portlessEvent_stored_twice :
    (processAll [[portlessEvent "a1"], [portlessEvent "b2"]]).table =
        [portlessEvent "a1", portlessEvent "b2"] ∧
      ¬ ∀ done, done <+: [[portlessEvent "a1"], [portlessEvent "b2"]] →
        Idempotent (processAll done) := by
  have htable : (processAll [[portlessEvent "a1"], [portlessEvent "b2"]]).table =
      [portlessEvent "a1", portlessEvent "b2"] := by decide
  refine ⟨htable, fun h => ?_⟩
  have hnodup := (h _ List.prefix_rfl).1
  rw [htable] at hnodup
  exact absurd hnodup (by decide)

end KGuardian.IngestRuns
