import KGuardian.DedupTable

/-!
Traffic ingest in the broker (`broker/src/add.rs`): which events of a batch are
new, against the batch and against the stored rows, and their insertion. Time
stamps decide nothing here and are left out.
-/
namespace KGuardian.BrokerTraffic

open DedupTable

structure PodTraffic where
  uuid : String
  podName : Option String
  podNamespace : Option String
  podIp : Option String
  podPort : Option String
  ipProtocol : Option String
  trafficType : Option String
  trafficInOutIp : Option String
  trafficInOutPort : Option String
  decision : Option String
  deriving DecidableEq

/-- The table `pod_traffic`. Which row a query finds first is not used. -/
abbrev Table := List PodTraffic

/-- The columns that identify a duplicate within a batch. -/
structure TrafficContentKey where
  podIp : Option String
  podPort : Option String
  ipProtocol : Option String
  trafficType : Option String
  trafficInOutIp : Option String
  trafficInOutPort : Option String
  decision : Option String
  deriving DecidableEq

def trafficContentKey (e : PodTraffic) : TrafficContentKey :=
  ⟨e.podIp, e.podPort, e.ipProtocol, e.trafficType, e.trafficInOutIp, e.trafficInOutPort,
    e.decision⟩

/-- A column comparison in SQL: `NULL` equals nothing. -/
def sqlEq : Option String → Option String → Bool
  | some a, some b => a = b
  | _, _ => false

/-- The first query for a UDP event. It leaves out the port of the pod. -/
def udpByPeerPort (e row : PodTraffic) : Bool :=
  sqlEq row.podIp e.podIp && sqlEq row.trafficType e.trafficType &&
    sqlEq row.trafficInOutIp e.trafficInOutIp &&
    sqlEq row.trafficInOutPort e.trafficInOutPort && sqlEq row.decision e.decision

/-- The second query for a UDP event. It leaves out the port of the peer. -/
def udpByPodPort (e row : PodTraffic) : Bool :=
  sqlEq row.podIp e.podIp && sqlEq row.podPort e.podPort &&
    sqlEq row.trafficType e.trafficType && sqlEq row.trafficInOutIp e.trafficInOutIp &&
    sqlEq row.decision e.decision

/-- The query for other events. Like the other two it leaves out the protocol. -/
def byBothPorts (e row : PodTraffic) : Bool :=
  sqlEq row.podIp e.podIp && sqlEq row.podPort e.podPort &&
    sqlEq row.trafficType e.trafficType && sqlEq row.trafficInOutIp e.trafficInOutIp &&
    sqlEq row.trafficInOutPort e.trafficInOutPort && sqlEq row.decision e.decision

def getRow (t : Table) (e : PodTraffic) : Option PodTraffic :=
  if e.ipProtocol = some "UDP" then
    match t.find? (udpByPeerPort e) with
    | none => t.find? (udpByPodPort e)
    | some out => some out
  else t.find? (byBothPorts e)

/-- The bulk insert. The primary key makes it fail as a whole. -/
def insertInto (t rows : Table) : Except String Table :=
  if (rows.map PodTraffic.uuid).Nodup ∧ ∀ row ∈ rows, row.uuid ∉ t.map PodTraffic.uuid then
    .ok (t ++ rows)
  else .error "duplicate key value violates unique constraint pod_traffic_pkey"

/-- The table afterwards and the inserted events, which go to the audit. -/
def createPodTrafficBatch (t : Table) (batch : List PodTraffic) :
    Except String (Table × List PodTraffic) :=
  if batch = [] then .ok (t, [])
  else
    let eventsToInsert :=
      newRows trafficContentKey (fun e => (getRow t e).isSome) [] batch
    if eventsToInsert = [] then .ok (t, [])
    else (insertInto t eventsToInsert).map fun t' => (t', eventsToInsert)

/-- A sequence of batches, each posted to the table that the last one left. -/
def postAll (t : Table) (batches : List (List PodTraffic)) : Except String Table :=
  batches.foldlM (fun t batch => (createPodTrafficBatch t batch).map Prod.fst) t

/-- Some query for `e` selects `row`. -/
def sameLookup (e row : PodTraffic) : Bool :=
  if e.ipProtocol = some "UDP" then udpByPeerPort e row || udpByPodPort e row
  else byBothPorts e row

theorem getRow_isSome (t : Table) (e : PodTraffic) :
    (getRow t e).isSome = t.any (sameLookup e) := by
  rw [Bool.eq_iff_iff, List.any_eq_true]
  by_cases hudp : e.ipProtocol = some "UDP"
  · simp only [getRow, sameLookup, if_pos hudp, Bool.or_eq_true]
    cases hfirst : t.find? (udpByPeerPort e) with
    | some row =>
        simp only [Option.isSome_some, true_iff]
        exact ⟨row, List.mem_of_find?_eq_some hfirst, Or.inl (List.find?_some hfirst)⟩
    | none =>
        simp only [List.find?_isSome]
        constructor
        · intro h
          obtain ⟨row, hrow, hhit⟩ := h
          exact ⟨row, hrow, Or.inr hhit⟩
        · intro h
          obtain ⟨row, hrow, hhit | hhit⟩ := h
          · exact absurd hhit (List.find?_eq_none.mp hfirst row hrow)
          · exact ⟨row, hrow, hhit⟩
  · simp only [getRow, sameLookup, if_neg hudp, List.find?_isSome]

/-- The queries read content columns only. -/
theorem sameLookup_congr (e e' : PodTraffic) (h : trafficContentKey e = trafficContentKey e') :
    sameLookup e = sameLookup e' := by
  simp only [trafficContentKey, TrafficContentKey.mk.injEq] at h
  obtain ⟨h1, h2, h3, h4, h5, h6, h7⟩ := h
  funext row
  simp only [sameLookup, udpByPeerPort, udpByPodPort, byBothPorts, h1, h2, h3, h4, h5, h6, h7]

/-- All content columns are set. -/
def Complete (e : PodTraffic) : Prop :=
  e.podIp.isSome ∧ e.podPort.isSome ∧ e.ipProtocol.isSome ∧ e.trafficType.isSome ∧
    e.trafficInOutIp.isSome ∧ e.trafficInOutPort.isSome ∧ e.decision.isSome

instance (e : PodTraffic) : Decidable (Complete e) := inferInstanceAs (Decidable (_ ∧ _))

theorem sqlEq_self {a : Option String} (h : a.isSome) : sqlEq a a = true := by
  obtain ⟨s, rfl⟩ := Option.isSome_iff_exists.mp h
  exact decide_eq_true rfl

/-- A complete event is found where its content is stored. -/
theorem sameLookup_self (e row : PodTraffic) (hcomplete : Complete e)
    (h : trafficContentKey row = trafficContentKey e) : sameLookup e row = true := by
  simp only [trafficContentKey, TrafficContentKey.mk.injEq] at h
  obtain ⟨h1, h2, -, h4, h5, h6, h7⟩ := h
  obtain ⟨c1, c2, -, c4, c5, c6, c7⟩ := hcomplete
  simp only [sameLookup, udpByPeerPort, udpByPodPort, byBothPorts, h1, h2, h4, h5, h6, h7,
    sqlEq_self c1, sqlEq_self c2, sqlEq_self c4, sqlEq_self c5, sqlEq_self c6, sqlEq_self c7]
  split <;> rfl

/-- An identifier stands for one content, as random identifiers do. -/
def UuidsIdentify (rows : List PodTraffic) : Prop :=
  ∀ e ∈ rows, ∀ e' ∈ rows, e.uuid = e'.uuid → trafficContentKey e = trafficContentKey e'

theorem insertInto_new {t batch : List PodTraffic} (hcomplete : ∀ e ∈ batch, Complete e)
    (huuid : UuidsIdentify (t ++ batch)) :
    insertInto t (newRows trafficContentKey (fun e => t.any (sameLookup e)) [] batch) =
      .ok (postBatch trafficContentKey sameLookup t batch) := by
  have hkeys := @nodup_newRows _ _ _ trafficContentKey (fun e => t.any (sameLookup e)) [] batch
  rw [insertInto, if_pos, postBatch]
  constructor
  · apply List.pairwise_map.mpr
    apply (List.pairwise_map.mp hkeys).imp_of_mem
    intro e e' he he' hne heq
    exact hne (huuid e (List.mem_append_right _ (mem_newRows he).1) e'
      (List.mem_append_right _ (mem_newRows he').1) heq)
  · intro e he hmem
    obtain ⟨row, hrow, hsame⟩ := List.mem_map.mp hmem
    obtain ⟨hbatch, hnone, -⟩ := mem_newRows he
    have hkey := huuid row (List.mem_append_left _ hrow) e (List.mem_append_right _ hbatch) hsame
    have hfound : t.any (sameLookup e) = true :=
      List.any_eq_true.mpr ⟨row, hrow, sameLookup_self e row (hcomplete e hbatch) hkey⟩
    rw [hnone] at hfound
    exact Bool.false_ne_true hfound

/-- A batch of complete events does what the abstract table does. -/
theorem createPodTrafficBatch_eq {t batch : List PodTraffic}
    (hcomplete : ∀ e ∈ batch, Complete e) (huuid : UuidsIdentify (t ++ batch)) :
    createPodTrafficBatch t batch = .ok (postBatch trafficContentKey sameLookup t batch,
      newRows trafficContentKey (fun e => t.any (sameLookup e)) [] batch) := by
  by_cases hnil : batch = []
  · subst hnil
    simp [createPodTrafficBatch, postBatch, newRows]
  · have hinsert := insertInto_new hcomplete huuid
    simp only [createPodTrafficBatch, if_neg hnil, getRow_isSome]
    split
    · rename_i hnone
      simp [postBatch, hnone]
    · rw [hinsert]
      rfl

theorem mem_postBatch {t batch : List PodTraffic} {e : PodTraffic}
    (he : e ∈ postBatch trafficContentKey sameLookup t batch) : e ∈ t ++ batch := by
  rcases List.mem_append.mp he with hold | hnew
  · exact List.mem_append_left _ hold
  · exact List.mem_append_right _ (mem_newRows hnew).1

theorem postAll_eq (t : Table) (batches : List (List PodTraffic))
    (hcomplete : ∀ batch ∈ batches, ∀ e ∈ batch, Complete e)
    (huuid : UuidsIdentify (t ++ batches.flatten)) :
    postAll t batches = .ok (batches.foldl (postBatch trafficContentKey sameLookup) t) := by
  induction batches generalizing t with
  | nil => rfl
  | cons batch rest ih =>
      have hsplit : ∀ e ∈ t ++ batch, e ∈ t ++ (batch :: rest).flatten := by
        intro e he
        rw [List.flatten_cons, ← List.append_assoc]
        exact List.mem_append_left _ he
      have hfirst := createPodTrafficBatch_eq (hcomplete batch List.mem_cons_self)
        fun e he e' he' => huuid e (hsplit e he) e' (hsplit e' he')
      have hrest : ∀ e ∈ postBatch trafficContentKey sameLookup t batch ++ rest.flatten,
          e ∈ t ++ (batch :: rest).flatten := by
        intro e he
        rw [List.flatten_cons, ← List.append_assoc]
        rcases List.mem_append.mp he with hold | hnew
        · exact List.mem_append_left _ (mem_postBatch hold)
        · exact List.mem_append_right _ hnew
      rw [postAll, List.foldlM_cons, hfirst]
      exact ih _ (fun b hb => hcomplete b (List.mem_cons_of_mem _ hb))
        fun e he e' he' => huuid e (hrest e he) e' (hrest e' he')

/-- Every posted event is represented after the run exactly when none of them
met a stored row of other content that its lookup took for a duplicate. -/
theorem postAll_represents_iff (t : Table) (batches : List (List PodTraffic))
    (hcomplete : ∀ batch ∈ batches, ∀ e ∈ batch, Complete e)
    (huuid : UuidsIdentify (t ++ batches.flatten)) :
    ∃ t', postAll t batches = .ok t' ∧
      ((∀ batch ∈ batches, ∀ e ∈ batch, Stored trafficContentKey t' e) ↔
        Undisturbed trafficContentKey sameLookup t batches) :=
  ⟨_, postAll_eq t batches hcomplete huuid, stored_run_iff sameLookup_congr t batches⟩

/-- A DNS client, seen on the two ports of one server. -/
def dnsEvent (uuid port : String) : PodTraffic :=
  ⟨uuid, some "web-0", some "shop", some "10.0.0.7", some "0", some "UDP", some "EGRESS",
    some "10.0.0.53", some port, some "ALLOW"⟩

def dnsBatches : List (List PodTraffic) := [[dnsEvent "a1" "53"], [dnsEvent "b2" "5353"]]

theorem dnsBatches_represents_iff : ∃ t', postAll [] dnsBatches = .ok t' ∧
    ((∀ batch ∈ dnsBatches, ∀ e ∈ batch, Stored trafficContentKey t' e) ↔
      Undisturbed trafficContentKey sameLookup [] dnsBatches) :=
  postAll_represents_iff [] dnsBatches (by decide) (by unfold UuidsIdentify; decide)

/-- The second event is complete, posted and never stored. -/
theorem dnsBatches_loses : ∃ t', postAll [] dnsBatches = .ok t' ∧
    (∀ batch ∈ dnsBatches, ∀ e ∈ batch, Complete e) ∧
    ¬ ∀ batch ∈ dnsBatches, ∀ e ∈ batch, Stored trafficContentKey t' e := by
  refine ⟨[dnsEvent "a1" "53"], by decide, by decide, ?_⟩
  unfold Stored
  decide

end KGuardian.BrokerTraffic
