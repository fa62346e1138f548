import KGuardian.IngestRuns

/-!
What `/pod/traffic/{name}` shows of the posted events (`broker/src/get.rs`).
Duplicates are recognised by the address of the pod and rows are read by its
name, so an event can be kept out by a row of the pod that had the address
before.
-/
namespace KGuardian.PodTrafficReads

open DedupTable BrokerTraffic IngestRuns

/-- The rows of a pod name. They are served by time stamp, which the model leaves
out: the table may be in any order. -/
def podTrafficByName (t : Table) (name : String) : List PodTraffic :=
  t.filter fun row => row.podName = some name

/-- The same peer, ports, direction and decision. -/
structure SameFlow (e row : PodTraffic) : Prop where
  peer : row.trafficInOutIp = e.trafficInOutIp
  podPort : row.podPort = e.podPort
  peerPort : row.trafficInOutPort = e.trafficInOutPort
  direction : row.trafficType = e.trafficType
  decision : row.decision = e.decision

/-- The event appears among the rows of the pod that it names. -/
def Shown (t : Table) (e : PodTraffic) : Prop :=
  ∀ name ∈ e.podName, ∃ row ∈ podTrafficByName t name, SameFlow e row

/-- A TCP event with all content columns set. -/
def CompleteTcp (e : PodTraffic) : Prop := e.ipProtocol = some "TCP" ∧ Complete e

instance (e : PodTraffic) : Decidable (CompleteTcp e) := inferInstanceAs (Decidable (_ ∧ _))

instance (e row : PodTraffic) : Decidable (SameFlow e row) :=
  decidable_of_iff (row.trafficInOutIp = e.trafficInOutIp ∧ row.podPort = e.podPort ∧
      row.trafficInOutPort = e.trafficInOutPort ∧ row.trafficType = e.trafficType ∧
      row.decision = e.decision)
    ⟨fun ⟨h1, h2, h3, h4, h5⟩ => ⟨h1, h2, h3, h4, h5⟩, fun h => ⟨h.1, h.2, h.3, h.4, h.5⟩⟩

/-- No posted event with the address and the flow of the event names another pod. -/
def AddressKept (posted : List PodTraffic) (e : PodTraffic) : Prop :=
  ∀ e' ∈ posted, e'.podIp = e.podIp → SameFlow e e' → e'.podName = e.podName

instance (posted : List PodTraffic) (e : PodTraffic) : Decidable (AddressKept posted e) :=
  inferInstanceAs (Decidable (∀ e' ∈ posted, _))

/-- No address of the batch has moved with a flow to another pod, and identifiers are
new. An event that is posted again has the columns that its lookup compares. -/
structure KeepsAddresses (posted batch : List PodTraffic) : Prop where
  address : ∀ e ∈ batch, CompleteTcp e → AddressKept (posted ++ batch) e
  fresh : (batch.map PodTraffic.uuid).Nodup
  again : ∀ e ∈ batch, ∀ e' ∈ posted, e.uuid = e'.uuid → e = e' ∧ LookupColumnsSet e

theorem mem_podTrafficByName (t : Table) (name : String) (row : PodTraffic) :
    row ∈ podTrafficByName t name ↔ row ∈ t ∧ row.podName = some name := by
  simp [podTrafficByName]

theorem shown_iff (t : Table) (e : PodTraffic) :
    Shown t e ↔ e.podName = none ∨ ∃ row ∈ t, row.podName = e.podName ∧ SameFlow e row := by
  cases hname : e.podName with
  | none => simp [Shown, hname]
  | some name => simp [Shown, hname, mem_podTrafficByName, and_assoc]

theorem Shown.mono {t t' : Table} {e : PodTraffic} (h : Shown t e) (hsub : t ⊆ t') :
    Shown t' e := by
  intro name hname
  obtain ⟨row, hrow, hflow⟩ := h name hname
  obtain ⟨hmem, hpod⟩ := (mem_podTrafficByName t name row).mp hrow
  exact ⟨row, (mem_podTrafficByName t' name row).mpr ⟨hsub hmem, hpod⟩, hflow⟩

/-! Nothing is hidden while no address moves. -/

theorem table_subset_posted (batches : List (List PodTraffic)) :
    (processAll batches).table ⊆ batches.flatten := by
  induction batches using List.reverseRecOn with
  | nil => exact List.Subset.refl _
  | append_singleton batches batch ih =>
      rw [processAll_concat, List.flatten_append, List.flatten_singleton]
      by_cases haccepts : Accepts (processAll batches).table batch
      · rw [process_accepted haccepts]
        intro row hrow
        rcases List.mem_append.mp hrow with hold | hnew
        · exact List.mem_append_left _ (ih hold)
        · exact List.mem_append_right _ (mem_newRows hnew).1
      · rw [process_refused haccepts]
        exact fun row hrow => List.mem_append_left _ (ih hrow)

theorem sqlEq_eq {a b : Option String} (h : sqlEq a b = true) : a = b := by
  cases a <;> cases b <;> simp_all [sqlEq]

/-- A row that a TCP lookup finds has the address and the flow of the event. -/
theorem of_sameLookup_tcp {e row : PodTraffic} (htcp : e.ipProtocol = some "TCP")
    (h : sameLookup e row = true) : row.podIp = e.podIp ∧ SameFlow e row := by
  have hudp : e.ipProtocol ≠ some "UDP" := by
    rw [htcp]
    decide
  simp only [sameLookup, if_neg hudp, byBothPorts, Bool.and_eq_true] at h
  obtain ⟨⟨⟨⟨⟨h1, h2⟩, h4⟩, h5⟩, h6⟩, h7⟩ := h
  exact ⟨sqlEq_eq h1, sqlEq_eq h5, sqlEq_eq h2, sqlEq_eq h6, sqlEq_eq h4, sqlEq_eq h7⟩

theorem sameFlow_of_key {e e' : PodTraffic} (h : trafficContentKey e' = trafficContentKey e) :
    e'.podIp = e.podIp ∧ SameFlow e e' := by
  simp only [trafficContentKey, TrafficContentKey.mk.injEq] at h
  obtain ⟨h1, h2, -, h4, h5, h6, h7⟩ := h
  exact ⟨h1, h5, h2, h6, h4, h7⟩

theorem accepts_of_keepsAddresses {before : List (List PodTraffic)} {batch : List PodTraffic}
    (h : KeepsAddresses before.flatten batch) : Accepts (processAll before).table batch := by
  refine ⟨h.fresh.sublist ((newRows_sublist _ _ _).map _), fun e he hkey => ?_⟩
  obtain ⟨hbatch, hnone, -⟩ := mem_newRows he
  obtain ⟨row, hrow, huuid⟩ := List.mem_map.mp hkey
  obtain ⟨rfl, hset⟩ := h.again e hbatch row (table_subset_posted before hrow) huuid.symm
  rw [List.any_eq_true.mpr ⟨e, hrow, sameLookup_of_set hset rfl⟩] at hnone
  exact Bool.false_ne_true hnone.symm

/-- A batch shows its events: what their lookups find names the same pods. -/
theorem shown_of_batch {before : List (List PodTraffic)} {batch : List PodTraffic}
    (h : KeepsAddresses before.flatten batch) {e : PodTraffic} (he : e ∈ batch)
    (htcp : CompleteTcp e) : Shown (processAll (before ++ [batch])).table e := by
  rw [processAll_concat, process_accepted (accepts_of_keepsAddresses h), shown_iff]
  have hkept := h.address e he htcp
  right
  by_cases hfound : ∃ row ∈ (processAll before).table, sameLookup e row = true
  · obtain ⟨row, hrow, hhit⟩ := hfound
    obtain ⟨hip, hflow⟩ := of_sameLookup_tcp htcp.1 hhit
    have hposted := List.mem_append_left batch (table_subset_posted before hrow)
    exact ⟨row, List.mem_append_left _ hrow, hkept row hposted hip hflow, hflow⟩
  · obtain ⟨e', he', hkey⟩ := exists_newEvents he hfound
    obtain ⟨hip, hflow⟩ := sameFlow_of_key hkey
    have hposted := List.mem_append_right before.flatten (mem_newRows he').1
    exact ⟨e', List.mem_append_right _ he', hkept e' hposted hip hflow, hflow⟩

/-- In every state of a run whose batches keep the addresses, every event that was
posted appears under its pod name. -/
theorem shown_of_keepsAddresses (batches : List (List PodTraffic))
    (hkeeps : ∀ before batch, before ++ [batch] <+: batches →
      KeepsAddresses before.flatten batch) :
    ∀ done, done <+: batches → ∀ batch ∈ done, ∀ e ∈ batch, CompleteTcp e →
      Shown (processAll done).table e := by
  intro done hdone batch hbatch e he htcp
  obtain ⟨before, after, rfl⟩ := List.append_of_mem hbatch
  have hposted : before ++ [batch] <+: before ++ batch :: after :=
    ⟨after, by rw [List.append_assoc, List.singleton_append]⟩
  have hshown := shown_of_batch (hkeeps before batch (hposted.trans hdone)) he htcp
  exact hshown.mono (processAll_grows hposted).1.subset

/-- A request to the api, seen by the pod that has the address. -/
def requestFrom (uuid podName : String) : PodTraffic :=
  ⟨uuid, some podName, some "shop", some "10.0.0.7", some "0", some "TCP", some "EGRESS",
    some "10.0.0.8", some "8080", some "ALLOW"⟩

/-- The pod `web-0` has another address when it comes back. -/
def movedRequest : PodTraffic := { requestFrom "b2" "web-0" with podIp := some "10.0.0.9" }

/-- Its first request is posted twice. -/
def movedPod : List (List PodTraffic) :=
  [[requestFrom "a1" "web-0"], [requestFrom "a1" "web-0", movedRequest]]

theorem movedPod_shown : Shown (processAll movedPod).table movedRequest := by
  refine shown_of_keepsAddresses movedPod (fun before batch hbefore => ?_) movedPod
    List.prefix_rfl [requestFrom "a1" "web-0", movedRequest] (by decide) movedRequest
    (by decide) (by decide)
  rcases before with _ | ⟨first, _ | ⟨second, rest⟩⟩
  · obtain rfl : batch = [requestFrom "a1" "web-0"] := by simpa [movedPod] using hbefore
    exact ⟨by decide, by decide, by decide⟩
  · simp only [movedPod, List.cons_append, List.nil_append, List.cons_prefix_cons,
      List.nil_prefix, and_true] at hbefore
    obtain ⟨rfl, rfl⟩ := hbefore
    exact ⟨by decide, by decide, by decide⟩
  · exact absurd hbefore.length_le (by simp [movedPod])

/-- The address goes from `web-0` to `cron-1`, whose request is not stored. -/
theorem requestFrom_hidden :
    (processAll [[requestFrom "a1" "web-0"], [requestFrom "b2" "cron-1"]]).table =
        [requestFrom "a1" "web-0"] ∧
      ¬ ∀ done, done <+: [[requestFrom "a1" "web-0"], [requestFrom "b2" "cron-1"]] →
        ∀ batch ∈ done, ∀ e ∈ batch, CompleteTcp e → Shown (processAll done).table e := by
  have htable : (processAll [[requestFrom "a1" "web-0"], [requestFrom "b2" "cron-1"]]).table =
      [requestFrom "a1" "web-0"] := by decide
  refine ⟨htable, fun h => ?_⟩
  have hshown := h _ List.prefix_rfl [requestFrom "b2" "cron-1"] (by decide)
    (requestFrom "b2" "cron-1") (by decide) (by decide)
  rw [htable] at hshown
  obtain ⟨row, hrow, -⟩ := hshown "cron-1" rfl
  have hnone : podTrafficByName [requestFrom "a1" "web-0"] "cron-1" = [] := by decide
  rw [hnone] at hrow
  exact List.not_mem_nil hrow

end KGuardian.PodTrafficReads
