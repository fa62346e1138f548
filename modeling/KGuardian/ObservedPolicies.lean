import KGuardian.ObservedTraffic
import KGuardian.PolicyTargets
import KGuardian.TrafficReports

/-!
Generated policies against what the probes saw: controllers on any number of nodes, the table
of the broker, and the policy that the advisor makes of it. Posts may not arrive and their
answers may be lost, caches evict and controllers restart, in any order.
-/
namespace KGuardian.ObservedPolicies

open NetAddr Selectors Matcher PolicySemantics ObservedTraffic NetworkProbe NetworkEvents Runs
open BrokerTraffic IngestRuns
open TrafficReports (Handler Report IsRowOf)
open StandardPolicy (BrokerData protocolPtr resolvePeer Survives)
open PolicyTargets (BrokerState DetailRow ServiceRow Failures generatePolicy advisorBroker
  advisorDetail)
open PodTrafficReads (podTrafficByName)

structure System where
  controllers : String → TrafficReports.State
  table : Table

inductive Event where
  | received (node : String) (report : Report) (podData : Option PodInfo) (uuid : String)
      (timedOut : Bool)
  | evicted (node : String) (key : TrafficKey)
  | posted (node : String) (handler : Handler) (arrives answered : Bool)
  | restarted (node : String)

def System.setController (s : System) (node : String) (c : TrafficReports.State) : System :=
  { s with controllers := Function.update s.controllers node c }

/-- The table after a post that may not arrive, and whether the batch was taken. -/
def deliver (t : Table) (batch : List PodTraffic) (arrives : Bool) : Table × Bool :=
  if arrives then
    match createPodTrafficBatch t batch with
    | .ok (t', _) => (t', true)
    | .error _ => (t, false)
  else (t, false)

/-- A controller counts a post as done when the broker has taken the batch and its answer has
come back. -/
def step (s : System) : Event → Option System
  | .received node report podData uuid timedOut =>
      (TrafficReports.step (s.controllers node) (.received report podData uuid timedOut)).map
        (s.setController node)
  | .evicted node key =>
      (TrafficReports.step (s.controllers node) (.evicted key)).map (s.setController node)
  | .posted node handler arrives answered =>
      let (table, taken) := deliver s.table ((s.controllers node).pending handler).batch arrives
      (TrafficReports.step (s.controllers node) (.flushed handler (taken && answered))).map
        (({ s with table } : System).setController node)
  | .restarted node => some (s.setController node TrafficReports.machine.init)

def machine : Machine System Event := ⟨⟨fun _ => TrafficReports.machine.init, []⟩, step⟩

/-- Some controller received the report as one about the pod. -/
def Seen (events : List Event) (report : Report) (podData : PodInfo) : Prop :=
  ∃ node uuid timedOut, .received node report (some podData) uuid timedOut ∈ events

/-- The address at the other end, as its text. -/
def peerOf : Report → String
  | .network data => ipv4String (fromBe data.daddr)
  | .policyDrop data => ipv4String (fromBe data.daddr)

/-- The report is of a connection, made or blocked, in this direction and to this port. -/
def Connection : Report → Direction → ℕ → String → Prop
  | .network data, .ingress, port, protocol =>
      data.kind = 2 ∧ port = data.sport.toNat ∧ protocol = "TCP"
  | .network data, .egress, port, protocol =>
      port = data.dport.toNat ∧
        (data.kind = 1 ∧ protocol = "TCP" ∨ data.kind = 3 ∧ protocol = "UDP")
  | .policyDrop data, .egress, port, protocol =>
      port = data.dport.toNat ∧ protocol = protocolPtr (protoToString data.protocol)
  | _, _, _, _ => False

/-- A report of a pod of this name is of such a connection, with a peer that stands for the other
end of the flow. -/
def Observed (events : List Event) (podName : String) (broker : BrokerData) (lookup : Lookup)
    (flow : Flow) (d : Direction) : Prop :=
  ∃ report podData port, Seen events report podData ∧ podData.podName = podName ∧
    peerOf report ≠ podData.podIp ∧ Connection report d port flow.protocol ∧ port ≠ 0 ∧
    flow.dstPort = port ∧
      ∃ e ∈ otherEnd flow d, Covers lookup e (resolvePeer broker (peerOf report))

/-! What the rows of a controller say. -/

section Rows

variable {report : Report} {podData : PodInfo} {key : TrafficKey}

theorem peer_of_cacheKey (h : report.cacheKey podData = some key) :
    key.trafficInOutIp = peerOf report ∧ key.podIp = podData.podIp ∧
      key.podName = podData.podName ∧ peerOf report ≠ podData.podIp := by
  cases report with
  | network data =>
      simp only [Report.cacheKey, NetworkEvents.cacheKey] at h
      split at h
      · cases h
      · obtain ⟨hself, hkey⟩ := Option.ite_none_left_eq_some.mp h
        obtain rfl := Option.some.inj hkey
        exact ⟨rfl, rfl, rfl, fun heq => hself heq.symm⟩
  | policyDrop data =>
      simp only [Report.cacheKey, dropKey] at h
      obtain ⟨hself, hkey⟩ := Option.ite_none_left_eq_some.mp h
      obtain rfl := Option.some.inj hkey
      exact ⟨rfl, rfl, rfl, fun heq => hself heq.symm⟩

theorem exists_cacheKey {d : Direction} {port : ℕ} {protocol : String}
    (hconnection : Connection report d port protocol) (hself : peerOf report ≠ podData.podIp) :
    ∃ key, report.cacheKey podData = some key := by
  cases report with
  | network data =>
      simp only [Report.cacheKey, NetworkEvents.cacheKey, eventKind]
      have hpeer : podData.podIp ≠ ipv4String (fromBe data.daddr) := fun heq => hself heq.symm
      cases d with
      | ingress =>
          rw [if_pos hconnection.1]
          simp only [if_neg hpeer]
          exact ⟨_, rfl⟩
      | egress =>
          obtain ⟨-, ⟨hkind, -⟩ | ⟨hkind, -⟩⟩ := hconnection
          · rw [hkind]
            simp only [if_neg hpeer]
            exact ⟨_, rfl⟩
          · rw [hkind]
            simp only [if_neg hpeer]
            exact ⟨_, rfl⟩
      | other name => exact hconnection.elim
  | policyDrop data =>
      have hpeer : podData.podIp ≠ ipv4String (fromBe data.daddr) := fun heq => hself heq.symm
      exact ⟨_, if_neg hpeer⟩

theorem ipv4String_ne_empty (x : BitVec 32) : ipv4String x ≠ "" := by
  intro h
  have hdot : '.' ∈ (ipv4String x).toList := by simp [ipv4String, String.toList_append]
  rw [h] at hdot
  exact List.not_mem_nil hdot

theorem peerOf_ne_empty (report : Report) : peerOf report ≠ "" := by
  cases report <;> exact ipv4String_ne_empty _

/-- A port is written in decimal, and zero is no port to a generator. -/
theorem parsePort_port_iff (x : BitVec 16) (v : ℤ) :
    StandardPolicy.parsePort (toString x.toNat) = some v ↔ x.toNat ≠ 0 ∧ v = x.toNat := by
  have hlt := x.isLt
  have hread := JsText.parseDigits_toString x.toNat
  by_cases hzero : x.toNat = 0
  · have hnone : StandardPolicy.parsePort (toString 0) = none := by decide
    rw [hzero, hnone]
    simp
  · rw [GeneratorAgreement.parsePort_digits hread (by omega) (by omega)]
    simp only [Option.some.injEq, ne_eq, hzero, not_false_eq_true, true_and]
    exact eq_comm

/-- A row of the controller, as the advisor reads it. -/
def shown (key : TrafficKey) : StandardPolicy.PodTraffic :=
  ⟨key.podPort, key.trafficType, key.trafficInOutIp, key.trafficInOutPort, key.ipProtocol⟩

theorem advisorRow_of_isRowOf {row : PodTraffic} (h : IsRowOf key row) :
    GeneratorAgreement.advisorRow (DroppedTraffic.servedRow row) = shown key := by
  rw [h]
  rfl

/-- A key tells the direction, the port and the protocol of its report. -/
theorem connection_of_cacheKey (h : report.cacheKey podData = some key) :
    ∃ d, ∃ port : BitVec 16, StandardPolicy.rowDirection (shown key) = some d ∧
      StandardPolicy.relevantPort (shown key) d = toString port.toNat ∧
      ∀ d' p q, Connection report d' p q ↔
        d' = d ∧ p = port.toNat ∧ q = protocolPtr key.ipProtocol := by
  have hingress (key : TrafficKey) (htype : key.trafficType = "INGRESS") :
      StandardPolicy.rowDirection (shown key) = some .ingress := by
    simp [StandardPolicy.rowDirection, StandardPolicy.isIngressTraffic, shown, htype]
  have hnot : TextScan.equalFold "EGRESS" "INGRESS" = false := by decide
  have hegress (key : TrafficKey) (htype : key.trafficType = "EGRESS") :
      StandardPolicy.rowDirection (shown key) = some .egress := by
    simp [StandardPolicy.rowDirection, StandardPolicy.isIngressTraffic,
      StandardPolicy.isEgressTraffic, shown, htype, hnot]
  cases report with
  | network data =>
      simp only [Report.cacheKey, NetworkEvents.cacheKey] at h
      split at h
      · cases h
      · rename_i trafficType protocol podPort trafficInOutPort hkind
        obtain ⟨-, hkey⟩ := Option.ite_none_left_eq_some.mp h
        obtain rfl := Option.some.inj hkey
        rw [eventKind] at hkind
        split at hkind
        · cases hkind
          rename_i hkind
          refine ⟨.ingress, data.sport, hingress _ rfl, rfl, fun d' p q => ?_⟩
          cases d' <;> simp [Connection, hkind, protocolPtr]
        split at hkind
        · cases hkind
          rename_i hkind
          refine ⟨.egress, data.dport, hegress _ rfl, rfl, fun d' p q => ?_⟩
          cases d' <;> simp [Connection, hkind, protocolPtr]
        split at hkind
        · cases hkind
          rename_i hkind
          refine ⟨.egress, data.dport, hegress _ rfl, rfl, fun d' p q => ?_⟩
          cases d' <;> simp [Connection, hkind, protocolPtr]
        · cases hkind
  | policyDrop data =>
      simp only [Report.cacheKey, dropKey] at h
      obtain ⟨-, hkey⟩ := Option.ite_none_left_eq_some.mp h
      obtain rfl := Option.some.inj hkey
      refine ⟨.egress, data.dport, hegress _ rfl, rfl, fun d' p q => ?_⟩
      cases d' <;> simp [Connection]

/-- What the generator takes from the row of a report is the connection that was reported. -/
theorem survives_shown_iff (h : report.cacheKey podData = some key) (detail : DetailRow)
    (d : Direction) (v : ℤ) (protocol : String) :
    Survives (advisorDetail detail) (shown key) d v ∧ protocol = protocolPtr key.ipProtocol ↔
      peerOf report ≠ detail.podIp ∧
        ∃ port : ℕ, Connection report d port protocol ∧ port ≠ 0 ∧ v = port := by
  obtain ⟨d₀, port, hdirection, hport, hconnection⟩ := connection_of_cacheKey h
  obtain ⟨hpeer, -, -, -⟩ := peer_of_cacheKey h
  constructor
  · rintro ⟨hsurvives, hprotocol⟩
    obtain rfl := Option.some.inj (hdirection.symm.trans hsurvives.direction)
    have hread := hsurvives.port
    rw [hport, parsePort_port_iff] at hread
    refine ⟨hpeer ▸ hsurvives.notSelf, port.toNat, ?_, hread.1, hread.2⟩
    exact (hconnection _ _ _).mpr ⟨rfl, rfl, hprotocol⟩
  · rintro ⟨hself, p, hc, hzero, hv⟩
    obtain ⟨rfl, rfl, hprotocol⟩ := (hconnection _ _ _).mp hc
    refine ⟨⟨hdirection, ?_, ?_, ?_⟩, hprotocol⟩
    · change key.trafficInOutIp ≠ ""
      rw [hpeer]
      exact peerOf_ne_empty report
    · change key.trafficInOutIp ≠ detail.podIp
      rwa [hpeer]
    · rw [hport, parsePort_port_iff]
      exact ⟨hzero, hv⟩

end Rows

/-! One step. -/

section Step

variable {s s' : System} {e : Event} {events : List Event}

theorem deliver_cases (t : Table) (batch : List PodTraffic) (arrives : Bool) :
    deliver t batch arrives = (t, false) ∧ ¬ (arrives = true ∧ Accepts t batch) ∨
      deliver t batch arrives = (t ++ newEvents t batch, true) ∧ Accepts t batch := by
  cases arrives with
  | false => exact Or.inl ⟨rfl, fun h => Bool.false_ne_true h.1⟩
  | true =>
      by_cases haccepts : Accepts t batch
      · refine Or.inr ⟨?_, haccepts⟩
        rw [deliver, createPodTrafficBatch_accepted haccepts]
        rfl
      · refine Or.inl ⟨?_, fun h => haccepts h.2⟩
        obtain ⟨message, herror⟩ := createPodTrafficBatch_refused haccepts
        rw [deliver, herror]
        rfl

theorem step_cases (h : step s e = some s') :
    (∃ node report podData uuid timedOut, e = .received node report podData uuid timedOut ∧
      s' = s.setController node
        (TrafficReports.receive (s.controllers node) report podData uuid timedOut)) ∨
    (∃ node key, e = .evicted node key ∧
      s' = s.setController node { s.controllers node with
        cache := (s.controllers node).cache.filter fun k => k ≠ key }) ∨
    (∃ node handler arrives answered table taken, e = .posted node handler arrives answered ∧
      deliver s.table ((s.controllers node).pending handler).batch arrives = (table, taken) ∧
      s' = ({ s with table } : System).setController node
        (TrafficReports.flush (s.controllers node) handler (taken && answered))) ∨
    ∃ node, e = .restarted node ∧ s' = s.setController node TrafficReports.machine.init := by
  cases e with
  | received node report podData uuid timedOut =>
      obtain ⟨c, hc, rfl⟩ := Option.map_eq_some_iff.mp h
      obtain ⟨-, rfl⟩ := Machine.of_guard hc
      exact Or.inl ⟨node, report, podData, uuid, timedOut, rfl, rfl⟩
  | evicted node key =>
      obtain rfl := Option.some.inj h
      exact Or.inr (Or.inl ⟨node, key, rfl, rfl⟩)
  | posted node handler arrives answered =>
      obtain ⟨c, hc, rfl⟩ := Option.map_eq_some_iff.mp h
      obtain ⟨-, rfl⟩ := Machine.of_guard hc
      exact Or.inr (Or.inr (Or.inl ⟨node, handler, arrives, answered, _, _, rfl, rfl, rfl⟩))
  | restarted node =>
      obtain rfl := Option.some.inj h
      exact Or.inr (Or.inr (Or.inr ⟨node, rfl, rfl⟩))

/-- What holds of one controller and of all the others holds of all of them. -/
theorem forall_setController {P : TrafficReports.State → Prop} {node : String}
    {c : TrafficReports.State} (hc : P c) (h : ∀ node', P (s.controllers node')) (node' : String) :
    P ((s.setController node c).controllers node') := by
  by_cases hnode : node' = node
  · subst hnode
    simpa [System.setController] using hc
  · simpa [System.setController, hnode] using h node'

/-- What a controller makes of a report: nothing that is new, or the row of its key. -/
theorem receive_cases (c : TrafficReports.State) (report : Report) (podData : Option PodInfo)
    (uuid : String) (timedOut : Bool) :
    let c' := TrafficReports.receive c report podData uuid timedOut
    (c'.cache = c.cache ∧ (∀ handler, (c'.pending handler).batch = (c.pending handler).batch) ∧
      ∀ pod key, podData = some pod → report.cacheKey pod = some key → key ∈ c.cache) ∨
    ∃ pod key row, podData = some pod ∧ report.cacheKey pod = some key ∧ IsRowOf key row ∧
      c'.cache = key :: c.cache ∧
      ∀ handler, (c'.pending handler).batch =
        (c.pending handler).batch ++ if handler = report.handler then [row] else [] := by
  have hbatch (row : Option PodTraffic) (due : Bool) (handler : Handler) :
      (Function.update c.pending report.handler
        ⟨(c.pending report.handler).batch ++ row.toList, due⟩ handler).batch =
        (c.pending handler).batch ++ if handler = report.handler then row.toList else [] := by
    by_cases hhandler : handler = report.handler
    · subst hhandler
      simp
    · simp [hhandler]
  cases podData with
  | none =>
      refine Or.inl ⟨rfl, fun handler => ?_, fun pod key hpod => nomatch hpod⟩
      rw [TrafficReports.receive, Option.map_none, Option.getD_none, hbatch]
      simp
  | some pod =>
      have hbuild := TrafficReports.build_eq c.cache report pod uuid
      have hunchanged (h : TrafficReports.build c.cache report pod uuid = (c.cache, none)) :
          let c' := TrafficReports.receive c report (some pod) uuid timedOut
          c'.cache = c.cache ∧
            ∀ handler, (c'.pending handler).batch = (c.pending handler).batch := by
        refine ⟨?_, fun handler => ?_⟩
        · rw [TrafficReports.receive, Option.map_some, Option.getD_some, h]
        · rw [TrafficReports.receive, Option.map_some, Option.getD_some, h, hbatch]
          simp
      cases hkey : report.cacheKey pod with
      | none =>
          rw [hkey] at hbuild
          obtain ⟨hcache, hpending⟩ := hunchanged hbuild
          refine Or.inl ⟨hcache, hpending, fun pod' key hpod h => ?_⟩
          obtain rfl := Option.some.inj hpod
          cases hkey.symm.trans h
      | some key =>
          rw [hkey] at hbuild
          by_cases hcached : c.cache.contains key = true
          · simp only [if_pos hcached] at hbuild
            obtain ⟨hcache, hpending⟩ := hunchanged hbuild
            refine Or.inl ⟨hcache, hpending, fun pod' key' hpod h => ?_⟩
            obtain rfl := Option.some.inj hpod
            obtain rfl := Option.some.inj (hkey.symm.trans h)
            exact List.mem_of_elem_eq_true hcached
          · simp only [if_neg hcached] at hbuild
            refine Or.inr ⟨pod, key, trafficRow key pod.podNamespace uuid, rfl, hkey, rfl, ?_, ?_⟩
            · rw [TrafficReports.receive, Option.map_some, Option.getD_some, hbuild]
            · intro handler
              rw [TrafficReports.receive, Option.map_some, Option.getD_some, hbuild, hbatch]
              rfl

theorem batch_flush_subset (c : TrafficReports.State) (handler : Handler) (posted : Bool)
    (handler' : Handler) :
    ((TrafficReports.flush c handler posted).pending handler').batch ⊆
      (c.pending handler').batch := by
  by_cases hhandler : handler' = handler
  · subst hhandler
    simp only [TrafficReports.flush, Function.update_self, flushNetworkBatch]
    split
    · exact List.nil_subset _
    · exact (List.drop_sublist _ _).subset
  · simp only [TrafficReports.flush, Function.update_of_ne hhandler]
    exact List.Subset.refl _

end Step

/-! Whatever is known was reported. -/

/-- The key is that of a report. -/
def Keyed (events : List Event) (key : TrafficKey) : Prop :=
  ∃ report podData, Seen events report podData ∧ report.cacheKey podData = some key

def Made (events : List Event) (row : PodTraffic) : Prop :=
  ∃ key, Keyed events key ∧ IsRowOf key row

/-- What a controller holds is of reports. -/
structure SourcedController (events : List Event) (c : TrafficReports.State) : Prop where
  cached : ∀ key ∈ c.cache, Keyed events key
  pending : ∀ handler, ∀ row ∈ (c.pending handler).batch, Made events row

structure Sourced (events : List Event) (s : System) : Prop where
  controllers : ∀ node, SourcedController events (s.controllers node)
  stored : ∀ row ∈ s.table, Made events row

section Sources

variable {s s' : System} {e : Event} {events : List Event}

theorem Seen.mono {report : Report} {podData : PodInfo} (h : Seen events report podData) :
    Seen (events ++ [e]) report podData := by
  obtain ⟨node, uuid, timedOut, hmem⟩ := h
  exact ⟨node, uuid, timedOut, List.mem_append_left _ hmem⟩

theorem Keyed.mono {key : TrafficKey} (h : Keyed events key) : Keyed (events ++ [e]) key := by
  obtain ⟨report, podData, hseen, hkey⟩ := h
  exact ⟨report, podData, hseen.mono, hkey⟩

theorem Made.mono {row : PodTraffic} (h : Made events row) : Made (events ++ [e]) row := by
  obtain ⟨key, hkeyed, hrow⟩ := h
  exact ⟨key, hkeyed.mono, hrow⟩

theorem SourcedController.mono {c : TrafficReports.State} (h : SourcedController events c) :
    SourcedController (events ++ [e]) c where
  cached key hkey := (h.cached key hkey).mono
  pending handler row hrow := (h.pending handler row hrow).mono

theorem sourcedController_init : SourcedController events TrafficReports.machine.init where
  cached _ hkey := absurd hkey List.not_mem_nil
  pending _ _ hrow := absurd hrow List.not_mem_nil

/-- A report is the source of the key and of the row that come of it. -/
theorem SourcedController.receive {c : TrafficReports.State} (h : SourcedController events c)
    (node : String) (report : Report) (podData : Option PodInfo) (uuid : String)
    (timedOut : Bool) :
    SourcedController (events ++ [.received node report podData uuid timedOut])
      (TrafficReports.receive c report podData uuid timedOut) := by
  rcases receive_cases c report podData uuid timedOut with ⟨hcache, hpending, -⟩ |
    ⟨pod, key, row, rfl, hkey, hrow, hcache, hpending⟩
  · refine ⟨fun key hmem => ?_, fun handler row hmem => ?_⟩
    · rw [hcache] at hmem
      exact (h.cached key hmem).mono
    · rw [hpending] at hmem
      exact (h.pending handler row hmem).mono
  · have hkeyed : Keyed (events ++ [.received node report (some pod) uuid timedOut]) key :=
      ⟨report, pod, ⟨node, uuid, timedOut, List.mem_append_right _ List.mem_cons_self⟩, hkey⟩
    refine ⟨fun key' hmem => ?_, fun handler row' hmem => ?_⟩
    · rw [hcache] at hmem
      rcases List.mem_cons.mp hmem with rfl | hold
      · exact hkeyed
      · exact (h.cached key' hold).mono
    · rw [hpending] at hmem
      rcases List.mem_append.mp hmem with hold | hnew
      · exact (h.pending handler row' hold).mono
      · split at hnew
        · obtain rfl := List.mem_singleton.mp hnew
          exact ⟨key, hkeyed, hrow⟩
        · exact absurd hnew List.not_mem_nil

theorem Sourced.step (h : Sourced events s) (hstep : step s e = some s') :
    Sourced (events ++ [e]) s' := by
  have hothers := fun node => (h.controllers node).mono (e := e)
  have hstored := fun row hrow => (h.stored row hrow).mono (e := e)
  rcases step_cases hstep with ⟨node, report, podData, uuid, timedOut, rfl, rfl⟩ |
    ⟨node, key, rfl, rfl⟩ | ⟨node, handler, arrives, answered, table, taken, rfl, hdeliver, rfl⟩ |
    ⟨node, rfl, rfl⟩
  · exact ⟨forall_setController ((h.controllers node).receive node report podData uuid timedOut)
      hothers, hstored⟩
  · refine ⟨forall_setController ⟨fun key' hkey' => ?_, (hothers node).pending⟩ hothers, hstored⟩
    exact (hothers node).cached key' (List.mem_of_mem_filter hkey')
  · refine ⟨forall_setController ⟨(hothers node).cached, fun handler' row hrow => ?_⟩ hothers, ?_⟩
    · exact (hothers node).pending handler' row (batch_flush_subset _ _ _ _ hrow)
    · intro row hrow
      rcases deliver_cases s.table ((s.controllers node).pending handler).batch arrives with
        ⟨hsame, -⟩ | ⟨hmore, -⟩
      · obtain ⟨rfl, rfl⟩ := Prod.mk.inj (hsame.symm.trans hdeliver)
        exact hstored row hrow
      · obtain ⟨rfl, rfl⟩ := Prod.mk.inj (hmore.symm.trans hdeliver)
        rcases List.mem_append.mp hrow with hold | hnew
        · exact hstored row hold
        · exact (hothers node).pending handler row (DedupTable.mem_newRows hnew).1
  · exact ⟨forall_setController sourcedController_init hothers, hstored⟩

theorem sourced_run (h : machine.run events = some s) : Sourced events s := by
  refine Machine.invariant (P := Sourced) ?_ ?_ h
  · exact ⟨fun _ => sourcedController_init, fun row hrow => absurd hrow List.not_mem_nil⟩
  · intro events s e s' _ hsourced hstep
    exact hsourced.step hstep

end Sources

/-! Without losses whatever was reported is known. -/

/-- A post that was not taken drops nothing, and a controller restarts when nothing waits. -/
def Lossless (s : System) : Event → Prop
  | .posted node handler arrives _ =>
      let batch := ((s.controllers node).pending handler).batch
      (arrives = true ∧ Accepts s.table batch) ∨ batch.length ≤ maxPendingEvents
  | .restarted node => ∀ handler, ((s.controllers node).pending handler).batch = []
  | _ => True

/-- The lookups of the broker tell the reported connections apart. -/
def Separate (events : List Event) : Prop :=
  ∀ key key', Keyed events key → Keyed events key' →
    sameLookup (trafficRow key none "") (trafficRow key' none "") = true → key' = key

def Waiting (s : System) (row : PodTraffic) : Prop :=
  ∃ node handler, row ∈ ((s.controllers node).pending handler).batch

/-- A row of the key waits for a post or is stored. -/
def Represented (s : System) (key : TrafficKey) : Prop :=
  ∃ row, IsRowOf key row ∧ (Waiting s row ∨ row ∈ s.table)

section Losses

variable {s s' : System} {e : Event} {events : List Event}

theorem keyed_concat {key : TrafficKey} (h : Keyed (events ++ [e]) key) :
    Keyed events key ∨ ∃ node report pod uuid timedOut,
      e = .received node report (some pod) uuid timedOut ∧ report.cacheKey pod = some key := by
  obtain ⟨report, podData, ⟨node, uuid, timedOut, hmem⟩, hkey⟩ := h
  rcases List.mem_append.mp hmem with hold | hnew
  · exact Or.inl ⟨report, podData, ⟨node, uuid, timedOut, hold⟩, hkey⟩
  · obtain rfl := List.mem_singleton.mp hnew
    exact Or.inr ⟨node, report, podData, uuid, timedOut, rfl, hkey⟩

/-- A row that one controller has lost still waits at another or is where it is claimed. -/
theorem waiting_setController {row : PodTraffic} (h : Waiting s row) {node : String}
    {c : TrafficReports.State} {Q : Prop}
    (hc : ∀ handler, row ∈ ((s.controllers node).pending handler).batch →
      (∃ handler', row ∈ (c.pending handler').batch) ∨ Q) :
    Waiting (s.setController node c) row ∨ Q := by
  obtain ⟨node', handler, hrow⟩ := h
  by_cases hnode : node' = node
  · subst hnode
    refine (hc handler hrow).imp_left fun ⟨handler', hkept⟩ => ⟨node', handler', ?_⟩
    simpa [System.setController] using hkept
  · refine Or.inl ⟨node', handler, ?_⟩
    simpa [System.setController, hnode] using hrow

theorem Represented.receive {key : TrafficKey} (h : Represented s key) (node : String)
    (report : Report) (podData : Option PodInfo) (uuid : String) (timedOut : Bool) :
    Represented (s.setController node
      (TrafficReports.receive (s.controllers node) report podData uuid timedOut)) key := by
  obtain ⟨row, hrow, hwaiting | hstored⟩ := h
  · refine ⟨row, hrow, waiting_setController hwaiting fun handler hmem => Or.inl ⟨handler, ?_⟩⟩
    rcases receive_cases (s.controllers node) report podData uuid timedOut with
      ⟨-, hpending, -⟩ | ⟨_, _, _, _, _, _, _, hpending⟩
    · rwa [hpending]
    · rw [hpending]
      exact List.mem_append_left _ hmem
  · exact ⟨row, hrow, Or.inr hstored⟩

/-- The row of a report that was received waits, unless its key was known. -/
theorem represented_received (h : Sourced events s)
    (hall : ∀ key, Keyed events key → Represented s key) (node : String) {report : Report}
    {pod : PodInfo} {key : TrafficKey} (hkey : report.cacheKey pod = some key) (uuid : String)
    (timedOut : Bool) :
    Represented (s.setController node
      (TrafficReports.receive (s.controllers node) report (some pod) uuid timedOut)) key := by
  rcases receive_cases (s.controllers node) report (some pod) uuid timedOut with
    ⟨-, -, hcached⟩ | ⟨pod', key', row, hpod, hkey', hrow, -, hpending⟩
  · have hknown := (h.controllers node).cached key (hcached pod key rfl hkey)
    exact (hall key hknown).receive node report (some pod) uuid timedOut
  · obtain rfl := Option.some.inj hpod
    obtain rfl := Option.some.inj (hkey.symm.trans hkey')
    refine ⟨row, hrow, Or.inl ⟨node, report.handler, ?_⟩⟩
    simp only [System.setController, Function.update_self, hpending, if_true]
    exact List.mem_append_right _ List.mem_cons_self

/-- A batch that was taken leaves a row of each of its keys. -/
theorem found_after_post (h : Sourced events s) (hseparate : Separate events)
    {batch : List PodTraffic} {row : PodTraffic} (hmem : row ∈ batch)
    (hbatch : ∀ row ∈ batch, Made events row) {key : TrafficKey} (hkeyed : Keyed events key)
    (hrow : IsRowOf key row) :
    ∃ row' ∈ s.table ++ newEvents s.table batch, IsRowOf key row' := by
  have hcomplete : Complete row := by
    rw [hrow]
    exact complete_trafficRow _ _ _
  obtain ⟨row', hmem', hfound⟩ : ∃ row' ∈ s.table ++ newEvents s.table batch,
      sameLookup row row' = true := by
    by_cases hold : ∃ row' ∈ s.table, sameLookup row row' = true
    · obtain ⟨row', hmem', hfound⟩ := hold
      exact ⟨row', List.mem_append_left _ hmem', hfound⟩
    · obtain ⟨row', hmem', hkey⟩ := exists_newEvents hmem hold
      exact ⟨row', List.mem_append_right _ hmem', sameLookup_self row row' hcomplete hkey⟩
  have hmade : Made events row' := by
    rcases List.mem_append.mp hmem' with hold | hnew
    · exact h.stored row' hold
    · exact hbatch row' (DedupTable.mem_newRows hnew).1
  obtain ⟨key', hkeyed', hrow'⟩ := hmade
  have hsame : sameLookup (trafficRow key none "") (trafficRow key' none "") = true := by
    rw [hrow, hrow'] at hfound
    exact hfound
  obtain rfl := hseparate key key' hkeyed hkeyed' hsame
  exact ⟨row', hmem', hrow'⟩

theorem represented_posted (h : Sourced events s) (hseparate : Separate events)
    {key : TrafficKey} (hkeyed : Keyed events key) (hold : Represented s key) {node : String}
    {handler : Handler} {arrives answered : Bool} {table : Table} {taken : Bool}
    (hlossless : Lossless s (.posted node handler arrives answered))
    (hdeliver : deliver s.table ((s.controllers node).pending handler).batch arrives =
      (table, taken)) :
    Represented (({ s with table } : System).setController node
      (TrafficReports.flush (s.controllers node) handler (taken && answered))) key := by
  obtain ⟨row, hrow, hknown⟩ := hold
  have hother {handler' : Handler} (hhandler : handler' ≠ handler)
      (hmem : row ∈ ((s.controllers node).pending handler').batch) :
      row ∈ ((TrafficReports.flush (s.controllers node) handler (taken && answered)).pending
        handler').batch := by
    simpa only [TrafficReports.flush, Function.update_of_ne hhandler] using hmem
  rcases deliver_cases s.table ((s.controllers node).pending handler).batch arrives with
    ⟨hsame, hnot⟩ | ⟨hmore, -⟩
  · obtain ⟨rfl, rfl⟩ := Prod.mk.inj (hsame.symm.trans hdeliver)
    have hroom := hlossless.resolve_left hnot
    refine ⟨row, hrow, hknown.elim (fun hwaiting => ?_) Or.inr⟩
    refine waiting_setController (s := { s with table := s.table }) hwaiting fun handler' hmem => ?_
    by_cases hhandler : handler' = handler
    · subst hhandler
      refine Or.inl ⟨handler', ?_⟩
      simpa [TrafficReports.flush, flushNetworkBatch, capBatch, Nat.sub_eq_zero_of_le hroom]
        using hmem
    · exact Or.inl ⟨handler', hother hhandler hmem⟩
  · obtain ⟨rfl, rfl⟩ := Prod.mk.inj (hmore.symm.trans hdeliver)
    rcases hknown with hwaiting | hstored
    · by_cases hmem : row ∈ ((s.controllers node).pending handler).batch
      · obtain ⟨row', hmem', hrow'⟩ := found_after_post h hseparate hmem
          ((h.controllers node).pending handler) hkeyed hrow
        exact ⟨row', hrow', Or.inr hmem'⟩
      · refine ⟨row, hrow, waiting_setController
          (s := { s with table := s.table ++ newEvents s.table _ }) hwaiting fun handler' hin => ?_⟩
        have hhandler : handler' ≠ handler := fun heq => hmem (heq ▸ hin)
        exact Or.inl ⟨handler', hother hhandler hin⟩
    · exact ⟨row, hrow, Or.inr (List.mem_append_left _ hstored)⟩

theorem represented_step (h : Sourced events s)
    (hall : ∀ key, Keyed events key → Represented s key) (hseparate : Separate events)
    (hlossless : Lossless s e) (hstep : step s e = some s') :
    ∀ key, Keyed (events ++ [e]) key → Represented s' key := by
  intro key hkeyed
  rcases step_cases hstep with ⟨node, report, podData, uuid, timedOut, rfl, rfl⟩ |
    ⟨node, cached, rfl, rfl⟩ |
    ⟨node, handler, arrives, answered, table, taken, rfl, hdeliver, rfl⟩ | ⟨node, rfl, rfl⟩
  · rcases keyed_concat hkeyed with hold | ⟨_, _, pod, _, _, heq, hkey⟩
    · exact (hall key hold).receive node report podData uuid timedOut
    · cases heq
      exact represented_received h hall node hkey uuid timedOut
  · obtain hold | ⟨_, _, _, _, _, heq, -⟩ := keyed_concat hkeyed
    · obtain ⟨row, hrow, hknown⟩ := hall key hold
      refine ⟨row, hrow, hknown.elim (fun hwaiting => ?_) Or.inr⟩
      exact waiting_setController hwaiting fun handler hmem => Or.inl ⟨handler, hmem⟩
    · cases heq
  · obtain hold | ⟨_, _, _, _, _, heq, -⟩ := keyed_concat hkeyed
    · exact represented_posted h hseparate hold (hall key hold) hlossless hdeliver
    · cases heq
  · obtain hold | ⟨_, _, _, _, _, heq, -⟩ := keyed_concat hkeyed
    · obtain ⟨row, hrow, hknown⟩ := hall key hold
      refine ⟨row, hrow, hknown.elim (fun hwaiting => ?_) Or.inr⟩
      refine waiting_setController hwaiting fun handler hmem => ?_
      rw [hlossless handler] at hmem
      exact absurd hmem List.not_mem_nil
    · cases heq

theorem Separate.of_concat (h : Separate (events ++ [e])) : Separate events :=
  fun key key' hkey hkey' => h key key' hkey.mono hkey'.mono

theorem represented_run (hrun : machine.run events = some s) (hseparate : Separate events)
    (hlossless : machine.EveryStep events fun _ s e _ => Lossless s e) :
    ∀ key, Keyed events key → Represented s key := by
  refine Machine.invariant_of_everyStep
    (P := fun events s => Separate events → ∀ key, Keyed events key → Represented s key)
    ?_ ?_ hrun hlossless hseparate
  · rintro - key ⟨report, podData, ⟨node, uuid, timedOut, hmem⟩, -⟩
    exact absurd hmem List.not_mem_nil
  · intro events s e s' hbefore hall hstep hkept hsep
    exact represented_step (sourced_run hbefore) (hall hsep.of_concat) hsep.of_concat hkept hstep

end Losses

/-! The policy of a pod. -/

section Policies

variable {s : System} {events : List Event}

/-- What the rows of a pod name support was observed. -/
theorem observed_of_supported (h : Sourced events s) {podName : String} {broker : BrokerData}
    {lookup : Lookup} {detail : DetailRow} {details : List DetailRow} {services : List ServiceRow}
    {flow : Flow} {d : Direction}
    (hsupported : Supported broker lookup
      ((PolicyTargets.servedRows ⟨s.table, details, services⟩ podName).map
        GeneratorAgreement.advisorRow) (advisorDetail detail) flow d) :
    Observed events podName broker lookup flow d := by
  obtain ⟨row, hrow, hsurvives, hprotocol, e, he, hcovers⟩ := hsupported
  obtain ⟨served, hserved, rfl⟩ := List.mem_map.mp hrow
  obtain ⟨stored, hstored, rfl⟩ := List.mem_map.mp hserved
  obtain ⟨hmem, hname⟩ := (PodTrafficReads.mem_podTrafficByName _ _ _).mp hstored
  obtain ⟨key, ⟨report, podData, hseen, hkey⟩, hmade⟩ := h.stored stored hmem
  obtain ⟨hpeer, -, hpod, hself⟩ := peer_of_cacheKey hkey
  rw [advisorRow_of_isRowOf hmade] at hsurvives hprotocol hcovers
  obtain ⟨-, port, hconnection, hzero, hport⟩ :=
    (survives_shown_iff hkey detail d flow.dstPort flow.protocol).mp ⟨hsurvives, hprotocol⟩
  have hnamed : podData.podName = podName := by
    rw [hmade] at hname
    exact hpod.symm.trans (Option.some.inj hname)
  refine ⟨report, podData, port, hseen, hnamed, hself, hconnection, hzero, hport, e, he, ?_⟩
  have hdst : (shown key).dstIP = peerOf report := hpeer
  rwa [hdst] at hcovers

/-- A generated policy admits only what was observed of a pod of that name, whatever was lost,
refused or reported again on the way. -/
theorem admits_only_observed (api : Apimachinery) (hapi : api.Documented)
    (hrun : machine.run events = some s) (details : List DetailRow) (services : List ServiceRow)
    (failure : Failures) (podName : String) (policy : StandardPolicy.NetworkPolicy)
    (hgen : generatePolicy StandardPolicy.generate ⟨s.table, details, services⟩ failure podName =
      .ok policy)
    (lookup : Lookup) (hlookup : lookup.Sound) (flow : Flow) (d : Direction)
    (hallow : verdictIn d (matchPolicy api flow policy.audited lookup) = .allow) :
    Observed events podName (advisorBroker ⟨s.table, details, services⟩ failure) lookup flow d := by
  obtain ⟨detail, -, hmade⟩ := (PolicyTargets.generatePolicy_eq_ok_iff _ _ _ _ _).mp hgen
  obtain ⟨generated, hsame, -, -, hspec⟩ :=
    generate_allowed api (advisorBroker ⟨s.table, details, services⟩ failure) lookup podName
      ((PolicyTargets.servedRows ⟨s.table, details, services⟩ podName).map
        GeneratorAgreement.advisorRow) (advisorDetail detail)
  obtain rfl := Except.ok.inj (hmade.symm.trans hsame)
  rw [verdictIn_eq_allow_iff hapi _ _ _ hlookup] at hallow
  exact observed_of_supported (sourced_run hrun) ((hspec flow d).2.1 hallow.2.2)

/-- Once nothing waits, every reported key has a row among those of its pod name. -/
theorem stored_of_keyed (hrun : machine.run events = some s) (hseparate : Separate events)
    (hlossless : machine.EveryStep events fun _ s e _ => Lossless s e)
    (hdelivered : ∀ row, ¬ Waiting s row) {key : TrafficKey} (hkeyed : Keyed events key) :
    ∃ row ∈ podTrafficByName s.table key.podName, IsRowOf key row := by
  obtain ⟨row, hrow, hknown⟩ := represented_run hrun hseparate hlossless key hkeyed
  have hstored := hknown.resolve_left (hdelivered row)
  refine ⟨row, (PodTrafficReads.mem_podTrafficByName _ _ _).mpr ⟨hstored, ?_⟩, hrow⟩
  rw [hrow]
  rfl

theorem supported_of_observed (hrun : machine.run events = some s) (hseparate : Separate events)
    (hlossless : machine.EveryStep events fun _ s e _ => Lossless s e)
    (hdelivered : ∀ row, ¬ Waiting s row) {podName : String} {broker : BrokerData}
    {lookup : Lookup} {detail : DetailRow} {details : List DetailRow} {services : List ServiceRow}
    (hown : ∀ report podData, Seen events report podData → podData.podName = podName →
      podData.podIp = detail.podIp)
    {flow : Flow} {d : Direction} (h : Observed events podName broker lookup flow d) :
    Supported broker lookup
      ((PolicyTargets.servedRows ⟨s.table, details, services⟩ podName).map
        GeneratorAgreement.advisorRow) (advisorDetail detail) flow d := by
  obtain ⟨report, podData, port, hseen, rfl, hself, hconnection, hzero, hport, e, he, hcovers⟩ := h
  obtain ⟨key, hkey⟩ := exists_cacheKey hconnection hself
  obtain ⟨hpeer, -, hpod, -⟩ := peer_of_cacheKey hkey
  obtain ⟨row, hrow, hmade⟩ :=
    stored_of_keyed hrun hseparate hlossless hdelivered ⟨report, podData, hseen, hkey⟩
  have hnotSelf : peerOf report ≠ detail.podIp := hown report podData hseen rfl ▸ hself
  obtain ⟨hsurvives, hprotocol⟩ := (survives_shown_iff hkey detail d flow.dstPort
    flow.protocol).mpr ⟨hnotSelf, port, hconnection, hzero, hport⟩
  have hdst : (shown key).dstIP = peerOf report := hpeer
  refine ⟨shown key, ?_, hsurvives, hprotocol, e, he, hdst ▸ hcovers⟩
  rw [← advisorRow_of_isRowOf hmade, ← hpod]
  exact List.mem_map_of_mem (List.mem_map_of_mem hrow)

/-- A pod that was reported under one address is found by the rows of its name. -/
theorem advisorFinds_of_keyed (hrun : machine.run events = some s) (hseparate : Separate events)
    (hlossless : machine.EveryStep events fun _ s e _ => Lossless s e)
    (hdelivered : ∀ row, ¬ Waiting s row) {detail : DetailRow} {details : List DetailRow}
    {services : List ServiceRow} {failure : Failures} {key : TrafficKey} (hkeyed : Keyed events key)
    (hname : key.podName ≠ "")
    (hown : ∀ report podData, Seen events report podData → podData.podName = key.podName →
      podData.podIp = detail.podIp)
    (hfound : PolicyTargets.getPodByIp ⟨s.table, details, services⟩ detail.podIp = some detail)
    (htraffic : failure (.podTraffic key.podName) = none)
    (hdetails : failure (.podByIP detail.podIp) = none) :
    PolicyTargets.AdvisorFinds ⟨s.table, details, services⟩ failure key.podName detail := by
  have hip : detail.podIp ≠ "" := by
    intro hempty
    rw [PolicyTargets.getPodByIp, if_pos hempty] at hfound
    cases hfound
  obtain ⟨row, hrow, -⟩ := stored_of_keyed hrun hseparate hlossless hdelivered hkeyed
  have haddress : PolicyTargets.lookupIP (podTrafficByName s.table key.podName) = detail.podIp := by
    cases hrows : podTrafficByName s.table key.podName with
    | nil =>
        rw [hrows] at hrow
        exact absurd hrow List.not_mem_nil
    | cons first rest =>
        obtain ⟨hmem, hnamed⟩ := (PodTrafficReads.mem_podTrafficByName s.table key.podName first).mp
          (hrows ▸ List.mem_cons_self)
        obtain ⟨key', ⟨report, podData, hseen, hkey'⟩, hmade⟩ :=
          (sourced_run hrun).stored first hmem
        obtain ⟨-, hip', hpod, -⟩ := peer_of_cacheKey hkey'
        rw [hmade] at hnamed
        have hsame : podData.podIp = detail.podIp :=
          hown report podData hseen (hpod.symm.trans (Option.some.inj hnamed))
        have hfirst : first.podIp.getD "" = detail.podIp := by
          rw [hmade, ← hsame]
          exact hip'
        rw [PolicyTargets.lookupIP, hfirst, if_pos hip]
  exact ⟨hname, htraffic, List.ne_nil_of_mem hrow, haddress ▸ hip, haddress ▸ hdetails,
    haddress ▸ hfound⟩

/-- When nothing was lost and the broker's lookups keep the reports apart, the policy made once
everything has arrived admits what was observed of the pod, all of it and nothing else. -/
theorem admits_exactly_observed (api : Apimachinery) (hapi : api.Documented)
    (hrun : machine.run events = some s)
    (hlossless : machine.EveryStep events fun _ s e _ => Lossless s e)
    (hseparate : Separate events) (hdelivered : ∀ row, ¬ Waiting s row)
    (details : List DetailRow) (services : List ServiceRow) (failure : Failures)
    (key : TrafficKey) (hkeyed : Keyed events key) (hname : key.podName ≠ "")
    (detail : DetailRow)
    (hown : ∀ report podData, Seen events report podData → podData.podName = key.podName →
      podData.podIp = detail.podIp)
    (hfound : PolicyTargets.getPodByIp ⟨s.table, details, services⟩ detail.podIp = some detail)
    (htraffic : failure (.podTraffic key.podName) = none)
    (hdetails : failure (.podByIP detail.podIp) = none)
    (lookup : Lookup) (hcluster : ClusterObjects api lookup) (subject : Pod)
    (hsubject : lookup.getPod (detail.podNamespace.getD "") detail.podName = some subject)
    (hlabels : subject.labels = detail.labels.getD ∅) :
    ∃ policy, generatePolicy StandardPolicy.generate ⟨s.table, details, services⟩ failure
        key.podName = .ok policy ∧
      ∀ flow d, subjectEnd flow d =
          some ⟨detail.podNamespace.getD "", detail.podName, detail.podIp⟩ →
        (verdictIn d (matchPolicy api flow policy.audited lookup) = .allow ↔
          Observed events key.podName (advisorBroker ⟨s.table, details, services⟩ failure) lookup
            flow d) := by
  have hfinds := advisorFinds_of_keyed hrun hseparate hlossless hdelivered hkeyed hname hown hfound
    htraffic hdetails
  obtain ⟨policy, hgen, hallow⟩ := generate_allow_iff hapi hcluster
    (advisorBroker ⟨s.table, details, services⟩ failure) key.podName
    ((PolicyTargets.servedRows ⟨s.table, details, services⟩ key.podName).map
      GeneratorAgreement.advisorRow) (advisorDetail detail) subject hsubject hlabels
  refine ⟨policy, (PolicyTargets.generatePolicy_eq_ok_iff _ _ _ _ _).mpr ⟨detail, hfinds, hgen⟩,
    fun flow d hend => (hallow flow d hend).trans ?_⟩
  exact ⟨observed_of_supported (sourced_run hrun),
    supported_of_observed hrun hseparate hlossless hdelivered hown⟩

end Policies

/-! A request to the api. The first post is taken, but its answer is lost. -/

def apiInfo : PodInfo := ⟨"api-0", some "shop", "10.0.0.8"⟩

def webRequest : NetworkEventData where
  inum := 4026532001
  saddr := 0x0800000a
  sport := 8080
  daddr := 0x0700000a
  dport := 51034
  kind := 2

def requestKey : TrafficKey :=
  ⟨"api-0", "10.0.0.8", "8080", "10.0.0.7", "0", "INGRESS", "TCP", "ALLOW"⟩

theorem cacheKey_webRequest : (Report.network webRequest).cacheKey apiInfo = some requestKey := by
  decide

def requested : Event := .received "node-1" (.network webRequest) (some apiInfo) "a1" true

def post (answered : Bool) : Event := .posted "node-1" .networkEvents true answered

/-- The state after the events, for events that are a run. -/
def after (events : List Event) : System := (machine.run events).getD machine.init

def retriedRun : List Event := [requested] ++ [post false] ++ [post true]

theorem run_requested : machine.run [requested] = some (after [requested]) := rfl

theorem step_unanswered : machine.step (after [requested]) (post false) =
    some (after ([requested] ++ [post false])) := rfl

theorem step_answered : machine.step (after ([requested] ++ [post false])) (post true) =
    some (after retriedRun) := rfl

theorem run_unanswered : machine.run ([requested] ++ [post false]) =
    some (after ([requested] ++ [post false])) := rfl

theorem run_retriedRun : machine.run retriedRun = some (after retriedRun) := rfl

theorem lossless_retriedRun :
    machine.EveryStep retriedRun fun _ s e _ => Lossless s e := by
  have hfirst : machine.EveryStep ([] ++ [requested]) fun _ s e _ => Lossless s e := by
    refine (Machine.everyStep_concat_iff Machine.run_nil run_requested).mpr ⟨?_, trivial⟩
    intro before e rest s s' hevents
    simp at hevents
  have hroom (handler : Handler) (events : List Event)
      (h : (((after events).controllers "node-1").pending handler).batch.length = 1) :
      (((after events).controllers "node-1").pending handler).batch.length ≤ maxPendingEvents := by
    rw [h, maxPendingEvents]
    decide
  refine (Machine.everyStep_concat_iff run_unanswered step_answered).mpr ⟨?_, Or.inr ?_⟩
  · refine (Machine.everyStep_concat_iff run_requested step_unanswered).mpr ⟨hfirst, Or.inr ?_⟩
    exact hroom .networkEvents [requested] rfl
  · exact hroom .networkEvents ([requested] ++ [post false]) rfl

theorem seen_retriedRun {report : Report} {podData : PodInfo} (h : Seen retriedRun report podData) :
    report = .network webRequest ∧ podData = apiInfo := by
  obtain ⟨node, uuid, timedOut, hmem⟩ := h
  simp only [retriedRun, requested, post, List.cons_append, List.nil_append, List.mem_cons,
    List.not_mem_nil, or_false, Event.received.injEq, reduceCtorEq] at hmem
  obtain ⟨-, hreport, hpod, -, -⟩ := hmem
  exact ⟨hreport, Option.some.inj hpod⟩

/-- There is one report, so nothing is confused. -/
theorem keyed_retriedRun {key : TrafficKey} (h : Keyed retriedRun key) : key = requestKey := by
  obtain ⟨report, podData, hseen, hkey⟩ := h
  obtain ⟨rfl, rfl⟩ := seen_retriedRun hseen
  exact Option.some.inj (hkey.symm.trans cacheKey_webRequest)

theorem separate_retriedRun : Separate retriedRun := by
  intro key key' hkey hkey' _
  rw [keyed_retriedRun hkey, keyed_retriedRun hkey']

theorem waiting_retriedRun (row : PodTraffic) : ¬ Waiting (after retriedRun) row := by
  rintro ⟨node, handler, hrow⟩
  have hcontrollers : ∃ c₁ c₂ c₃, (after retriedRun).controllers =
      Function.update (Function.update (Function.update
        (fun _ => TrafficReports.machine.init) "node-1" c₁) "node-1" c₂) "node-1" c₃ ∧
      ∀ handler, (c₃.pending handler).batch = [] := by
    refine ⟨_, _, _, rfl, fun handler => ?_⟩
    cases handler <;> rfl
  obtain ⟨c₁, c₂, c₃, heq, hempty⟩ := hcontrollers
  rw [heq, Function.update_idem, Function.update_idem] at hrow
  by_cases hnode : node = "node-1"
  · subst hnode
    rw [Function.update_self, hempty] at hrow
    exact List.not_mem_nil hrow
  · rw [Function.update_of_ne hnode] at hrow
    exact List.not_mem_nil hrow

def shopDetails : List DetailRow :=
  [⟨"web-0", "10.0.0.7", some "shop", some webPod.labels⟩,
    ⟨"api-0", "10.0.0.8", some "shop", some apiPod.labels⟩]

def shopState : BrokerState := ⟨(after retriedRun).table, shopDetails, []⟩

def apiObserved : StandardPolicy.NetworkPolicy where
  name := "api-0-standard-policy"
  ns := "shop"
  labels := StandardPolicy.createStandardLabels "api-0" "standard-policy"
  spec :=
    { podSelector := ofMatchLabels apiPod.labels
      policyTypes := [.ingress]
      ingress := [⟨[⟨some (ofMatchLabels webPod.labels),
        some (ofMatchLabels (Labels.ofList [("kubernetes.io/metadata.name", "shop")])), none⟩],
        [StandardPolicy.plainPort 8080 "TCP"]⟩]
      egress := [] }

theorem generatePolicy_shopState :
    generatePolicy StandardPolicy.generate shopState (fun _ => none) "api-0" = .ok apiObserved :=
  rfl

theorem webToApi_observed :
    Observed retriedRun "api-0" (advisorBroker shopState fun _ => none) shop webToApi .ingress :=
  admits_only_observed reference reference_documented run_retriedRun shopDetails []
    (fun _ => none) "api-0" apiObserved generatePolicy_shopState shop shop_clusterObjects.sound
    webToApi .ingress (by decide)

theorem shop_exactly_observed :
    ∃ policy, generatePolicy StandardPolicy.generate shopState (fun _ => none) "api-0" =
        .ok policy ∧
      ∀ flow d, subjectEnd flow d = some ⟨"shop", "api-0", "10.0.0.8"⟩ →
        (verdictIn d (matchPolicy reference flow policy.audited shop) = .allow ↔
          Observed retriedRun "api-0" (advisorBroker shopState fun _ => none) shop flow d) := by
  refine admits_exactly_observed reference reference_documented run_retriedRun lossless_retriedRun
    separate_retriedRun waiting_retriedRun shopDetails [] (fun _ => none) requestKey ?_ (by decide)
    ⟨"api-0", "10.0.0.8", some "shop", some apiPod.labels⟩ ?_ rfl rfl rfl shop shop_clusterObjects
    apiPod rfl rfl
  · refine ⟨.network webRequest, apiInfo, ⟨"node-1", "a1", true, ?_⟩, cacheKey_webRequest⟩
    exact List.mem_cons_self
  · intro report podData hseen _
    rw [(seen_retriedRun hseen).2]
    rfl

end KGuardian.ObservedPolicies
