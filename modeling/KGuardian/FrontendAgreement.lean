import KGuardian.FrontendPeers

/-!
The frontend's generator of standard policies against the advisor's, over the same
broker and rows. The matcher gives the flows of the pod the same verdicts exactly
when the frontend selects the pod, both restrict the same directions, and the peers
that they take rows for refine each other.
-/
namespace KGuardian.FrontendAgreement

open AllowLists FrontendPeers Matcher ObservedTraffic PeerInclusion PolicySemantics Selectors
open BridgeNetworkPolicy (TrafficRow)
open FrontendPolicy
open GeneratorAgreement (PlainPort WellFormed advisorRow)
open JsText (LowerCase Runtime)
open StandardPolicy (Survives)

/-- The matcher gives each flow of the pod the same verdicts under both policies, in
every cluster that has the pod. -/
def SameFlows (api : Apimachinery) (js : Runtime) (lower : LowerCase) (broker : Broker)
    (pod : PodInfo) (ns : String) (traffic : List TrafficRow) : Prop :=
  ∃ policy, StandardPolicy.generate (brokerData broker) pod.podName (traffic.map advisorRow)
      (some (advisorDetail pod)) = .ok policy ∧
    ∀ lookup, Placed api lookup ns pod.podName (pod.labels.getD ∅) → ∀ flow d,
      subjectEnd flow d = some ⟨ns, pod.podName, pod.podIp⟩ →
        verdictIn d (matchPolicy api flow
            (generateNetworkPolicy js lower broker pod traffic).audited lookup) =
          verdictIn d (matchPolicy api flow policy.audited lookup)

/-- Rows of other peers restrict their directions, and without any such row both
directions are. -/
def AdvisorRestricts (pod : PodInfo) (traffic : List TrafficRow) (d : Direction) : Prop :=
  (∃ t ∈ traffic, direction t = some d ∧ peerIP t ≠ pod.podIp) ∨
    ∀ t ∈ traffic, peerIP t = pod.podIp

/-- Rows restrict their directions, and no rows restrict ingress. -/
def FrontendRestricts (traffic : List TrafficRow) (d : Direction) : Prop :=
  (∃ t ∈ traffic, direction t = some d) ∨ traffic = [] ∧ d = .ingress

/-- The frontend selects the pod by labels that it carries, and the rows are read
alike: the same directions are restricted, and for each port and protocol the peers
refine each other. -/
structure Alike (api : Apimachinery) (broker : Broker) (pod : PodInfo) (ns : String)
    (traffic : List TrafficRow) : Prop where
  selected : Carried (targetPodLabels pod) (pod.labels.getD ∅)
  restricts : ∀ d ∈ [PolicyType.ingress, .egress],
    (AdvisorRestricts pod traffic d ↔ FrontendRestricts traffic d)
  narrower : ∀ d port protocol, Refines api (AdvisorPeer broker pod traffic d port protocol)
    (FrontendPeer broker ns traffic d port protocol)
  wider : ∀ d port protocol, Refines api (FrontendPeer broker ns traffic d port protocol)
    (AdvisorPeer broker pod traffic d port protocol)

/-! Directions that are restricted. -/

section

variable {js : Runtime} {lower : LowerCase} {traffic : List TrafficRow}
  (hreads : ∀ t ∈ traffic, ∃ d n protocol, Reads js lower t d n protocol)
include hreads

theorem known_of_direction {t : TrafficRow} (ht : t ∈ traffic) {d : Direction}
    (hd : direction t = some d) : d = .ingress ∨ d = .egress := by
  obtain ⟨d', n, protocol, hread⟩ := hreads t ht
  rw [Option.some.inj (hd.symm.trans hread.direction)]
  exact hread.known

theorem side_eq_nil_iff (identities : List (String × TrafficIdentity)) (d : Direction) :
    side (peerMaps lower identities traffic) d = [] ↔ ∀ t ∈ traffic, direction t ≠ some d := by
  rw [side_peerMaps, collected_eq_nil_iff, entries, List.filterMap_eq_nil_iff]
  refine forall₂_congr fun t ht => ?_
  obtain ⟨d', n, protocol, hread⟩ := hreads t ht
  rw [hread.entry_eq, hread.direction]
  by_cases hd : d = d'
  · simp [hd]
  · simp [hd, Ne.symm hd]

theorem frontend_restricts_iff (broker : Broker) (pod : PodInfo) (d : Direction) :
    Restricts (generateNetworkPolicy js lower broker pod traffic).spec.policyTypes
        (generateNetworkPolicy js lower broker pod traffic).spec.egress d ↔
      FrontendRestricts traffic d := by
  have hmem (d : Direction) :
      d ∈ (generateNetworkPolicy js lower broker pod traffic).spec.policyTypes ↔
        ∃ t ∈ traffic, direction t = some d := by
    rw [mem_policyTypes_iff, ne_eq, side_eq_nil_iff hreads]
    simp
  by_cases htraffic : traffic = []
  · subst htraffic
    have htypes : (generateNetworkPolicy js lower broker pod []).spec.policyTypes = [] := rfl
    have hegress : (generateNetworkPolicy js lower broker pod []).spec.egress = [] := rfl
    simp [Restricts, FrontendRestricts, htypes, hegress]
  · have htypes : (generateNetworkPolicy js lower broker pod traffic).spec.policyTypes ≠ [] := by
      obtain ⟨t, ht⟩ := List.exists_mem_of_ne_nil _ htraffic
      obtain ⟨d', n, protocol, hread⟩ := hreads t ht
      exact List.ne_nil_of_mem ((hmem d').mpr ⟨t, ht, hread.direction⟩)
    simp [Restricts, FrontendRestricts, htypes, htraffic, hmem]

theorem exists_survivor_iff (pod : PodInfo) (d : Direction) :
    (∃ row ∈ traffic.map advisorRow, ∃ v, Survives (advisorDetail pod) row d v) ↔
      ∃ t ∈ traffic, direction t = some d ∧ peerIP t ≠ pod.podIp := by
  constructor
  · rintro ⟨row, hrow, v, hsurvives⟩
    obtain ⟨t, ht, rfl⟩ := List.mem_map.mp hrow
    exact ⟨t, ht, hsurvives.direction, hsurvives.notSelf⟩
  · rintro ⟨t, ht, hd, hself⟩
    obtain ⟨d', n, protocol, hread⟩ := hreads t ht
    exact ⟨_, List.mem_map_of_mem ht, n, (hread.survives_iff _ _ _).mpr
      ⟨Option.some.inj (hd.symm.trans hread.direction), rfl, hself⟩⟩

theorem advisor_side_eq_nil_iff (pod : PodInfo) (d : Direction) :
    StandardPolicy.side
        (StandardPolicy.processTrafficRules (traffic.map advisorRow) (advisorDetail pod)) d = [] ↔
      ¬ ∃ t ∈ traffic, direction t = some d ∧ peerIP t ≠ pod.podIp := by
  rw [StandardPolicy.side_eq_nil_iff, ← exists_survivor_iff hreads]
  simp

/-- The advisor's policy, by what it restricts and allows. -/
theorem exists_advisorPolicy (api : Apimachinery) (broker : Broker) (pod : PodInfo) :
    ∃ policy, StandardPolicy.generate (brokerData broker) pod.podName (traffic.map advisorRow)
        (some (advisorDetail pod)) = .ok policy ∧
      policy.ns = pod.podNamespace.getD "" ∧
      policy.spec.podSelector = ofMatchLabels (pod.labels.getD ∅) ∧
      (∀ d ∈ [PolicyType.ingress, .egress],
        (Restricts policy.spec.policyTypes policy.spec.egress d ↔ AdvisorRestricts pod traffic d)) ∧
      ∀ lookup, ClusterObjects api lookup → ∀ flow d,
        (Allowed api lookup policy.ns policy.spec flow d ↔
          Meets lookup flow d (AdvisorPeer broker pod traffic d flow.dstPort flow.protocol)) := by
  obtain ⟨policy, hgen, hns, hselector, hcases⟩ := StandardPolicy.generate_cases
    (brokerData broker) pod.podName (traffic.map advisorRow) (advisorDetail pod)
  refine ⟨policy, hgen, hns, hselector, ?_, ?_⟩
  · intro d hd
    rcases hcases with ⟨htypes, -, hnil⟩ | ⟨hne, hrules⟩
    · refine iff_of_true (.inl (htypes ▸ hd)) (.inr fun t ht => ?_)
      obtain ⟨d', n, protocol, hread⟩ := hreads t ht
      by_contra hself
      exact (advisor_side_eq_nil_iff hreads pod d').mp (hnil d') ⟨t, ht, hread.direction, hself⟩
    · have hmem (d : Direction) :
          d ∈ policy.spec.policyTypes ↔
            ∃ t ∈ traffic, direction t = some d ∧ peerIP t ≠ pod.podIp := by
        rw [(hrules d).1, ne_eq, advisor_side_eq_nil_iff hreads, not_not]
      obtain ⟨d', hd'⟩ := List.exists_mem_of_ne_nil _ hne
      obtain ⟨t, ht, -, hself⟩ := (hmem d').mp hd'
      rw [Restricts, AdvisorRestricts, hmem]
      exact or_congr_right (iff_of_false (fun h => hne h.1) fun h => hself (h t ht))
  · intro lookup hcluster flow d
    obtain ⟨policy', hgen', -, -, hallowed⟩ := generate_allowed api (brokerData broker) lookup
      pod.podName (traffic.map advisorRow) (advisorDetail pod)
    obtain rfl := Except.ok.inj (hgen.symm.trans hgen')
    rw [← advisor_supported_iff hreads]
    exact ⟨(hallowed flow d).2.1, (hallowed flow d).2.2 hcluster⟩

end

/-! Verdicts. -/

theorem verdict_eq_iff (v v' : Verdict) :
    v = v' ↔ (v = .allow ↔ v' = .allow) ∧ (v = .wouldDeny ↔ v' = .wouldDeny) := by
  cases v <;> cases v' <;> simp

/-- A policy of the namespace of a pod protects it by labels that it carries. -/
theorem applies_iff {api : Apimachinery} {lookup : Lookup} {ns name ip : String} {labels : Labels}
    (hplaced : Placed api lookup ns name labels) {policy : AuditNetworkPolicy}
    (hns : policy.ns = ns) {selected : Labels}
    (hselector : policy.spec.podSelector = ofMatchLabels selected) {flow : Flow} {d : Direction}
    (hend : subjectEnd flow d = some ⟨ns, name, ip⟩) :
    Applies api lookup policy flow d ↔ Carried selected labels := by
  obtain ⟨pod, hpod, rfl⟩ := hplaced.known
  have hvalid := hplaced.cluster.podLabels _ _ _ hpod
  rw [← admits_iff_carried hvalid, ← hselector]
  constructor
  · rintro ⟨e, he, pod', hpod', -, hadmits⟩
    obtain rfl := Option.some.inj (hend.symm.trans he)
    obtain rfl := Option.some.inj (hpod.symm.trans hpod')
    exact hadmits
  · intro hadmits
    exact ⟨_, hend, pod, hpod, (hplaced.cluster.sound _ _ _ hpod).1.trans hns.symm, hadmits⟩

/-- Two policies, of which one restricts a direction and allows a flow, and the other
does so where it applies. -/
def Agree (restricts restricts' allows allows' : Prop) : Prop :=
  (restricts' ∧ allows' ↔ restricts ∧ allows) ∧ (restricts' ∧ ¬ allows' ↔ restricts ∧ ¬ allows)

theorem agree_iff (restricts restricts' allows allows' : Prop) :
    Agree restricts restricts' allows allows' ↔
      (restricts ↔ restricts') ∧ (restricts → (allows ↔ allows')) := by
  rw [Agree]
  tauto

theorem meets_iff {lookup : Lookup} {flow : Flow} {d : Direction} {e : Endpoint}
    (h : otherEnd flow d = some e) (peers : StandardPolicy.ResolvedPeer → Prop) :
    Meets lookup flow d peers ↔ ∃ peer, peers peer ∧ Covers lookup e peer := by
  rw [Meets, h]
  simp

/-- A flow of the subject in a direction. -/
def flowBetween (subject other : Endpoint) (port : ℤ) (protocol : String) : Direction → Flow
  | .egress =>
      ⟨subject.ns, subject.name, other.ns, other.name, subject.ip, other.ip, port, protocol⟩
  | _ => ⟨other.ns, other.name, subject.ns, subject.name, other.ip, subject.ip, port, protocol⟩

theorem ends_flowBetween (subject other : Endpoint) (port : ℤ) (protocol : String) {d : Direction}
    (hd : d ∈ [PolicyType.ingress, .egress]) :
    subjectEnd (flowBetween subject other port protocol d) d = some subject ∧
      otherEnd (flowBetween subject other port protocol d) d = some other := by
  rcases List.mem_cons.mp hd with rfl | hd
  · exact ⟨rfl, rfl⟩
  · obtain rfl := List.mem_singleton.mp hd
    exact ⟨rfl, rfl⟩

theorem dstPort_flowBetween (subject other : Endpoint) (port : ℤ) (protocol : String)
    (d : Direction) : (flowBetween subject other port protocol d).dstPort = port := by
  cases d <;> rfl

theorem protocol_flowBetween (subject other : Endpoint) (port : ℤ) (protocol : String)
    (d : Direction) : (flowBetween subject other port protocol d).protocol = protocol := by
  cases d <;> rfl

theorem known_of_subjectEnd {flow : Flow} {d : Direction} {e : Endpoint}
    (h : subjectEnd flow d = some e) :
    d ∈ [PolicyType.ingress, .egress] ∧ ∃ other, otherEnd flow d = some other := by
  cases d with
  | ingress => exact ⟨by simp, _, rfl⟩
  | egress => exact ⟨by simp, _, rfl⟩
  | other name => cases h

section

variable {api : Apimachinery} (hapi : api.Documented) {js : Runtime} {lower : LowerCase}
  (broker : Broker) {pod : PodInfo} {ns : String} (hns : pod.podNamespace = some ns)
  {traffic : List TrafficRow}
  (hreads : ∀ t ∈ traffic, ∃ d n protocol, Reads js lower t d n protocol)
include hapi hns hreads

theorem frontend_verdict {lookup : Lookup}
    (hplaced : Placed api lookup ns pod.podName (pod.labels.getD ∅)) {flow : Flow} {d : Direction}
    (hend : subjectEnd flow d = some ⟨ns, pod.podName, pod.podIp⟩) :
    (verdictIn d (matchPolicy api flow
        (generateNetworkPolicy js lower broker pod traffic).audited lookup) = .allow ↔
      FrontendRestricts traffic d ∧ Carried (targetPodLabels pod) (pod.labels.getD ∅) ∧
        Meets lookup flow d (FrontendPeer broker ns traffic d flow.dstPort flow.protocol)) ∧
    (verdictIn d (matchPolicy api flow
        (generateNetworkPolicy js lower broker pod traffic).audited lookup) = .wouldDeny ↔
      FrontendRestricts traffic d ∧ Carried (targetPodLabels pod) (pod.labels.getD ∅) ∧
        ¬ Meets lookup flow d (FrontendPeer broker ns traffic d flow.dstPort flow.protocol)) := by
  have hname : (generateNetworkPolicy js lower broker pod traffic).audited.ns = ns := by
    obtain ⟨known, hknown, -⟩ := hplaced.known
    have hne := (hplaced.cluster.named _ _ _ hknown).1
    change (present pod.podNamespace).getD "default" = ns
    rw [hns, present, Option.filter_some, if_pos (decide_eq_true hne), Option.getD_some]
  have happlies : Applies api lookup (generateNetworkPolicy js lower broker pod traffic).audited
      flow d ↔ Carried (targetPodLabels pod) (pod.labels.getD ∅) :=
    applies_iff hplaced hname rfl hend
  have hallowed : Allowed api lookup (generateNetworkPolicy js lower broker pod traffic).audited.ns
      (generateNetworkPolicy js lower broker pod traffic).audited.spec flow d ↔
      Meets lookup flow d (FrontendPeer broker ns traffic d flow.dstPort flow.protocol) := by
    rw [hname, ← frontend_allowed_iff hreads hplaced.cluster broker hns, ← rulesFor_generate]
    rfl
  have hrestricts := frontend_restricts_iff hreads broker pod d
  rw [verdictIn_eq_allow_iff hapi _ _ _ hplaced.cluster.sound,
    verdictIn_eq_wouldDeny_iff hapi _ _ _ hplaced.cluster.sound, happlies, hallowed]
  exact ⟨and_congr_left' hrestricts, and_congr_left' hrestricts⟩

theorem advisor_verdict :
    ∃ policy, StandardPolicy.generate (brokerData broker) pod.podName (traffic.map advisorRow)
        (some (advisorDetail pod)) = .ok policy ∧
      ∀ lookup, Placed api lookup ns pod.podName (pod.labels.getD ∅) → ∀ flow d,
        subjectEnd flow d = some ⟨ns, pod.podName, pod.podIp⟩ →
        (verdictIn d (matchPolicy api flow policy.audited lookup) = .allow ↔
          AdvisorRestricts pod traffic d ∧
            Meets lookup flow d (AdvisorPeer broker pod traffic d flow.dstPort flow.protocol)) ∧
        (verdictIn d (matchPolicy api flow policy.audited lookup) = .wouldDeny ↔
          AdvisorRestricts pod traffic d ∧
            ¬ Meets lookup flow d
              (AdvisorPeer broker pod traffic d flow.dstPort flow.protocol)) := by
  obtain ⟨policy, hgen, hpolicyNs, hselector, hrestricts, hallowed⟩ :=
    exists_advisorPolicy hreads api broker pod
  refine ⟨policy, hgen, fun lookup hplaced flow d hend => ?_⟩
  have hname : policy.audited.ns = ns := by
    change policy.ns = ns
    rw [hpolicyNs, hns, Option.getD_some]
  have happlies : Applies api lookup policy.audited flow d :=
    (applies_iff hplaced hname hselector hend).mpr fun l hl => AList.mem_lookup_iff.mpr hl
  have hknown := (known_of_subjectEnd hend).1
  rw [verdictIn_eq_allow_iff hapi _ _ _ hplaced.cluster.sound,
    verdictIn_eq_wouldDeny_iff hapi _ _ _ hplaced.cluster.sound, and_iff_right happlies,
    and_iff_right happlies, ← hrestricts d hknown, ← hallowed lookup hplaced.cluster]
  exact ⟨Iff.rfl, Iff.rfl⟩

/-- Flows of the pod in a direction are told by the other end, the port and the
protocol. -/
theorem sameFlows_iff_ends :
    SameFlows api js lower broker pod ns traffic ↔
      ∀ lookup, Placed api lookup ns pod.podName (pod.labels.getD ∅) →
        ∀ d ∈ [PolicyType.ingress, .egress], ∀ e port protocol,
          Agree (AdvisorRestricts pod traffic d)
            (FrontendRestricts traffic d ∧ Carried (targetPodLabels pod) (pod.labels.getD ∅))
            (∃ peer, AdvisorPeer broker pod traffic d port protocol peer ∧ Covers lookup e peer)
            (∃ peer, FrontendPeer broker ns traffic d port protocol peer ∧
              Covers lookup e peer) := by
  obtain ⟨policy, hgen, hadvisor⟩ := advisor_verdict hapi broker hns hreads
  have hverdicts {lookup : Lookup} (hplaced : Placed api lookup ns pod.podName (pod.labels.getD ∅))
      {flow : Flow} {d : Direction} {e : Endpoint}
      (hend : subjectEnd flow d = some ⟨ns, pod.podName, pod.podIp⟩)
      (hother : otherEnd flow d = some e) :
      verdictIn d (matchPolicy api flow
            (generateNetworkPolicy js lower broker pod traffic).audited lookup) =
          verdictIn d (matchPolicy api flow policy.audited lookup) ↔
        Agree (AdvisorRestricts pod traffic d)
          (FrontendRestricts traffic d ∧ Carried (targetPodLabels pod) (pod.labels.getD ∅))
          (∃ peer, AdvisorPeer broker pod traffic d flow.dstPort flow.protocol peer ∧
            Covers lookup e peer)
          (∃ peer, FrontendPeer broker ns traffic d flow.dstPort flow.protocol peer ∧
            Covers lookup e peer) := by
    obtain ⟨hallow, hdeny⟩ := frontend_verdict hapi broker hns hreads hplaced hend
    obtain ⟨hallow', hdeny'⟩ := hadvisor lookup hplaced flow d hend
    rw [verdict_eq_iff, hallow, hallow', hdeny, hdeny', meets_iff hother, meets_iff hother, Agree,
      and_assoc, and_assoc]
  constructor
  · rintro ⟨policy', hgen', hsame⟩ lookup hplaced d hd e port protocol
    obtain rfl := Except.ok.inj (hgen.symm.trans hgen')
    have hends := ends_flowBetween ⟨ns, pod.podName, pod.podIp⟩ e port protocol hd
    have hflow := (hverdicts hplaced hends.1 hends.2).mp (hsame lookup hplaced _ d hends.1)
    rwa [dstPort_flowBetween, protocol_flowBetween] at hflow
  · intro h
    refine ⟨policy, hgen, fun lookup hplaced flow d hend => ?_⟩
    obtain ⟨hd, e, hother⟩ := known_of_subjectEnd hend
    exact (hverdicts hplaced hend hother).mpr (h lookup hplaced d hd e _ _)

end

/-! The policies compared. -/

theorem restricts_of_advisorPeer {broker : Broker} {pod : PodInfo} {traffic : List TrafficRow}
    {d : Direction} {port : ℤ} {protocol : String} {peer : StandardPolicy.ResolvedPeer}
    (h : AdvisorPeer broker pod traffic d port protocol peer) : AdvisorRestricts pod traffic d := by
  obtain ⟨t, ht, hcarries, hself, -⟩ := h
  exact .inl ⟨t, ht, hcarries.direction, hself⟩

theorem restricts_of_frontendPeer {broker : Broker} {ns : String} {traffic : List TrafficRow}
    {d : Direction} {port : ℤ} {protocol : String} {peer : StandardPolicy.ResolvedPeer}
    (h : FrontendPeer broker ns traffic d port protocol peer) : FrontendRestricts traffic d := by
  obtain ⟨t, ht, hcarries, -⟩ := h
  exact .inl ⟨t, ht, hcarries.direction⟩

section

variable {js : Runtime} {lower : LowerCase} {traffic : List TrafficRow}
  (hreads : ∀ t ∈ traffic, ∃ d n protocol, Reads js lower t d n protocol)
include hreads

/-- The advisor restricts some direction of every pod. -/
theorem exists_advisorRestricts (pod : PodInfo) :
    ∃ d ∈ [PolicyType.ingress, .egress], AdvisorRestricts pod traffic d := by
  by_cases hself : ∀ t ∈ traffic, peerIP t = pod.podIp
  · exact ⟨.ingress, by simp, .inr hself⟩
  · obtain ⟨t, ht, hpeer⟩ := not_forall₂.mp hself
    obtain ⟨d, n, protocol, hread⟩ := hreads t ht
    exact ⟨d, by simpa using hread.known, .inl ⟨t, ht, hread.direction, hpeer⟩⟩

theorem known_of_carries {t : TrafficRow} (ht : t ∈ traffic) {d : Direction} {port : ℤ}
    {protocol : String} (h : Carries t d port protocol) : d ∈ [PolicyType.ingress, .egress] := by
  simpa using known_of_direction hreads ht h.direction

theorem known_of_advisorPeer {broker : Broker} {pod : PodInfo} {d : Direction} {port : ℤ}
    {protocol : String} {peer : StandardPolicy.ResolvedPeer}
    (h : AdvisorPeer broker pod traffic d port protocol peer) :
    d ∈ [PolicyType.ingress, .egress] := by
  obtain ⟨t, ht, hcarries, -⟩ := h
  exact known_of_carries hreads ht hcarries

theorem known_of_frontendPeer {broker : Broker} {ns : String} {d : Direction} {port : ℤ}
    {protocol : String} {peer : StandardPolicy.ResolvedPeer}
    (h : FrontendPeer broker ns traffic d port protocol peer) :
    d ∈ [PolicyType.ingress, .egress] := by
  obtain ⟨t, ht, hcarries, -⟩ := h
  exact known_of_carries hreads ht hcarries

theorem refines_iff {api : Apimachinery} (broker : Broker) (pod : PodInfo) {ns : String}
    (hplaced : ∃ lookup, Placed api lookup ns pod.podName (pod.labels.getD ∅)) (d : Direction)
    (port : ℤ) (protocol : String) :
    (∀ lookup, Placed api lookup ns pod.podName (pod.labels.getD ∅) → ∀ e,
      ((∃ peer, AdvisorPeer broker pod traffic d port protocol peer ∧ Covers lookup e peer) ↔
        ∃ peer, FrontendPeer broker ns traffic d port protocol peer ∧ Covers lookup e peer)) ↔
      Refines api (AdvisorPeer broker pod traffic d port protocol)
          (FrontendPeer broker ns traffic d port protocol) ∧
        Refines api (FrontendPeer broker ns traffic d port protocol)
          (AdvisorPeer broker pod traffic d port protocol) :=
  covers_iff_refines hplaced (fun _ => proper_of_advisorPeer hreads)
    fun _ => proper_of_frontendPeer hreads

end

/-- The frontend's policy gives the flows of the pod the verdicts of the advisor's
exactly when the frontend selects the pod and reads the rows alike. -/
theorem sameFlows_iff_alike {api : Apimachinery} (hapi : api.Documented) {js : Runtime}
    (hjs : js.Documented) (lower : LowerCase) (broker : Broker) (pod : PodInfo) (ns : String)
    (hns : pod.podNamespace = some ns)
    (hplaced : ∃ lookup, Placed api lookup ns pod.podName (pod.labels.getD ∅))
    (traffic : List TrafficRow) (hrows : ∀ t ∈ traffic, WellFormed t) :
    SameFlows api js lower broker pod ns traffic ↔ Alike api broker pod ns traffic := by
  have hreads (t : TrafficRow) (ht : t ∈ traffic) :=
    reads_of_wellFormed hjs lower (hrows t ht)
  rw [sameFlows_iff_ends hapi broker hns hreads]
  simp only [agree_iff]
  constructor
  · intro h
    obtain ⟨lookup, hlookup⟩ := hplaced
    have hrestricts (d : Direction) (hd : d ∈ [PolicyType.ingress, .egress]) :=
      (h lookup hlookup d hd ⟨"", "", ""⟩ 0 "TCP").1
    obtain ⟨d, hd, hrestricted⟩ := exists_advisorRestricts hreads pod
    have hselected := ((hrestricts d hd).mp hrestricted).2
    have hrefines {d : Direction} (hd : d ∈ [PolicyType.ingress, .egress])
        (hrestricted : AdvisorRestricts pod traffic d) (port : ℤ) (protocol : String) :=
      (refines_iff hreads broker pod ⟨lookup, hlookup⟩ d port protocol).mp
        fun lookup hlookup e => (h lookup hlookup d hd e port protocol).2 hrestricted
    refine ⟨hselected, fun d hd => ?_, fun d port protocol peer hpeer => ?_,
      fun d port protocol peer hpeer => ?_⟩
    · rw [hrestricts d hd, and_iff_left hselected]
    · have hd := known_of_advisorPeer hreads hpeer
      exact (hrefines hd (restricts_of_advisorPeer hpeer) port protocol).1 peer hpeer
    · have hd := known_of_frontendPeer hreads hpeer
      have hrestricted := (hrestricts d hd).mpr ⟨restricts_of_frontendPeer hpeer, hselected⟩
      exact (hrefines hd hrestricted port protocol).2 peer hpeer
  · intro h lookup hlookup d hd e port protocol
    refine ⟨(h.restricts d hd).trans (and_iff_left h.selected).symm, fun _ => ?_⟩
    exact (refines_iff hreads broker pod hplaced d port protocol).mpr
      ⟨h.narrower d port protocol, h.wider d port protocol⟩ lookup hlookup e

/-! A pod that calls an address outside, and one that calls a service whose pods
have another label than its name. -/

def webInfo : PodInfo where
  podName := "web-0"
  podIp := "10.0.0.7"
  podNamespace := some "shop"
  labels := some (Labels.ofList [("app", "web")])
  podIdentity := some "web"
  workloadSelectorLabels := none

def databaseService : ServiceInfo where
  svcIp := "10.96.0.20"
  svcName := some "db"
  svcNamespace := some "shop"
  selector := some (Labels.ofList [("app", "postgres")])

def shopTables : Broker where
  pods := ⟨[webInfo], List.nodup_singleton _⟩
  services := ⟨[databaseService], List.nodup_singleton _⟩

def postgresPod : Pod := ⟨"shop", "postgres-0", Labels.ofList [("app", "postgres")], []⟩

def databaseCluster : Lookup :=
  .ofLists [webPod, postgresPod]
    [("shop", Labels.ofList [("kubernetes.io/metadata.name", "shop")])]

theorem placed_web :
    Placed reference databaseCluster "shop" "web-0" (Labels.ofList [("app", "web")]) := by
  refine ⟨clusterObjects_ofLists reference _ _ ?_ ?_, webPod, rfl, rfl⟩
  · have hvalid : ∀ p ∈ [webPod, postgresPod], ∀ e ∈ p.labels.entries,
        labelKey e.1 = true ∧ labelValue e.2 = true := by decide
    intro p hp
    refine ⟨hvalid p hp, ?_⟩
    simp only [List.mem_cons, List.not_mem_nil, or_false] at hp
    rcases hp with rfl | rfl <;> exact ⟨by decide, _, rfl, rfl⟩
  · change ∀ e ∈ [("shop", Labels.ofList [("kubernetes.io/metadata.name", "shop")])],
      ∀ l ∈ e.2.entries, labelKey l.1 = true ∧ labelValue l.2 = true
    decide

/-- A connection of the web pod. -/
def callTo (ip port : String) : TrafficRow :=
  ⟨some "EGRESS", some "40112", some ip, some port, some "TCP"⟩

theorem wellFormed_callTo {ip port : String} (hport : PlainPort port)
    (hpeer : ∃ a, NetAddr.parseAddr ip.toList = some (.v4 a)) : WellFormed (callTo ip port) where
  direction := .inr rfl
  protocol := .inl rfl
  ingressPort h := by simp [callTo] at h
  egressPort _ := hport
  peer := by
    obtain ⟨a, ha⟩ := hpeer
    exact ⟨ip, a, rfl, ha⟩

theorem outsideCall_sameFlows :
    SameFlows reference JsText.asciiRuntime JsText.asciiLowerCase shopTables webInfo "shop"
      [callTo "203.0.113.9" "443"] := by
  have hrow : WellFormed (callTo "203.0.113.9" "443") :=
    wellFormed_callTo ⟨443, by decide, by decide, by decide⟩ ⟨0xCB007109#32, by decide⟩
  have hdirection : direction (callTo "203.0.113.9" "443") = some .egress := by decide
  refine (sameFlows_iff_alike reference_documented JsText.asciiRuntime_documented
    JsText.asciiLowerCase shopTables webInfo "shop" rfl ⟨_, placed_web⟩ _
    (List.forall_mem_singleton.mpr hrow)).mpr ⟨?_, ?_, ?_, ?_⟩
  · exact fun l hl => AList.mem_lookup_iff.mpr hl
  · have hself : peerIP (callTo "203.0.113.9" "443") ≠ webInfo.podIp := by decide
    intro d _
    simp [AdvisorRestricts, FrontendRestricts, hself]
  · rintro d port protocol peer ⟨t, ht, hcarries, -, rfl⟩ -
    obtain rfl := List.mem_singleton.mp ht
    obtain rfl := Option.some.inj (hdirection.symm.trans hcarries.direction)
    exact ⟨.address "203.0.113.9", ⟨_, ht, hcarries, _, rfl, rfl⟩, rfl⟩
  · rintro d port protocol peer ⟨t, ht, hcarries, first, hfirst, rfl⟩ -
    obtain rfl := List.mem_singleton.mp ht
    obtain rfl := List.mem_singleton.mp (firstRow_spec hfirst).1
    exact ⟨.address "203.0.113.9", ⟨_, ht, hcarries, by decide, rfl⟩, rfl⟩

def toPostgres : Flow :=
  ⟨"shop", "web-0", "shop", "postgres-0", "10.0.0.7", "10.0.0.9", 5432, "TCP"⟩

/-- The frontend's policy denies what the service selects. -/
theorem databaseService_differs :
    ¬ ∀ (broker : Broker) (pod : PodInfo) (ns : String) (traffic : List TrafficRow),
      pod.podNamespace = some ns →
      (∃ lookup, Placed reference lookup ns pod.podName (pod.labels.getD ∅)) →
      (∀ t ∈ traffic, WellFormed t) →
      SameFlows reference JsText.asciiRuntime JsText.asciiLowerCase broker pod ns traffic := by
  intro h
  have hrow : WellFormed (callTo "10.96.0.20" "5432") :=
    wellFormed_callTo ⟨5432, by decide, by decide, by decide⟩ ⟨0x0A600014#32, by decide⟩
  obtain ⟨policy, hgen, hsame⟩ := h shopTables webInfo "shop" [callTo "10.96.0.20" "5432"] rfl
    ⟨_, placed_web⟩ (List.forall_mem_singleton.mpr hrow)
  have hdeny : verdictIn .egress (matchPolicy reference toPostgres
      (generateNetworkPolicy JsText.asciiRuntime JsText.asciiLowerCase shopTables webInfo
        [callTo "10.96.0.20" "5432"]).audited databaseCluster) = .wouldDeny := by
    decide
  have hverdict := hsame databaseCluster placed_web toPostgres .egress rfl
  rw [hdeny] at hverdict
  cases hgen
  exact absurd hverdict (by decide)

end KGuardian.FrontendAgreement
