import KGuardian.StandardPolicy

/-!
Generated policies under the evaluator: what the matcher allows by a generated
policy is what the surviving rows support, no less and no more.
-/
namespace KGuardian.ObservedTraffic

open AllowLists NetAddr Selectors Matcher PolicySemantics StandardPolicy

/-- A known pod that carries the labels, in a namespace of that name. -/
def PodsCover (lookup : Lookup) (ns : String) (labels : Labels) (e : Endpoint) : Prop :=
  ∃ pod ∈ podAt lookup e,
    (∃ lbls ∈ lookup.getNamespaceLabels pod.ns,
      lbls.lookup "kubernetes.io/metadata.name" = some ns) ∧
    ∀ l ∈ labels.entries, pod.labels.lookup l.1 = some l.2

/-- What an address was resolved to stands for this end of a flow. -/
def Covers (lookup : Lookup) (e : Endpoint) : ResolvedPeer → Prop
  | .pods ns labels => labels.keys ≠ [] ∧ PodsCover lookup ns labels e
  | .address ip => BlockHolds ⟨ip ++ "/32", []⟩ e.ip

/-- The caches hold objects of the cluster: their labels follow the syntax, and
the namespace of each pod is known and carries its own name. -/
structure ClusterObjects (api : Apimachinery) (lookup : Lookup) : Prop where
  sound : lookup.Sound
  podLabels : ∀ ns name pod, lookup.getPod ns name = some pod → api.ValidLabels pod.labels
  namespaceLabels : ∀ ns lbls, lookup.getNamespaceLabels ns = some lbls → api.ValidLabels lbls
  named : ∀ ns name pod, lookup.getPod ns name = some pod → ns ≠ "" ∧
    ∃ lbls ∈ lookup.getNamespaceLabels ns, lbls.lookup "kubernetes.io/metadata.name" = some ns

theorem clusterObjects_ofLists (api : Apimachinery) (pods : List Pod)
    (namespaces : List (String × Labels))
    (hpods : ∀ p ∈ pods, api.ValidLabels p.labels ∧ p.ns ≠ "" ∧
      ∃ lbls ∈ (Lookup.ofLists pods namespaces).getNamespaceLabels p.ns,
        lbls.lookup "kubernetes.io/metadata.name" = some p.ns)
    (hnamespaces : ∀ e ∈ namespaces, api.ValidLabels e.2) :
    ClusterObjects api (Lookup.ofLists pods namespaces) := by
  have hsound := Lookup.ofLists_sound pods namespaces
  have hmem (ns name : String) (pod : Pod)
      (h : (Lookup.ofLists pods namespaces).getPod ns name = some pod) : pod ∈ pods := by
    rw [Lookup.ofLists] at h
    exact List.mem_of_find?_eq_some h
  refine ⟨hsound, fun ns name pod h => (hpods pod (hmem ns name pod h)).1, ?_, ?_⟩
  · intro ns lbls h
    obtain ⟨e, he, rfl⟩ := Option.map_eq_some_iff.mp h
    exact hnamespaces e (List.mem_of_find?_eq_some he)
  · intro ns name pod h
    rw [← (hsound ns name pod h).1]
    exact (hpods pod (hmem ns name pod h)).2

section

variable {api : Apimachinery} {lookup : Lookup}

theorem admits_metadataName_iff (ns : String) (lbls : Labels) :
    api.Admits (ofMatchLabels (Labels.ofList [("kubernetes.io/metadata.name", ns)])) lbls ↔
      api.validKey "kubernetes.io/metadata.name" ∧ api.validValue ns ∧
        lbls.lookup "kubernetes.io/metadata.name" = some ns := by
  have hentries : (Labels.ofList [("kubernetes.io/metadata.name", ns)]).entries =
      [⟨"kubernetes.io/metadata.name", ns⟩] := rfl
  simp only [Apimachinery.admits_ofMatchLabels_iff, Apimachinery.ValidLabels, hentries,
    List.forall_mem_singleton, and_assoc]

theorem covers_of_peerAdmits {broker : BrokerData} {peerIP homeNs : String} {e : Endpoint}
    (h : PeerAdmits api lookup homeNs e (createNetworkPolicyPeer broker peerIP)) :
    Covers lookup e (resolvePeer broker peerIP) := by
  cases hpeer : resolvePeer broker peerIP with
  | address ip =>
      simp only [createNetworkPolicyPeer, hpeer, PeerAdmits] at h
      exact h
  | pods ns labels =>
      simp only [createNetworkPolicyPeer, hpeer, PeerAdmits] at h
      obtain ⟨pod, hpod, hsel⟩ := h
      obtain ⟨lbls, hlbls, hns⟩ := hsel.namespaces _ rfl
      have hlabels := (Apimachinery.admits_ofMatchLabels_iff _ _).mp (hsel.pods _ rfl)
      exact ⟨resolvePeer_labels broker peerIP ns labels hpeer, pod, hpod,
        ⟨lbls, hlbls, ((admits_metadataName_iff ns lbls).mp hns).2.2⟩, hlabels.2⟩

/-- Labels that a valid label map carries are valid themselves. -/
theorem validLabels_of_carried {labels carrier : Labels} (hvalid : api.ValidLabels carrier)
    (h : ∀ l ∈ labels.entries, carrier.lookup l.1 = some l.2) : api.ValidLabels labels :=
  fun l hl => hvalid l (AList.mem_lookup_iff.mp (h l hl))

/-- Under caches of cluster objects the generated peer admits exactly what the
resolved address covers. -/
theorem peerAdmits_iff_covers (hcluster : ClusterObjects api lookup) (broker : BrokerData)
    (peerIP homeNs : String) (e : Endpoint) :
    PeerAdmits api lookup homeNs e (createNetworkPolicyPeer broker peerIP) ↔
      Covers lookup e (resolvePeer broker peerIP) := by
  refine ⟨covers_of_peerAdmits, fun h => ?_⟩
  cases hpeer : resolvePeer broker peerIP with
  | address ip =>
      rw [hpeer] at h
      simp only [createNetworkPolicyPeer, hpeer, PeerAdmits]
      exact h
  | pods ns labels =>
      rw [hpeer] at h
      obtain ⟨-, pod, hpod, ⟨lbls, hlbls, hns⟩, hcarried⟩ := h
      have hmeta := hcluster.namespaceLabels _ _ hlbls _ (AList.mem_lookup_iff.mp hns)
      have hlabels := validLabels_of_carried (hcluster.podLabels _ _ _ hpod) hcarried
      simp only [createNetworkPolicyPeer, hpeer, PeerAdmits]
      refine ⟨pod, hpod, ⟨by simp, ?_, ?_⟩⟩
      · intro sel hcase
        cases hcase
        exact ⟨lbls, hlbls, (admits_metadataName_iff ns lbls).mpr ⟨hmeta.1, hmeta.2, hns⟩⟩
      · intro sel hcase
        cases hcase
        exact (Apimachinery.admits_ofMatchLabels_iff _ _).mpr ⟨hlabels, hcarried⟩

theorem portAdmits_plainPort_iff (flow : Flow) (v : ℤ) (protocol : String) :
    PortAdmits lookup flow (plainPort v protocol) ↔
      flow.protocol = protocolPtr protocol ∧ flow.dstPort = v := by
  simp only [PortAdmits, plainPort, Option.getD_some]
  exact and_congr_left' eq_comm

/-- The rows support the flow: a row that survives in this direction has its
port and protocol, and its peer stands for the other end. -/
def Supported (broker : BrokerData) (lookup : Lookup) (podTraffic : List PodTraffic)
    (podDetail : PodDetail) (flow : Flow) (d : Direction) : Prop :=
  ∃ row ∈ podTraffic, Survives podDetail row d flow.dstPort ∧
    flow.protocol = protocolPtr row.protocol ∧
    ∃ e ∈ otherEnd flow d, Covers lookup e (resolvePeer broker row.dstIP)

/-- The rules of a generated policy allow only what the rows support, and all
of it when the caches hold cluster objects. -/
theorem generate_allowed (api : Apimachinery) (broker : BrokerData) (lookup : Lookup)
    (podName : String) (podTraffic : List PodTraffic) (podDetail : PodDetail) :
    ∃ policy, generate broker podName podTraffic (some podDetail) = .ok policy ∧
      policy.ns = podDetail.ns ∧ policy.spec.podSelector = ofMatchLabels podDetail.podLabels ∧
      ∀ flow d,
        (Supported broker lookup podTraffic podDetail flow d → d ∈ policy.spec.policyTypes) ∧
        (Allowed api lookup policy.ns policy.spec flow d →
          Supported broker lookup podTraffic podDetail flow d) ∧
        (ClusterObjects api lookup → Supported broker lookup podTraffic podDetail flow d →
          Allowed api lookup policy.ns policy.spec flow d) := by
  obtain ⟨policy, hgen, hns, hselector, htypes, hpermits⟩ :=
    generate_permits broker podName podTraffic podDetail
  refine ⟨policy, hgen, hns, hselector, fun flow d => ⟨?_, ?_, ?_⟩⟩
  · intro h
    obtain ⟨row, hrow, hsurvives, -⟩ := h
    exact htypes d ⟨row, hrow, flow.dstPort, hsurvives⟩
  · intro hallowed
    obtain ⟨row, hrow, v, hsurvives, ⟨e, he, hpeer⟩, hport⟩ := (hpermits d _ _).mp hallowed
    obtain ⟨hprotocol, rfl⟩ := (portAdmits_plainPort_iff flow v row.protocol).mp hport
    exact ⟨row, hrow, hsurvives, hprotocol, e, he, covers_of_peerAdmits hpeer⟩
  · intro hcluster h
    obtain ⟨row, hrow, hsurvives, hprotocol, e, he, hcovers⟩ := h
    exact (hpermits d _ _).mpr ⟨row, hrow, flow.dstPort, hsurvives,
      ⟨e, he, (peerAdmits_iff_covers hcluster broker _ _ e).mpr hcovers⟩,
      (portAdmits_plainPort_iff flow _ _).mpr ⟨hprotocol, rfl⟩⟩

/-- For flows of the protected pod, the verdict of the generated policy is
whether the rows support them. -/
theorem generate_allow_iff (hapi : api.Documented) (hcluster : ClusterObjects api lookup)
    (broker : BrokerData) (podName : String) (podTraffic : List PodTraffic) (podDetail : PodDetail)
    (subject : Pod) (hsubject : lookup.getPod podDetail.ns podDetail.name = some subject)
    (hlabels : subject.labels = podDetail.podLabels) :
    ∃ policy, generate broker podName podTraffic (some podDetail) = .ok policy ∧
      ∀ flow d, subjectEnd flow d = some ⟨podDetail.ns, podDetail.name, podDetail.podIP⟩ →
        (verdictIn d (matchPolicy api flow policy.audited lookup) = .allow ↔
          Supported broker lookup podTraffic podDetail flow d) := by
  obtain ⟨policy, hgen, hns, hselector, hspec⟩ :=
    generate_allowed api broker lookup podName podTraffic podDetail
  refine ⟨policy, hgen, fun flow d hend => ?_⟩
  obtain ⟨htypes, hsupported, hallowed⟩ := hspec flow d
  have happlies : Applies api lookup policy.audited flow d := by
    refine ⟨_, hend, subject, hsubject, (hcluster.sound _ _ _ hsubject).1.trans hns.symm, ?_⟩
    change api.Admits policy.spec.podSelector subject.labels
    rw [hselector, hlabels]
    exact Apimachinery.admits_self _ (hlabels ▸ hcluster.podLabels _ _ _ hsubject)
  rw [verdictIn_eq_allow_iff hapi _ _ _ hcluster.sound]
  constructor
  · intro h
    obtain ⟨-, -, hallow⟩ := h
    exact hsupported hallow
  · intro hrows
    exact ⟨Or.inl (htypes hrows), happlies, hallowed hcluster hrows⟩

end

/-- The flow that a row of the protected pod is about, with the name of the peer
as the cluster knows it. -/
def observedFlow (podDetail : PodDetail) (row : PodTraffic) (peerNs peerName : String) (port : ℤ) :
    Direction → Flow
  | .egress =>
      ⟨podDetail.ns, podDetail.name, peerNs, peerName, podDetail.podIP, row.dstIP, port,
        row.protocol⟩
  | _ =>
      ⟨peerNs, peerName, podDetail.ns, podDetail.name, row.dstIP, podDetail.podIP, port,
        row.protocol⟩

theorem protocolPtr_known (protocol : String) (h : protocol ∈ ["TCP", "UDP", "SCTP"]) :
    protocolPtr protocol = protocol := by
  simp only [List.mem_cons, List.not_mem_nil, or_false] at h
  rcases h with rfl | rfl | rfl <;> rfl

theorem blockHolds_host_iff (ip e : String) (a : BitVec 32)
    (h : parseAddr ip.toList = some (.v4 a)) :
    BlockHolds ⟨ip ++ "/32", []⟩ e ↔ parseIP e = parseIP ip := by
  rw [parseIP_of_v4 ip a h]
  simp only [BlockHolds, cidrCovers_host_iff ip a _ h, List.not_mem_nil, false_imp_iff,
    implies_true, and_true, exists_eq_right]

section

variable (podDetail : PodDetail) (row : PodTraffic) (peerNs peerName : String) (port : ℤ)

@[simp] theorem dstPort_observedFlow (d : Direction) :
    (observedFlow podDetail row peerNs peerName port d).dstPort = port := by
  cases d <;> rfl

@[simp] theorem protocol_observedFlow (d : Direction) :
    (observedFlow podDetail row peerNs peerName port d).protocol = row.protocol := by
  cases d <;> rfl

variable {podDetail row port} {d : Direction} (hsurvives : Survives podDetail row d port)
include hsurvives

theorem direction_of_survives : d = .ingress ∨ d = .egress := by
  have hdirection := hsurvives.direction
  simp only [rowDirection] at hdirection
  grind

theorem subjectEnd_observedFlow :
    subjectEnd (observedFlow podDetail row peerNs peerName port d) d =
      some ⟨podDetail.ns, podDetail.name, podDetail.podIP⟩ := by
  rcases direction_of_survives hsurvives with rfl | rfl <;> rfl

theorem otherEnd_observedFlow :
    otherEnd (observedFlow podDetail row peerNs peerName port d) d =
      some ⟨peerNs, peerName, row.dstIP⟩ := by
  rcases direction_of_survives hsurvives with rfl | rfl <;> rfl

end

/-- The peer of a row is covered by what its own address is resolved to. -/
theorem covers_own_address {api : Apimachinery} {broker : BrokerData} {lookup : Lookup}
    (hcluster : ClusterObjects api lookup) (peerIP peerNs peerName : String) (a : BitVec 32)
    (hpeer : parseAddr peerIP.toList = some (.v4 a))
    (hservice : ∀ svc, broker.serviceByIP peerIP = .ok (some svc) → svc.selector.keys = [])
    (hpod : ∀ pod, broker.podByIP peerIP = .ok (some pod) → pod.podLabels.keys ≠ [] →
      peerNs = pod.ns ∧ peerName = pod.name ∧
        ∃ known, lookup.getPod pod.ns pod.name = some known ∧ known.labels = pod.podLabels) :
    Covers lookup ⟨peerNs, peerName, peerIP⟩ (resolvePeer broker peerIP) := by
  rcases resolvePeer_cases broker peerIP hservice with ⟨pod, hfound, hlabels, heq⟩ | heq
  · obtain ⟨rfl, rfl, known, hknown, hsame⟩ := hpod pod hfound hlabels
    rw [heq]
    obtain ⟨-, hnamed⟩ := hcluster.named _ _ _ hknown
    refine ⟨hlabels, known, hknown, ?_, ?_⟩
    · rwa [(hcluster.sound _ _ _ hknown).1]
    · rw [hsame]
      exact fun l hl => AList.mem_lookup_iff.mpr hl
  · rw [heq]
    exact (blockHolds_host_iff peerIP peerIP a hpeer).mpr rfl

/-- A generated policy admits the observed traffic: each surviving row is allowed
in its direction by the policy made from all rows. -/
theorem generate_admits_observed (api : Apimachinery) (hapi : api.Documented)
    (broker : BrokerData) (lookup : Lookup) (hcluster : ClusterObjects api lookup)
    (podName : String) (podTraffic : List PodTraffic) (podDetail : PodDetail)
    (subject : Pod) (hsubject : lookup.getPod podDetail.ns podDetail.name = some subject)
    (hlabels : subject.labels = podDetail.podLabels)
    (row : PodTraffic) (hrow : row ∈ podTraffic) (d : Direction) (port : ℤ)
    (hsurvives : Survives podDetail row d port)
    (hprotocol : row.protocol ∈ ["TCP", "UDP", "SCTP"])
    (a : BitVec 32) (hpeer : parseAddr row.dstIP.toList = some (.v4 a))
    (peerNs peerName : String)
    (hservice : ∀ svc, broker.serviceByIP row.dstIP = .ok (some svc) → svc.selector.keys = [])
    (hpod : ∀ pod, broker.podByIP row.dstIP = .ok (some pod) → pod.podLabels.keys ≠ [] →
      peerNs = pod.ns ∧ peerName = pod.name ∧
        ∃ known, lookup.getPod pod.ns pod.name = some known ∧ known.labels = pod.podLabels) :
    ∃ policy, generate broker podName podTraffic (some podDetail) = .ok policy ∧
      verdictIn d (matchPolicy api (observedFlow podDetail row peerNs peerName port d)
        policy.audited lookup) = .allow := by
  obtain ⟨policy, hgen, hiff⟩ :=
    generate_allow_iff hapi hcluster broker podName podTraffic podDetail subject hsubject hlabels
  refine ⟨policy, hgen, (hiff _ d (subjectEnd_observedFlow peerNs peerName hsurvives)).mpr ?_⟩
  refine ⟨row, hrow, ?_, ?_, _, otherEnd_observedFlow peerNs peerName hsurvives, ?_⟩
  · rwa [dstPort_observedFlow]
  · rw [protocol_observedFlow, protocolPtr_known _ hprotocol]
  · exact covers_own_address hcluster _ _ _ a hpeer hservice hpod

/-! The api of the shop serves the frontend and calls an outside address. -/

theorem shop_clusterObjects : ClusterObjects reference shop := by
  refine clusterObjects_ofLists reference _ _ ?_ ?_
  · have hvalid : ∀ p ∈ [webPod, apiPod], ∀ e ∈ p.labels.entries,
        labelKey e.1 = true ∧ labelValue e.2 = true := by decide
    intro p hp
    refine ⟨hvalid p hp, ?_⟩
    simp only [List.mem_cons, List.not_mem_nil, or_false] at hp
    rcases hp with rfl | rfl <;> exact ⟨by decide, _, rfl, rfl⟩
  · change ∀ e ∈ [("shop", Labels.ofList [("kubernetes.io/metadata.name", "shop")])],
      ∀ l ∈ e.2.entries, labelKey l.1 = true ∧ labelValue l.2 = true
    decide

def shopBroker : BrokerData where
  serviceByIP _ := .ok none
  podByIP ip :=
    if ip = "10.0.0.7" then .ok (some ⟨ip, "web-0", "shop", webPod.labels⟩)
    else .error "no pod"

def apiDetail : PodDetail := ⟨"10.0.0.8", "api-0", "shop", apiPod.labels⟩

def fromWeb : PodTraffic := ⟨"8080", "INGRESS", "10.0.0.7", "51034", "TCP"⟩

def toOutside : PodTraffic := ⟨"40112", "EGRESS", "203.0.113.9", "443", "TCP"⟩

theorem survives_fromWeb : Survives apiDetail fromWeb .ingress 8080 :=
  ⟨by decide, by decide, by decide, by decide⟩

theorem apiDetail_admits_web :
    ∃ policy, generate shopBroker "api-0" [toOutside, fromWeb] (some apiDetail) = .ok policy ∧
      verdictIn .ingress (matchPolicy reference
        (observedFlow apiDetail fromWeb "shop" "web-0" 8080 .ingress) policy.audited shop) =
          .allow := by
  refine generate_admits_observed reference reference_documented shopBroker shop
    shop_clusterObjects "api-0" [toOutside, fromWeb] apiDetail apiPod rfl rfl fromWeb
    (by decide) .ingress 8080 survives_fromWeb (by decide) (0x0A000007#32) (by decide)
    "shop" "web-0" ?_ ?_
  · intro svc h
    cases h
  · intro pod h _
    have hfound : shopBroker.podByIP fromWeb.dstIP =
      .ok (some ⟨"10.0.0.7", "web-0", "shop", webPod.labels⟩) := rfl
    cases hfound.symm.trans h
    exact ⟨rfl, rfl, webPod, rfl, rfl⟩

/-- A generated policy allows nothing that no single row supports. -/
theorem generate_least_privilege (api : Apimachinery) (hapi : api.Documented)
    (broker : BrokerData) (lookup : Lookup) (hlookup : lookup.Sound)
    (podName : String) (podTraffic : List PodTraffic) (podDetail : PodDetail)
    (hrows : ∀ row ∈ podTraffic, row.protocol ∈ ["TCP", "UDP", "SCTP"] ∧
      ∃ a, parseAddr row.dstIP.toList = some (.v4 a))
    (policy : NetworkPolicy)
    (hgen : generate broker podName podTraffic (some podDetail) = .ok policy)
    (flow : Flow) (d : Direction)
    (hallow : verdictIn d (matchPolicy api flow policy.audited lookup) = .allow) :
    ∃ row ∈ podTraffic, Survives podDetail row d flow.dstPort ∧ row.protocol = flow.protocol ∧
      ∃ e ∈ otherEnd flow d,
        match resolvePeer broker row.dstIP with
        | .pods ns labels => labels.keys ≠ [] ∧ PodsCover lookup ns labels e
        | .address ip => ip = row.dstIP ∧ parseIP e.ip = parseIP ip := by
  obtain ⟨generated, hsame, -, -, hspec⟩ :=
    generate_allowed api broker lookup podName podTraffic podDetail
  obtain rfl := Except.ok.inj (hgen.symm.trans hsame)
  rw [verdictIn_eq_allow_iff hapi _ _ _ hlookup] at hallow
  obtain ⟨row, hrow, hsurvives, hprotocol, e, he, hcovers⟩ := (hspec flow d).2.1 hallow.2.2
  obtain ⟨hknown, a, hpeer⟩ := hrows row hrow
  rw [protocolPtr_known _ hknown] at hprotocol
  refine ⟨row, hrow, hsurvives, hprotocol.symm, e, he, ?_⟩
  cases hresolved : resolvePeer broker row.dstIP with
  | pods ns labels =>
      rw [hresolved] at hcovers
      exact hcovers
  | address ip =>
      rw [hresolved] at hcovers
      obtain rfl := resolvePeer_address broker row.dstIP ip hresolved
      exact ⟨rfl, (blockHolds_host_iff row.dstIP e.ip a hpeer).mp hcovers⟩

def apiGenerated : NetworkPolicy where
  name := "api-0-standard-policy"
  ns := "shop"
  labels := createStandardLabels "api-0" "standard-policy"
  spec :=
    { podSelector := ofMatchLabels apiPod.labels
      policyTypes := [.ingress, .egress]
      ingress := [⟨[⟨some (ofMatchLabels webPod.labels),
        some (ofMatchLabels (Labels.ofList [("kubernetes.io/metadata.name", "shop")])), none⟩],
        [plainPort 8080 "TCP"]⟩]
      egress := [⟨[⟨none, none, some ⟨"203.0.113.9/32", []⟩⟩], [plainPort 443 "TCP"]⟩] }

theorem generate_apiDetail :
    generate shopBroker "api-0" [toOutside, fromWeb] (some apiDetail) = .ok apiGenerated := rfl

theorem webFlow_supported :
    ∃ row ∈ [toOutside, fromWeb], Survives apiDetail row .ingress 8080 ∧ row.protocol = "TCP" ∧
      ∃ e ∈ otherEnd webToApi .ingress,
        match resolvePeer shopBroker row.dstIP with
        | .pods ns labels => labels.keys ≠ [] ∧ PodsCover shop ns labels e
        | .address ip => ip = row.dstIP ∧ parseIP e.ip = parseIP ip := by
  refine generate_least_privilege reference reference_documented shopBroker shop
    shop_clusterObjects.sound "api-0" [toOutside, fromWeb] apiDetail ?_ apiGenerated
    generate_apiDetail webToApi .ingress (by decide)
  simp only [List.forall_mem_cons, List.not_mem_nil, false_imp_iff, implies_true, and_true]
  exact ⟨⟨by decide, 0xCB007109#32, by decide⟩, ⟨by decide, 0x0A000007#32, by decide⟩⟩

end KGuardian.ObservedTraffic
