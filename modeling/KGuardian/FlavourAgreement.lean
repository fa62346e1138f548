import KGuardian.ObservedTraffic
import KGuardian.PolicyTargets

/-!
The two flavours of a generated policy side by side: which connections of a pod
each of them admits. The standard policy names the namespace of a peer, and the
Cilium policy does not, so the flavours agree exactly when every peer with labels
is in the namespace of the pod.
-/
namespace KGuardian.FlavourAgreement

open AllowLists NetAddr Selectors Matcher PolicySemantics StandardPolicy PeerGroups
open CiliumPolicy (ciliumSpec endpointSelector_ciliumSpec CiliumEndpointSelector CiliumPortRule
  CiliumPeerRule CiliumRule CiliumNetworkPolicy createEndpointSelector resolvePeerForCilium peerRule
  ciliumPort)
open PolicyTargets (Carries ciliumLabels selects_iff_carries carries_ciliumLabels_iff
  lookup_ciliumLabels prefixed_of_lookup)

structure PodIdentity where
  ns : String
  labels : Labels

/-- The other end of a connection, and the pod that it is if it is one. -/
structure Peer where
  addr : IP
  pod : Option PodIdentity

structure Connection where
  subject : PodIdentity
  peer : Peer
  port : ℤ
  protocol : String

/-- The labels of the namespaces of a cluster, each with its own name. -/
structure Namespaces where
  labels : String → Labels
  named : ∀ ns, (labels ns).lookup "kubernetes.io/metadata.name" = some ns

/-! What a NetworkPolicy admits. -/

def StandardPeerHolds (namespaces : Namespaces) (homeNs : String) (peer : Peer)
    (entry : NetworkPolicyPeer) : Prop :=
  match entry.ipBlock with
  | some block => CIDRCovers block.cidr peer.addr ∧ ∀ ex ∈ block.excepts, ¬ CIDRCovers ex peer.addr
  | none => ∃ pod ∈ peer.pod, (entry.namespaceSelector = none → pod.ns = homeNs) ∧
      (∀ sel ∈ entry.namespaceSelector, sel.Selects (namespaces.labels pod.ns)) ∧
      ∀ sel ∈ entry.podSelector, sel.Selects pod.labels

/-- Named ports, which are not generated, are left out. -/
def StandardPortHolds (port : ℤ) (protocol : String) (entry : NetworkPolicyPort) : Prop :=
  entry.protocol.getD "TCP" = protocol ∧
    match entry.port with
    | none => True
    | some (.int first) =>
        match entry.endPort with
        | none => port = first
        | some last => first ≤ port ∧ port ≤ last
    | some (.str _) => False

/-- A policy only restricts the pods that it selects. -/
def StandardAdmits (namespaces : Namespaces) (policy : NetworkPolicy) (d : Direction)
    (c : Connection) : Prop :=
  c.subject.ns = policy.ns ∧ policy.spec.podSelector.Selects c.subject.labels →
  Restricts policy.spec.policyTypes policy.spec.egress d →
  Permits (StandardPeerHolds namespaces policy.ns c.peer) (StandardPortHolds c.port c.protocol)
    (rulesFor policy.spec d)

/-! What a CiliumNetworkPolicy admits. -/

/-- Whether the selector, in a policy of the namespace, selects the pod. -/
abbrev EndpointMatch := String → CiliumEndpointSelector → PodIdentity → Prop

/-- What is assumed of Cilium: a selector without a label for a namespace selects
the pods of the policy's namespace that carry its labels. -/
def Assumed (namespaceLabel : String → Prop) (selects : EndpointMatch) : Prop :=
  ∀ homeNs sel pod, (∀ k ∈ sel.matchLabels.keys, ¬ namespaceLabel k) →
    (selects homeNs sel pod ↔
      pod.ns = homeNs ∧ Carries sel.matchLabels (ciliumLabels pod.labels))

def CiliumPeerHolds (selects : EndpointMatch) (homeNs : String) (peer : Peer)
    (rule : CiliumPeerRule) : Prop :=
  rule.endpoints = [] ∧ rule.cidr = [] ∨
    (∃ sel ∈ rule.endpoints, ∃ pod ∈ peer.pod, selects homeNs sel pod) ∨
    ∃ cidr ∈ rule.cidr, CIDRCovers cidr peer.addr

def CiliumPortHolds (port : ℤ) (protocol : String) (entry : CiliumPortRule) : Prop :=
  ∃ p ∈ entry.ports, p.port = toString port ∧ p.protocol = protocol

/-- A direction with rules denies the rest, and one can be denied without any. -/
def CiliumRestricts (spec : CiliumRule) (d : Direction) : Prop :=
  CiliumPolicy.rulesFor spec d ≠ [] ∨
    ∃ deny ∈ spec.enableDefaultDeny,
      d = .ingress ∧ deny.ingress = some true ∨ d = .egress ∧ deny.egress = some true

def CiliumAdmits (selects : EndpointMatch) (policy : CiliumNetworkPolicy) (d : Direction)
    (c : Connection) : Prop :=
  selects policy.ns policy.spec.endpointSelector c.subject →
  CiliumRestricts policy.spec d →
  ∃ rule ∈ CiliumPolicy.rulesFor policy.spec d, CiliumPeerHolds selects policy.ns c.peer rule ∧
    OpenOr (CiliumPortHolds c.port c.protocol) rule.toPorts

/-! What the generated policies admit, from the rows. -/

section

variable (broker : BrokerData) (podTraffic : List PodTraffic) (podDetail : PodDetail)

/-- Some row survives in the direction. -/
def Observed (d : Direction) : Prop := ∃ row ∈ podTraffic, ∃ v, Survives podDetail row d v

/-- A row that survives has the port and the protocol of the connection, and its
peer stands for the other end. -/
def RowAdmits (stands : ResolvedPeer → Prop) (d : Direction) (c : Connection) : Prop :=
  ∃ row ∈ podTraffic, Survives podDetail row d c.port ∧ protocolPtr row.protocol = c.protocol ∧
    stands (resolvePeer broker row.dstIP)

def StandardStands (peer : Peer) : ResolvedPeer → Prop
  | .pods ns labels => ∃ pod ∈ peer.pod, pod.ns = ns ∧ Carries labels pod.labels
  | .address ip => CIDRCovers (ip ++ "/32") peer.addr

def CiliumStands (selects : EndpointMatch) (homeNs : String) (peer : Peer) : ResolvedPeer → Prop
  | .pods _ labels => ∃ pod ∈ peer.pod, selects homeNs (createEndpointSelector labels) pod
  | .address ip => CIDRCovers (ip ++ "/32") peer.addr

theorem carries_metadataName_iff (namespaces : Namespaces) (ns ns' : String) :
    Carries (Labels.ofList [("kubernetes.io/metadata.name", ns)]) (namespaces.labels ns') ↔
      ns' = ns := by
  have hentries : (Labels.ofList [("kubernetes.io/metadata.name", ns)]).entries =
      [⟨"kubernetes.io/metadata.name", ns⟩] := rfl
  rw [← selects_iff_carries]
  simp [LabelSelector.Selects, ofMatchLabels, hentries, namespaces.named]

theorem standardPeerHolds_iff (namespaces : Namespaces) (homeNs peerIP : String) (peer : Peer) :
    StandardPeerHolds namespaces homeNs peer (createNetworkPolicyPeer broker peerIP) ↔
      StandardStands peer (resolvePeer broker peerIP) := by
  unfold createNetworkPolicyPeer
  cases resolvePeer broker peerIP with
  | address ip => simp [StandardPeerHolds, StandardStands]
  | pods ns labels =>
      simp [StandardPeerHolds, StandardStands, carries_metadataName_iff,
        selects_iff_carries]

theorem standardPortHolds_iff (port v : ℤ) (protocol rowProtocol : String) :
    StandardPortHolds port protocol (plainPort v rowProtocol) ↔
      protocolPtr rowProtocol = protocol ∧ port = v := by
  simp [StandardPortHolds, plainPort]

theorem ciliumPeerHolds_iff (selects : EndpointMatch) (homeNs peerIP : String) (peer : Peer)
    (toPorts : List CiliumPortRule) :
    CiliumPeerHolds selects homeNs peer (peerRule broker peerIP toPorts) ↔
      CiliumStands selects homeNs peer (resolvePeer broker peerIP) := by
  unfold peerRule resolvePeerForCilium
  cases resolvePeer broker peerIP with
  | address ip => simp [CiliumPeerHolds, CiliumStands]
  | pods ns labels => simp [CiliumPeerHolds, CiliumStands]

theorem ciliumPortHolds_iff (port v : ℤ) (protocol rowProtocol : String) :
    CiliumPortHolds port protocol ⟨[ciliumPort (plainPort v rowProtocol)]⟩ ↔
      protocolPtr rowProtocol = protocol ∧ port = v := by
  simp only [CiliumPortHolds, List.mem_singleton, exists_eq_left, ciliumPort, plainPort,
    portString, Option.map_some, Option.getD_some]
  constructor
  · intro h
    exact ⟨h.2, (Int.repr_injective h.1).symm⟩
  · intro h
    exact ⟨by rw [h.2], h.1⟩

variable {podTraffic podDetail} {d : Direction} (hd : Observed podTraffic podDetail d)
include hd

/-- In a direction with rows, a standard policy admits to its pods what the rows
stand for. -/
theorem standardAdmits_iff (namespaces : Namespaces) (c : Connection) :
    StandardAdmits namespaces
        (PeerGroups.policyOf broker podDetail (trafficGroups podTraffic podDetail)) d c ↔
      (c.subject.ns = podDetail.ns ∧ Carries podDetail.podLabels c.subject.labels →
        RowAdmits broker podTraffic podDetail (StandardStands c.peer) d c) := by
  obtain ⟨policy, hgen, hns, hselector, htypes, hpermits⟩ :=
    generate_permits broker "" podTraffic podDetail
  rw [PeerGroups.generate_eq_policyOf] at hgen
  obtain rfl := Except.ok.inj hgen
  set policy := PeerGroups.policyOf broker podDetail (trafficGroups podTraffic podDetail)
  have hrestricts : Restricts policy.spec.policyTypes policy.spec.egress d :=
    Or.inl (htypes d hd)
  rw [StandardAdmits, hns, hselector, selects_iff_carries, hpermits]
  simp only [standardPeerHolds_iff, standardPortHolds_iff]
  refine imp_congr_right fun _ => ?_
  constructor
  · intro h
    obtain ⟨row, hrow, v, hsurvives, hstands, hprotocol, hport⟩ := h hrestricts
    exact ⟨row, hrow, hport ▸ hsurvives, hprotocol, hstands⟩
  · intro h _
    obtain ⟨row, hrow, hsurvives, hprotocol, hstands⟩ := h
    exact ⟨row, hrow, c.port, hsurvives, hstands, hprotocol, rfl⟩

/-- The same of a Cilium policy. -/
theorem ciliumAdmits_iff (selects : EndpointMatch) (c : Connection) :
    CiliumAdmits selects
        (CiliumPolicy.policyOf broker podDetail (trafficGroups podTraffic podDetail)) d c ↔
      (selects podDetail.ns (createEndpointSelector podDetail.podLabels) c.subject →
        RowAdmits broker podTraffic podDetail (CiliumStands selects podDetail.ns c.peer) d c) := by
  have hrules := CiliumPolicy.rulesFor_ciliumSpec (createEndpointSelector podDetail.podLabels)
    podDetail.name (trafficGroups podTraffic podDetail)
    (fun g => peerRule broker g.1 (g.2.map fun p => ⟨[ciliumPort p]⟩)) d fun name => rfl
  have hgroups := inGroup_trafficGroups podTraffic podDetail d
  have hrestricts : CiliumPolicy.rulesFor (ciliumSpec (createEndpointSelector podDetail.podLabels)
    podDetail.name (trafficGroups podTraffic podDetail)
    fun g => peerRule broker g.1 (g.2.map fun p => ⟨[ciliumPort p]⟩)) d ≠ [] := by
    obtain ⟨row, hrow, v, hsurvives⟩ := hd
    obtain ⟨g, hg, -⟩ := (hgroups _ _).mpr ⟨row, hrow, v, hsurvives, rfl, rfl⟩
    rw [hrules]
    exact List.ne_nil_of_mem (List.mem_map_of_mem hg)
  rw [CiliumAdmits, CiliumPolicy.policyOf, endpointSelector_ciliumSpec]
  refine imp_congr_right fun _ => ?_
  constructor
  · intro h
    obtain ⟨rule, hrule, hpeer, hports⟩ := h (Or.inl hrestricts)
    rw [hrules] at hrule
    obtain ⟨g, hg, rfl⟩ := List.mem_map.mp hrule
    have hne : g.2.map (fun p => (⟨[ciliumPort p]⟩ : CiliumPortRule)) ≠ [] := by
      rw [ne_eq, List.map_eq_nil_iff]
      exact (sorted_trafficGroups podTraffic podDetail d).nonempty g hg
    obtain ⟨entry, hentry, hport⟩ := (openOr_iff_of_ne_nil _ _ hne).mp hports
    obtain ⟨p, hp, rfl⟩ := List.mem_map.mp hentry
    obtain ⟨row, hrow, v, hsurvives, hip, rfl⟩ := (hgroups g.1 p).mp ⟨g, hg, rfl, hp⟩
    obtain ⟨hprotocol, rfl⟩ := (ciliumPortHolds_iff _ _ _ _).mp hport
    rw [hip] at hpeer
    exact ⟨row, hrow, hsurvives, hprotocol, (ciliumPeerHolds_iff _ _ _ _ _ _).mp hpeer⟩
  · intro h _
    obtain ⟨row, hrow, hsurvives, hprotocol, hstands⟩ := h
    obtain ⟨g, hg, hip, hp⟩ := (hgroups _ _).mpr ⟨row, hrow, c.port, hsurvives, rfl, rfl⟩
    have hport := (ciliumPortHolds_iff c.port c.port c.protocol row.protocol).mpr ⟨hprotocol, rfl⟩
    rw [← hip] at hstands
    refine ⟨peerRule broker g.1 (g.2.map fun p => ⟨[ciliumPort p]⟩), ?_,
      (ciliumPeerHolds_iff broker selects _ _ _ _).mpr hstands,
      Or.inr ⟨_, List.mem_map.mpr ⟨_, hp, rfl⟩, hport⟩⟩
    rw [hrules]
    exact List.mem_map.mpr ⟨g, hg, rfl⟩

end

/-! Agreement. -/

section

variable (namespaceLabel : String → Prop) (broker : BrokerData) (podName : String)
  (podTraffic : List PodTraffic) (podDetail : PodDetail)

/-- Both policies are generated and, whatever else Cilium may do, admit the same
connections in each direction in which a row survives. -/
def FlavoursAgree : Prop :=
  ∃ p q, StandardPolicy.generate broker podName podTraffic (some podDetail) = .ok p ∧
    CiliumPolicy.generate broker podName podTraffic (some podDetail) = .ok q ∧
    ∀ namespaces selects, Assumed namespaceLabel selects →
      ∀ d, Observed podTraffic podDetail d →
        ∀ c, StandardAdmits namespaces p d c ↔ CiliumAdmits selects q d c

/-- None of the labels stands for a namespace in a Cilium policy. -/
def NoNamespaceLabel (labels : Labels) : Prop := ∀ k ∈ labels.keys, ¬ namespaceLabel ("k8s:" ++ k)

/-- If any row survives: each peer with labels is in the namespace of the pod,
and neither its labels nor those of the pod stand for a namespace. -/
def PeersAtHome : Prop :=
  ∀ row ∈ podTraffic, ∀ d v, Survives podDetail row d v →
    NoNamespaceLabel namespaceLabel podDetail.podLabels ∧
    ∀ ns labels, resolvePeer broker row.dstIP = .pods ns labels →
      ns = podDetail.ns ∧ NoNamespaceLabel namespaceLabel labels

variable {namespaceLabel broker podTraffic podDetail}

/-- Namespaces with no label but their name. -/
def Namespaces.plain : Namespaces where
  labels ns := Labels.ofList [("kubernetes.io/metadata.name", ns)]
  named _ := rfl

theorem flavoursAgree_iff_rows :
    FlavoursAgree namespaceLabel broker podName podTraffic podDetail ↔
      ∀ selects, Assumed namespaceLabel selects → ∀ d, Observed podTraffic podDetail d → ∀ c,
        (c.subject.ns = podDetail.ns ∧ Carries podDetail.podLabels c.subject.labels →
            RowAdmits broker podTraffic podDetail (StandardStands c.peer) d c) ↔
          (selects podDetail.ns (createEndpointSelector podDetail.podLabels) c.subject →
            RowAdmits broker podTraffic podDetail (CiliumStands selects podDetail.ns c.peer)
              d c) := by
  constructor
  · intro h selects hselects d hd c
    obtain ⟨p, q, hp, hq, hagree⟩ := h
    rw [PeerGroups.generate_eq_policyOf] at hp
    rw [CiliumPolicy.generate_eq_policyOf] at hq
    obtain rfl := Except.ok.inj hp
    obtain rfl := Except.ok.inj hq
    rw [← standardAdmits_iff broker hd .plain c, ← ciliumAdmits_iff broker hd selects c]
    exact hagree .plain selects hselects d hd c
  · intro h
    refine ⟨_, _, PeerGroups.generate_eq_policyOf broker podName podTraffic podDetail,
      CiliumPolicy.generate_eq_policyOf broker podName podTraffic podDetail, ?_⟩
    intro namespaces selects hselects d hd c
    rw [standardAdmits_iff broker hd namespaces c, ciliumAdmits_iff broker hd selects c]
    exact h selects hselects d hd c

/-- The keys of a generated selector are those of the labels. -/
theorem noNamespaceLabel_iff (labels : Labels) :
    (∀ k ∈ (createEndpointSelector labels).matchLabels.keys, ¬ namespaceLabel k) ↔
      NoNamespaceLabel namespaceLabel labels := by
  have hkeys (k : String) : "k8s:" ++ k ∈ (createEndpointSelector labels).matchLabels.keys ↔
      k ∈ labels.keys := by
    rw [← AList.mem_keys, ← AList.mem_keys, ← AList.lookup_isSome, ← AList.lookup_isSome,
      ← lookup_ciliumLabels labels k]
    rfl
  constructor
  · intro h k hk
    exact h _ ((hkeys k).mpr hk)
  · intro h k hk
    obtain ⟨v, hv⟩ := Option.isSome_iff_exists.mp (AList.lookup_isSome.mpr (AList.mem_keys.mpr hk))
    rw [CiliumPolicy.createEndpointSelector_eq] at hv
    obtain ⟨k', rfl⟩ := prefixed_of_lookup _ hv
    exact h k' ((hkeys k').mp hk)

/-- Labels that stand for no namespace select by the assumption. -/
theorem Assumed.selects_iff {selects : EndpointMatch} (hselects : Assumed namespaceLabel selects)
    {labels : Labels} (hlabels : NoNamespaceLabel namespaceLabel labels) (homeNs : String)
    (pod : PodIdentity) :
    selects homeNs (createEndpointSelector labels) pod ↔
      pod.ns = homeNs ∧ Carries labels pod.labels := by
  rw [hselects homeNs _ pod ((noNamespaceLabel_iff labels).mpr hlabels),
    ← carries_ciliumLabels_iff labels pod.labels]
  rfl

/-- When all peers are at home, both kinds of peer stand for the same pods. -/
theorem flavoursAgree_of_peersAtHome (h : PeersAtHome namespaceLabel broker podTraffic podDetail) :
    FlavoursAgree namespaceLabel broker podName podTraffic podDetail := by
  rw [flavoursAgree_iff_rows]
  intro selects hselects d hd c
  have hpod : NoNamespaceLabel namespaceLabel podDetail.podLabels := by
    obtain ⟨row, hrow, v, hsurvives⟩ := hd
    exact (h row hrow d v hsurvives).1
  have hstands (row : PodTraffic) (hrow : row ∈ podTraffic)
      (hsurvives : Survives podDetail row d c.port) :
      StandardStands c.peer (resolvePeer broker row.dstIP) ↔
        CiliumStands selects podDetail.ns c.peer (resolvePeer broker row.dstIP) := by
    cases hpeer : resolvePeer broker row.dstIP with
    | address ip => exact Iff.rfl
    | pods ns labels =>
        obtain ⟨rfl, hlabels⟩ := (h row hrow d c.port hsurvives).2 ns labels hpeer
        simp only [StandardStands, CiliumStands, hselects.selects_iff hlabels]
  rw [hselects.selects_iff hpod]
  refine imp_congr_right fun _ => exists_congr fun row => ?_
  constructor
  · intro hadmits
    obtain ⟨hrow, hsurvives, hprotocol, hpeer⟩ := hadmits
    exact ⟨hrow, hsurvives, hprotocol, (hstands row hrow hsurvives).mp hpeer⟩
  · intro hadmits
    obtain ⟨hrow, hsurvives, hprotocol, hpeer⟩ := hadmits
    exact ⟨hrow, hsurvives, hprotocol, (hstands row hrow hsurvives).mpr hpeer⟩

/-- Cilium as assumed, with a free choice for selectors with a label for a
namespace. -/
def selectsOr (namespaceLabel : String → Prop) (other : Prop) : EndpointMatch :=
  fun homeNs sel pod =>
    (∀ k ∈ sel.matchLabels.keys, ¬ namespaceLabel k) ∧ pod.ns = homeNs ∧
        Carries sel.matchLabels (ciliumLabels pod.labels) ∨
      other ∧ ¬ ∀ k ∈ sel.matchLabels.keys, ¬ namespaceLabel k

theorem assumed_selectsOr (namespaceLabel : String → Prop) (other : Prop) :
    Assumed namespaceLabel (selectsOr namespaceLabel other) := by
  intro homeNs sel pod hsel
  constructor
  · intro h
    rcases h with ⟨-, hpod⟩ | ⟨-, hnot⟩
    · exact hpod
    · exact absurd hsel hnot
  · intro hpod
    exact Or.inl ⟨hsel, hpod⟩

/-- An address that is none of IPv4. -/
def outsideIPv4 : IP := 1#128

theorem not_cidrCovers_outsideIPv4 {ip : String} {a : BitVec 32}
    (h : parseAddr ip.toList = some (.v4 a)) : ¬ CIDRCovers (ip ++ "/32") outsideIPv4 := by
  intro hcovers
  have heq := (cidrCovers_host_iff ip a outsideIPv4 h).mp hcovers
  have hnone : to4 outsideIPv4 = none := by decide
  rw [heq, to4_as16] at hnone
  cases hnone

/-- Every row that survives has an IPv4 address for its peer. -/
def IPv4Peers (podTraffic : List PodTraffic) (podDetail : PodDetail) : Prop :=
  ∀ row ∈ podTraffic, ∀ d v, Survives podDetail row d v →
    ∃ a, parseAddr row.dstIP.toList = some (.v4 a)

variable (hpeers : IPv4Peers podTraffic podDetail)
include hpeers

/-- Outside of IPv4 only peers with labels admit anything. -/
theorem pods_of_rowAdmits {stands : ResolvedPeer → Prop} {d : Direction} {c : Connection}
    (hstands : ∀ ip, stands (.address ip) → CIDRCovers (ip ++ "/32") outsideIPv4)
    (h : RowAdmits broker podTraffic podDetail stands d c) :
    ∃ row ∈ podTraffic, Survives podDetail row d c.port ∧ ∃ ns labels,
      resolvePeer broker row.dstIP = .pods ns labels ∧ stands (.pods ns labels) := by
  obtain ⟨row, hrow, hsurvives, -, hpeer⟩ := h
  cases hresolved : resolvePeer broker row.dstIP with
  | pods ns labels =>
      rw [hresolved] at hpeer
      exact ⟨row, hrow, hsurvives, ns, labels, hresolved, hpeer⟩
  | address ip =>
      obtain rfl := resolvePeer_address broker row.dstIP ip hresolved
      obtain ⟨a, ha⟩ := hpeers row hrow d c.port hsurvives
      rw [hresolved] at hpeer
      exact absurd (hstands _ hpeer) (not_cidrCovers_outsideIPv4 ha)

/-- The connection of the pod that a row is about, with a peer outside of IPv4. -/
def rowConnection (podDetail : PodDetail) (row : PodTraffic) (v : ℤ) (peer : PodIdentity) :
    Connection :=
  ⟨⟨podDetail.ns, podDetail.podLabels⟩, ⟨outsideIPv4, some peer⟩, v, protocolPtr row.protocol⟩

omit hpeers in
/-- A pod that Cilium does not select may do anything there, but not under the
standard policy. -/
theorem subject_of_flavoursAgree
    (h : FlavoursAgree namespaceLabel broker podName podTraffic podDetail) {d : Direction}
    (hd : Observed podTraffic podDetail d) :
    NoNamespaceLabel namespaceLabel podDetail.podLabels := by
  rw [flavoursAgree_iff_rows] at h
  have hself : podDetail.ns = podDetail.ns ∧ Carries podDetail.podLabels podDetail.podLabels :=
    ⟨rfl, fun _ _ hv => hv⟩
  by_contra hnot
  rw [← noNamespaceLabel_iff] at hnot
  have hfree : ¬ selectsOr namespaceLabel False podDetail.ns
      (createEndpointSelector podDetail.podLabels) ⟨podDetail.ns, podDetail.podLabels⟩ := by
    rintro (⟨hlabels, -⟩ | ⟨hfalse, -⟩)
    · exact hnot hlabels
    · exact hfalse
  obtain ⟨row, -, -, hprotocol, -⟩ :=
    (h (selectsOr namespaceLabel False) (assumed_selectsOr _ _) d hd
      ⟨⟨podDetail.ns, podDetail.podLabels⟩, ⟨outsideIPv4, none⟩, 0, ""⟩).mpr
      (fun hselected => absurd hselected hfree) hself
  rcases protocolPtr_cases row.protocol with htcp | hudp | hsctp <;> simp_all

/-- A selector that selects everything admits pods without labels. -/
theorem peer_of_flavoursAgree
    (h : FlavoursAgree namespaceLabel broker podName podTraffic podDetail) {row : PodTraffic}
    (hrow : row ∈ podTraffic) {d : Direction} {v : ℤ} (hsurvives : Survives podDetail row d v)
    {ns : String} {labels : Labels} (hpeer : resolvePeer broker row.dstIP = .pods ns labels) :
    NoNamespaceLabel namespaceLabel labels := by
  rw [flavoursAgree_iff_rows] at h
  by_contra hnot
  have hcilium : RowAdmits broker podTraffic podDetail
      (CiliumStands (selectsOr namespaceLabel True) podDetail.ns ⟨outsideIPv4, some ⟨ns, ∅⟩⟩) d
      (rowConnection podDetail row v ⟨ns, ∅⟩) := by
    refine ⟨row, hrow, hsurvives, rfl, ?_⟩
    rw [hpeer]
    exact ⟨_, rfl, Or.inr ⟨trivial, fun hsel => hnot ((noNamespaceLabel_iff labels).mp hsel)⟩⟩
  have hstandard := (h (selectsOr namespaceLabel True) (assumed_selectsOr _ _) d
    ⟨row, hrow, v, hsurvives⟩ (rowConnection podDetail row v ⟨ns, ∅⟩)).mpr (fun _ => hcilium)
    ⟨rfl, fun _ _ hv => hv⟩
  obtain ⟨row', -, -, ns', labels', hpeer', pod, hpod', -, hcarries⟩ :=
    pods_of_rowAdmits hpeers (fun ip hip => hip) hstandard
  obtain rfl := Option.some.inj hpod'
  have hkeys := resolvePeer_labels broker row'.dstIP ns' labels' hpeer'
  obtain ⟨k, v, hv⟩ := (PolicyTargets.exists_lookup_iff labels').mpr hkeys
  cases hcarries k v hv

theorem peersAtHome_of_flavoursAgree
    (h : FlavoursAgree namespaceLabel broker podName podTraffic podDetail) :
    PeersAtHome namespaceLabel broker podTraffic podDetail := by
  intro row hrow d v hsurvives
  have hd : Observed podTraffic podDetail d := ⟨row, hrow, v, hsurvives⟩
  have hpod := subject_of_flavoursAgree podName h hd
  refine ⟨hpod, fun ns labels hpeer =>
    ⟨?_, peer_of_flavoursAgree podName hpeers h hrow hsurvives hpeer⟩⟩
  have hstandard : RowAdmits broker podTraffic podDetail
      (StandardStands ⟨outsideIPv4, some ⟨ns, labels⟩⟩) d
      (rowConnection podDetail row v ⟨ns, labels⟩) := by
    refine ⟨row, hrow, hsurvives, rfl, ?_⟩
    rw [hpeer]
    exact ⟨_, rfl, rfl, fun _ _ hv => hv⟩
  have hassumed := assumed_selectsOr namespaceLabel False
  have hagree := (flavoursAgree_iff_rows podName).mp h _ hassumed d hd
    (rowConnection podDetail row v ⟨ns, labels⟩)
  have hcilium := hagree.mp (fun _ => hstandard)
    ((hassumed.selects_iff hpod _ _).mpr ⟨rfl, fun _ _ hv => hv⟩)
  -- some peer of the Cilium policy selects the pod, and it selects at home only
  obtain ⟨row', hrow', hsurvives', ns', labels', hpeer', pod, hpod', hselects⟩ :=
    pods_of_rowAdmits hpeers (fun ip hip => hip) hcilium
  obtain rfl := Option.some.inj hpod'
  have hlabels := peer_of_flavoursAgree podName hpeers h hrow' hsurvives' hpeer'
  exact ((hassumed.selects_iff hlabels _ _).mp hselects).1

/-- With IPv4 peers, the flavours agree exactly when all peers with labels are in
the namespace of the pod. -/
theorem flavoursAgree_iff_peersAtHome :
    FlavoursAgree namespaceLabel broker podName podTraffic podDetail ↔
      PeersAtHome namespaceLabel broker podTraffic podDetail := by
  constructor
  · intro h
    exact peersAtHome_of_flavoursAgree podName hpeers h
  · intro h
    exact flavoursAgree_of_peersAtHome podName h

end

/-- The label that Cilium gives to the namespace of a pod. -/
def podNamespaceLabel (k : String) : Prop := k = "k8s:io.kubernetes.pod.namespace"

def kubeDNS : SvcDetail :=
  ⟨"kube-dns", "kube-system", Labels.ofList [("k8s-app", "kube-dns")], []⟩

def gateway : PodDetail :=
  ⟨"10.0.0.7", "api-gateway-0", "production", Labels.ofList [("app", "api-gateway")]⟩

def clusterBroker : BrokerData where
  serviceByIP ip := .ok (if ip = "10.96.0.10" then some kubeDNS else none)
  podByIP ip := .ok (if ip = gateway.podIP then some gateway else none)

def myApp : PodDetail := ⟨"10.0.0.9", "my-app", "production", Labels.ofList [("app", "my-app")]⟩

def fromGateway : PodTraffic := ⟨"8080", "INGRESS", "10.0.0.7", "51034", "TCP"⟩

def toDNS : PodTraffic := ⟨"40112", "EGRESS", "10.96.0.10", "53", "UDP"⟩

theorem survives_toDNS : Survives myApp toDNS .egress 53 :=
  ⟨rfl, by decide, by decide, rfl⟩

theorem flavoursAgree_fromGateway :
    FlavoursAgree podNamespaceLabel clusterBroker "my-app" [fromGateway] myApp := by
  have hlabel (app : String) :
      NoNamespaceLabel podNamespaceLabel (Labels.ofList [("app", app)]) := by
    have happ : ¬ podNamespaceLabel ("k8s:" ++ "app") := by
      unfold podNamespaceLabel
      decide
    intro k hk
    obtain rfl := List.mem_singleton.mp hk
    exact happ
  refine (flavoursAgree_iff_peersAtHome "my-app" ?_).mpr ?_
  · intro row hrow d v _
    obtain rfl := List.mem_singleton.mp hrow
    exact ⟨10#8 ++ 0#8 ++ 0#8 ++ 7#8, rfl⟩
  · intro row hrow d v _
    obtain rfl := List.mem_singleton.mp hrow
    refine ⟨hlabel "my-app", fun ns labels hpeer => ?_⟩
    obtain ⟨rfl, rfl⟩ := ResolvedPeer.pods.inj hpeer
    exact ⟨rfl, hlabel "api-gateway"⟩

/-- DNS is allowed by the standard policy alone. -/
theorem not_flavoursAgree_toDNS :
    ¬ FlavoursAgree podNamespaceLabel clusterBroker "my-app" [toDNS] myApp := by
  intro h
  have hpeers : IPv4Peers [toDNS] myApp := by
    intro row hrow d v _
    obtain rfl := List.mem_singleton.mp hrow
    exact ⟨10#8 ++ 96#8 ++ 0#8 ++ 10#8, rfl⟩
  have hhome := peersAtHome_of_flavoursAgree "my-app" hpeers h toDNS List.mem_cons_self .egress 53
    survives_toDNS
  exact absurd (hhome.2 "kube-system" _ rfl).1 (by decide)

end KGuardian.FlavourAgreement
