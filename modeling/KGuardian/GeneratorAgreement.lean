import KGuardian.BridgeNetworkPolicy

/-!
The assistant's generators against the advisor's. Both make sorted groups of the
rows that survive, so the standard policies agree exactly when the same peers and
ports are read from the rows and the collation keeps the order of the peers.
-/
namespace KGuardian.GeneratorAgreement

open NetAddr Selectors Matcher TextScan JsText SortedGroups
open StandardPolicy (BrokerData PodDetail ResolvedPeer Survives resolvePeer
  createNetworkPolicyPeer plainPort protocolPtr)
open BridgeNetworkPolicy (PeerResolver PeerIdentity TrafficRow PodInfo Port entries entry
  standardPeer standardPort)

/-- A row as the advisor decodes it: what is missing or null is empty. -/
def advisorRow (t : TrafficRow) : StandardPolicy.PodTraffic :=
  ⟨t.podPort.getD "", t.trafficType.getD "", t.trafficInOutIp.getD "",
    t.trafficInOutPort.getD "", t.ipProtocol.getD ""⟩

def advisorPod (pod : PodInfo) : PodDetail := ⟨pod.ip, pod.name, pod.ns, pod.labels⟩

/-- What the advisor makes of an address with this selector and namespace. -/
def advisorPeer (ip : String) : Option (Labels × String) → ResolvedPeer
  | some (selector, ns) => .pods ns selector
  | none => .address ip

/-- Every address stands for the same pods on both sides, or for itself. -/
def SameResolution (broker : BrokerData) (resolve : PeerResolver) : Prop :=
  ∀ ip, resolvePeer broker ip = advisorPeer ip (BridgeNetworkPolicy.selected (resolve ip))

/-- The peer and the port that the advisor reads from a row for a direction. -/
def advisorEntry (pod : PodInfo) (d : Direction) (t : TrafficRow) :
    Option (String × NetworkPolicyPort) :=
  let row := advisorRow t
  if row.dstIP = "" ∨ row.dstIP = pod.ip then none
  else if StandardPolicy.rowDirection row = some d then
    (StandardPolicy.parsePort (StandardPolicy.relevantPort row d)).map fun v =>
      (row.dstIP, plainPort v row.protocol)
  else none

/-- An entry of the assistant, with the port as the policy has it. -/
def standardEntry (e : String × Port) : String × NetworkPolicyPort := (e.1, standardPort e.2)

variable (js : Runtime)

/-- The same peers and ports are read from the rows. -/
def SameEntries (pod : PodInfo) (traffic : List TrafficRow) : Prop :=
  ∀ d e, e ∈ traffic.filterMap (advisorEntry pod d) ↔
    e ∈ (entries js pod d traffic).map standardEntry

/-- The collation orders the peers, in the order of their first rows, as the
advisor does. -/
def SameOrder (pod : PodInfo) (traffic : List TrafficRow) : Prop :=
  ∀ d, ((entries js pod d traffic).map Prod.fst).eraseDups.Pairwise fun a b =>
    (js.localeCompare a b ≤ 0 ↔ a ≤ b)

theorem mem_advisorEntries (pod : PodInfo) (d : Direction) (traffic : List TrafficRow)
    (a : String) (p : NetworkPolicyPort) :
    (a, p) ∈ traffic.filterMap (advisorEntry pod d) ↔
      InGroup (PeerGroups.trafficGroups (traffic.map advisorRow) (advisorPod pod) d) a p := by
  rw [PeerGroups.inGroup_trafficGroups, List.mem_filterMap]
  simp only [List.mem_map, exists_exists_and_eq_and]
  refine exists_congr fun t => and_congr_right fun _ => ?_
  simp only [advisorEntry]
  constructor
  · intro h
    split at h
    · exact absurd h (by simp)
    · rename_i hpeer
      rw [not_or] at hpeer
      split at h
      · rename_i hdir
        obtain ⟨v, hport, heq⟩ := Option.map_eq_some_iff.mp h
        obtain ⟨rfl, rfl⟩ := Prod.ext_iff.mp heq
        exact ⟨v, ⟨hdir, hpeer.1, hpeer.2, hport⟩, rfl, rfl⟩
      · exact absurd h (by simp)
  · intro h
    obtain ⟨v, hsurvives, rfl, rfl⟩ := h
    have hpeer : ¬ ((advisorRow t).dstIP = "" ∨ (advisorRow t).dstIP = pod.ip) :=
      not_or.mpr ⟨hsurvives.peer, hsurvives.notSelf⟩
    rw [if_neg hpeer, if_pos hsurvives.direction, hsurvives.port, Option.map_some]

/-- The groups of the assistant, with the ports as the policy has them. -/
def bridgeGroups (pod : PodInfo) (traffic : List TrafficRow) (d : Direction) :
    List (String × List NetworkPolicyPort) :=
  (BridgeNetworkPolicy.trafficGroups js traffic pod d).map fun g => (g.1, g.2.map standardPort)

theorem inGroup_bridgeGroups (pod : PodInfo) (traffic : List TrafficRow) (d : Direction)
    (a : String) (p : NetworkPolicyPort) :
    InGroup (bridgeGroups js pod traffic d) a p ↔
      (a, p) ∈ (entries js pod d traffic).map standardEntry := by
  constructor
  · intro h
    obtain ⟨g', hg', rfl, hp⟩ := h
    obtain ⟨g, hg, rfl⟩ := List.mem_map.mp hg'
    obtain ⟨q, hq, rfl⟩ := List.mem_map.mp hp
    have hentry := (BridgeNetworkPolicy.inGroup_trafficGroups js traffic pod d g.1 q).mp
      ⟨g, hg, rfl, hq⟩
    exact List.mem_map.mpr ⟨_, hentry, rfl⟩
  · intro h
    obtain ⟨⟨a', q⟩, hentry, heq⟩ := List.mem_map.mp h
    obtain ⟨rfl, rfl⟩ := Prod.ext_iff.mp heq
    obtain ⟨g, hg, hkey, hq⟩ :=
      (BridgeNetworkPolicy.inGroup_trafficGroups js traffic pod d a' q).mpr hentry
    exact ⟨_, List.mem_map_of_mem hg, hkey, List.mem_map_of_mem hq⟩

theorem keys_bridgeGroups (pod : PodInfo) (traffic : List TrafficRow) (d : Direction) :
    (bridgeGroups js pod traffic d).map Prod.fst =
      ((entries js pod d traffic).map Prod.fst).eraseDups.insertionSort
        (BridgeNetworkPolicy.peerLe js) := by
  rw [← BridgeNetworkPolicy.keys_trafficGroups, bridgeGroups, List.map_map]
  rfl

theorem standardPort_injective : Function.Injective standardPort := by
  intro p q h
  cases p
  cases q
  simp_all [standardPort]

/-- A port that the advisor could read is ordered as the advisor orders it. -/
theorem portLe_standardPort {js : Runtime} (hjs : js.Documented) {p q : Port}
    (hp : ∃ v protocol, standardPort p = plainPort v protocol)
    (hq : ∃ v protocol, standardPort q = plainPort v protocol)
    (hpq : BridgeNetworkPolicy.portLe js p q) :
    PeerGroups.portLe (standardPort p) (standardPort q) := by
  have hknown {p : Port} (h : ∃ v protocol, standardPort p = plainPort v protocol) :
      p.protocol ∈ ["SCTP", "TCP", "UDP"] ∧ protocolPtr p.protocol = p.protocol := by
    obtain ⟨v, protocol, h⟩ := h
    simp only [standardPort, plainPort, NetworkPolicyPort.mk.injEq, Option.some.injEq] at h
    rw [h.1]
    rcases StandardPolicy.protocolPtr_cases protocol with hp | hp | hp
    all_goals
      rw [hp]
      exact ⟨by decide, by decide⟩
  obtain ⟨hmemp, hsamep⟩ := hknown hp
  obtain ⟨hmemq, hsameq⟩ := hknown hq
  have hplain {p : Port} (h : protocolPtr p.protocol = p.protocol) :
      standardPort p = plainPort p.port p.protocol := by
    rw [standardPort, plainPort, h]
  rw [hplain hsamep, hplain hsameq, PeerGroups.portLe_plain, hsamep, hsameq]
  rcases hpq with hlt | ⟨heq, hle⟩
  · exact Or.inl (by exact_mod_cast hlt)
  · exact Or.inr ⟨by exact_mod_cast heq, (hjs.protocols _ hmemp _ hmemq).mp hle⟩

section Agreement

variable {js} (hjs : js.Documented)
include hjs

/-- Read as the advisor reads them and in its order, the groups are sorted as the
advisor's are. -/
theorem sorted_bridgeGroups {pod : PodInfo} {traffic : List TrafficRow} {d : Direction}
    (hentries : ∀ e ∈ (entries js pod d traffic).map standardEntry,
      e ∈ traffic.filterMap (advisorEntry pod d))
    (hkeys : (bridgeGroups js pod traffic d).map Prod.fst =
      ((entries js pod d traffic).map Prod.fst).eraseDups.insertionSort (· ≤ ·)) :
    Sorted (· ≤ ·) PeerGroups.portLe (bridgeGroups js pod traffic d) := by
  have hbridge := BridgeNetworkPolicy.sorted_trafficGroups hjs traffic pod d
  refine ⟨?_, ?_, ?_, ?_, ?_⟩
  · rw [hkeys]
    exact List.pairwise_insertionSort _ _
  · rw [keys_bridgeGroups, ← BridgeNetworkPolicy.keys_trafficGroups]
    exact hbridge.keysNodup
  · intro g' hg'
    obtain ⟨g, hg, rfl⟩ := List.mem_map.mp hg'
    have hplain : ∀ p ∈ g.2, ∃ v protocol, standardPort p = plainPort v protocol := by
      intro p hp
      have hentry := hentries _ ((inGroup_bridgeGroups js pod traffic d g.1 (standardPort p)).mp
        ⟨_, hg', rfl, List.mem_map_of_mem hp⟩)
      rw [mem_advisorEntries] at hentry
      obtain ⟨_, hg'', _, hp''⟩ := hentry
      exact PeerGroups.plain_trafficGroups _ _ _ _ hg'' _ hp''
    rw [List.pairwise_map]
    exact (hbridge.values g hg).imp_of_mem fun hp hq =>
      portLe_standardPort hjs (hplain _ hp) (hplain _ hq)
  · intro g' hg'
    obtain ⟨g, hg, rfl⟩ := List.mem_map.mp hg'
    exact (hbridge.valuesNodup g hg).map standardPort_injective
  · intro g' hg'
    obtain ⟨g, hg, rfl⟩ := List.mem_map.mp hg'
    exact mt List.map_eq_nil_iff.mp (hbridge.nonempty g hg)

/-- In one direction, the groups agree when the entries and the order do. -/
theorem groups_eq_iff (pod : PodInfo) (traffic : List TrafficRow) (d : Direction) :
    PeerGroups.trafficGroups (traffic.map advisorRow) (advisorPod pod) d =
        bridgeGroups js pod traffic d ↔
      (∀ e, e ∈ traffic.filterMap (advisorEntry pod d) ↔
        e ∈ (entries js pod d traffic).map standardEntry) ∧
      ((entries js pod d traffic).map Prod.fst).eraseDups.Pairwise fun a b =>
        (js.localeCompare a b ≤ 0 ↔ a ≤ b) := by
  have htotal := BridgeNetworkPolicy.total_peerLe hjs
  have htrans := BridgeNetworkPolicy.trans_peerLe hjs
  have hsorted := PeerGroups.sorted_trafficGroups (traffic.map advisorRow) (advisorPod pod) d
  have horder : ((entries js pod d traffic).map Prod.fst).eraseDups.Pairwise
        (fun a b => (js.localeCompare a b ≤ 0 ↔ a ≤ b)) ↔
      (bridgeGroups js pod traffic d).map Prod.fst =
        ((entries js pod d traffic).map Prod.fst).eraseDups.insertionSort (· ≤ ·) := by
    rw [keys_bridgeGroups]
    exact (insertionSort_eq_iff (BridgeNetworkPolicy.peerLe js) (· ≤ ·) _).symm
  rw [horder]
  constructor
  · intro heq
    refine ⟨fun e => ?_, ?_⟩
    · rw [mem_advisorEntries, heq, inGroup_bridgeGroups]
    · have hkeys := hsorted.keys
      rw [heq] at hkeys
      refine List.Perm.eq_of_pairwise (fun a b _ _ => le_antisymm) hkeys
        (List.pairwise_insertionSort _ _) ?_
      rw [keys_bridgeGroups]
      exact (List.perm_insertionSort _ _).trans (List.perm_insertionSort _ _).symm
  · intro h
    obtain ⟨hentries, hkeys⟩ := h
    refine hsorted.ext (sorted_bridgeGroups hjs (fun e => (hentries e).mpr) hkeys) ?_ ?_
      fun a p => ?_
    · exact fun a _ b _ => le_antisymm
    · intro g hg p hp q hq
      exact PeerGroups.portLe_antisymm (PeerGroups.plain_trafficGroups _ _ _ g hg) hp hq
    · rw [← mem_advisorEntries, hentries, inGroup_bridgeGroups]

theorem trafficGroups_eq_iff (pod : PodInfo) (traffic : List TrafficRow) :
    (∀ d, PeerGroups.trafficGroups (traffic.map advisorRow) (advisorPod pod) d =
        bridgeGroups js pod traffic d) ↔
      SameEntries js pod traffic ∧ SameOrder js pod traffic := by
  rw [SameEntries, SameOrder, ← forall_and]
  exact forall_congr' (groups_eq_iff hjs pod traffic)

end Agreement

theorem createNetworkPolicyPeer_eq {broker : BrokerData} {resolve : PeerResolver}
    (h : SameResolution broker resolve) (ip : String) :
    createNetworkPolicyPeer broker ip = standardPeer ip resolve := by
  rw [createNetworkPolicyPeer, standardPeer, h ip]
  rcases BridgeNetworkPolicy.selected (resolve ip) with _ | ⟨selector, ns⟩ <;> rfl

/-- The two standard specs, compared group by group. -/
theorem standardSpec_eq_iff_groups (pod : PodInfo) (traffic : List TrafficRow)
    (broker : BrokerData) (resolve : PeerResolver) (h : SameResolution broker resolve) :
    (StandardPolicy.generate broker pod.name (traffic.map advisorRow) (some (advisorPod pod))).map
          StandardPolicy.NetworkPolicy.spec =
        .ok (BridgeNetworkPolicy.generateNetworkPolicy js pod traffic resolve).spec ↔
      ∀ d, (PeerGroups.trafficGroups (traffic.map advisorRow) (advisorPod pod) d).map
          (fun g => (⟨[standardPeer g.1 resolve], g.2⟩ : PolicyRule)) =
        (bridgeGroups js pod traffic d).map fun g => ⟨[standardPeer g.1 resolve], g.2⟩ := by
  obtain ⟨policy, hgen, -, hspec⟩ := PeerGroups.generate_eq broker pod.name
    (traffic.map advisorRow) (advisorPod pod)
  have hpeer := createNetworkPolicyPeer_eq h
  rw [hgen, Except.map, Except.ok.injEq, hspec,
    (BridgeNetworkPolicy.generateNetworkPolicy_eq js pod traffic resolve).2]
  simp only [advisorPod, PeerGroups.standardSpec_eq_iff, hpeer, bridgeGroups, List.map_map]
  constructor
  · intro hcase d
    cases d with
    | ingress => exact hcase.1
    | egress => exact hcase.2
    | other name => rfl
  · intro hcase
    exact ⟨hcase .ingress, hcase .egress⟩

/-- No address is known to either side. -/
def unresolvedBroker : BrokerData := ⟨fun _ => .ok none, fun _ => .ok none⟩

theorem sameResolution_unresolved : SameResolution unresolvedBroker fun _ => none :=
  fun _ => rfl

/-- A rule for an address tells the address and the ports. -/
theorem addressRule_injective :
    Function.Injective fun g : String × List NetworkPolicyPort =>
      (⟨[standardPeer g.1 fun _ => none], g.2⟩ : PolicyRule) := by
  intro g g' h
  simp only [standardPeer, BridgeNetworkPolicy.selected, AllowLists.Rule.mk.injEq, List.cons.injEq,
    NetworkPolicyPeer.mk.injEq, Option.some.injEq, IPBlock.mk.injEq, and_true, true_and] at h
  exact Prod.ext (String.append_left_inj _ |>.mp h.1) h.2

/-- The specs agree under every resolution of the peers exactly when both
generators read the same peers and ports and the collation keeps the order. -/
theorem generateNetworkPolicy_agrees_iff {js : Runtime} (hjs : js.Documented) (pod : PodInfo)
    (traffic : List TrafficRow) :
    (∀ broker resolve, SameResolution broker resolve →
      (StandardPolicy.generate broker pod.name (traffic.map advisorRow)
          (some (advisorPod pod))).map StandardPolicy.NetworkPolicy.spec =
        .ok (BridgeNetworkPolicy.generateNetworkPolicy js pod traffic resolve).spec) ↔
      SameEntries js pod traffic ∧ SameOrder js pod traffic := by
  rw [← trafficGroups_eq_iff hjs]
  constructor
  · intro h d
    have hmap := (standardSpec_eq_iff_groups js pod traffic _ _ sameResolution_unresolved).mp
      (h _ _ sameResolution_unresolved) d
    exact List.map_injective_iff.mpr addressRule_injective hmap
  · intro h broker resolve hsame
    rw [standardSpec_eq_iff_groups js pod traffic broker resolve hsame]
    intro d
    rw [h d]

def webPod : PodInfo := ⟨"web-0", "shop", "10.0.0.7", Labels.ofList [("app", "web")]⟩

/-- A request to the web pod. -/
def requestTo (port : String) : TrafficRow :=
  ⟨some "INGRESS", some port, some "10.0.0.9", some "0", some "TCP"⟩

/-- A lookup of a name by the web pod, with the protocol as it is given. -/
def nameLookup (protocol : String) : TrafficRow :=
  ⟨some "EGRESS", some "0", some "10.0.0.10", some "53", some protocol⟩

theorem generateNetworkPolicy_agrees_on_requests :
    (StandardPolicy.generate unresolvedBroker webPod.name
          ([requestTo "8080", nameLookup "UDP"].map advisorRow)
          (some (advisorPod webPod))).map StandardPolicy.NetworkPolicy.spec =
        .ok (BridgeNetworkPolicy.generateNetworkPolicy asciiRuntime webPod
          [requestTo "8080", nameLookup "UDP"] fun _ => none).spec := by
  refine (generateNetworkPolicy_agrees_iff asciiRuntime_documented webPod _).mpr ⟨?_, ?_⟩
    unresolvedBroker _ sameResolution_unresolved
  · intro d e
    have hlists : [requestTo "8080", nameLookup "UDP"].filterMap (advisorEntry webPod d) =
        (entries asciiRuntime webPod d
          [requestTo "8080", nameLookup "UDP"]).map standardEntry := by
      cases d <;> rfl
    rw [hlists]
  · exact fun d => List.Pairwise.imp_of_mem (fun _ _ _ => asciiRuntime_compare _ _)
      (List.pairwise_of_forall (fun _ _ => trivial))

/-- The advisor reads an unknown protocol as TCP. -/
theorem lowerCaseUdp_differs :
    (StandardPolicy.generate unresolvedBroker webPod.name [advisorRow (nameLookup "udp")]
        (some (advisorPod webPod))).map (fun p => p.spec.egress.map AllowLists.Rule.ports) =
      .ok [[⟨some "TCP", some (.int 53), none⟩]] ∧
    (BridgeNetworkPolicy.generateNetworkPolicy asciiRuntime webPod [nameLookup "udp"]
        fun _ => none).spec.egress.map AllowLists.Rule.ports =
      [[⟨some "UDP", some (.int 53), none⟩]] ∧
    ¬ ∀ broker resolve, SameResolution broker resolve →
      (StandardPolicy.generate broker webPod.name ([nameLookup "udp"].map advisorRow)
          (some (advisorPod webPod))).map StandardPolicy.NetworkPolicy.spec =
        .ok (BridgeNetworkPolicy.generateNetworkPolicy asciiRuntime webPod [nameLookup "udp"]
          resolve).spec := by
  have hadvisor : (StandardPolicy.generate unresolvedBroker webPod.name
        [advisorRow (nameLookup "udp")]
        (some (advisorPod webPod))).map (fun p => p.spec.egress.map AllowLists.Rule.ports) =
      .ok [[⟨some "TCP", some (.int 53), none⟩]] := by rfl
  have hbridge : (BridgeNetworkPolicy.generateNetworkPolicy asciiRuntime webPod [nameLookup "udp"]
        fun _ => none).spec.egress.map AllowLists.Rule.ports =
      [[⟨some "UDP", some (.int 53), none⟩]] := by decide
  refine ⟨hadvisor, hbridge, fun h => ?_⟩
  have hports : (Except.ok [[⟨some "TCP", some (.int 53), none⟩]] :
        Except String (List (List NetworkPolicyPort))) =
      .ok [[⟨some "UDP", some (.int 53), none⟩]] :=
    congrArg (Except.map fun spec : NetworkPolicySpec => spec.egress.map AllowLists.Rule.ports)
      (h unresolvedBroker (fun _ => none) sameResolution_unresolved)
  exact absurd (Except.ok.inj hports) (by decide)

/-! The Cilium policies. -/

/-- A plain decimal among the port numbers. -/
def PlainPort (s : String) : Prop := ∃ n, parseDigits s.toList = some n ∧ 1 ≤ n ∧ n ≤ 65535

/-- A row as the controller reports traffic: its direction, a protocol, a plain
decimal for the port that matters and an IPv4 address for the peer. -/
structure WellFormed (t : TrafficRow) : Prop where
  direction : t.trafficType = some "INGRESS" ∨ t.trafficType = some "EGRESS"
  protocol : t.ipProtocol = some "TCP" ∨ t.ipProtocol = some "UDP"
  ingressPort : t.trafficType = some "INGRESS" → PlainPort (t.podPort.getD "")
  egressPort : t.trafficType = some "EGRESS" → PlainPort (t.trafficInOutPort.getD "")
  peer : ∃ ip a, t.trafficInOutIp = some ip ∧ parseAddr ip.toList = some (.v4 a)

/-- Each peer is seen on one port in each direction. -/
def OnePortPerPeer (pod : PodInfo) (traffic : List TrafficRow) : Prop :=
  ∀ d, ∀ e ∈ traffic.filterMap (advisorEntry pod d), ∀ e' ∈ traffic.filterMap (advisorEntry pod d),
    e.1 = e'.1 → e.2 = e'.2

theorem parsePort_digits {s : String} {n : ℕ} (hdigits : parseDigits s.toList = some n)
    (hpos : 1 ≤ n) (hlt : n ≤ 65535) : StandardPolicy.parsePort s = some (n : ℤ) := by
  have hsigned : parseSigned 64 s = some (n : ℤ) := by
    have hchars := (all_isDigit_of_parseDigits hdigits).2
    have hrange : n < 2 ^ (64 - 1) := by omega
    rw [parseSigned]
    split
    · rename_i heq
      rw [heq] at hchars
      exact absurd (hchars '-' List.mem_cons_self) (by decide)
    · rename_i heq
      rw [heq] at hchars
      exact absurd (hchars '+' List.mem_cons_self) (by decide)
    · rw [hdigits, Option.bind_some, if_pos hrange]
  simp only [StandardPolicy.parsePort, hsigned]
  rw [if_neg (by omega)]

theorem PlainPort.read {s : String} (h : PlainPort s) :
    ∃ n : ℕ, StandardPolicy.parsePort s = some (n : ℤ) ∧
      BridgeNetworkPolicy.parsePort s = some n := by
  obtain ⟨n, hdigits, hpos, hlt⟩ := h
  have hnumber := stringToNumber_digits hdigits
  have hinteger : (⟨false, n, 0⟩ : Numeral).toInteger = some n := toInteger_digits hpos (by omega)
  refine ⟨n, parsePort_digits hdigits hpos hlt, ?_⟩
  simp only [BridgeNetworkPolicy.parsePort, hnumber, Option.bind_some, hinteger]
  rw [if_neg (by omega)]

section Cilium

variable {js} (hjs : js.Documented)
include hjs

theorem toUpperCase_known (s : String) (h : s ∈ ["INGRESS", "EGRESS", "TCP", "UDP"]) :
    js.toUpperCase s = s := by
  simp only [List.mem_cons, List.not_mem_nil, or_false] at h
  rcases h with rfl | rfl | rfl | rfl
  all_goals
    rw [hjs.upperAscii _ (by simp)]
    rfl

theorem WellFormed.rowDirection {t : TrafficRow} (h : WellFormed t) :
    (t.trafficType = some "INGRESS" ∧
      StandardPolicy.rowDirection (advisorRow t) = some .ingress ∧
      BridgeNetworkPolicy.rowDirection js t = some .ingress) ∨
    (t.trafficType = some "EGRESS" ∧
      StandardPolicy.rowDirection (advisorRow t) = some .egress ∧
      BridgeNetworkPolicy.rowDirection js t = some .egress) := by
  rcases h.direction with htype | htype
  · refine Or.inl ⟨htype, ?_, ?_⟩
    · simp only [StandardPolicy.rowDirection, StandardPolicy.isIngressTraffic, advisorRow, htype]
      rfl
    · simp only [BridgeNetworkPolicy.rowDirection, htype, Option.getD_some,
        toUpperCase_known hjs "INGRESS" (by decide)]
      rfl
  · refine Or.inr ⟨htype, ?_, ?_⟩
    · simp only [StandardPolicy.rowDirection, StandardPolicy.isIngressTraffic,
        StandardPolicy.isEgressTraffic, advisorRow, htype]
      rfl
    · simp only [BridgeNetworkPolicy.rowDirection, htype, Option.getD_some,
        toUpperCase_known hjs "EGRESS" (by decide)]
      rfl

/-- Both generators read the same from a row of the controller. -/
theorem advisorEntry_eq {t : TrafficRow} (h : WellFormed t) (pod : PodInfo) (d : Direction) :
    advisorEntry pod d t = (entry js pod d t).map standardEntry := by
  have hdir : BridgeNetworkPolicy.rowDirection js t =
        StandardPolicy.rowDirection (advisorRow t) ∧
      (StandardPolicy.rowDirection (advisorRow t) = some d →
        PlainPort (BridgeNetworkPolicy.relevantPort t d)) := by
    rcases h.rowDirection hjs with ⟨htype, hadvisor, hbridge⟩ | ⟨htype, hadvisor, hbridge⟩
    · refine ⟨hbridge.trans hadvisor.symm, fun hd => ?_⟩
      obtain rfl := Option.some.inj (hadvisor.symm.trans hd)
      exact h.ingressPort htype
    · refine ⟨hbridge.trans hadvisor.symm, fun hd => ?_⟩
      obtain rfl := Option.some.inj (hadvisor.symm.trans hd)
      exact h.egressPort htype
  have hprotocol : js.toUpperCase (t.ipProtocol.getD "TCP") =
      protocolPtr (t.ipProtocol.getD "") := by
    rcases h.protocol with hp | hp
    · rw [hp, Option.getD_some, toUpperCase_known hjs "TCP" (by decide)]
      rfl
    · rw [hp, Option.getD_some, toUpperCase_known hjs "UDP" (by decide)]
      rfl
  have hrelevant : StandardPolicy.relevantPort (advisorRow t) d =
      BridgeNetworkPolicy.relevantPort t d := by
    cases d <;> rfl
  have hpeer : (advisorRow t).dstIP = t.trafficInOutIp.getD "" := rfl
  simp only [advisorEntry, entry, hdir.1, hprotocol, hrelevant, hpeer]
  by_cases hskip : t.trafficInOutIp.getD "" = "" ∨ t.trafficInOutIp.getD "" = pod.ip
  · rw [if_pos hskip, if_pos hskip, Option.map_none]
  by_cases hd : StandardPolicy.rowDirection (advisorRow t) = some d
  · obtain ⟨n, hadvisor, hbridge⟩ := (hdir.2 hd).read
    rw [if_neg hskip, if_neg hskip, if_pos hd, if_pos hd, hadvisor, hbridge]
    rfl
  · rw [if_neg hskip, if_neg hskip, if_neg hd, if_neg hd, Option.map_none]

theorem sameEntries_of_wellFormed (pod : PodInfo) {traffic : List TrafficRow}
    (h : ∀ t ∈ traffic, WellFormed t) : SameEntries js pod traffic := by
  intro d e
  rw [entries, List.map_filterMap,
    List.filterMap_congr fun t ht => advisorEntry_eq hjs (h t ht) pod d]

theorem sameOrder_of_wellFormed (pod : PodInfo) {traffic : List TrafficRow}
    (h : ∀ t ∈ traffic, WellFormed t) : SameOrder js pod traffic := by
  intro d
  have haddress : ∀ a ∈ ((entries js pod d traffic).map Prod.fst).eraseDups,
      a.toList.all fun c => isDigit c || c = '.' := by
    intro a ha
    rw [List.mem_eraseDups, List.mem_map] at ha
    obtain ⟨e, he, rfl⟩ := ha
    obtain ⟨t, ht, hentry⟩ := List.mem_filterMap.mp he
    obtain ⟨ip, addr, hip, hparse⟩ := (h t ht).peer
    have hpeer : e.1 = ip := by
      simp only [entry, hip, Option.getD_some] at hentry
      split at hentry
      · exact absurd hentry (by simp)
      · split at hentry
        · obtain ⟨n, -, rfl⟩ := Option.map_eq_some_iff.mp hentry
          rfl
        · exact absurd hentry (by simp)
    rw [hpeer, List.all_eq_true]
    intro c hc
    simpa using digits_and_dots _ _ hparse c hc
  rw [List.pairwise_iff_forall_sublist]
  intro a b hab
  have hsub := hab.subset
  exact hjs.addresses a b (haddress a (hsub List.mem_cons_self))
    (haddress b (hsub (List.mem_cons_of_mem _ List.mem_cons_self)))

end Cilium

theorem resolvePeerForCilium_eq {broker : BrokerData} {resolve : PeerResolver}
    (h : SameResolution broker resolve) (ip : String) :
    CiliumPolicy.resolvePeerForCilium broker ip = BridgeNetworkPolicy.ciliumPeer ip resolve := by
  rw [CiliumPolicy.resolvePeerForCilium, BridgeNetworkPolicy.ciliumPeer, h ip]
  rcases BridgeNetworkPolicy.selected (resolve ip) with _ | ⟨selector, ns⟩
  · rfl
  · simp only [advisorPeer, CiliumPolicy.createEndpointSelector_eq]
    rfl

/-- An entry for each port and one entry for all are the same for one port. -/
theorem map_singleton_eq_iff {l : List NetworkPolicyPort} (hne : l ≠ []) (hnodup : l.Nodup) :
    l.map (fun p => (⟨[CiliumPolicy.ciliumPort p]⟩ : CiliumPolicy.CiliumPortRule)) =
        [⟨l.map CiliumPolicy.ciliumPort⟩] ↔ ∀ p ∈ l, ∀ q ∈ l, p = q := by
  rcases l with _ | ⟨p, _ | ⟨q, rest⟩⟩
  · exact absurd rfl hne
  · simp
  · have hpq : p ≠ q := by
      intro heq
      exact (List.nodup_cons.mp hnodup).1 (heq ▸ List.mem_cons_self)
    simp [hpq]

theorem onePortPerPeer_iff (pod : PodInfo) (traffic : List TrafficRow) :
    OnePortPerPeer pod traffic ↔ ∀ d,
      ∀ g ∈ PeerGroups.trafficGroups (traffic.map advisorRow) (advisorPod pod) d,
        ∀ p ∈ g.2, ∀ q ∈ g.2, p = q := by
  have hsorted (d : Direction) :=
    PeerGroups.sorted_trafficGroups (traffic.map advisorRow) (advisorPod pod) d
  constructor
  · intro h d g hg p hp q hq
    refine h d (g.1, p) ?_ (g.1, q) ?_ rfl
    · exact (mem_advisorEntries pod d traffic g.1 p).mpr ⟨g, hg, rfl, hp⟩
    · exact (mem_advisorEntries pod d traffic g.1 q).mpr ⟨g, hg, rfl, hq⟩
  · intro h d e he e' he' hpeer
    obtain ⟨g, hg, hkey, hp⟩ := (mem_advisorEntries pod d traffic e.1 e.2).mp he
    have hq := (mem_advisorEntries pod d traffic e'.1 e'.2).mp he'
    rw [← hpeer, ← hkey, ← (hsorted d).mem_values_iff hg] at hq
    exact h d g hg e.2 hp e'.2 hq

/-- A rule of the assistant, from the ports as a standard policy has them. -/
theorem ciliumRule_eq {broker : BrokerData} {resolve : PeerResolver}
    (h : SameResolution broker resolve) (g : String × List Port) :
    (⟨(BridgeNetworkPolicy.ciliumPeer g.1 resolve).1,
        (BridgeNetworkPolicy.ciliumPeer g.1 resolve).2,
        [⟨g.2.map BridgeNetworkPolicy.ciliumPort⟩]⟩ : CiliumPolicy.CiliumPeerRule) =
      CiliumPolicy.peerRule broker g.1 [⟨(g.2.map standardPort).map CiliumPolicy.ciliumPort⟩] := by
  rw [CiliumPolicy.peerRule, resolvePeerForCilium_eq h, List.map_map]
  rfl

/-- For rows as the controller reports them, the Cilium specs agree exactly when
each peer is seen on one port in each direction. -/
theorem generateCiliumPolicy_agrees_iff {js : Runtime} (hjs : js.Documented) (pod : PodInfo)
    (traffic : List TrafficRow) (hwell : ∀ t ∈ traffic, WellFormed t) (broker : BrokerData)
    (resolve : PeerResolver) (h : SameResolution broker resolve) :
    (CiliumPolicy.generate broker pod.name (traffic.map advisorRow)
          (some (advisorPod pod))).map CiliumPolicy.CiliumNetworkPolicy.spec =
        .ok (BridgeNetworkPolicy.generateCiliumPolicy js pod traffic resolve).spec ↔
      OnePortPerPeer pod traffic := by
  have hgroups := (trafficGroups_eq_iff hjs pod traffic).mpr
    ⟨sameEntries_of_wellFormed hjs pod hwell, sameOrder_of_wellFormed hjs pod hwell⟩
  have hsorted (d : Direction) :=
    PeerGroups.sorted_trafficGroups (traffic.map advisorRow) (advisorPod pod) d
  obtain ⟨policy, hgen, -, hspec⟩ := CiliumPolicy.generate_eq broker pod.name
    (traffic.map advisorRow) (advisorPod pod)
  have hselector : BridgeNetworkPolicy.k8sPrefixed pod.labels =
      CiliumPolicy.createEndpointSelector (advisorPod pod).podLabels :=
    (CiliumPolicy.createEndpointSelector_eq pod.labels).symm
  -- The assistant's rules, from the groups that both sides have.
  have hrules (d : Direction) : (BridgeNetworkPolicy.trafficGroups js traffic pod d).map
        (fun g => CiliumPolicy.peerRule broker g.1
          [⟨(g.2.map standardPort).map CiliumPolicy.ciliumPort⟩]) =
      (PeerGroups.trafficGroups (traffic.map advisorRow) (advisorPod pod) d).map fun g =>
        CiliumPolicy.peerRule broker g.1 [⟨g.2.map CiliumPolicy.ciliumPort⟩] := by
    rw [hgroups d, bridgeGroups, List.map_map]
    rfl
  have hside (d : Direction) :
      (PeerGroups.trafficGroups (traffic.map advisorRow) (advisorPod pod) d).map (fun g =>
          CiliumPolicy.peerRule broker g.1 (g.2.map fun p => ⟨[CiliumPolicy.ciliumPort p]⟩)) =
        (PeerGroups.trafficGroups (traffic.map advisorRow) (advisorPod pod) d).map (fun g =>
          CiliumPolicy.peerRule broker g.1 [⟨g.2.map CiliumPolicy.ciliumPort⟩]) ↔
      ∀ g ∈ PeerGroups.trafficGroups (traffic.map advisorRow) (advisorPod pod) d,
        ∀ p ∈ g.2, ∀ q ∈ g.2, p = q := by
    rw [List.map_inj_left]
    refine forall₂_congr fun g hg => ?_
    rw [← map_singleton_eq_iff ((hsorted d).nonempty g hg) ((hsorted d).valuesNodup g hg)]
    simp [CiliumPolicy.peerRule]
  rw [hgen, Except.map, Except.ok.injEq, hspec,
    (BridgeNetworkPolicy.generateCiliumPolicy_eq js pod traffic resolve).2, hselector]
  simp only [ciliumRule_eq h]
  rw [show (advisorPod pod).name = pod.name from rfl, CiliumPolicy.ciliumSpec_eq_iff, hrules,
    hrules, hside, hside, onePortPerPeer_iff]
  constructor
  · intro hcase d
    cases d with
    | ingress => exact hcase.1
    | egress => exact hcase.2
    | other name => exact fun g hg => absurd hg List.not_mem_nil
  · intro hcase
    exact ⟨hcase .ingress, hcase .egress⟩

theorem wellFormed_requestTo {port : String} (h : PlainPort port) :
    WellFormed (requestTo port) where
  direction := Or.inl rfl
  protocol := Or.inl rfl
  ingressPort _ := h
  egressPort htype := absurd htype (by simp [requestTo])
  peer := ⟨"10.0.0.9", _, rfl, rfl⟩

theorem wellFormed_nameLookup : WellFormed (nameLookup "UDP") where
  direction := Or.inr rfl
  protocol := Or.inr rfl
  ingressPort htype := absurd htype (by decide)
  egressPort _ := ⟨53, by decide, by decide, by decide⟩
  peer := ⟨"10.0.0.10", _, rfl, rfl⟩

theorem plainPort_8080 : PlainPort "8080" := ⟨8080, by decide, by decide, by decide⟩

theorem generateCiliumPolicy_agrees_on_requests :
    (CiliumPolicy.generate unresolvedBroker webPod.name
          ([requestTo "8080", nameLookup "UDP"].map advisorRow)
          (some (advisorPod webPod))).map CiliumPolicy.CiliumNetworkPolicy.spec =
        .ok (BridgeNetworkPolicy.generateCiliumPolicy asciiRuntime webPod
          [requestTo "8080", nameLookup "UDP"] fun _ => none).spec := by
  refine (generateCiliumPolicy_agrees_iff asciiRuntime_documented webPod _ ?_ unresolvedBroker _
    sameResolution_unresolved).mpr ?_
  · intro t ht
    rcases List.mem_pair.mp ht with rfl | rfl
    · exact wellFormed_requestTo plainPort_8080
    · exact wellFormed_nameLookup
  · intro d
    cases d with
    | ingress => decide
    | egress => decide
    | other name => exact fun e he => absurd he List.not_mem_nil

/-- A peer that is seen on two ports gets two entries from the advisor and one
entry with both ports from the assistant. -/
theorem twoPorts_differ :
    (∀ t ∈ [requestTo "8080", requestTo "9090"], WellFormed t) ∧
    (CiliumPolicy.generate unresolvedBroker webPod.name
          ([requestTo "8080", requestTo "9090"].map advisorRow)
          (some (advisorPod webPod))).map (fun p => p.spec.ingress.map (·.toPorts)) =
        .ok [[⟨[⟨"8080", "TCP"⟩]⟩, ⟨[⟨"9090", "TCP"⟩]⟩]] ∧
    (BridgeNetworkPolicy.generateCiliumPolicy asciiRuntime webPod
        [requestTo "8080", requestTo "9090"] fun _ => none).spec.ingress.map (·.toPorts) =
      [[⟨[⟨"8080", "TCP"⟩, ⟨"9090", "TCP"⟩]⟩]] ∧
    (CiliumPolicy.generate unresolvedBroker webPod.name
          ([requestTo "8080", requestTo "9090"].map advisorRow)
          (some (advisorPod webPod))).map CiliumPolicy.CiliumNetworkPolicy.spec ≠
        .ok (BridgeNetworkPolicy.generateCiliumPolicy asciiRuntime webPod
          [requestTo "8080", requestTo "9090"] fun _ => none).spec := by
  refine ⟨?_, by rfl, by rfl, fun h => ?_⟩
  · intro t ht
    rcases List.mem_pair.mp ht with rfl | rfl
    · exact wellFormed_requestTo plainPort_8080
    · exact wellFormed_requestTo ⟨9090, by decide, by decide, by decide⟩
  · have hports : (Except.ok [[⟨[⟨"8080", "TCP"⟩]⟩, ⟨[⟨"9090", "TCP"⟩]⟩]] :
          Except String (List (List CiliumPolicy.CiliumPortRule))) =
        .ok [[⟨[⟨"8080", "TCP"⟩, ⟨"9090", "TCP"⟩]⟩]] :=
      congrArg (Except.map fun spec : CiliumPolicy.CiliumRule =>
        spec.ingress.map CiliumPolicy.CiliumPeerRule.toPorts) h
    exact absurd (Except.ok.inj hports) (by decide)

end KGuardian.GeneratorAgreement
