import KGuardian.PeerGroups

/-!
The advisor's generator of Cilium policies (`pkg/network`). It works through the
same peers and ports as the standard one, and gives each port of a peer an entry
of its own under `toPorts`.
-/
namespace KGuardian.CiliumPolicy

open Selectors Matcher Grouping SortedGroups StandardPolicy PeerGroups

/-- An empty field is omitted from the policy, here and below. -/
structure CiliumEndpointSelector where
  matchLabels : Labels
  deriving DecidableEq

structure CiliumPortProtocol where
  port : String
  protocol : String
  deriving DecidableEq

structure CiliumPortRule where
  ports : List CiliumPortProtocol
  deriving DecidableEq

/-- An ingress rule (`FromEndpoints`, `FromCIDR`) or an egress rule
(`ToEndpoints`, `ToCIDR`). -/
structure CiliumPeerRule where
  endpoints : List CiliumEndpointSelector
  cidr : List String
  toPorts : List CiliumPortRule
  deriving DecidableEq

structure CiliumDefaultDeny where
  ingress : Option Bool
  egress : Option Bool
  deriving DecidableEq

structure CiliumRule where
  endpointSelector : CiliumEndpointSelector
  description : String
  ingress : List CiliumPeerRule
  egress : List CiliumPeerRule
  enableDefaultDeny : Option CiliumDefaultDeny
  deriving DecidableEq

structure CiliumNetworkPolicy where
  name : String
  ns : String
  labels : Labels
  spec : CiliumRule

/-- Labels under the prefix of their source. -/
def newCiliumEndpointSelector (labels : Labels) : CiliumEndpointSelector :=
  if labels.keys = [] then ⟨∅⟩
  else ⟨Labels.ofList (labels.entries.map fun e => ("k8s:" ++ e.1, e.2))⟩

def createEndpointSelector (podLabels : Labels) : CiliumEndpointSelector :=
  newCiliumEndpointSelector podLabels

/-- The lookups are those of the standard generator. -/
def resolvePeerForCilium (broker : BrokerData) (peerIP : String) :
    List CiliumEndpointSelector × List String :=
  match resolvePeer broker peerIP with
  | .pods _ labels => ([createEndpointSelector labels], [])
  | .address ip => ([], [ip ++ "/32"])

def convertPortsToCiliumPortRules (ports : List NetworkPolicyPort) : List CiliumPortRule :=
  (deduplicatePorts ports).filterMap fun p =>
    match p.port, p.protocol with
    | some port, some protocol => some ⟨[⟨portString port, protocol⟩]⟩
    | _, _ => none

/-- The rule of a peer, in either direction. -/
def createCiliumRuleForPeer (broker : BrokerData) (peerIP : String)
    (ports : List NetworkPolicyPort) : Option CiliumPeerRule :=
  let (endpoints, cidr) := resolvePeerForCilium broker peerIP
  if endpoints ≠ [] then some ⟨endpoints, [], convertPortsToCiliumPortRules ports⟩
  else if cidr ≠ [] then some ⟨[], cidr, convertPortsToCiliumPortRules ports⟩
  else none

/-- The two transforms of the source, which differ in the names of the peer
fields. -/
def transformToCiliumRules (broker : BrokerData) (rules : List NetworkPolicyRule) :
    List CiliumPeerRule :=
  let peerRules := collect NetworkPolicyRule.peerIP NetworkPolicyRule.ports rules
  (sortedKeys peerRules).filterMap fun peerIP =>
    createCiliumRuleForPeer broker peerIP ((peerRules.lookup peerIP).getD [])

def transformToCiliumIngressRules := transformToCiliumRules

def transformToCiliumEgressRules := transformToCiliumRules

def generateDefaultDenyPolicy (podDetail : PodDetail) : CiliumNetworkPolicy where
  name := getPolicyName podDetail.name "cilium-policy-deny-all"
  ns := podDetail.ns
  labels := createStandardLabels podDetail.name "cilium-policy-deny-all"
  spec := ⟨createEndpointSelector podDetail.podLabels,
    "Default-deny Cilium network policy for pod " ++ podDetail.name, [], [],
    some ⟨some true, some true⟩⟩

/-- The method `Generate`. Rows are processed as for a standard policy. -/
def generate (broker : BrokerData) (podName : String) (podTraffic : List PodTraffic)
    (podDetail : Option PodDetail) : Except String CiliumNetworkPolicy :=
  match podDetail with
  | none => .error ("pod detail is nil for pod " ++ podName)
  | some podDetail =>
      if podTraffic = [] then .ok (generateDefaultDenyPolicy podDetail)
      else
        let (ingressRules, egressRules) := processTrafficRules podTraffic podDetail
        let ingress := if ingressRules = [] then []
          else transformToCiliumIngressRules broker ingressRules
        let egress := if egressRules = [] then []
          else transformToCiliumEgressRules broker egressRules
        if ingress = [] ∧ egress = [] then .ok (generateDefaultDenyPolicy podDetail)
        else .ok
          { name := getPolicyName podDetail.name "cilium-policy"
            ns := podDetail.ns
            labels := createStandardLabels podDetail.name "cilium-policy"
            spec :=
              { endpointSelector := createEndpointSelector podDetail.podLabels
                description := "Cilium network policy for pod " ++ podDetail.name ++
                  " generated by kguardian"
                ingress
                egress
                enableDefaultDeny := none } }

/-! The rules by peer. -/

def ciliumPort (p : NetworkPolicyPort) : CiliumPortProtocol :=
  ⟨(p.port.map portString).getD "", p.protocol.getD ""⟩

/-- What stands for a peer in a rule with the given ports. -/
def peerRule (broker : BrokerData) (peerIP : String) (toPorts : List CiliumPortRule) :
    CiliumPeerRule :=
  ⟨(resolvePeerForCilium broker peerIP).1, (resolvePeerForCilium broker peerIP).2, toPorts⟩

theorem convertPorts_eq_map (ports : List NetworkPolicyPort) :
    convertPortsToCiliumPortRules ports =
      (deduplicatePorts ports).map fun p => ⟨[ciliumPort p]⟩ := by
  rw [convertPortsToCiliumPortRules, ← List.filterMap_eq_map]
  refine List.filterMap_congr fun p hp => ?_
  rw [deduplicatePorts, List.mem_insertionSort] at hp
  have hkept := List.of_mem_filter (DedupTable.mem_newRows hp).1
  rcases p with ⟨_ | protocol, _ | port, endPort⟩
  all_goals simp_all [ciliumPort]

theorem createCiliumRuleForPeer_eq (broker : BrokerData) (peerIP : String)
    (ports : List NetworkPolicyPort) :
    createCiliumRuleForPeer broker peerIP ports =
      some (peerRule broker peerIP (convertPortsToCiliumPortRules ports)) := by
  rw [createCiliumRuleForPeer, peerRule, resolvePeerForCilium]
  cases resolvePeer broker peerIP <;> simp

theorem transformToCiliumRules_eq_map (broker : BrokerData) (rules : List NetworkPolicyRule) :
    transformToCiliumRules broker rules =
      (peerGroups rules).map fun g => peerRule broker g.1 (g.2.map fun p => ⟨[ciliumPort p]⟩) := by
  rw [transformToCiliumRules, peerGroups, List.map_map, ← List.filterMap_eq_map]
  refine List.filterMap_congr fun peerIP _ => ?_
  rw [createCiliumRuleForPeer_eq, convertPorts_eq_map]
  rfl

/-- The rules of a direction. -/
def rulesFor (spec : CiliumRule) : Direction → List CiliumPeerRule
  | .ingress => spec.ingress
  | .egress => spec.egress
  | .other _ => []

theorem transformToCiliumRules_eq_nil_iff (broker : BrokerData) (rules : List NetworkPolicyRule) :
    transformToCiliumRules broker rules = [] ↔ peerGroups rules = [] := by
  rw [transformToCiliumRules_eq_map, List.map_eq_nil_iff]

theorem createEndpointSelector_eq (labels : Labels) :
    createEndpointSelector labels =
      ⟨Labels.ofList (labels.entries.map fun e => ("k8s:" ++ e.1, e.2))⟩ := by
  rw [createEndpointSelector, newCiliumEndpointSelector]
  split
  · rename_i hnil
    rw [AList.keys, List.keys, List.map_eq_nil_iff] at hnil
    rw [hnil]
    rfl
  · rfl

theorem transformToCiliumRules_or_nil (broker : BrokerData) (rules : List NetworkPolicyRule) :
    (if rules = [] then [] else transformToCiliumRules broker rules) =
      transformToCiliumRules broker rules :=
  ite_nil_eq (transformToCiliumRules broker) rfl rules

section Spec

variable {β : Type*}

/-- The rules of both directions, or the default deny spelled out when there are
none. -/
def ciliumSpec (endpointSelector : CiliumEndpointSelector) (podName : String)
    (groups : Direction → List (String × List β)) (rule : String × List β → CiliumPeerRule) :
    CiliumRule :=
  if groups .ingress = [] ∧ groups .egress = [] then
    ⟨endpointSelector, "Default-deny Cilium network policy for pod " ++ podName, [], [],
      some ⟨some true, some true⟩⟩
  else
    ⟨endpointSelector, "Cilium network policy for pod " ++ podName ++ " generated by kguardian",
      (groups .ingress).map rule, (groups .egress).map rule, none⟩

theorem rules_ciliumSpec (endpointSelector : CiliumEndpointSelector) (podName : String)
    (groups : Direction → List (String × List β)) (rule : String × List β → CiliumPeerRule) :
    (ciliumSpec endpointSelector podName groups rule).ingress = (groups .ingress).map rule ∧
      (ciliumSpec endpointSelector podName groups rule).egress = (groups .egress).map rule := by
  rw [ciliumSpec]
  split
  · rename_i hnil
    rw [hnil.1, hnil.2]
    exact ⟨rfl, rfl⟩
  · exact ⟨rfl, rfl⟩

theorem endpointSelector_ciliumSpec (endpointSelector : CiliumEndpointSelector) (podName : String)
    (groups : Direction → List (String × List β)) (rule : String × List β → CiliumPeerRule) :
    (ciliumSpec endpointSelector podName groups rule).endpointSelector = endpointSelector := by
  rw [ciliumSpec]
  split <;> rfl

theorem rulesFor_ciliumSpec (endpointSelector : CiliumEndpointSelector) (podName : String)
    (groups : Direction → List (String × List β)) (rule : String × List β → CiliumPeerRule)
    (d : Direction) (hother : ∀ name, groups (.other name) = []) :
    rulesFor (ciliumSpec endpointSelector podName groups rule) d = (groups d).map rule := by
  obtain ⟨hin, hout⟩ := rules_ciliumSpec endpointSelector podName groups rule
  cases d with
  | ingress => exact hin
  | egress => exact hout
  | other name => rw [hother name]; rfl

theorem ciliumSpec_eq_iff {γ : Type*} (endpointSelector : CiliumEndpointSelector)
    (podName : String) (groups : Direction → List (String × List β))
    (groups' : Direction → List (String × List γ)) (rule : String × List β → CiliumPeerRule)
    (rule' : String × List γ → CiliumPeerRule) :
    ciliumSpec endpointSelector podName groups rule =
        ciliumSpec endpointSelector podName groups' rule' ↔
      (groups .ingress).map rule = (groups' .ingress).map rule' ∧
        (groups .egress).map rule = (groups' .egress).map rule' := by
  have hnil {d : Direction} (h : (groups d).map rule = (groups' d).map rule') :
      groups d = [] ↔ groups' d = [] := by
    rw [← List.map_eq_nil_iff (f := rule), h, List.map_eq_nil_iff]
  constructor
  · intro h
    obtain ⟨hin, hout⟩ := rules_ciliumSpec endpointSelector podName groups rule
    obtain ⟨hin', hout'⟩ := rules_ciliumSpec endpointSelector podName groups' rule'
    rw [← hin, ← hout, h]
    exact ⟨hin', hout'⟩
  · intro h
    simp only [ciliumSpec, h.1, h.2, hnil h.1, hnil h.2]

end Spec

/-- The policy with the rules of the groups, under the name that says whether
there are any. -/
def policyOf (broker : BrokerData) (podDetail : PodDetail)
    (groups : Direction → List (String × List NetworkPolicyPort)) : CiliumNetworkPolicy :=
  let resourceType := if groups .ingress = [] ∧ groups .egress = [] then "cilium-policy-deny-all"
    else "cilium-policy"
  { name := getPolicyName podDetail.name resourceType
    ns := podDetail.ns
    labels := createStandardLabels podDetail.name resourceType
    spec := ciliumSpec (createEndpointSelector podDetail.podLabels) podDetail.name groups
      fun g => peerRule broker g.1 (g.2.map fun p => ⟨[ciliumPort p]⟩) }

theorem generate_eq_policyOf (broker : BrokerData) (podName : String)
    (podTraffic : List PodTraffic) (podDetail : PodDetail) :
    generate broker podName podTraffic (some podDetail) =
      .ok (policyOf broker podDetail (trafficGroups podTraffic podDetail)) := by
  by_cases htraffic : podTraffic = []
  · subst htraffic
    rw [generate, if_pos rfl]
    rfl
  rcases hrules : processTrafficRules podTraffic podDetail with ⟨ingressRules, egressRules⟩
  obtain ⟨hin, hout⟩ := trafficGroups_eq hrules
  by_cases hnil : peerGroups ingressRules = [] ∧ peerGroups egressRules = []
  · have hdeny : generate broker podName podTraffic (some podDetail) =
        .ok (generateDefaultDenyPolicy podDetail) := by
      simp [generate, htraffic, hrules, transformToCiliumIngressRules,
        transformToCiliumEgressRules, transformToCiliumRules_or_nil,
        transformToCiliumRules_eq_nil_iff, hnil]
    rw [hdeny]
    simp only [policyOf, ciliumSpec, hin, hout, if_pos hnil]
    rfl
  · have hsome : ¬ (transformToCiliumRules broker ingressRules = [] ∧
        transformToCiliumRules broker egressRules = []) := by
      rwa [transformToCiliumRules_eq_nil_iff, transformToCiliumRules_eq_nil_iff]
    simp only [generate, htraffic, hrules, if_false, transformToCiliumIngressRules,
      transformToCiliumEgressRules, transformToCiliumRules_or_nil, if_neg hsome]
    simp only [policyOf, ciliumSpec, hin, hout, if_neg hnil, transformToCiliumRules_eq_map]

/-- The policy of a pod, from the groups of its rows. -/
theorem generate_eq (broker : BrokerData) (podName : String) (podTraffic : List PodTraffic)
    (podDetail : PodDetail) :
    ∃ policy, generate broker podName podTraffic (some podDetail) = .ok policy ∧
      policy.ns = podDetail.ns ∧
      policy.spec = ciliumSpec (createEndpointSelector podDetail.podLabels) podDetail.name
        (trafficGroups podTraffic podDetail)
        fun g => peerRule broker g.1 (g.2.map fun p => ⟨[ciliumPort p]⟩) :=
  ⟨_, generate_eq_policyOf broker podName podTraffic podDetail, rfl, rfl⟩

end KGuardian.CiliumPolicy
