import KGuardian.ObservedTraffic
import KGuardian.PolicyTargets

/-!
Generation under Go's maps. A loop over a map visits its entries in an order that
changes from run to run, and the rows come in whatever order the broker has them.
The generators are written here with every such order as an argument, and the
policy is shown to depend on the set of rows alone.
-/
namespace KGuardian.GeneratorStability

open Selectors Matcher Grouping StandardPolicy PeerGroups CiliumPolicy
open PolicyTargets (SameLabels lookup_prefixed prefixed_of_lookup)

/-- The label maps that a run of the Cilium generator goes through. -/
inductive LabelSite where
  | pod
  | peer (d : Direction) (peerIP : String)

/-- The orders in which one run goes through its maps. -/
structure MapOrder where
  peers : Direction → (AList fun _ : String => List NetworkPolicyPort) → List String
  peers_perm : ∀ d m, (peers d m).Perm m.keys
  labels : LabelSite → Labels → List (Sigma fun _ : String => String)
  labels_perm : ∀ site l, (labels site l).Perm l.entries

variable (order : MapOrder) (broker : BrokerData)

namespace Standard

def transformRules (d : Direction) (rules : List NetworkPolicyRule) : List PolicyRule :=
  let peerRules := collect NetworkPolicyRule.peerIP NetworkPolicyRule.ports rules
  ((order.peers d peerRules).insertionSort (· ≤ ·)).map fun peerIP =>
    ⟨[createNetworkPolicyPeer broker peerIP],
      deduplicatePorts ((peerRules.lookup peerIP).getD [])⟩

def generate (podName : String) (podTraffic : List PodTraffic) (podDetail : Option PodDetail) :
    Except String NetworkPolicy :=
  match podDetail with
  | none => .error ("pod detail is nil for pod " ++ podName)
  | some podDetail =>
      if podTraffic = [] then .ok (StandardPolicy.generateDefaultDenyPolicy podDetail)
      else
        let (ingressRules, egressRules) := processTrafficRules podTraffic podDetail
        let policyTypes : List PolicyType :=
          (if ingressRules = [] then [] else [.ingress]) ++
            if egressRules = [] then [] else [.egress]
        if policyTypes = [] then .ok (StandardPolicy.generateDefaultDenyPolicy podDetail)
        else .ok
          { name := getPolicyName podDetail.name "standard-policy"
            ns := podDetail.ns
            labels := createStandardLabels podDetail.name "standard-policy"
            spec :=
              { podSelector := ofMatchLabels podDetail.podLabels
                policyTypes
                ingress := if ingressRules = [] then []
                  else transformRules order broker .ingress ingressRules
                egress := if egressRules = [] then []
                  else transformRules order broker .egress egressRules } }

end Standard

namespace Cilium

/-- The loop writes each label under its prefixed key. -/
def newCiliumEndpointSelector (site : LabelSite) (labels : Labels) : CiliumEndpointSelector :=
  if labels.keys = [] then ⟨∅⟩
  else ⟨Labels.ofList ((order.labels site labels).map fun e => ("k8s:" ++ e.1, e.2))⟩

def resolvePeerForCilium (d : Direction) (peerIP : String) :
    List CiliumEndpointSelector × List String :=
  match resolvePeer broker peerIP with
  | .pods _ labels => ([newCiliumEndpointSelector order (.peer d peerIP) labels], [])
  | .address ip => ([], [ip ++ "/32"])

def createCiliumRuleForPeer (d : Direction) (peerIP : String) (ports : List NetworkPolicyPort) :
    Option CiliumPeerRule :=
  let (endpoints, cidr) := resolvePeerForCilium order broker d peerIP
  if endpoints ≠ [] then some ⟨endpoints, [], convertPortsToCiliumPortRules ports⟩
  else if cidr ≠ [] then some ⟨[], cidr, convertPortsToCiliumPortRules ports⟩
  else none

def transformToCiliumRules (d : Direction) (rules : List NetworkPolicyRule) :
    List CiliumPeerRule :=
  let peerRules := collect NetworkPolicyRule.peerIP NetworkPolicyRule.ports rules
  ((order.peers d peerRules).insertionSort (· ≤ ·)).filterMap fun peerIP =>
    createCiliumRuleForPeer order broker d peerIP ((peerRules.lookup peerIP).getD [])

def generateDefaultDenyPolicy (podDetail : PodDetail) : CiliumNetworkPolicy where
  name := getPolicyName podDetail.name "cilium-policy-deny-all"
  ns := podDetail.ns
  labels := createStandardLabels podDetail.name "cilium-policy-deny-all"
  spec := ⟨newCiliumEndpointSelector order .pod podDetail.podLabels,
    "Default-deny Cilium network policy for pod " ++ podDetail.name, [], [],
    some ⟨some true, some true⟩⟩

def generate (podName : String) (podTraffic : List PodTraffic) (podDetail : Option PodDetail) :
    Except String CiliumNetworkPolicy :=
  match podDetail with
  | none => .error ("pod detail is nil for pod " ++ podName)
  | some podDetail =>
      if podTraffic = [] then .ok (generateDefaultDenyPolicy order podDetail)
      else
        let (ingressRules, egressRules) := processTrafficRules podTraffic podDetail
        let ingress := if ingressRules = [] then []
          else transformToCiliumRules order broker .ingress ingressRules
        let egress := if egressRules = [] then []
          else transformToCiliumRules order broker .egress egressRules
        if ingress = [] ∧ egress = [] then .ok (generateDefaultDenyPolicy order podDetail)
        else .ok
          { name := getPolicyName podDetail.name "cilium-policy"
            ns := podDetail.ns
            labels := createStandardLabels podDetail.name "cilium-policy"
            spec :=
              { endpointSelector := newCiliumEndpointSelector order .pod podDetail.podLabels
                description := "Cilium network policy for pod " ++ podDetail.name ++
                  " generated by kguardian"
                ingress
                egress
                enableDefaultDeny := none } }

end Cilium

/-! What is written out. -/

/-- The encoder of the policies writes a map in the order of its keys. -/
def sortedLabels (labels : Labels) : Labels where
  entries := labels.entries.insertionSort fun e e' => e.1 ≤ e'.1
  nodupKeys := (List.perm_nodupKeys (List.perm_insertionSort _ _)).mpr labels.nodupKeys

def emittedSelector (s : CiliumEndpointSelector) : CiliumEndpointSelector :=
  ⟨sortedLabels s.matchLabels⟩

def emittedRule (r : CiliumPeerRule) : CiliumPeerRule :=
  { r with endpoints := r.endpoints.map emittedSelector }

def emitted (p : CiliumNetworkPolicy) : CiliumNetworkPolicy :=
  { p with
    spec :=
      { p.spec with
        endpointSelector := emittedSelector p.spec.endpointSelector
        ingress := p.spec.ingress.map emittedRule
        egress := p.spec.egress.map emittedRule } }

/-- Maps with the same entries are written out alike. -/
theorem sortedLabels_eq {l l' : Labels} (h : SameLabels l l') :
    sortedLabels l = sortedLabels l' := by
  have hperm : l.entries.Perm l'.entries := by
    refine List.lookup_ext l.nodupKeys l'.nodupKeys fun k v => ?_
    rw [← AList.lookup, h k]
    rfl
  refine AList.ext ?_
  have hsorted : (sortedLabels l).entries.Perm (sortedLabels l').entries :=
    ((List.perm_insertionSort _ _).trans hperm).trans (List.perm_insertionSort _ _).symm
  refine hsorted.eq_of_pairwise ?_ (List.pairwise_insertionSort _ _)
    (List.pairwise_insertionSort _ _)
  intro e e' he he' hle hge
  have hmem := (hsorted.mem_iff (a := e')).mpr he'
  exact (sortedLabels l).nodupKeys.eq_of_fst_eq he hmem (le_antisymm hle hge)

/-! The standard generator. -/

theorem sortedKeys_eq (d : Direction) (m : AList fun _ : String => List NetworkPolicyPort) :
    (order.peers d m).insertionSort (· ≤ ·) = sortedKeys m := by
  have hperm : ((order.peers d m).insertionSort (· ≤ ·)).Perm (sortedKeys m) :=
    ((List.perm_insertionSort _ _).trans (order.peers_perm d m)).trans
      (List.perm_insertionSort _ _).symm
  refine hperm.eq_of_pairwise (fun a b _ _ => le_antisymm) ?_ ?_
  · exact List.pairwise_insertionSort _ _
  · exact List.pairwise_insertionSort _ _

theorem Standard.transformRules_eq (d : Direction) (rules : List NetworkPolicyRule) :
    Standard.transformRules order broker d rules = StandardPolicy.transformRules broker rules := by
  rw [Standard.transformRules, sortedKeys_eq, StandardPolicy.transformRules]

/-- No order of the maps shows in a standard policy. -/
theorem Standard.generate_eq (podName : String) (podTraffic : List PodTraffic)
    (podDetail : Option PodDetail) :
    Standard.generate order broker podName podTraffic podDetail =
      StandardPolicy.generate broker podName podTraffic podDetail := by
  cases podDetail with
  | none => rfl
  | some podDetail =>
      simp only [Standard.generate, StandardPolicy.generate, Standard.transformRules_eq,
        transformToNetworkPolicyIngressRules, transformToNetworkPolicyEgressRules]

/-! The Cilium generator. -/

/-- Whatever the order of the loop, each label is found under its prefixed key. -/
theorem Cilium.emitted_selector (site : LabelSite) (labels : Labels) :
    emittedSelector (Cilium.newCiliumEndpointSelector order site labels) =
      emittedSelector (createEndpointSelector labels) := by
  rw [createEndpointSelector, Cilium.newCiliumEndpointSelector,
    CiliumPolicy.newCiliumEndpointSelector]
  split
  · rfl
  have hperm := order.labels_perm site labels
  have hnodup := (List.perm_nodupKeys hperm).mpr labels.nodupKeys
  have hlookup (k : String) :
      (Labels.ofList ((order.labels site labels).map fun e => ("k8s:" ++ e.1, e.2))).lookup
          ("k8s:" ++ k) =
        (Labels.ofList (labels.entries.map fun e => ("k8s:" ++ e.1, e.2))).lookup
          ("k8s:" ++ k) := by
    rw [lookup_prefixed, lookup_prefixed]
    exact List.perm_dlookup k hnodup hperm
  refine congrArg CiliumEndpointSelector.mk (sortedLabels_eq fun k => ?_)
  refine Option.ext fun v => ⟨fun hv => ?_, fun hv => ?_⟩
  · obtain ⟨k', rfl⟩ := prefixed_of_lookup _ hv
    rwa [hlookup] at hv
  · obtain ⟨k', rfl⟩ := prefixed_of_lookup _ hv
    rwa [hlookup]

theorem Cilium.emitted_rule (d : Direction) (peerIP : String) (ports : List NetworkPolicyPort) :
    (Cilium.createCiliumRuleForPeer order broker d peerIP ports).map emittedRule =
      (CiliumPolicy.createCiliumRuleForPeer broker peerIP ports).map emittedRule := by
  unfold Cilium.createCiliumRuleForPeer CiliumPolicy.createCiliumRuleForPeer
    Cilium.resolvePeerForCilium CiliumPolicy.resolvePeerForCilium
  cases resolvePeer broker peerIP with
  | pods ns labels => simp [emittedRule, Cilium.emitted_selector]
  | address ip => rfl

theorem Cilium.emitted_rules (d : Direction) (rules : List NetworkPolicyRule) :
    (Cilium.transformToCiliumRules order broker d rules).map emittedRule =
      (CiliumPolicy.transformToCiliumRules broker rules).map emittedRule := by
  rw [Cilium.transformToCiliumRules, sortedKeys_eq, CiliumPolicy.transformToCiliumRules,
    List.map_filterMap, List.map_filterMap]
  exact List.filterMap_congr fun peerIP _ => Cilium.emitted_rule order broker d peerIP _

theorem Cilium.transformRules_or_nil (d : Direction) (rules : List NetworkPolicyRule) :
    (if rules = [] then [] else Cilium.transformToCiliumRules order broker d rules) =
      Cilium.transformToCiliumRules order broker d rules := by
  refine ite_nil_eq (Cilium.transformToCiliumRules order broker d) ?_ rules
  rw [Cilium.transformToCiliumRules, sortedKeys_eq]
  rfl

/-- In a Cilium policy the orders only show in how the label maps are laid out,
which is lost when it is written out. -/
theorem Cilium.emitted_generate (podName : String) (podTraffic : List PodTraffic)
    (podDetail : Option PodDetail) :
    (Cilium.generate order broker podName podTraffic podDetail).map emitted =
      (CiliumPolicy.generate broker podName podTraffic podDetail).map emitted := by
  cases podDetail with
  | none => rfl
  | some podDetail =>
      have hselector := Cilium.emitted_selector order .pod podDetail.podLabels
      have hdeny : emitted (Cilium.generateDefaultDenyPolicy order podDetail) =
          emitted (CiliumPolicy.generateDefaultDenyPolicy podDetail) := by
        simp only [emitted, Cilium.generateDefaultDenyPolicy,
          CiliumPolicy.generateDefaultDenyPolicy, hselector]
      by_cases htraffic : podTraffic = []
      · simp only [Cilium.generate, CiliumPolicy.generate, if_pos htraffic, Except.map, hdeny]
      rcases hrules : processTrafficRules podTraffic podDetail with ⟨ingressRules, egressRules⟩
      have hin := Cilium.emitted_rules order broker .ingress ingressRules
      have hout := Cilium.emitted_rules order broker .egress egressRules
      have hnil :
          (Cilium.transformToCiliumRules order broker .ingress ingressRules = [] ∧
              Cilium.transformToCiliumRules order broker .egress egressRules = []) ↔
            CiliumPolicy.transformToCiliumRules broker ingressRules = [] ∧
              CiliumPolicy.transformToCiliumRules broker egressRules = [] := by
        rw [← List.map_eq_nil_iff (f := emittedRule), hin, List.map_eq_nil_iff,
          ← List.map_eq_nil_iff (f := emittedRule)
            (l := Cilium.transformToCiliumRules order broker .egress egressRules), hout,
          List.map_eq_nil_iff]
      simp only [Cilium.generate, CiliumPolicy.generate, if_neg htraffic, hrules,
        transformToCiliumIngressRules, transformToCiliumEgressRules,
        transformToCiliumRules_or_nil, Cilium.transformRules_or_nil, hnil]
      split
      · simp only [Except.map, hdeny]
      · simp only [Except.map, emitted, hselector, hin, hout]

/-- Permuting and repeating rows changes nothing in either policy, whatever the
orders in which the two runs go through their maps. -/
theorem generate_eq_of_same_rows (order order' : MapOrder) (broker : BrokerData)
    (podName : String) (podTraffic podTraffic' : List PodTraffic) (podDetail : Option PodDetail)
    (hrows : ∀ row, row ∈ podTraffic ↔ row ∈ podTraffic') :
    Standard.generate order broker podName podTraffic podDetail =
        Standard.generate order' broker podName podTraffic' podDetail ∧
      (Cilium.generate order broker podName podTraffic podDetail).map emitted =
        (Cilium.generate order' broker podName podTraffic' podDetail).map emitted := by
  rw [Standard.generate_eq, Standard.generate_eq, Cilium.emitted_generate,
    Cilium.emitted_generate]
  cases podDetail with
  | none => exact ⟨rfl, rfl⟩
  | some podDetail =>
      rw [PeerGroups.generate_eq_policyOf, PeerGroups.generate_eq_policyOf,
        CiliumPolicy.generate_eq_policyOf, CiliumPolicy.generate_eq_policyOf,
        trafficGroups_congr hrows]
      exact ⟨rfl, rfl⟩

/-- The order of the entries. -/
def MapOrder.entries : MapOrder where
  peers _ m := m.keys
  peers_perm _ m := List.Perm.refl m.keys
  labels _ l := l.entries
  labels_perm _ l := List.Perm.refl l.entries

def MapOrder.reversed : MapOrder where
  peers _ m := m.keys.reverse
  peers_perm _ m := List.reverse_perm m.keys
  labels _ l := l.entries.reverse
  labels_perm _ l := List.reverse_perm l.entries

open ObservedTraffic (shopBroker apiDetail fromWeb toOutside)

theorem generate_apiDetail_rows :
    Standard.generate .entries shopBroker "api-0" [fromWeb, toOutside] (some apiDetail) =
        Standard.generate .reversed shopBroker "api-0" [toOutside, fromWeb, toOutside]
          (some apiDetail) ∧
      (Cilium.generate .entries shopBroker "api-0" [fromWeb, toOutside] (some apiDetail)).map
          emitted =
        (Cilium.generate .reversed shopBroker "api-0" [toOutside, fromWeb, toOutside]
          (some apiDetail)).map emitted := by
  refine generate_eq_of_same_rows .entries .reversed shopBroker "api-0" _ _ _ fun row => ?_
  simp only [List.mem_cons, List.not_mem_nil, or_false]
  tauto

end KGuardian.GeneratorStability
