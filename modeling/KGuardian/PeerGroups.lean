import KGuardian.SortedGroups
import KGuardian.StandardPolicy

/-!
The rules of the advisor's generators as sorted groups: the peers in order, and
with each peer its ports in order. Such groups are determined by the rows that
survive, whatever order these come in.
-/
namespace KGuardian.PeerGroups

open Selectors Matcher Grouping DedupTable SortedGroups StandardPolicy

/-- What both transforms work through: each peer with its ports. -/
def peerGroups (rules : List NetworkPolicyRule) : List (String × List NetworkPolicyPort) :=
  let peerRules := collect NetworkPolicyRule.peerIP NetworkPolicyRule.ports rules
  (sortedKeys peerRules).map fun peerIP =>
    (peerIP, deduplicatePorts ((peerRules.lookup peerIP).getD []))

theorem transformRules_eq_map (broker : BrokerData) (rules : List NetworkPolicyRule) :
    transformRules broker rules =
      (peerGroups rules).map fun g => ⟨[createNetworkPolicyPeer broker g.1], g.2⟩ := by
  rw [transformRules, peerGroups, List.map_map]
  rfl

/-- The order of the ports of a rule. -/
def portLe (p q : NetworkPolicyPort) : Prop := portLess q p = false

instance : DecidableRel portLe := fun p q => inferInstanceAs (Decidable (portLess q p = false))

theorem portLe_plain (v w : ℤ) (protocol protocol' : String) :
    portLe (plainPort v protocol) (plainPort w protocol') ↔
      v < w ∨ v = w ∧ protocolPtr protocol ≤ protocolPtr protocol' := by
  simp only [portLe, portLess, plainPort]
  by_cases hvw : w = v
  · subst hvw
    simp only [Option.getD_some, ne_eq, not_true_eq_false, if_false, lt_self_iff_false, false_or,
      true_and]
    exact decide_eq_false_iff_not.trans not_lt
  · simp [hvw, Ne.symm hvw, le_iff_lt_or_eq]

section Plain

variable {ports : List NetworkPolicyPort}
  (hplain : ∀ p ∈ ports, ∃ v protocol, p = plainPort v protocol)
include hplain

theorem portLe_antisymm {p q : NetworkPolicyPort} (hp : p ∈ ports) (hq : q ∈ ports)
    (hpq : portLe p q) (hqp : portLe q p) : p = q := by
  obtain ⟨v, protocol, rfl⟩ := hplain p hp
  obtain ⟨w, protocol', rfl⟩ := hplain q hq
  rw [portLe_plain] at hpq hqp
  have hvw : v = w := by omega
  have hprotocol : protocolPtr protocol = protocolPtr protocol' := by
    rcases hpq with hlt | ⟨-, hle⟩
    · omega
    · rcases hqp with hlt | ⟨-, hge⟩
      · omega
      · exact le_antisymm hle hge
  rw [plainPort, plainPort, hvw, hprotocol]

theorem sorted_plain : (ports.insertionSort portLe).Pairwise portLe := by
  refine pairwise_insertionSort_of_mem portLe ?_ ?_
  · intro p hp q hq
    obtain ⟨v, protocol, rfl⟩ := hplain p hp
    obtain ⟨w, protocol', rfl⟩ := hplain q hq
    rw [portLe_plain, portLe_plain]
    rcases lt_trichotomy v w with hlt | heq | hgt
    · exact Or.inl (Or.inl hlt)
    · rcases le_total (protocolPtr protocol) (protocolPtr protocol') with hle | hge
      · exact Or.inl (Or.inr ⟨heq, hle⟩)
      · exact Or.inr (Or.inr ⟨heq.symm, hge⟩)
    · exact Or.inr (Or.inl hgt)
  · intro p hp q hq l hl
    obtain ⟨v, protocol, rfl⟩ := hplain p hp
    obtain ⟨w, protocol', rfl⟩ := hplain q hq
    obtain ⟨x, protocol'', rfl⟩ := hplain l hl
    rw [portLe_plain, portLe_plain, portLe_plain]
    intro hpq hql
    rcases hpq with hlt | ⟨rfl, hle⟩
    · rcases hql with hlt' | ⟨rfl, -⟩
      · exact Or.inl (hlt.trans hlt')
      · exact Or.inl hlt
    · rcases hql with hlt' | ⟨rfl, hle'⟩
      · exact Or.inl hlt'
      · exact Or.inr ⟨rfl, hle.trans hle'⟩

theorem sorted_deduplicatePorts :
    (deduplicatePorts ports).Pairwise portLe ∧ (deduplicatePorts ports).Nodup := by
  constructor
  · refine sorted_plain fun p hp => hplain p ?_
    exact List.mem_of_mem_filter (mem_newRows hp).1
  · exact ((List.perm_insertionSort _ _).nodup_iff).mpr (nodup_newRows _ _ _).of_map

end Plain

theorem plain_lookup {rules : List NetworkPolicyRule} (hplain : Plain rules) (a : String) :
    ∀ p ∈ ((collect NetworkPolicyRule.peerIP NetworkPolicyRule.ports rules).lookup a).getD [],
      ∃ v protocol, p = plainPort v protocol := by
  intro p hp
  obtain ⟨r, hr, -, hp⟩ := (mem_lookup_collect _ _ _ _ _).mp hp
  exact (hplain r hr).2 p hp

theorem keys_peerGroups (rules : List NetworkPolicyRule) :
    (peerGroups rules).map Prod.fst =
      sortedKeys (collect NetworkPolicyRule.peerIP NetworkPolicyRule.ports rules) := by
  rw [peerGroups, List.map_map]
  exact List.map_id _

theorem inGroup_peerGroups {rules : List NetworkPolicyRule} (hplain : Plain rules) (a : String)
    (p : NetworkPolicyPort) : InGroup (peerGroups rules) a p ↔ Entry rules a p := by
  constructor
  · intro h
    obtain ⟨g, hg, rfl, hp⟩ := h
    obtain ⟨k, hk, rfl⟩ := List.mem_map.mp hg
    rw [mem_deduplicatePorts _ (plain_lookup hplain k), mem_lookup_collect] at hp
    exact hp
  · intro h
    obtain ⟨r, hr, rfl, hp⟩ := h
    refine ⟨_, List.mem_map.mpr ⟨r.peerIP, ?_, rfl⟩, rfl, ?_⟩
    · rw [sortedKeys, List.mem_insertionSort, mem_keys_collect]
      exact ⟨r, hr, rfl⟩
    · rw [mem_deduplicatePorts _ (plain_lookup hplain _), mem_lookup_collect]
      exact ⟨r, hr, rfl, hp⟩

theorem sorted_peerGroups {rules : List NetworkPolicyRule} (hplain : Plain rules) :
    Sorted (· ≤ ·) portLe (peerGroups rules) where
  keys := by
    rw [keys_peerGroups]
    exact List.pairwise_insertionSort _ _
  keysNodup := by
    rw [keys_peerGroups]
    exact ((List.perm_insertionSort _ _).nodup_iff).mpr (AList.keys_nodup _)
  values g hg := by
    obtain ⟨k, -, rfl⟩ := List.mem_map.mp hg
    exact (sorted_deduplicatePorts (plain_lookup hplain k)).1
  valuesNodup g hg := by
    obtain ⟨k, -, rfl⟩ := List.mem_map.mp hg
    exact (sorted_deduplicatePorts (plain_lookup hplain k)).2
  nonempty g hg := by
    obtain ⟨k, hk, rfl⟩ := List.mem_map.mp hg
    rw [sortedKeys, List.mem_insertionSort, mem_keys_collect] at hk
    obtain ⟨r, hr, rfl⟩ := hk
    obtain ⟨p, hp⟩ := List.exists_mem_of_ne_nil _ (hplain r hr).1
    refine List.ne_nil_of_mem (a := p) ?_
    rw [mem_deduplicatePorts _ (plain_lookup hplain _), mem_lookup_collect]
    exact ⟨r, hr, rfl, hp⟩

theorem plain_peerGroups {rules : List NetworkPolicyRule} (hplain : Plain rules) :
    ∀ g ∈ peerGroups rules, ∀ p ∈ g.2, ∃ v protocol, p = plainPort v protocol := by
  intro g hg p hp
  obtain ⟨r, hr, -, hp⟩ := (inGroup_peerGroups hplain g.1 p).mp ⟨g, hg, rfl, hp⟩
  exact (hplain r hr).2 p hp

/-- A list of rules that is only made when there is something to make it from. -/
theorem ite_nil_eq {α β : Type*} (f : List α → List β) (hf : f [] = []) (l : List α)
    [Decidable (l = [])] : (if l = [] then [] else f l) = f l := by
  split
  · rename_i hnil
    rw [hnil, hf]
  · rfl

/-! The groups of a direction. -/

/-- The groups of the rows, by direction. -/
def trafficGroups (podTraffic : List PodTraffic) (podDetail : PodDetail) (d : Direction) :
    List (String × List NetworkPolicyPort) :=
  peerGroups (side (processTrafficRules podTraffic podDetail) d)

theorem trafficGroups_eq {podTraffic : List PodTraffic} {podDetail : PodDetail}
    {ingressRules egressRules : List NetworkPolicyRule}
    (h : processTrafficRules podTraffic podDetail = (ingressRules, egressRules)) :
    trafficGroups podTraffic podDetail .ingress = peerGroups ingressRules ∧
      trafficGroups podTraffic podDetail .egress = peerGroups egressRules := by
  rw [trafficGroups, trafficGroups, h]
  exact ⟨rfl, rfl⟩

theorem inGroup_trafficGroups (podTraffic : List PodTraffic) (podDetail : PodDetail)
    (d : Direction) (a : String) (p : NetworkPolicyPort) :
    InGroup (trafficGroups podTraffic podDetail d) a p ↔
      ∃ row ∈ podTraffic, ∃ v, Survives podDetail row d v ∧ a = row.dstIP ∧
        p = plainPort v row.protocol := by
  obtain ⟨hplain, hentries⟩ := processTrafficRules_entries podTraffic podDetail d
  rw [trafficGroups, inGroup_peerGroups hplain, hentries]

theorem sorted_trafficGroups (podTraffic : List PodTraffic) (podDetail : PodDetail)
    (d : Direction) : Sorted (· ≤ ·) portLe (trafficGroups podTraffic podDetail d) :=
  sorted_peerGroups (processTrafficRules_entries podTraffic podDetail d).1

theorem plain_trafficGroups (podTraffic : List PodTraffic) (podDetail : PodDetail)
    (d : Direction) : ∀ g ∈ trafficGroups podTraffic podDetail d, ∀ p ∈ g.2,
      ∃ v protocol, p = plainPort v protocol :=
  plain_peerGroups (processTrafficRules_entries podTraffic podDetail d).1

theorem peerGroups_eq_nil_iff (rules : List NetworkPolicyRule) :
    peerGroups rules = [] ↔ rules = [] := by
  constructor
  · intro h
    have hkeys :
        sortedKeys (collect NetworkPolicyRule.peerIP NetworkPolicyRule.ports rules) = [] := by
      rw [← keys_peerGroups, h]
      rfl
    rw [List.eq_nil_iff_forall_not_mem]
    intro r hr
    have hmem : r.peerIP ∈
        sortedKeys (collect NetworkPolicyRule.peerIP NetworkPolicyRule.ports rules) := by
      rw [sortedKeys, List.mem_insertionSort, mem_keys_collect]
      exact ⟨r, hr, rfl⟩
    rw [hkeys] at hmem
    exact List.not_mem_nil hmem
  · intro h
    rw [h]
    rfl

/-! The spec of a policy, from its groups. -/

section Spec

variable {β : Type*}

/-- The rules of each direction, under the directions that have any, or under
both when there are none. -/
def standardSpec (podSelector : LabelSelector) (groups : Direction → List (String × List β))
    (rule : String × List β → PolicyRule) : NetworkPolicySpec where
  podSelector
  policyTypes :=
    if groups .ingress = [] ∧ groups .egress = [] then [.ingress, .egress]
    else (if groups .ingress = [] then [] else [.ingress]) ++
      if groups .egress = [] then [] else [.egress]
  ingress := (groups .ingress).map rule
  egress := (groups .egress).map rule

theorem standardSpec_eq_iff {γ : Type*} (podSelector : LabelSelector)
    (groups : Direction → List (String × List β)) (groups' : Direction → List (String × List γ))
    (rule : String × List β → PolicyRule) (rule' : String × List γ → PolicyRule) :
    standardSpec podSelector groups rule = standardSpec podSelector groups' rule' ↔
      (groups .ingress).map rule = (groups' .ingress).map rule' ∧
        (groups .egress).map rule = (groups' .egress).map rule' := by
  have hnil {d : Direction} (h : (groups d).map rule = (groups' d).map rule') :
      groups d = [] ↔ groups' d = [] := by
    rw [← List.map_eq_nil_iff (f := rule), h, List.map_eq_nil_iff]
  constructor
  · intro h
    rw [standardSpec, standardSpec, NetworkPolicySpec.mk.injEq] at h
    exact h.2.2
  · intro h
    simp only [standardSpec, h.1, h.2, hnil h.1, hnil h.2]

theorem rulesFor_standardSpec (podSelector : LabelSelector)
    (groups : Direction → List (String × List β)) (rule : String × List β → PolicyRule)
    (d : Direction) (hother : ∀ name, groups (.other name) = []) :
    PolicySemantics.rulesFor (standardSpec podSelector groups rule) d = (groups d).map rule := by
  cases d with
  | ingress => rfl
  | egress => rfl
  | other name => rw [hother name]; rfl

end Spec

/-- The policy with the rules of the groups, under the name that says whether
there are any. -/
def policyOf (broker : BrokerData) (podDetail : PodDetail)
    (groups : Direction → List (String × List NetworkPolicyPort)) : NetworkPolicy :=
  let resourceType := if groups .ingress = [] ∧ groups .egress = [] then "standard-policy-deny-all"
    else "standard-policy"
  { name := getPolicyName podDetail.name resourceType
    ns := podDetail.ns
    labels := createStandardLabels podDetail.name resourceType
    spec := standardSpec (ofMatchLabels podDetail.podLabels) groups
      fun g => ⟨[createNetworkPolicyPeer broker g.1], g.2⟩ }

theorem generate_eq_policyOf (broker : BrokerData) (podName : String)
    (podTraffic : List PodTraffic) (podDetail : PodDetail) :
    generate broker podName podTraffic (some podDetail) =
      .ok (policyOf broker podDetail (trafficGroups podTraffic podDetail)) := by
  by_cases htraffic : podTraffic = []
  · subst htraffic
    rw [generate, if_pos rfl]
    rfl
  rcases hrules : processTrafficRules podTraffic podDetail with ⟨ingressRules, egressRules⟩
  obtain ⟨hin, hout⟩ := trafficGroups_eq hrules
  have htransform (rules : List NetworkPolicyRule) :
      (if rules = [] then [] else transformRules broker rules) =
        (peerGroups rules).map fun g => ⟨[createNetworkPolicyPeer broker g.1], g.2⟩ := by
    rw [← transformRules_eq_map]
    exact ite_nil_eq (transformRules broker) rfl rules
  by_cases hnil : ingressRules = [] ∧ egressRules = []
  · have hgroups : peerGroups ingressRules = [] ∧ peerGroups egressRules = [] := by
      rwa [peerGroups_eq_nil_iff, peerGroups_eq_nil_iff]
    simp only [policyOf, hin, hout, if_pos hgroups, standardSpec]
    obtain ⟨rfl, rfl⟩ := hnil
    simp [generate, htraffic, hrules]
    rfl
  · have htypes : (if ingressRules = [] then [] else [PolicyType.ingress]) ++
        (if egressRules = [] then [] else [PolicyType.egress]) ≠ [] := by
      intro h
      rw [List.append_eq_nil_iff] at h
      refine hnil ⟨?_, ?_⟩
      · by_contra hne
        exact absurd h.1 (by rw [if_neg hne]; exact List.cons_ne_nil _ _)
      · by_contra hne
        exact absurd h.2 (by rw [if_neg hne]; exact List.cons_ne_nil _ _)
    simp only [generate, htraffic, hrules, if_false, if_neg htypes, policyOf, standardSpec, hin,
      hout, peerGroups_eq_nil_iff, if_neg hnil, transformToNetworkPolicyIngressRules,
      transformToNetworkPolicyEgressRules, htransform]

/-- The policy of a pod, from the groups of its rows. -/
theorem generate_eq (broker : BrokerData) (podName : String) (podTraffic : List PodTraffic)
    (podDetail : PodDetail) :
    ∃ policy, generate broker podName podTraffic (some podDetail) = .ok policy ∧
      policy.ns = podDetail.ns ∧
      policy.spec = standardSpec (ofMatchLabels podDetail.podLabels)
        (trafficGroups podTraffic podDetail)
        fun g => ⟨[createNetworkPolicyPeer broker g.1], g.2⟩ :=
  ⟨_, generate_eq_policyOf broker podName podTraffic podDetail, rfl, rfl⟩

/-- The groups of a direction are those of the set of rows that survive in it. -/
theorem trafficGroups_congr_of {podTraffic podTraffic' : List PodTraffic} {podDetail : PodDetail}
    {d : Direction}
    (hrows : ∀ row v, Survives podDetail row d v → (row ∈ podTraffic ↔ row ∈ podTraffic')) :
    trafficGroups podTraffic podDetail d = trafficGroups podTraffic' podDetail d := by
  refine (sorted_trafficGroups podTraffic podDetail d).ext
    (sorted_trafficGroups podTraffic' podDetail d) ?_ ?_ ?_
  · intro k _ k' _ hkk' hk'k
    exact le_antisymm hkk' hk'k
  · intro g hg p hp q hq hpq hqp
    exact portLe_antisymm (plain_trafficGroups podTraffic podDetail d g hg) hp hq hpq hqp
  · intro a p
    rw [inGroup_trafficGroups, inGroup_trafficGroups]
    constructor
    · intro h
      obtain ⟨row, hrow, v, hsurvives, hentry⟩ := h
      exact ⟨row, (hrows row v hsurvives).mp hrow, v, hsurvives, hentry⟩
    · intro h
      obtain ⟨row, hrow, v, hsurvives, hentry⟩ := h
      exact ⟨row, (hrows row v hsurvives).mpr hrow, v, hsurvives, hentry⟩

theorem trafficGroups_congr {podTraffic podTraffic' : List PodTraffic}
    (hrows : ∀ row, row ∈ podTraffic ↔ row ∈ podTraffic') (podDetail : PodDetail) :
    trafficGroups podTraffic podDetail = trafficGroups podTraffic' podDetail := by
  funext d
  exact trafficGroups_congr_of fun row _ _ => hrows row

end KGuardian.PeerGroups
