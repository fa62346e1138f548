import KGuardian.PolicySemantics

/-!
The two evaluators on one spec. A cluster policy gives, for a subject whose
namespace it selects, what a namespaced policy in that namespace gives.
-/
namespace KGuardian.ClusterAgreement

open Selectors Matcher PolicySemantics

variable (api : Apimachinery)

/-- The namespaceSelector is absent, or the namespace is known and its labels
match. -/
def NamespaceSatisfies (spec : ClusterNetworkPolicySpec) (lookup : Lookup) (ns : String) : Prop :=
  ∀ sel ∈ spec.namespaceSelector,
    ∃ nsLabels ∈ lookup.getNamespaceLabels ns, selectorMatchesLabels api sel nsLabels = true

/-- What is reported for one direction: a verdict and its reason. -/
def outcomes (d : Direction) (results : List Result) : List (Verdict × String) :=
  (results.filter fun r => r.direction = d).map fun r => (r.verdict, r.reason)

variable {api}

theorem namespaceGateCluster_eq_true_iff (spec : ClusterNetworkPolicySpec) (subject : Pod)
    (lookup : Lookup) :
    namespaceGateCluster api spec subject lookup = true ↔
      NamespaceSatisfies api spec lookup subject.ns := by
  cases hsel : spec.namespaceSelector with
  | none => simp [namespaceGateCluster, NamespaceSatisfies, hsel]
  | some sel =>
      cases hlabels : lookup.getNamespaceLabels subject.ns with
      | none => simp [namespaceGateCluster, NamespaceSatisfies, hsel, hlabels]
      | some nsLabels => simp [namespaceGateCluster, NamespaceSatisfies, hsel, hlabels]

/-- The reports for a direction come from the evaluations of that direction. -/
theorem outcomes_map (d : Direction) (types : List PolicyType) (evaluate : Direction → Result)
    (hdirection : ∀ t, (evaluate t).direction = t) :
    outcomes d (types.map evaluate) =
      (types.filter fun t => t = d).map fun _ => ((evaluate d).verdict, (evaluate d).reason) := by
  rw [outcomes, List.filter_map, List.map_map]
  have hfilter : ((fun r : Result => decide (r.direction = d)) ∘ evaluate) =
      fun t => decide (t = d) := by
    funext t
    simp only [Function.comp_apply, hdirection]
  rw [hfilter]
  apply List.map_congr_left
  intro t ht
  obtain rfl : t = d := of_decide_eq_true (List.mem_filter.mp ht).2
  rfl

/-- Both evaluators infer the directions from the same two fields. -/
theorem effectivePolicyTypes_placed {policy : AuditClusterNetworkPolicy}
    {placed : AuditNetworkPolicy} (hspec : placed.spec = policy.spec.toNetworkPolicySpec) :
    effectivePolicyTypes placed.spec = effectivePolicyTypesCluster policy.spec := by
  rw [hspec]
  rfl

/-- Both evaluators walk the same rules, and peers without a namespaceSelector
are compared with the flow in both. -/
theorem evaluateRules_placed {policy : AuditClusterNetworkPolicy} {placed : AuditNetworkPolicy}
    (hspec : placed.spec = policy.spec.toNetworkPolicySpec) (flow : Flow) (d : Direction)
    (lookup : Lookup) :
    evaluateRules api flow placed d lookup = evaluateRulesCluster api flow policy d lookup := by
  rw [evaluateRules, evaluateRulesCluster, hspec]

section

variable {flow : Flow} {policy : AuditClusterNetworkPolicy} {lookup : Lookup} {d : Direction}
  {subject : Pod} (hsubject : subjectPod flow d lookup = some subject)
include hsubject

/-- In a selected namespace the gates differ in name only. -/
theorem matchClusterDirection_satisfied {placed : AuditNetworkPolicy}
    (hspec : placed.spec = policy.spec.toNetworkPolicySpec) (hns : placed.ns = subject.ns)
    (hgate : NamespaceSatisfies api policy.spec lookup subject.ns) :
    (matchClusterDirection api flow policy lookup d).verdict =
        (matchDirection api flow placed lookup d).verdict ∧
      (matchClusterDirection api flow policy lookup d).reason =
        (matchDirection api flow placed lookup d).reason := by
  have hopen := (namespaceGateCluster_eq_true_iff policy.spec subject lookup).mpr hgate
  have hhome : ¬ subject.ns ≠ placed.ns := not_not.mpr hns.symm
  have hrules : evaluateRules api flow placed d lookup =
      evaluateRulesCluster api flow policy d lookup := evaluateRules_placed hspec flow d lookup
  have hselector : placed.spec.podSelector = policy.spec.podSelector := by rw [hspec]
  rw [matchClusterDirection, matchDirection, hsubject]
  simp only [hopen, Bool.not_true, Bool.false_eq_true, if_false, if_neg hhome, hselector, hrules]
  cases hmatch : selectorMatchesLabels api policy.spec.podSelector subject.labels with
  | false => exact ⟨rfl, rfl⟩
  | true =>
      rcases evaluateRulesCluster api flow policy d lookup with ⟨_ | _, reason⟩
      · exact ⟨rfl, rfl⟩
      · exact ⟨rfl, rfl⟩

theorem matchClusterDirection_unsatisfied
    (hgate : ¬ NamespaceSatisfies api policy.spec lookup subject.ns) :
    (matchClusterDirection api flow policy lookup d).verdict = .notApplicable ∧
      (matchClusterDirection api flow policy lookup d).reason = "" := by
  have hclosed : namespaceGateCluster api policy.spec subject lookup = false := by
    rw [Bool.eq_false_iff]
    exact fun hopen => hgate ((namespaceGateCluster_eq_true_iff _ _ _).mp hopen)
  rw [matchClusterDirection, hsubject]
  simp only [hclosed, Bool.not_false, if_true]
  exact ⟨rfl, rfl⟩

end

/-- Cluster and namespaced evaluation agree. Both report the same directions. In
each one whose subject is known, the reports are equal if its namespace
satisfies the selector, and otherwise the cluster policy is not applicable. -/
theorem matchCluster_agrees (api : Apimachinery) (flow : Flow)
    (policy : AuditClusterNetworkPolicy) (placed : AuditNetworkPolicy)
    (hspec : placed.spec = policy.spec.toNetworkPolicySpec) (lookup : Lookup) (d : Direction)
    (subject : Pod) (hsubject : subjectPod flow d lookup = some subject)
    (hns : placed.ns = subject.ns) :
    (matchCluster api flow policy lookup).map Result.direction =
        (matchPolicy api flow placed lookup).map Result.direction ∧
    (NamespaceSatisfies api policy.spec lookup subject.ns →
      outcomes d (matchCluster api flow policy lookup) =
        outcomes d (matchPolicy api flow placed lookup)) ∧
    (¬ NamespaceSatisfies api policy.spec lookup subject.ns →
      ∀ r ∈ matchCluster api flow policy lookup, r.direction = d →
        r.verdict = .notApplicable ∧ r.reason = "") := by
  have htypes := effectivePolicyTypes_placed hspec
  refine ⟨?_, fun hgate => ?_, fun hgate r hr hdirection => ?_⟩
  · rw [directions_matchPolicy, htypes, matchCluster, List.map_map]
    simp [Function.comp_def]
  · obtain ⟨hverdict, hreason⟩ := matchClusterDirection_satisfied hsubject hspec hns hgate
    rw [matchCluster, matchPolicy, htypes, outcomes_map d _ _ fun t => by simp,
      outcomes_map d _ _ fun t => by simp, hverdict, hreason]
  · obtain ⟨t, -, rfl⟩ := List.mem_map.mp hr
    rw [direction_matchClusterDirection] at hdirection
    subst hdirection
    exact matchClusterDirection_unsatisfied hsubject hgate

/-- The policy of the shop's api, written for every namespace of that name. -/
def apiClusterPolicy : AuditClusterNetworkPolicy :=
  ⟨"api", "91c2", 1, { apiPolicy.spec with
    namespaceSelector :=
      some (ofMatchLabels (Labels.ofList [("kubernetes.io/metadata.name", "shop")])) }⟩

theorem apiClusterPolicy_agrees :
    NamespaceSatisfies reference apiClusterPolicy.spec shop "shop" ∧
    outcomes .ingress (matchCluster reference webToApi apiClusterPolicy shop) =
      outcomes .ingress (matchPolicy reference webToApi apiPolicy shop) := by
  have hgate : NamespaceSatisfies reference apiClusterPolicy.spec shop "shop" := by
    intro sel hsel
    cases hsel
    exact ⟨_, rfl, by decide⟩
  exact ⟨hgate, (matchCluster_agrees reference webToApi apiClusterPolicy apiPolicy rfl shop
    .ingress apiPod rfl rfl).2.1 hgate⟩

end KGuardian.ClusterAgreement
