import KGuardian.BridgeNetworkPolicy
import KGuardian.ClusterAgreement
import KGuardian.ObservedTraffic

/-!
A direction without observed traffic under the generated standard policy. Both
generators list the directions that have rules. A pod without any rules is
denied in both directions, but traffic in one direction leaves the other out of
the policy, and the evaluator reports nothing for it.
-/
namespace KGuardian.UnobservedDirection

open Selectors Matcher PolicySemantics SortedGroups PeerGroups ClusterAgreement StandardPolicy
open ObservedTraffic (shopBroker apiDetail fromWeb)
open BridgeNetworkPolicy (PodInfo TrafficRow PeerResolver generateNetworkPolicy entries)

/-- Some row makes it into the rules of the direction. -/
def Observed (podTraffic : List PodTraffic) (podDetail : PodDetail) (d : Direction) : Prop :=
  ∃ row ∈ podTraffic, ∃ v, Survives podDetail row d v

/-- The reason for a denial in a direction without rules. -/
def defaultDeny : Direction → String
  | .ingress => "policy has no ingress rules — default-deny"
  | .egress => "policy has no egress rules — default-deny"
  | .other _ => "unknown direction"

section Spec

variable {api : Apimachinery} {β : Type*} {groups : Direction → List (String × List β)}
  {rule : String × List β → PolicyRule} {podSelector : LabelSelector}

/-- A direction without rules is listed when there are no rules at all. -/
theorem listed_iff {d : Direction} (hd : d = .ingress ∨ d = .egress) (hnil : groups d = []) :
    (effectivePolicyTypes (standardSpec podSelector groups rule)).filter (fun t => t = d) =
      if groups .ingress = [] ∧ groups .egress = [] then [d] else [] := by
  by_cases hin : groups .ingress = []
  · by_cases hout : groups .egress = []
    · rcases hd with rfl | rfl
      · simp [effectivePolicyTypes, effectiveTypes, standardSpec, hin, hout, dedupPolicyTypes,
          dedupLoop]
      · simp [effectivePolicyTypes, effectiveTypes, standardSpec, hin, hout, dedupPolicyTypes,
          dedupLoop]
    · rcases hd with rfl | rfl
      · simp [effectivePolicyTypes, effectiveTypes, standardSpec, hin, hout, dedupPolicyTypes]
      · exact absurd hnil hout
  · rcases hd with rfl | rfl
    · exact absurd hnil hin
    · simp [effectivePolicyTypes, effectiveTypes, standardSpec, hin, hnil, dedupPolicyTypes]

theorem outcomes_unobserved (policy : AuditNetworkPolicy)
    (hspec : policy.spec = standardSpec podSelector groups rule) (flow : Flow) (lookup : Lookup)
    {d : Direction} (hnil : groups d = []) (subject : Pod)
    (hsubject : subjectPod flow d lookup = some subject) (hns : policy.ns = subject.ns)
    (hselects : selectorMatchesLabels api podSelector subject.labels = true)
    (hother : ∀ name, groups (.other name) = []) :
    ((∀ d', groups d' = []) →
      outcomes d (matchPolicy api flow policy lookup) = [(.wouldDeny, defaultDeny d)]) ∧
    ((∃ d', groups d' ≠ []) → outcomes d (matchPolicy api flow policy lookup) = []) := by
  have hd : d = .ingress ∨ d = .egress := by
    cases d with
    | ingress => exact Or.inl rfl
    | egress => exact Or.inr rfl
    | other name => exact absurd hsubject (by simp [subjectPod])
  have hrules : evaluateRules api flow policy d lookup = (false, defaultDeny d) := by
    rcases hd with rfl | rfl
    · simp [evaluateRules, evaluateRuleLists, hspec, standardSpec, hnil, defaultDeny]
    · simp [evaluateRules, evaluateRuleLists, hspec, standardSpec, hnil, defaultDeny]
  have hselector : policy.spec.podSelector = podSelector := by rw [hspec]; rfl
  have hdenied : (matchDirection api flow policy lookup d).verdict = .wouldDeny ∧
      (matchDirection api flow policy lookup d).reason = defaultDeny d := by
    rw [matchDirection, hsubject]
    simp only [hns, ne_eq, not_true_eq_false, if_false, hselector, hselects, Bool.not_true,
      Bool.false_eq_true, hrules]
    exact ⟨rfl, rfl⟩
  rw [matchPolicy, outcomes_map d _ _ fun t => by simp, hdenied.1, hdenied.2, hspec,
    listed_iff hd hnil]
  constructor
  · intro hsilent
    rw [if_pos ⟨hsilent .ingress, hsilent .egress⟩]
    rfl
  · intro hsome
    obtain ⟨d', hd'⟩ := hsome
    rw [if_neg, List.map_nil]
    intro hsilent
    cases d' with
    | ingress => exact hd' hsilent.1
    | egress => exact hd' hsilent.2
    | other name => exact hd' (hother name)

end Spec

theorem trafficGroups_eq_nil_iff (podTraffic : List PodTraffic) (podDetail : PodDetail)
    (d : Direction) : trafficGroups podTraffic podDetail d = [] ↔
      ¬ Observed podTraffic podDetail d := by
  rw [trafficGroups, peerGroups_eq_nil_iff, side_eq_nil_iff, Observed]
  simp only [not_exists, not_and]

theorem bridgeGroups_eq_nil_iff (js : JsText.Runtime) (traffic : List TrafficRow) (pod : PodInfo)
    (d : Direction) : BridgeNetworkPolicy.trafficGroups js traffic pod d = [] ↔
      entries js pod d traffic = [] := by
  constructor
  · intro hnil
    rw [List.eq_nil_iff_forall_not_mem]
    intro e he
    obtain ⟨g, hg, -⟩ :=
      (BridgeNetworkPolicy.inGroup_trafficGroups js traffic pod d e.1 e.2).mpr he
    rw [hnil] at hg
    exact List.not_mem_nil hg
  · intro hnil
    have hside := BridgeNetworkPolicy.processTrafficRules_groups js traffic pod d
    rw [hnil] at hside
    rw [BridgeNetworkPolicy.trafficGroups, BridgeNetworkPolicy.sortedGroups_eq_nil_iff]
    exact List.map_eq_nil_iff.mp hside

/-- A direction in which no row survives is denied for the pod of the policy when
no row survives in the other direction either. Otherwise the policy does not list
the direction, and the evaluator reports nothing for it. -/
theorem unobserved_direction (api : Apimachinery) (hapi : api.Documented) (lookup : Lookup)
    (flow : Flow) (d : Direction) (subject : Pod)
    (hsubject : subjectPod flow d lookup = some subject)
    (hvalid : api.ValidLabels subject.labels) :
    (∀ broker podName podTraffic podDetail policy,
      generate broker podName podTraffic (some podDetail) = .ok policy →
      podDetail.ns = subject.ns → podDetail.podLabels = subject.labels →
      ¬ Observed podTraffic podDetail d →
      ((∀ d', ¬ Observed podTraffic podDetail d') →
        outcomes d (matchPolicy api flow policy.audited lookup) =
          [(.wouldDeny, defaultDeny d)]) ∧
      ((∃ d', Observed podTraffic podDetail d') →
        outcomes d (matchPolicy api flow policy.audited lookup) = [])) ∧
    ∀ (js : JsText.Runtime) (pod : PodInfo) (traffic : List TrafficRow) (resolve : PeerResolver),
      pod.ns = subject.ns → pod.labels = subject.labels → entries js pod d traffic = [] →
      ((∀ d', entries js pod d' traffic = []) →
        outcomes d (matchPolicy api flow
          (generateNetworkPolicy js pod traffic resolve).audited lookup) =
            [(.wouldDeny, defaultDeny d)]) ∧
      ((∃ d', entries js pod d' traffic ≠ []) →
        outcomes d (matchPolicy api flow
          (generateNetworkPolicy js pod traffic resolve).audited lookup) = []) := by
  have hself : selectorMatchesLabels api (ofMatchLabels subject.labels) subject.labels = true :=
    (selectorMatchesLabels_iff hapi _ _).mpr (Apimachinery.admits_self _ hvalid)
  constructor
  · intro broker podName podTraffic podDetail policy hgen hns hlabels hnone
    obtain ⟨generated, hsame, hpolicyNs, hspec⟩ :=
      generate_eq broker podName podTraffic podDetail
    obtain rfl := Except.ok.inj (hgen.symm.trans hsame)
    have hnil := (trafficGroups_eq_nil_iff podTraffic podDetail d).mpr hnone
    have houtcomes := outcomes_unobserved policy.audited hspec flow lookup hnil subject hsubject
      (hpolicyNs.trans hns) (by rw [hlabels]; exact hself) fun _ => rfl
    simpa only [ne_eq, trafficGroups_eq_nil_iff, not_not] using houtcomes
  · intro js pod traffic resolve hns hlabels hnone
    obtain ⟨hpolicyNs, hspec⟩ :=
      BridgeNetworkPolicy.generateNetworkPolicy_eq js pod traffic resolve
    have hnil := (bridgeGroups_eq_nil_iff js traffic pod d).mpr hnone
    have houtcomes := outcomes_unobserved
      (generateNetworkPolicy js pod traffic resolve).audited hspec flow lookup hnil subject
      hsubject (hpolicyNs.trans hns) (by rw [hlabels]; exact hself) fun _ => rfl
    simpa only [ne_eq, bridgeGroups_eq_nil_iff] using houtcomes

/-- The api of the shop calls an outside address. -/
def apiToOutside : Flow :=
  ⟨"shop", "api-0", "", "", "10.0.0.8", "203.0.113.9", 443, "TCP"⟩

theorem not_observed_egress : ¬ Observed [fromWeb] apiDetail .egress := by
  intro h
  obtain ⟨row, hrow, v, hsurvives⟩ := h
  rw [List.mem_singleton.mp hrow] at hsurvives
  exact absurd hsurvives.direction (by decide)

/-- Without any rows the call is denied, and with one from the frontend the
assistant's policy does not list it. -/
theorem apiToOutside_outcomes :
    (∃ policy, generate shopBroker "api-0" [] (some apiDetail) = .ok policy ∧
      outcomes .egress (matchPolicy reference apiToOutside policy.audited shop) =
        [(.wouldDeny, "policy has no egress rules — default-deny")]) ∧
    outcomes .egress (matchPolicy reference apiToOutside
      (generateNetworkPolicy JsText.asciiRuntime ⟨"api-0", "shop", "10.0.0.8", apiPod.labels⟩
        [⟨some "INGRESS", some "8080", some "10.0.0.7", some "0", some "TCP"⟩]
        fun _ => none).audited shop) = [] := by
  have hvalid : reference.ValidLabels apiPod.labels := by
    change ∀ e ∈ apiPod.labels.entries, labelKey e.1 = true ∧ labelValue e.2 = true
    decide
  obtain ⟨hadvisor, hbridge⟩ := unobserved_direction reference reference_documented shop
    apiToOutside .egress apiPod rfl hvalid
  refine ⟨⟨_, rfl, ?_⟩, ?_⟩
  · have hnone (d : Direction) : ¬ Observed [] apiDetail d := by
      intro h
      obtain ⟨row, hrow, -⟩ := h
      exact List.not_mem_nil hrow
    exact (hadvisor shopBroker "api-0" [] apiDetail _ rfl rfl rfl (hnone _)).1 hnone
  · exact (hbridge JsText.asciiRuntime _ _ _ rfl rfl (by decide)).2 ⟨.ingress, by decide⟩

/-- The row from the frontend opens what no row at all would deny. -/
theorem apiToOutside_notApplicable :
    ¬ Observed [fromWeb] apiDetail .egress ∧
    subjectPod apiToOutside .egress shop = some apiPod ∧
    (∃ policy, generate shopBroker "api-0" [fromWeb] (some apiDetail) = .ok policy ∧
      verdictIn .egress (matchPolicy reference apiToOutside policy.audited shop) =
        .notApplicable) ∧
    ∃ policy, generate shopBroker "api-0" [] (some apiDetail) = .ok policy ∧
      verdictIn .egress (matchPolicy reference apiToOutside policy.audited shop) = .wouldDeny :=
  ⟨not_observed_egress, rfl, ⟨_, rfl, by decide⟩, ⟨_, rfl, by decide⟩⟩

end KGuardian.UnobservedDirection
