import KGuardian.PolicySemantics
import KGuardian.PolicyStore

/-!
The evaluator's request handler (`pkg/server`): which policies a flow is matched
against, and what is recorded. The index by namespace is shown to lose nothing
against a scan of the whole store.
-/
namespace KGuardian.Server

open Selectors Matcher PolicySemantics PolicyStore

/-- The arguments of one call of `Aggregator.Record`. -/
structure Record where
  policyNamespace : String
  policyName : String
  srcPod : String
  dstPod : String
  protocol : String
  direction : Direction
  dstPort : ℤ
  wouldDeny : Bool
  generation : ℤ
  deriving DecidableEq

structure Evaluation where
  results : List Result
  recorded : List Record
  denied : ℕ
  deriving DecidableEq

/-- The policies of the destination namespace, then those of the source
namespace where it is another one. -/
def candidates (s : Store) (flow : Flow) : List AuditNetworkPolicy :=
  s.policiesInNamespace flow.dstPodNamespace ++
    if flow.srcPodNamespace ≠ "" ∧ flow.srcPodNamespace ≠ flow.dstPodNamespace then
      s.policiesInNamespace flow.srcPodNamespace
    else []

def recordOf (flow : Flow) (r : Result) : Record :=
  ⟨r.policyNamespace, r.policyName,
    flow.srcPodNamespace ++ "/" ++ flow.srcPodName,
    flow.dstPodNamespace ++ "/" ++ flow.dstPodName,
    flow.protocol, r.direction, flow.dstPort, r.verdict = .wouldDeny, r.policyGeneration⟩

/-- The loop over the results. Verdicts that do not apply are not counted. -/
def recordResults (flow : Flow) : List Result → List Record × ℕ
  | [] => ([], 0)
  | r :: rest =>
      let (recorded, denied) := recordResults flow rest
      if r.verdict = .notApplicable then (recorded, denied)
      else (recordOf flow r :: recorded, if r.verdict = .wouldDeny then denied + 1 else denied)

section

variable (api : Apimachinery) (lookup : Lookup) (flow : Flow)

/-- The two matching loops, over given policies. -/
def evaluateAll (policies : List AuditNetworkPolicy)
    (clusterPolicies : List AuditClusterNetworkPolicy) : List Result :=
  policies.flatMap (fun p => matchPolicy api flow p lookup) ++
    clusterPolicies.flatMap fun p => matchCluster api flow p lookup

/-- The function `handleEvaluate`, after the request body is decoded. -/
def handleEvaluate (s : Store) : Evaluation :=
  let results := evaluateAll api lookup flow (candidates s flow) s.clusterPolicies
  let (recorded, denied) := recordResults flow results
  ⟨results, recorded, denied⟩

/-- Every policy of the store against the flow. -/
def fullScan (s : Store) : List Result :=
  evaluateAll api lookup flow s.policies s.clusterPolicies

end

def isCounted (r : Result) : Bool := r.verdict ≠ .notApplicable

def resultKey (r : Result) : String × String × Direction :=
  (r.policyNamespace, r.policyName, r.direction)

theorem recordResults_eq (flow : Flow) (results : List Result) :
    (recordResults flow results).1 = (results.filter isCounted).map (recordOf flow) := by
  induction results with
  | nil => rfl
  | cons r rest ih =>
      by_cases hr : r.verdict = .notApplicable
      · simp [recordResults, isCounted, hr, ih]
      · simp [recordResults, isCounted, hr, ih]

section

variable {api : Apimachinery} {lookup : Lookup} {flow : Flow}

theorem resultKey_matchDirection (p : AuditNetworkPolicy) (d : Direction) :
    resultKey (matchDirection api flow p lookup d) = (p.ns, p.name, d) := by
  unfold matchDirection
  repeat' split
  all_goals rfl

theorem resultKey_matchClusterDirection (p : AuditClusterNetworkPolicy) (d : Direction) :
    resultKey (matchClusterDirection api flow p lookup d) = ("", p.name, d) := by
  unfold matchClusterDirection
  repeat' split
  all_goals rfl

theorem isKnown_of_counted (p : AuditNetworkPolicy) (d : Direction)
    (h : isCounted (matchDirection api flow p lookup d) = true) : isKnown d = true := by
  cases d with
  | ingress => rfl
  | egress => rfl
  | other name =>
      simp [matchDirection, subjectPod, isCounted, AuditNetworkPolicy.result] at h

theorem isKnown_of_counted_cluster (p : AuditClusterNetworkPolicy) (d : Direction)
    (h : isCounted (matchClusterDirection api flow p lookup d) = true) : isKnown d = true := by
  cases d with
  | ingress => rfl
  | egress => rfl
  | other name =>
      simp [matchClusterDirection, subjectPod, isCounted, AuditClusterNetworkPolicy.result] at h

/-- Results of one policy, given by direction, that are counted have distinct
keys. -/
theorem nodup_counted (types : List PolicyType) (htypes : (types.filter isKnown).Nodup)
    (f : Direction → Result) (hknown : ∀ d, isCounted (f d) = true → isKnown d = true)
    (hinj : Function.Injective fun d => resultKey (f d)) :
    (((types.map f).filter isCounted).map resultKey).Nodup := by
  rw [List.filter_map, List.map_map]
  have hfilter : types.filter (isCounted ∘ f) =
      (types.filter isKnown).filter (isCounted ∘ f) := by
    rw [List.filter_filter]
    apply List.filter_congr
    intro d _
    cases hd : isCounted (f d) with
    | false => simp [hd]
    | true => simp [hd, hknown d hd]
  rw [hfilter]
  exact (htypes.filter _).map hinj

theorem nodup_counted_policy (p : AuditNetworkPolicy) :
    (((matchPolicy api flow p lookup).filter isCounted).map resultKey).Nodup := by
  apply nodup_counted _ (nodup_effectiveTypes _ _) _ (isKnown_of_counted p)
  intro d d' h
  simpa [resultKey_matchDirection] using h

theorem nodup_counted_cluster (p : AuditClusterNetworkPolicy) :
    (((matchCluster api flow p lookup).filter isCounted).map resultKey).Nodup := by
  apply nodup_counted _ (nodup_effectiveTypes _ _) _ (isKnown_of_counted_cluster p)
  intro d d' h
  simpa [resultKey_matchClusterDirection] using h

theorem key_of_mem_matchPolicy (p : AuditNetworkPolicy) (r : Result)
    (hr : r ∈ matchPolicy api flow p lookup) : resultKey r = (p.ns, p.name, r.direction) := by
  obtain ⟨d, -, rfl⟩ := List.mem_map.mp hr
  rw [resultKey_matchDirection, direction_matchDirection]

theorem key_of_mem_matchCluster (p : AuditClusterNetworkPolicy) (r : Result)
    (hr : r ∈ matchCluster api flow p lookup) : resultKey r = ("", p.name, r.direction) := by
  obtain ⟨d, -, rfl⟩ := List.mem_map.mp hr
  rw [resultKey_matchClusterDirection, direction_matchClusterDirection]

/-- Distinct policies give distinct keys: those of cluster policies have no
namespace, and the others do. -/
theorem nodup_evaluateAll (policies : List AuditNetworkPolicy)
    (clusterPolicies : List AuditClusterNetworkPolicy)
    (hkeys : (policies.map Store.policyKey).Nodup) (hns : ∀ p ∈ policies, p.ns ≠ "")
    (hnames : (clusterPolicies.map AuditClusterNetworkPolicy.name).Nodup) :
    (((evaluateAll api lookup flow policies clusterPolicies).filter isCounted).map
      resultKey).Nodup := by
  rw [evaluateAll, List.filter_append, List.map_append, List.filter_flatMap, List.filter_flatMap,
    List.map_flatMap, List.map_flatMap, List.nodup_append]
  refine ⟨?_, ?_, ?_⟩
  · rw [List.nodup_flatMap]
    refine ⟨fun p _ => nodup_counted_policy p, ?_⟩
    apply (List.pairwise_map.mp hkeys).imp
    intro p p' hne k hk hk'
    obtain ⟨r, hr, rfl⟩ := List.mem_map.mp hk
    obtain ⟨r', hr', heq⟩ := List.mem_map.mp hk'
    rw [key_of_mem_matchPolicy p r (List.mem_filter.mp hr).1,
      key_of_mem_matchPolicy p' r' (List.mem_filter.mp hr').1] at heq
    have hpair : Store.policyKey p = Store.policyKey p' := by
      simp only [Store.policyKey, Prod.mk.injEq] at heq ⊢
      exact ⟨heq.1.symm, heq.2.1.symm⟩
    exact hne hpair
  · rw [List.nodup_flatMap]
    refine ⟨fun p _ => nodup_counted_cluster p, ?_⟩
    apply (List.pairwise_map.mp hnames).imp
    intro p p' hne k hk hk'
    obtain ⟨r, hr, rfl⟩ := List.mem_map.mp hk
    obtain ⟨r', hr', heq⟩ := List.mem_map.mp hk'
    rw [key_of_mem_matchCluster p r (List.mem_filter.mp hr).1,
      key_of_mem_matchCluster p' r' (List.mem_filter.mp hr').1] at heq
    exact hne (Prod.mk.inj (Prod.mk.inj heq).2).1.symm
  · intro k hk k' hk' heq
    obtain ⟨p, hp, hk⟩ := List.mem_flatMap.mp hk
    obtain ⟨p', -, hk'⟩ := List.mem_flatMap.mp hk'
    obtain ⟨r, hr, rfl⟩ := List.mem_map.mp hk
    obtain ⟨r', hr', rfl⟩ := List.mem_map.mp hk'
    rw [key_of_mem_matchPolicy p r (List.mem_filter.mp hr).1,
      key_of_mem_matchCluster p' r' (List.mem_filter.mp hr').1] at heq
    exact hns p hp (Prod.mk.inj heq).1

/-- A counted result is about a pod in the policy's namespace at one end. -/
theorem subject_of_counted (hlookup : lookup.Sound)
    (hanonymous : ∀ name, lookup.getPod "" name = none) (p : AuditNetworkPolicy) (r : Result)
    (hr : r ∈ matchPolicy api flow p lookup) (hc : isCounted r = true) :
    p.ns ≠ "" ∧ (p.ns = flow.dstPodNamespace ∨ p.ns = flow.srcPodNamespace) := by
  obtain ⟨d, -, rfl⟩ := List.mem_map.mp hr
  have hverdict := @verdict_matchDirection api flow p lookup d
  cases hsubject : subjectPod flow d lookup with
  | none => simp [isCounted, hverdict, hsubject, gatedVerdict] at hc
  | some pod =>
      have hns : pod.ns = p.ns := by
        by_contra hne
        simp [isCounted, hverdict, hsubject, gatedVerdict, hne] at hc
      cases d with
      | ingress =>
          have hpod := (hlookup _ _ pod hsubject).1
          refine ⟨fun he => ?_, Or.inl (hns.symm.trans hpod)⟩
          have hnone := hanonymous flow.dstPodName
          rw [← he, ← hns, hpod] at hnone
          exact absurd (hsubject.symm.trans hnone) (by simp)
      | egress =>
          have hpod := (hlookup _ _ pod hsubject).1
          refine ⟨fun he => ?_, Or.inr (hns.symm.trans hpod)⟩
          have hnone := hanonymous flow.srcPodName
          rw [← he, ← hns, hpod] at hnone
          exact absurd (hsubject.symm.trans hnone) (by simp)
      | other name => simp [subjectPod] at hsubject

theorem mem_candidates (s : Store) (p : AuditNetworkPolicy) (hp : p ∈ s.policies)
    (hns : p.ns ≠ "") (hends : p.ns = flow.dstPodNamespace ∨ p.ns = flow.srcPodNamespace) :
    p ∈ candidates s flow := by
  have hfiled := (s.mem_policies p).mp hp
  rw [candidates, List.mem_append]
  by_cases hdst : p.ns = flow.dstPodNamespace
  · exact Or.inl (hdst ▸ hfiled)
  · have hsrc : p.ns = flow.srcPodNamespace := hends.resolve_left hdst
    right
    rw [if_pos ⟨hsrc ▸ hns, fun h => hdst (hsrc.trans h)⟩, ← hsrc]
    exact hfiled

theorem policies_of_candidates (s : Store) (p : AuditNetworkPolicy)
    (hp : p ∈ candidates s flow) : p ∈ s.policies := by
  rw [Store.mem_policies]
  rcases List.mem_append.mp hp with hdst | hsrc
  · rwa [s.filed _ p hdst]
  · split at hsrc
    · rwa [s.filed _ p hsrc]
    · exact absurd hsrc List.not_mem_nil

theorem nodup_policiesInNamespace (s : Store) (ns : String) :
    ((s.policiesInNamespace ns).map Store.policyKey).Nodup := by
  have hnames := s.nodup_names ns
  have hmap : (s.policiesInNamespace ns).map AuditNetworkPolicy.name =
      ((s.policiesInNamespace ns).map Store.policyKey).map Prod.snd := by
    rw [List.map_map]
    rfl
  rw [hmap] at hnames
  exact hnames.of_map Prod.snd

theorem nodup_candidates (s : Store) : ((candidates s flow).map Store.policyKey).Nodup := by
  rw [candidates]
  split
  · rename_i hsrc
    rw [List.map_append, List.nodup_append]
    refine ⟨nodup_policiesInNamespace s _, nodup_policiesInNamespace s _, ?_⟩
    intro k hk k' hk' heq
    obtain ⟨p, hp, rfl⟩ := List.mem_map.mp hk
    obtain ⟨p', hp', rfl⟩ := List.mem_map.mp hk'
    have hns : p.ns = p'.ns := (Prod.mk.inj heq).1
    rw [s.filed _ p hp, s.filed _ p' hp'] at hns
    exact hsrc.2 hns.symm
  · rw [List.append_nil]
    exact nodup_policiesInNamespace s _

theorem mem_counted_iff (hlookup : lookup.Sound)
    (hanonymous : ∀ name, lookup.getPod "" name = none) (s : Store) (r : Result) :
    r ∈ (evaluateAll api lookup flow (candidates s flow) s.clusterPolicies).filter isCounted ↔
      r ∈ (fullScan api lookup flow s).filter isCounted := by
  simp only [fullScan, evaluateAll, List.mem_filter, List.mem_append, List.mem_flatMap]
  constructor
  · intro h
    obtain ⟨⟨p, hp, hr⟩ | hcluster, hc⟩ := h
    · exact ⟨Or.inl ⟨p, policies_of_candidates s p hp, hr⟩, hc⟩
    · exact ⟨Or.inr hcluster, hc⟩
  · intro h
    obtain ⟨⟨p, hp, hr⟩ | hcluster, hc⟩ := h
    · obtain ⟨hns, hends⟩ := subject_of_counted hlookup hanonymous p r hr hc
      exact ⟨Or.inl ⟨p, mem_candidates s p hp hns hends, hr⟩, hc⟩
    · exact ⟨Or.inr hcluster, hc⟩

end

/-- The indexed selection agrees with the full scan on every counted result,
records exactly these and counts no policy twice in a direction. -/
theorem handleEvaluate_fullScan (api : Apimachinery) (s : Store) (lookup : Lookup)
    (hlookup : lookup.Sound) (hanonymous : ∀ name, lookup.getPod "" name = none)
    (hns : ∀ p ∈ s.policies, p.ns ≠ "") (flow : Flow) :
    ((handleEvaluate api lookup flow s).results.filter isCounted).Perm
      ((fullScan api lookup flow s).filter isCounted) ∧
    (handleEvaluate api lookup flow s).recorded =
      ((handleEvaluate api lookup flow s).results.filter isCounted).map (recordOf flow) ∧
    (((handleEvaluate api lookup flow s).results.filter isCounted).map resultKey).Nodup := by
  have hindexed := @nodup_evaluateAll api lookup flow
    (candidates s flow) s.clusterPolicies (nodup_candidates s)
    (fun p hp => hns p (policies_of_candidates s p hp)) s.clusterNames
  have hscan := @nodup_evaluateAll api lookup flow
    s.policies s.clusterPolicies s.nodup_policyKeys hns s.clusterNames
  refine ⟨?_, recordResults_eq flow _, hindexed⟩
  apply (List.perm_ext_iff_of_nodup (hindexed.of_map resultKey) (hscan.of_map resultKey)).mpr
  exact fun r => mem_counted_iff hlookup hanonymous s r

/-- The shop's policy and one of a namespace that the flow does not touch. -/
def shopStore : Store :=
  (empty.putPolicy apiPolicy).putPolicy
    ⟨"warehouse", "closed", "9a02", 1, ⟨ofMatchLabels ∅, [], [], []⟩⟩

theorem shopStore_fullScan :
    (handleEvaluate reference shop webToApi shopStore).recorded =
      [⟨"shop", "api", "shop/web-0", "shop/api-0", "TCP", .ingress, 8080, false, 1⟩] ∧
    ((handleEvaluate reference shop webToApi shopStore).results.filter isCounted).Perm
      ((fullScan reference shop webToApi shopStore).filter isCounted) :=
  ⟨by decide, (handleEvaluate_fullScan reference shopStore shop (Lookup.ofLists_sound _ _)
    (fun _ => rfl) (by decide) webToApi).1⟩

end KGuardian.Server
