import KGuardian.PolicySemantics

/-!
What a verdict owes to the part of the cluster that the informers know.
Every read of an unknown pod or namespace answers no, so a lookup that learns more can
only turn a no of these reads into a yes.
-/
namespace KGuardian.PartialLookups

open AllowLists Selectors Matcher PolicySemantics

/-- Everything that the first lookup knows is the same in the second one. -/
structure Extends (lookup lookup' : Lookup) : Prop where
  pods : ∀ ns name pod, lookup.getPod ns name = some pod → lookup'.getPod ns name = some pod
  namespaces : ∀ ns lbls, lookup.getNamespaceLabels ns = some lbls →
    lookup'.getNamespaceLabels ns = some lbls

/-- What later knowledge keeps of a result: its direction, an Allow, and that the
policy applies. -/
structure Kept (r r' : Result) : Prop where
  direction : r.direction = r'.direction
  allow : r.verdict = .allow → r'.verdict = .allow
  applicable : r.verdict ≠ .notApplicable → r'.verdict ≠ .notApplicable

/-- An informer that lists more objects knows more. -/
theorem ofLists_extends (pods more : List Pod) (namespaces added : List (String × Labels)) :
    Extends (.ofLists pods namespaces) (.ofLists (pods ++ more) (namespaces ++ added)) := by
  constructor
  · intro ns name pod hpod
    simp only [Lookup.ofLists] at hpod ⊢
    rw [List.find?_append, hpod]
    rfl
  · intro ns lbls hlbls
    simp only [Lookup.ofLists, Option.map_eq_some_iff] at hlbls ⊢
    obtain ⟨e, he, rfl⟩ := hlbls
    exact ⟨e, by rw [List.find?_append, he]; rfl, rfl⟩

/-- A list of results judged by `any` only grows with its test. -/
theorem any_mono {α : Type} {p q : α → Bool} (hpq : ∀ x, p x = true → q x = true)
    (l : List α) (hany : l.any p = true) : l.any q = true := by
  obtain ⟨x, hx, hp⟩ := List.any_eq_true.mp hany
  exact List.any_eq_true.mpr ⟨x, hx, hpq x hp⟩

theorem gatedVerdict_ne_notApplicable_iff (subject : Option Pod) (gate : Pod → Bool)
    (allowed : Bool) : gatedVerdict subject gate allowed ≠ .notApplicable ↔
      ∃ pod, subject = some pod ∧ gate pod = true := by
  unfold gatedVerdict
  cases subject with
  | none => simp
  | some pod =>
      cases hg : gate pod <;> cases allowed <;> simp [hg]

theorem gatedVerdict_eq_allow_iff (subject : Option Pod) (gate : Pod → Bool)
    (allowed : Bool) : gatedVerdict subject gate allowed = .allow ↔
      (∃ pod, subject = some pod ∧ gate pod = true) ∧ allowed = true := by
  unfold gatedVerdict
  cases subject with
  | none => simp
  | some pod =>
      cases hg : gate pod <;> cases allowed <;> simp [hg]

section

variable (api : Apimachinery) {lookup lookup' : Lookup} (hext : Extends lookup lookup')
include hext

theorem subjectPod_kept (flow : Flow) (d : Direction) (pod : Pod)
    (hpod : subjectPod flow d lookup = some pod) : subjectPod flow d lookup' = some pod := by
  cases d with
  | ingress => exact hext.pods _ _ _ hpod
  | egress => exact hext.pods _ _ _ hpod
  | other name => exact hpod

theorem peerPod_kept (flow : Flow) (d : Direction) (pod : Pod)
    (hpod : peerPod flow d lookup = some pod) : peerPod flow d lookup' = some pod := by
  cases d with
  | ingress => exact hext.pods _ _ _ hpod
  | egress => exact hext.pods _ _ _ hpod
  | other name => exact hpod

/-- The namespace gate of a peer and of a cluster policy. -/
theorem labelGate_kept (ns : String) (sel : LabelSelector)
    (hgate : (match lookup.getNamespaceLabels ns with
      | none => false
      | some nsLabels => selectorMatchesLabels api sel nsLabels) = true) :
    (match lookup'.getNamespaceLabels ns with
      | none => false
      | some nsLabels => selectorMatchesLabels api sel nsLabels) = true := by
  cases hknown : lookup.getNamespaceLabels ns with
  | none => simp [hknown] at hgate
  | some nsLabels =>
      rw [hknown] at hgate
      rw [hext.namespaces ns nsLabels hknown]
      exact hgate

/-- The peer of an entry with selectors has to be known, so it stays the same pod. -/
theorem peerEntryMatches_kept (flow : Flow) (d : Direction) (entry : NetworkPolicyPeer)
    (hmatch : peerEntryMatches api (peerPod flow d lookup) flow d entry lookup = true) :
    peerEntryMatches api (peerPod flow d lookup') flow d entry lookup' = true := by
  unfold peerEntryMatches at hmatch ⊢
  cases hblock : entry.ipBlock with
  | some block => simpa only [hblock] using hmatch
  | none =>
      simp only [hblock] at hmatch ⊢
      cases hpeer : peerPod flow d lookup with
      | none => simp [hpeer] at hmatch
      | some peer =>
          rw [peerPod_kept hext flow d peer hpeer]
          simp only [hpeer] at hmatch ⊢
          cases hns : entry.namespaceSelector with
          | none => simpa only [hns] using hmatch
          | some sel =>
              simp only [hns] at hmatch ⊢
              cases hknown : lookup.getNamespaceLabels peer.ns with
              | none => simp [hknown] at hmatch
              | some nsLabels =>
                  rw [hext.namespaces _ _ hknown]
                  simpa only [hknown] using hmatch

theorem portEntryMatches_kept (flow : Flow) (entry : NetworkPolicyPort)
    (hmatch : portEntryMatches flow entry (portTargetPod flow lookup) = true) :
    portEntryMatches flow entry (portTargetPod flow lookup') = true := by
  cases hpod : portTargetPod flow lookup with
  | some pod =>
      have hpod' : portTargetPod flow lookup' = some pod := hext.pods _ _ _ hpod
      rw [hpod] at hmatch
      rw [hpod']
      exact hmatch
  | none =>
      -- Without the pod only a number can have matched, and numbers read no pod.
      rw [hpod] at hmatch
      unfold portEntryMatches at hmatch ⊢
      cases hport : entry.port with
      | none => simpa only [hport] using hmatch
      | some port =>
          cases port with
          | int v => simpa only [hport] using hmatch
          | str name => simp [hport, namedPortMatches] at hmatch

theorem ruleMatches_kept (flow : Flow) (d : Direction) (rule : PolicyRule)
    (hmatch : ruleMatches api flow d rule lookup = true) :
    ruleMatches api flow d rule lookup' = true := by
  unfold ruleMatches peerListMatches portsMatch at hmatch ⊢
  simp only [Bool.and_eq_true, Bool.or_eq_true] at hmatch ⊢
  obtain ⟨hpeers, hports⟩ := hmatch
  constructor
  · exact hpeers.imp_right (any_mono (peerEntryMatches_kept api hext flow d) _)
  · exact hports.imp_right (any_mono (portEntryMatches_kept hext flow) _)

theorem evaluateRuleLists_kept (flow : Flow) (ingress egress : List PolicyRule)
    (d : Direction) (hmatch : (evaluateRuleLists api flow ingress egress d lookup).1 = true) :
    (evaluateRuleLists api flow ingress egress d lookup').1 = true := by
  unfold evaluateRuleLists at hmatch ⊢
  have hrule := ruleMatches_kept api hext flow d
  cases d with
  | ingress =>
      by_cases hnil : ingress = []
      · simp [hnil] at hmatch
      · simp only [hnil, if_false] at hmatch ⊢
        split at hmatch
        · rename_i hany
          simp [any_mono hrule ingress hany]
        · simp at hmatch
  | egress =>
      by_cases hnil : egress = []
      · simp [hnil] at hmatch
      · simp only [hnil, if_false] at hmatch ⊢
        split at hmatch
        · rename_i hany
          simp [any_mono hrule egress hany]
        · simp at hmatch
  | other name => exact hmatch

theorem namespaceGateCluster_kept (spec : ClusterNetworkPolicySpec) (pod : Pod)
    (hgate : namespaceGateCluster api spec pod lookup = true) :
    namespaceGateCluster api spec pod lookup' = true := by
  unfold namespaceGateCluster at hgate ⊢
  cases hsel : spec.namespaceSelector with
  | none => rfl
  | some sel =>
      simp only [hsel] at hgate ⊢
      exact labelGate_kept api hext pod.ns sel hgate

end

/-- The common shape of both matchers: a known subject and its gate stay, and so does
what the rules let through. -/
theorem gatedVerdict_kept {subject subject' : Option Pod} {gate gate' : Pod → Bool}
    {allowed allowed' : Bool} (hsubject : ∀ pod, subject = some pod → subject' = some pod)
    (hgate : ∀ pod, gate pod = true → gate' pod = true)
    (hallowed : allowed = true → allowed' = true) :
    (gatedVerdict subject gate allowed = .allow →
      gatedVerdict subject' gate' allowed' = .allow) ∧
    (gatedVerdict subject gate allowed ≠ .notApplicable →
      gatedVerdict subject' gate' allowed' ≠ .notApplicable) := by
  simp only [gatedVerdict_eq_allow_iff, gatedVerdict_ne_notApplicable_iff]
  have happlies : (∃ pod, subject = some pod ∧ gate pod = true) →
      ∃ pod, subject' = some pod ∧ gate' pod = true := by
    rintro ⟨pod, hpod, hg⟩
    exact ⟨pod, hsubject pod hpod, hgate pod hg⟩
  exact ⟨fun h => ⟨happlies h.1, hallowed h.2⟩, happlies⟩

section

variable (api : Apimachinery) {lookup lookup' : Lookup} (hext : Extends lookup lookup')
include hext

theorem matchDirection_kept (flow : Flow) (policy : AuditNetworkPolicy) (d : Direction) :
    Kept (matchDirection api flow policy lookup d)
      (matchDirection api flow policy lookup' d) := by
  have hallowed := evaluateRuleLists_kept api hext flow policy.spec.ingress policy.spec.egress d
  constructor
  · rw [direction_matchDirection, direction_matchDirection]
  · rw [verdict_matchDirection, verdict_matchDirection]
    exact (gatedVerdict_kept (subjectPod_kept hext flow d) (fun _ hpod => hpod) hallowed).1
  · rw [verdict_matchDirection, verdict_matchDirection]
    exact (gatedVerdict_kept (subjectPod_kept hext flow d) (fun _ hpod => hpod) hallowed).2

theorem matchClusterDirection_kept (flow : Flow) (policy : AuditClusterNetworkPolicy)
    (d : Direction) :
    Kept (matchClusterDirection api flow policy lookup d)
      (matchClusterDirection api flow policy lookup' d) := by
  have hgate : ∀ pod, (namespaceGateCluster api policy.spec pod lookup &&
      selectorMatchesLabels api policy.spec.podSelector pod.labels) = true →
      (namespaceGateCluster api policy.spec pod lookup' &&
        selectorMatchesLabels api policy.spec.podSelector pod.labels) = true := by
    intro pod hpod
    simp only [Bool.and_eq_true] at hpod ⊢
    exact ⟨namespaceGateCluster_kept api hext policy.spec pod hpod.1, hpod.2⟩
  have hverdict := gatedVerdict_kept (subjectPod_kept hext flow d) hgate
    (evaluateRuleLists_kept api hext flow policy.spec.ingress policy.spec.egress d)
  constructor
  · rw [direction_matchClusterDirection, direction_matchClusterDirection]
  · rw [verdict_matchClusterDirection, verdict_matchClusterDirection]
    exact hverdict.1
  · rw [verdict_matchClusterDirection, verdict_matchClusterDirection]
    exact hverdict.2

end

/-- What a lookup that learns more keeps of the results of both matchers, direction by
direction. -/
theorem matching_kept (api : Apimachinery) (lookup lookup' : Lookup)
    (hext : Extends lookup lookup') (flow : Flow) :
    (∀ policy, List.Forall₂ Kept (matchPolicy api flow policy lookup)
      (matchPolicy api flow policy lookup')) ∧
    ∀ policy, List.Forall₂ Kept (matchCluster api flow policy lookup)
      (matchCluster api flow policy lookup') := by
  constructor
  · intro policy
    unfold matchPolicy
    simp only [List.forall₂_map_left_iff, List.forall₂_map_right_iff]
    exact List.forall₂_same.mpr fun d _ => matchDirection_kept api hext flow policy d
  · intro policy
    unfold matchCluster
    simp only [List.forall₂_map_left_iff, List.forall₂_map_right_iff]
    exact List.forall₂_same.mpr fun d _ => matchClusterDirection_kept api hext flow policy d

/-- The api pod is known first. Once the web pod is known too, a denial becomes an Allow,
and an Allow stays. -/
theorem matching_kept_web :
    (matchPolicy reference webToApi apiPolicy (.ofLists [apiPod] [])).map Result.verdict =
      [.wouldDeny] ∧
    (matchPolicy reference webToApi apiPolicy (.ofLists ([apiPod] ++ [webPod]) ([] ++ []))).map
      Result.verdict = [.allow] ∧
    List.Forall₂ Kept (matchPolicy reference webToApi apiPolicy (.ofLists [apiPod] []))
      (matchPolicy reference webToApi apiPolicy
        (.ofLists ([apiPod] ++ [webPod]) ([] ++ []))) :=
  ⟨by decide, by decide, (matching_kept reference _ _
    (ofLists_extends [apiPod] [webPod] [] []) webToApi).1 apiPolicy⟩

end KGuardian.PartialLookups
