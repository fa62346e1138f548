import KGuardian.KeyedLists
import KGuardian.PolicyDecode

/-!
The evaluator's cache (`pkg/store`): pods and namespaces as the informers hold
them, and the typed policies, indexed by namespace. A store carries its own
well-formedness, so every sequence of watch events ends in a well-formed one.
-/
namespace KGuardian.PolicyStore

open Selectors Matcher KeyedLists PolicyDecode

/-- The informers file pods under `namespace/name`, kept as a pair here since
neither part contains a slash. -/
structure Store where
  pods : AList fun _ : String × String => Pod
  namespaces : AList fun _ : String => Labels
  policiesByNamespace : AList fun _ : String => List AuditNetworkPolicy
  clusterPolicies : List AuditClusterNetworkPolicy
  podsFiled : ∀ key, ∀ pod ∈ pods.lookup key, pod.ns = key.1 ∧ pod.name = key.2
  policiesFiled : ∀ ns, ∀ list ∈ policiesByNamespace.lookup ns, ∀ p ∈ list, p.ns = ns
  policyNames : ∀ ns, ∀ list ∈ policiesByNamespace.lookup ns,
    (list.map AuditNetworkPolicy.name).Nodup
  clusterNames : (clusterPolicies.map AuditClusterNetworkPolicy.name).Nodup

/-- The state before the first event. -/
def empty : Store where
  pods := ∅
  namespaces := ∅
  policiesByNamespace := ∅
  clusterPolicies := []
  podsFiled := by simp
  policiesFiled := by simp
  policyNames := by simp
  clusterNames := List.nodup_nil

/-- What a watch delivers to a handler. -/
inductive WatchObject where
  | object (u : Unstructured)
  | tombstone (obj : Option Unstructured)
  | other

def unwrapTombstone : WatchObject → Option Unstructured
  | .object u => some u
  | .tombstone obj => obj
  | .other => none

namespace Store

/-- A Go map read: a missing namespace has no policies. -/
def policiesInNamespace (s : Store) (ns : String) : List AuditNetworkPolicy :=
  (s.policiesByNamespace.lookup ns).getD []

theorem filed (s : Store) (ns : String) (p : AuditNetworkPolicy)
    (hp : p ∈ s.policiesInNamespace ns) : p.ns = ns := by
  cases hlist : s.policiesByNamespace.lookup ns with
  | none => simp [policiesInNamespace, hlist] at hp
  | some list =>
      rw [policiesInNamespace, hlist] at hp
      exact s.policiesFiled ns list hlist p hp

theorem nodup_names (s : Store) (ns : String) :
    ((s.policiesInNamespace ns).map AuditNetworkPolicy.name).Nodup := by
  cases hlist : s.policiesByNamespace.lookup ns with
  | none => simp [policiesInNamespace, hlist]
  | some list =>
      rw [policiesInNamespace, hlist]
      exact s.policyNames ns list hlist

/-- The store with other policies in one namespace. -/
def setNamespace (s : Store) (ns : String) (list : List AuditNetworkPolicy)
    (hfiled : ∀ p ∈ list, p.ns = ns) (hnames : (list.map AuditNetworkPolicy.name).Nodup) :
    Store :=
  { s with
    policiesByNamespace := s.policiesByNamespace.insert ns list
    policiesFiled := by
      intro ns' list' hlist'
      by_cases hns : ns' = ns
      · subst hns
        rw [AList.lookup_insert, Option.mem_some_iff] at hlist'
        exact hlist' ▸ hfiled
      · rw [AList.lookup_insert_ne hns] at hlist'
        exact s.policiesFiled ns' list' hlist'
    policyNames := by
      intro ns' list' hlist'
      by_cases hns : ns' = ns
      · subst hns
        rw [AList.lookup_insert, Option.mem_some_iff] at hlist'
        exact hlist' ▸ hnames
      · rw [AList.lookup_insert_ne hns] at hlist'
        exact s.policyNames ns' list' hlist' }

/-- The store without the entry of one namespace. -/
def clearNamespace (s : Store) (ns : String) : Store :=
  { s with
    policiesByNamespace := s.policiesByNamespace.erase ns
    policiesFiled := by
      intro ns' list' hlist'
      by_cases hns : ns' = ns
      · subst hns
        rw [AList.lookup_erase] at hlist'
        exact absurd hlist' (by simp)
      · rw [AList.lookup_erase_ne hns] at hlist'
        exact s.policiesFiled ns' list' hlist'
    policyNames := by
      intro ns' list' hlist'
      by_cases hns : ns' = ns
      · subst hns
        rw [AList.lookup_erase] at hlist'
        exact absurd hlist' (by simp)
      · rw [AList.lookup_erase_ne hns] at hlist'
        exact s.policyNames ns' list' hlist' }

theorem policiesInNamespace_setNamespace (s : Store) (ns ns' : String)
    (list : List AuditNetworkPolicy) (hfiled hnames) :
    (s.setNamespace ns list hfiled hnames).policiesInNamespace ns' =
      if ns' = ns then list else s.policiesInNamespace ns' := by
  by_cases hns : ns' = ns
  · subst hns
    simp [policiesInNamespace, setNamespace]
  · simp [policiesInNamespace, setNamespace, AList.lookup_insert_ne hns, hns]

theorem policiesInNamespace_clearNamespace (s : Store) (ns ns' : String) :
    (s.clearNamespace ns).policiesInNamespace ns' =
      if ns' = ns then [] else s.policiesInNamespace ns' := by
  by_cases hns : ns' = ns
  · subst hns
    simp [policiesInNamespace, clearNamespace]
  · simp [policiesInNamespace, clearNamespace, AList.lookup_erase_ne hns, hns]

/-- Every policy of every namespace. -/
def policies (s : Store) : List AuditNetworkPolicy :=
  s.policiesByNamespace.entries.flatMap Sigma.snd

theorem mem_policies (s : Store) (p : AuditNetworkPolicy) :
    p ∈ s.policies ↔ p ∈ s.policiesInNamespace p.ns := by
  constructor
  · intro hp
    obtain ⟨⟨ns, list⟩, he, hlist⟩ := List.mem_flatMap.mp hp
    have hlookup : s.policiesByNamespace.lookup ns = some list := AList.mem_lookup_iff.mpr he
    have hns : p.ns = ns := s.policiesFiled ns list hlookup p hlist
    rw [policiesInNamespace, hns, hlookup]
    exact hlist
  · intro hp
    cases hlookup : s.policiesByNamespace.lookup p.ns with
    | none => simp [policiesInNamespace, hlookup] at hp
    | some list =>
        rw [policiesInNamespace, hlookup] at hp
        exact List.mem_flatMap.mpr ⟨⟨p.ns, list⟩, AList.mem_lookup_iff.mp hlookup, hp⟩

/-- A policy is known by its namespace and name. -/
def policyKey (p : AuditNetworkPolicy) : String × String := (p.ns, p.name)

theorem nodup_policyKeys (s : Store) : (s.policies.map policyKey).Nodup := by
  rw [policies, List.map_flatMap, List.nodup_flatMap]
  constructor
  · intro entry he
    obtain ⟨ns, list⟩ := entry
    have hnames := s.policyNames ns list (AList.mem_lookup_iff.mpr he)
    have hmap : list.map AuditNetworkPolicy.name = (list.map policyKey).map Prod.snd := by
      rw [List.map_map]
      rfl
    rw [hmap] at hnames
    exact hnames.of_map Prod.snd
  · have hkeys := List.pairwise_map.mp s.policiesByNamespace.nodupKeys
    apply hkeys.imp_of_mem
    intro entry entry' he he' hne k hk hk'
    obtain ⟨ns, list⟩ := entry
    obtain ⟨ns', list'⟩ := entry'
    obtain ⟨p, hp, rfl⟩ := List.mem_map.mp hk
    obtain ⟨p', hp', heq⟩ := List.mem_map.mp hk'
    have hns := s.policiesFiled ns list (AList.mem_lookup_iff.mpr he) p hp
    have hns' := s.policiesFiled ns' list' (AList.mem_lookup_iff.mpr he') p' hp'
    exact hne (hns.symm.trans ((Prod.mk.inj heq).1.symm.trans hns'))

/-- The stored half of `onPolicyAddOrUpdate`. -/
def putPolicy (s : Store) (policy : AuditNetworkPolicy) : Store :=
  s.setNamespace policy.ns
    (put AuditNetworkPolicy.name (s.policiesInNamespace policy.ns) policy)
    (by
      intro p hp
      rcases (mem_put _ _ _ _).mp hp with rfl | ⟨hold, -⟩
      · rfl
      · exact s.filed policy.ns p hold)
    (nodup_put _ _ _ (s.nodup_names policy.ns))

def onPolicyAddOrUpdate (s : Store) : WatchObject → Store
  | .object u =>
      match unstructuredToPolicy u with
      | none => s
      | some policy => s.putPolicy policy
  | _ => s

/-- The stored half of `onPolicyDelete`. -/
def dropPolicy (s : Store) (ns name : String) : Store :=
  let out := drop AuditNetworkPolicy.name (s.policiesInNamespace ns) name
  if out = [] then s.clearNamespace ns
  else s.setNamespace ns out
    (fun p hp => s.filed ns p ((mem_drop _ _ _ _).mp hp).1)
    (nodup_drop _ _ _ (s.nodup_names ns))

def onPolicyDelete (s : Store) (obj : WatchObject) : Store :=
  match unwrapTombstone obj with
  | none => s
  | some u => s.dropPolicy u.ns u.name

def putClusterPolicy (s : Store) (policy : AuditClusterNetworkPolicy) : Store :=
  { s with
    clusterPolicies := put AuditClusterNetworkPolicy.name s.clusterPolicies policy
    clusterNames := nodup_put _ _ _ s.clusterNames }

def onClusterPolicyAddOrUpdate (s : Store) : WatchObject → Store
  | .object u =>
      match unstructuredToClusterPolicy u with
      | none => s
      | some policy => s.putClusterPolicy policy
  | _ => s

def onClusterPolicyDelete (s : Store) (obj : WatchObject) : Store :=
  match unwrapTombstone obj with
  | none => s
  | some u =>
      { s with
        clusterPolicies := drop AuditClusterNetworkPolicy.name s.clusterPolicies u.name
        clusterNames := nodup_drop _ _ _ s.clusterNames }

/-- An added or edited policy takes the place of the one with its key. -/
theorem mem_policies_putPolicy (s : Store) (policy p : AuditNetworkPolicy) :
    p ∈ (s.putPolicy policy).policies ↔
      p = policy ∨ p ∈ s.policies ∧ policyKey p ≠ policyKey policy := by
  rw [mem_policies, mem_policies, putPolicy, policiesInNamespace_setNamespace]
  by_cases hns : p.ns = policy.ns
  · rw [if_pos hns, mem_put, hns]
    simp [policyKey, hns]
  · rw [if_neg hns]
    have hne : p ≠ policy := fun h => hns (by rw [h])
    simp [policyKey, hns, hne]

/-- An emptied namespace reads as one whose last policy was dropped. -/
theorem policiesInNamespace_dropPolicy (s : Store) (ns name ns' : String) :
    (s.dropPolicy ns name).policiesInNamespace ns' =
      if ns' = ns then drop AuditNetworkPolicy.name (s.policiesInNamespace ns) name
      else s.policiesInNamespace ns' := by
  rw [dropPolicy]
  split
  · rename_i hnil
    rw [policiesInNamespace_clearNamespace, hnil]
  · rw [policiesInNamespace_setNamespace]

/-- The lookup that the store offers to the matcher. -/
def lookup (s : Store) : Lookup where
  getPod ns name := if ns = "" ∨ name = "" then none else s.pods.lookup (ns, name)
  getNamespaceLabels name := if name = "" then none else s.namespaces.lookup name

theorem lookup_sound (s : Store) : s.lookup.Sound := by
  intro ns name pod hpod
  by_cases hempty : ns = "" ∨ name = ""
  · simp [lookup, hempty] at hpod
  · simp only [lookup, hempty, if_false] at hpod
    exact s.podsFiled (ns, name) pod hpod

theorem lookup_anonymous (s : Store) (name : String) : s.lookup.getPod "" name = none := by
  simp [lookup]

end Store

end KGuardian.PolicyStore
