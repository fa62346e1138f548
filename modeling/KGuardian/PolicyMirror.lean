import KGuardian.Histories
import KGuardian.PolicyStore

/-!
The policies of the store over a run of notifications. A notification is about
the policy of the object that it carries, and the store holds, for each policy,
the version of the last notification about it, or nothing after a delete.
-/
namespace KGuardian.PolicyMirror

open Histories KeyedLists Matcher PolicyDecode PolicyStore

inductive Kind where
  | policy
  | clusterPolicy
  deriving DecidableEq

inductive Notification where
  | added (kind : Kind) (obj : WatchObject)
  | updated (kind : Kind) (oldObj obj : WatchObject)
  | deleted (kind : Kind) (obj : WatchObject)

def Notification.kind : Notification → Kind
  | .added kind _ => kind
  | .updated kind _ _ => kind
  | .deleted kind _ => kind

/-- The handlers that `New` wires to the informers. -/
def handle (s : Store) : Notification → Store
  | .added .policy obj => s.onPolicyAddOrUpdate obj
  | .updated .policy _ obj => s.onPolicyAddOrUpdate obj
  | .deleted .policy obj => s.onPolicyDelete obj
  | .added .clusterPolicy obj => s.onClusterPolicyAddOrUpdate obj
  | .updated .clusterPolicy _ obj => s.onClusterPolicyAddOrUpdate obj
  | .deleted .clusterPolicy obj => s.onClusterPolicyDelete obj

def run (events : List Notification) : Store := events.foldl handle empty

/-! What the notifications say. -/

def asObject : WatchObject → Option Unstructured
  | .object u => some u
  | _ => none

/-- The object of a notification. Only a delete comes in a tombstone. -/
def Notification.object : Notification → Option Unstructured
  | .added _ obj => asObject obj
  | .updated _ _ obj => asObject obj
  | .deleted _ obj => unwrapTombstone obj

/-- The object, unless the notification takes it away. -/
def Notification.version : Notification → Option Unstructured
  | .deleted _ _ => none
  | n => n.object

def Notification.AboutPolicy (ns name : String) (n : Notification) : Prop :=
  n.kind = .policy ∧ ∃ u ∈ n.object, u.ns = ns ∧ u.name = name

def Notification.AboutClusterPolicy (name : String) (n : Notification) : Prop :=
  n.kind = .clusterPolicy ∧ ∃ u ∈ n.object, u.name = name

instance (ns name : String) : DecidablePred (Notification.AboutPolicy ns name) := fun n =>
  inferInstanceAs (Decidable (n.kind = .policy ∧ ∃ u ∈ n.object, u.ns = ns ∧ u.name = name))

instance (name : String) : DecidablePred (Notification.AboutClusterPolicy name) := fun n =>
  inferInstanceAs (Decidable (n.kind = .clusterPolicy ∧ ∃ u ∈ n.object, u.name = name))

/-- The policy as the cluster has it last, if it still does. -/
def latestPolicy (ns name : String) (events : List Notification) : Option AuditNetworkPolicy :=
  ((lastWith (Notification.AboutPolicy ns name) events).bind Notification.version).bind
    unstructuredToPolicy

def latestClusterPolicy (name : String) (events : List Notification) :
    Option AuditClusterNetworkPolicy :=
  ((lastWith (Notification.AboutClusterPolicy name) events).bind Notification.version).bind
    unstructuredToClusterPolicy

/-- The object that a notification brings can be converted. -/
def Notification.Converts (n : Notification) : Prop :=
  ∀ u ∈ n.version, match n.kind with
    | .policy => (unstructuredToPolicy u).isSome
    | .clusterPolicy => (unstructuredToClusterPolicy u).isSome

/-- Of each policy the store has the latest version once, or no version. -/
structure Mirrors (s : Store) (events : List Notification) : Prop where
  policies : ∀ ns name, ((s.policiesInNamespace ns).filter fun p => p.name = name) =
    (latestPolicy ns name events).toList
  clusterPolicies : ∀ name, (s.clusterPolicies.filter fun p => p.name = name) =
    (latestClusterPolicy name events).toList

theorem run_concat (events : List Notification) (n : Notification) :
    run (events ++ [n]) = handle (run events) n :=
  List.foldl_concat ..

theorem latestPolicy_concat (ns name : String) (events : List Notification) (n : Notification) :
    latestPolicy ns name (events ++ [n]) =
      if n.AboutPolicy ns name then n.version.bind unstructuredToPolicy
      else latestPolicy ns name events := by
  rw [latestPolicy, lastWith_concat]
  split <;> rfl

theorem latestClusterPolicy_concat (name : String) (events : List Notification)
    (n : Notification) :
    latestClusterPolicy name (events ++ [n]) =
      if n.AboutClusterPolicy name then n.version.bind unstructuredToClusterPolicy
      else latestClusterPolicy name events := by
  rw [latestClusterPolicy, lastWith_concat]
  split <;> rfl

/-! What one handler does. -/

theorem key_unstructuredToPolicy {u : Unstructured} {p : AuditNetworkPolicy}
    (h : unstructuredToPolicy u = some p) : p.ns = u.ns ∧ p.name = u.name := by
  obtain ⟨spec, -, rfl⟩ := Option.map_eq_some_iff.mp h
  exact ⟨rfl, rfl⟩

theorem name_unstructuredToClusterPolicy {u : Unstructured} {p : AuditClusterNetworkPolicy}
    (h : unstructuredToClusterPolicy u = some p) : p.name = u.name := by
  obtain ⟨spec, -, rfl⟩ := Option.map_eq_some_iff.mp h
  rfl

theorem filter_putPolicy (s : Store) (policy : AuditNetworkPolicy) (ns name : String) :
    (((s.putPolicy policy).policiesInNamespace ns).filter fun p => p.name = name) =
      if policy.ns = ns ∧ policy.name = name then [policy]
      else (s.policiesInNamespace ns).filter fun p => p.name = name := by
  rw [Store.putPolicy, Store.policiesInNamespace_setNamespace]
  by_cases hns : policy.ns = ns
  · subst hns
    rw [if_pos rfl, filter_put]
    simp
  · rw [if_neg (Ne.symm hns), if_neg fun h => hns h.1]

theorem filter_dropPolicy (s : Store) (ns' name' ns name : String) :
    (((s.dropPolicy ns' name').policiesInNamespace ns).filter fun p => p.name = name) =
      if ns' = ns ∧ name' = name then []
      else (s.policiesInNamespace ns).filter fun p => p.name = name := by
  rw [Store.policiesInNamespace_dropPolicy]
  by_cases hns : ns' = ns
  · subst hns
    rw [if_pos rfl, filter_drop]
    simp
  · rw [if_neg (Ne.symm hns), if_neg fun h => hns h.1]

theorem aboutPolicy_iff {n : Notification} (hkind : n.kind = .policy) {u : Unstructured}
    (hobject : n.object = some u) (ns name : String) :
    n.AboutPolicy ns name ↔ u.ns = ns ∧ u.name = name := by
  simp [Notification.AboutPolicy, hkind, hobject]

theorem aboutClusterPolicy_iff {n : Notification} (hkind : n.kind = .clusterPolicy)
    {u : Unstructured} (hobject : n.object = some u) (name : String) :
    n.AboutClusterPolicy name ↔ u.name = name := by
  simp [Notification.AboutClusterPolicy, hkind, hobject]

theorem not_aboutPolicy_of_object {n : Notification} (hobject : n.object = none)
    (ns name : String) : ¬ n.AboutPolicy ns name := by
  simp [Notification.AboutPolicy, hobject]

theorem not_aboutClusterPolicy_of_object {n : Notification} (hobject : n.object = none)
    (name : String) : ¬ n.AboutClusterPolicy name := by
  simp [Notification.AboutClusterPolicy, hobject]

/-- A version to store, before a lookup of one of the keys. -/
theorem filter_policies_put {s : Store} {n : Notification} {obj : WatchObject}
    (hkind : n.kind = .policy) (hobject : n.object = asObject obj) (hversion : n.version = n.object)
    (hconverts : n.Converts) (ns name : String) :
    (((s.onPolicyAddOrUpdate obj).policiesInNamespace ns).filter fun p => p.name = name) =
      if n.AboutPolicy ns name then (n.version.bind unstructuredToPolicy).toList
      else (s.policiesInNamespace ns).filter fun p => p.name = name := by
  cases obj with
  | object u =>
      have hu := hconverts u (hversion.trans hobject)
      rw [hkind] at hu
      obtain ⟨policy, hpolicy⟩ := Option.isSome_iff_exists.mp hu
      obtain ⟨hns, hname⟩ := key_unstructuredToPolicy hpolicy
      have hput : s.onPolicyAddOrUpdate (.object u) = s.putPolicy policy := by
        rw [Store.onPolicyAddOrUpdate, hpolicy]
      rw [hput, filter_putPolicy, hns, hname, hversion, hobject]
      simp only [aboutPolicy_iff hkind hobject, asObject, Option.bind_some, hpolicy,
        Option.toList_some]
  | tombstone obj => rw [if_neg (not_aboutPolicy_of_object hobject ns name)]; rfl
  | other => rw [if_neg (not_aboutPolicy_of_object hobject ns name)]; rfl

/-- What a handler of policies does to what is read of one of them. -/
theorem filter_policies_handle (s : Store) {n : Notification} (hkind : n.kind = .policy)
    (hconverts : n.Converts) (ns name : String) :
    (((handle s n).policiesInNamespace ns).filter fun p => p.name = name) =
      if n.AboutPolicy ns name then (n.version.bind unstructuredToPolicy).toList
      else (s.policiesInNamespace ns).filter fun p => p.name = name := by
  cases n with
  | added kind obj =>
      obtain rfl : kind = .policy := hkind
      exact filter_policies_put rfl rfl rfl hconverts ns name
  | updated kind oldObj obj =>
      obtain rfl : kind = .policy := hkind
      exact filter_policies_put rfl rfl rfl hconverts ns name
  | deleted kind obj =>
      obtain rfl : kind = .policy := hkind
      rw [handle, Store.onPolicyDelete]
      cases hobject : unwrapTombstone obj with
      | none =>
          have hdeleted : (Notification.deleted .policy obj).object = none := hobject
          rw [if_neg (not_aboutPolicy_of_object hdeleted ns name)]
      | some u =>
          have hdeleted : (Notification.deleted .policy obj).object = some u := hobject
          simp only [filter_dropPolicy, aboutPolicy_iff rfl hdeleted]
          rfl

theorem filter_clusterPolicies_put {s : Store} {n : Notification} {obj : WatchObject}
    (hkind : n.kind = .clusterPolicy) (hobject : n.object = asObject obj)
    (hversion : n.version = n.object) (hconverts : n.Converts) (name : String) :
    ((s.onClusterPolicyAddOrUpdate obj).clusterPolicies.filter fun p => p.name = name) =
      if n.AboutClusterPolicy name then (n.version.bind unstructuredToClusterPolicy).toList
      else s.clusterPolicies.filter fun p => p.name = name := by
  cases obj with
  | object u =>
      have hu := hconverts u (hversion.trans hobject)
      rw [hkind] at hu
      obtain ⟨policy, hpolicy⟩ := Option.isSome_iff_exists.mp hu
      have hput : s.onClusterPolicyAddOrUpdate (.object u) = s.putClusterPolicy policy := by
        rw [Store.onClusterPolicyAddOrUpdate, hpolicy]
      rw [hput, Store.putClusterPolicy, filter_put, name_unstructuredToClusterPolicy hpolicy,
        hversion, hobject]
      simp only [aboutClusterPolicy_iff hkind hobject, asObject, Option.bind_some, hpolicy,
        Option.toList_some]
  | tombstone obj => rw [if_neg (not_aboutClusterPolicy_of_object hobject name)]; rfl
  | other => rw [if_neg (not_aboutClusterPolicy_of_object hobject name)]; rfl

theorem filter_clusterPolicies_handle (s : Store) {n : Notification}
    (hkind : n.kind = .clusterPolicy) (hconverts : n.Converts) (name : String) :
    ((handle s n).clusterPolicies.filter fun p => p.name = name) =
      if n.AboutClusterPolicy name then (n.version.bind unstructuredToClusterPolicy).toList
      else s.clusterPolicies.filter fun p => p.name = name := by
  cases n with
  | added kind obj =>
      obtain rfl : kind = .clusterPolicy := hkind
      exact filter_clusterPolicies_put rfl rfl rfl hconverts name
  | updated kind oldObj obj =>
      obtain rfl : kind = .clusterPolicy := hkind
      exact filter_clusterPolicies_put rfl rfl rfl hconverts name
  | deleted kind obj =>
      obtain rfl : kind = .clusterPolicy := hkind
      rw [handle, Store.onClusterPolicyDelete]
      cases hobject : unwrapTombstone obj with
      | none =>
          have hdeleted : (Notification.deleted .clusterPolicy obj).object = none := hobject
          rw [if_neg (not_aboutClusterPolicy_of_object hdeleted name)]
      | some u =>
          have hdeleted : (Notification.deleted .clusterPolicy obj).object = some u := hobject
          simp only [filter_drop, aboutClusterPolicy_iff rfl hdeleted]
          rfl

/-- The handlers of one kind leave the other kind alone. -/
theorem clusterPolicies_handle (s : Store) {n : Notification} (hkind : n.kind = .policy) :
    (handle s n).clusterPolicies = s.clusterPolicies := by
  have hput (obj : WatchObject) :
      (s.onPolicyAddOrUpdate obj).clusterPolicies = s.clusterPolicies := by
    unfold Store.onPolicyAddOrUpdate
    split
    · split <;> rfl
    · rfl
  cases n with
  | added kind obj =>
      obtain rfl : kind = .policy := hkind
      exact hput obj
  | updated kind oldObj obj =>
      obtain rfl : kind = .policy := hkind
      exact hput obj
  | deleted kind obj =>
      obtain rfl : kind = .policy := hkind
      rw [handle, Store.onPolicyDelete]
      split
      · rfl
      · rw [Store.dropPolicy]
        split <;> rfl

theorem policiesInNamespace_handle (s : Store) {n : Notification}
    (hkind : n.kind = .clusterPolicy) (ns : String) :
    (handle s n).policiesInNamespace ns = s.policiesInNamespace ns := by
  have hput (obj : WatchObject) :
      (s.onClusterPolicyAddOrUpdate obj).policiesInNamespace ns = s.policiesInNamespace ns := by
    unfold Store.onClusterPolicyAddOrUpdate
    split
    · split <;> rfl
    · rfl
  cases n with
  | added kind obj =>
      obtain rfl : kind = .clusterPolicy := hkind
      exact hput obj
  | updated kind oldObj obj =>
      obtain rfl : kind = .clusterPolicy := hkind
      exact hput obj
  | deleted kind obj =>
      obtain rfl : kind = .clusterPolicy := hkind
      rw [handle, Store.onClusterPolicyDelete]
      split <;> rfl

/-! The run. -/

theorem Mirrors.concat {s : Store} {events : List Notification} (h : Mirrors s events)
    {n : Notification} (hconverts : n.Converts) : Mirrors (handle s n) (events ++ [n]) := by
  cases hkind : n.kind with
  | policy =>
      constructor
      · intro ns name
        rw [filter_policies_handle s hkind hconverts, latestPolicy_concat, h.policies]
        split <;> rfl
      · intro name
        have hnot : ¬ n.AboutClusterPolicy name := fun h => by simp [h.1] at hkind
        rw [clusterPolicies_handle s hkind, latestClusterPolicy_concat, if_neg hnot]
        exact h.clusterPolicies name
  | clusterPolicy =>
      constructor
      · intro ns name
        have hnot : ¬ n.AboutPolicy ns name := fun h => by simp [h.1] at hkind
        rw [policiesInNamespace_handle s hkind, latestPolicy_concat, if_neg hnot]
        exact h.policies ns name
      · intro name
        rw [filter_clusterPolicies_handle s hkind hconverts, latestClusterPolicy_concat,
          h.clusterPolicies]
        split <;> rfl

theorem mirrors_of_run (events : List Notification) (h : ∀ n ∈ events, n.Converts) :
    Mirrors (run events) events := by
  induction events using List.reverseRecOn with
  | nil => exact ⟨fun _ _ => rfl, fun _ => rfl⟩
  | append_singleton events n ih =>
      rw [run_concat]
      exact (ih fun m hm => h m (List.mem_append_left _ hm)).concat (h n (by simp))

/-- After each notification the store has the policies that the cluster has, and
a notification of one kind changes nothing of the other. -/
theorem store_mirrors_cluster (events : List Notification) (h : ∀ n ∈ events, n.Converts) :
    (∀ before after, events = before ++ after → Mirrors (run before) before) ∧
      ∀ before n after, events = before ++ n :: after →
        (n.kind = .policy →
          (run (before ++ [n])).clusterPolicies = (run before).clusterPolicies) ∧
        (n.kind = .clusterPolicy → ∀ ns,
          (run (before ++ [n])).policiesInNamespace ns = (run before).policiesInNamespace ns) := by
  constructor
  · intro before after hevents
    exact mirrors_of_run before fun n hn => h n (hevents ▸ List.mem_append_left _ hn)
  · intro before n after _
    rw [run_concat]
    exact ⟨fun hkind => clusterPolicies_handle _ hkind,
      fun hkind ns => policiesInNamespace_handle _ hkind ns⟩

/-! A policy that is added, edited and deleted through a tombstone, beside another
that is deleted before it is seen and a cluster policy of the first one's name. -/

def policyObject (ns name policyType : String) (generation : ℤ) : Unstructured where
  ns := ns
  name := name
  uid := "u1"
  generation := generation
  labels := ∅
  annotations := ∅
  spec := some (.obj [("podSelector", .obj []), ("policyTypes", .arr [.str policyType])])

def shopEvents : List Notification :=
  [.added .policy (.object (policyObject "shop" "api" "Ingress" 1)),
    .deleted .policy (.object (policyObject "shop" "web" "Ingress" 1)),
    .added .clusterPolicy (.object (policyObject "" "api" "Egress" 1)),
    .updated .policy (.object (policyObject "shop" "api" "Ingress" 1))
      (.object (policyObject "shop" "api" "Egress" 2)),
    .deleted .policy (.tombstone (some (policyObject "shop" "api" "Egress" 2)))]

theorem converts_shopEvents : ∀ n ∈ shopEvents, n.Converts := by
  intro n hn
  simp only [shopEvents, List.mem_cons, List.not_mem_nil, or_false] at hn
  rcases hn with rfl | rfl | rfl | rfl | rfl <;> intro u hu <;> cases hu <;> rfl

theorem mirrors_shopEvents : Mirrors (run shopEvents) shopEvents :=
  (store_mirrors_cluster shopEvents converts_shopEvents).1 shopEvents [] rfl

end KGuardian.PolicyMirror
