import KGuardian.DeadPods
import KGuardian.FrontendPolicy
import KGuardian.ManifestText
import KGuardian.PeerInclusion
import KGuardian.PodUpserts

/-!
The workload of a pod: its identity and the labels that select its pods, as the
controller traces them through the owner references (`controller/src/pod_watcher.rs`),
the broker keeps them and the frontend selects by them. Each trace asks the API server
anew, and any of its requests may fail.
-/
namespace KGuardian.WorkloadSelectors

open DeadPods FrontendPolicy GoJson KeyedTables MergePatch PeerInclusion PodRecords Runs Selectors

/-! The controller. -/

structure OwnerReference where
  kind : String
  name : String

/-- What the requests of one trace are answered, by namespace and name. Of a workload
only the `match_labels` of its selector are read, and of a replica set its owners. A
request that fails has no answer. -/
structure Api where
  deployment : String → String → Option (Option Labels)
  statefulSet : String → String → Option (Option Labels)
  daemonSet : String → String → Option (Option Labels)
  replicaSet : String → String → Option (Option (List OwnerReference))

/-- The metadata of a pod that stays. -/
structure Pod where
  id : PodId
  labels : Option Labels
  ownerReferences : Option (List OwnerReference)

def getDeploymentSelector (api : Api) (ns name : String) : Option Labels :=
  (api.deployment ns name).join

def getStatefulsetSelector (api : Api) (ns name : String) : Option Labels :=
  (api.statefulSet ns name).join

def getDaemonsetSelector (api : Api) (ns name : String) : Option Labels :=
  (api.daemonSet ns name).join

/-- The first owner that is a deployment decides, with or without a selector. -/
def getDeploymentSelectorFromReplicaset (api : Api) (ns name : String) : Option Labels :=
  ((api.replicaSet ns name).join.bind fun owners =>
    owners.find? fun owner => owner.kind = "Deployment").bind fun owner =>
      getDeploymentSelector api ns owner.name

/-- Here a deployment without a selector is passed over. -/
def getDeploymentNameAndSelectorFromReplicaset (api : Api) (ns name : String) :
    Option (String × Labels) :=
  (api.replicaSet ns name).join.bind fun owners =>
    (owners.filter fun owner => owner.kind = "Deployment").findSome? fun owner =>
      (getDeploymentSelector api ns owner.name).map fun selectors => (owner.name, selectors)

def ownerSelector (api : Api) (ns : String) (owner : OwnerReference) : Option Labels :=
  if owner.kind = "ReplicaSet" then getDeploymentSelectorFromReplicaset api ns owner.name
  else if owner.kind = "Deployment" then getDeploymentSelector api ns owner.name
  else if owner.kind = "StatefulSet" then getStatefulsetSelector api ns owner.name
  else if owner.kind = "DaemonSet" then getDaemonsetSelector api ns owner.name
  else none

def traceOwnerToWorkloadWithSelectors (api : Api) (pod : Pod) : Option Labels :=
  pod.ownerReferences.bind fun owners => owners.findSome? (ownerSelector api pod.id.ns)

def traceOwners (api : Api) (ns : String) :
    List OwnerReference → Option String × Option Labels
  | [] => (none, none)
  | owner :: rest =>
      if owner.kind = "ReplicaSet" then
        match getDeploymentNameAndSelectorFromReplicaset api ns owner.name with
        | some (name, selectors) => (some name, some selectors)
        | none => traceOwners api ns rest
      else if owner.kind = "Deployment" then
        (some owner.name, getDeploymentSelector api ns owner.name)
      else if owner.kind = "StatefulSet" then
        (some owner.name, getStatefulsetSelector api ns owner.name)
      else if owner.kind = "DaemonSet" then
        (some owner.name, getDaemonsetSelector api ns owner.name)
      else traceOwners api ns rest

def traceOwnerToWorkloadWithSelectorsAndName (api : Api) (pod : Pod) :
    Option String × Option Labels :=
  (pod.ownerReferences.map (traceOwners api pod.id.ns)).getD (none, none)

/-- The labels that name a pod's identity, by priority. -/
def identityLabels : List String :=
  ["app.kubernetes.io/name", "app.kubernetes.io/component", "k8s-app", "app"]

def extractPodIdentityAndSelectors (api : Api) (pod : Pod) : Option String × Option Labels :=
  match identityLabels.findSome? (pod.labels.getD ∅).lookup with
  | some name => (some name, traceOwnerToWorkloadWithSelectors api pod)
  | none => traceOwnerToWorkloadWithSelectorsAndName api pod

/-! The record of a pod, and what the frontend reads of its row. -/

def labelsJson (labels : Labels) : Json := .obj (labels.entries.map fun e => (e.1, .str e.2))

def readEntry (e : String × Json) : Option (String × String) :=
  match e.2 with
  | .str v => some (e.1, v)
  | _ => none

def readLabels (value : Json) : Option Labels :=
  (value.asObj.bind fun fields => fields.mapM readEntry).map Labels.ofList

/-- `metadata.labels` of a manifest. -/
def metadataLabels (manifest : Json) : Option Labels :=
  ((manifest.asObj.bind (List.lookup "metadata")).bind fun metadata =>
    metadata.asObj.bind (List.lookup "labels")).bind readLabels

/-- What the watcher sees of a pod at some time, and the answers that its trace gets. -/
structure Sighting (pod : Pod) where
  podIp : String
  podObj : Json
  labels : metadataLabels podObj = pod.labels
  timeStamp : NaiveDateTime
  nodeName : String
  api : Api

/-- What `update_pods_details` posts. -/
def Sighting.watched {pod : Pod} (s : Sighting pod) : WatchedPod where
  pod := pod.id
  podIp := s.podIp
  podObj := s.podObj
  timeStamp := s.timeStamp
  nodeName := s.nodeName
  podIdentity := (extractPodIdentityAndSelectors s.api pod).1
  workloadSelectorLabels := (extractPodIdentityAndSelectors s.api pod).2.map labelsJson

def infoOf (row : PodDetail) : PodInfo where
  podName := row.podName
  podIp := row.podIp
  podNamespace := row.podNamespace
  labels := row.podObj.bind metadataLabels
  podIdentity := row.podIdentity
  workloadSelectorLabels := row.workloadSelectorLabels.bind readLabels

/-! Runs. -/

/-- Beside the pod there are others, of which those of its name in other namespaces write
the same row, and rows of dead pods are marked and deleted. -/
inductive Event (pod : Pod) where
  | seen (s : Sighting pod)
  | otherSeen (w : WatchedPod)
  | markedDead (pod : PodId) (ip : Option String)
  | batch (now : ℤ) (batchSize : ℕ)

/-- The table, and whether a trace has found the selector since the pod has its row. -/
structure State where
  table : PodTable
  learned : Bool

variable {pod : Pod} (db : Database) (days : ℕ)

def finds (pod : Pod) (api : Api) : Bool := (extractPodIdentityAndSelectors api pod).2.isSome

def step (s : State) : Event pod → Option State
  | .seen sighting =>
      some ⟨addPodDetails s.table (updatePodsDetails sighting.watched),
        s.learned || finds pod sighting.api⟩
  | .otherSeen w =>
      if w.pod ≠ pod.id then
        some { s with table := addPodDetails s.table (updatePodsDetails w) }
      else none
  | .markedDead q ip => some { s with table := (markPodAsDead s.table q.name ip).1 }
  | .batch now batchSize =>
      let table := (runDeadPodBatch db days now batchSize s.table).1
      some ⟨table, s.learned && (table.lookup pod.id.name).isSome⟩

def machine (pod : Pod) : Machine State (Event pod) where
  init := ⟨Table.empty, false⟩
  step := step db days

/-! What the cluster promises. -/

/-- Each answer is what the cluster has. -/
structure Truthful (api world : Api) : Prop where
  deployment : ∀ ns name v, api.deployment ns name = some v → world.deployment ns name = some v
  statefulSet : ∀ ns name v, api.statefulSet ns name = some v → world.statefulSet ns name = some v
  daemonSet : ∀ ns name v, api.daemonSet ns name = some v → world.daemonSet ns name = some v
  replicaSet : ∀ ns name v, api.replicaSet ns name = some v → world.replicaSet ns name = some v

/-- The labels by which a workload selects the pods that it owns. -/
inductive Owns (world : Api) (pod : Pod) : Labels → Prop where
  | deployment {owners owner selector} : pod.ownerReferences = some owners → owner ∈ owners →
      owner.kind = "Deployment" →
      world.deployment pod.id.ns owner.name = some (some selector) → Owns world pod selector
  | statefulSet {owners owner selector} : pod.ownerReferences = some owners → owner ∈ owners →
      owner.kind = "StatefulSet" →
      world.statefulSet pod.id.ns owner.name = some (some selector) → Owns world pod selector
  | daemonSet {owners owner selector} : pod.ownerReferences = some owners → owner ∈ owners →
      owner.kind = "DaemonSet" →
      world.daemonSet pod.id.ns owner.name = some (some selector) → Owns world pod selector
  | replicaSet {owners owner above deployment selector} : pod.ownerReferences = some owners →
      owner ∈ owners → owner.kind = "ReplicaSet" →
      world.replicaSet pod.id.ns owner.name = some (some above) → deployment ∈ above →
      deployment.kind = "Deployment" →
      world.deployment pod.id.ns deployment.name = some (some selector) → Owns world pod selector

def workloadKinds : List String := ["ReplicaSet", "Deployment", "StatefulSet", "DaemonSet"]

/-- A pod has one workload, and a workload selects its pods. -/
structure Managed (world : Api) (pod : Pod) : Prop where
  oneOwner : ((pod.ownerReferences.getD []).filter
    fun owner => owner.kind ∈ workloadKinds).length ≤ 1
  oneDeployment : ∀ name above, world.replicaSet pod.id.ns name = some (some above) →
    (above.filter fun owner => owner.kind = "Deployment").length ≤ 1
  selects : ∀ selector, Owns world pod selector → Carried selector (pod.labels.getD ∅)

/-! One trace. -/

/-- An answer that is there is what the other one is, if it is there. -/
def Below {α : Type} (a b : Option α) : Prop := ∀ v, a = some v → b = some v

theorem below_none {α : Type} (b : Option α) : Below none b := by
  intro v hv
  cases hv

theorem below_refl {α : Type} (a : Option α) : Below a a := fun _ => id

theorem Below.bind {α β : Type} {a b : Option α} (h : Below a b) {f g : α → Option β}
    (hfg : ∀ v, b = some v → Below (f v) (g v)) : Below (a.bind f) (b.bind g) := by
  intro w hw
  obtain ⟨v, hv, hfv⟩ := Option.bind_eq_some_iff.mp hw
  exact Option.bind_eq_some_iff.mpr ⟨v, h v hv, hfg v (h v hv) w hfv⟩

theorem Below.join {α : Type} {a b : Option (Option α)} (h : Below a b) :
    Below a.join b.join := by
  intro v hv
  rw [Option.join_eq_some_iff] at hv ⊢
  exact h _ hv

theorem Below.map {α β : Type} {a b : Option α} (h : Below a b) (f : α → β) :
    Below (a.map f) (b.map f) := by
  intro w hw
  obtain ⟨v, hv, rfl⟩ := Option.map_eq_some_iff.mp hw
  rw [h v hv]
  rfl

/-- A loop over at most one element. -/
theorem below_findSome? {α β : Type} {l : List α} (hl : l.length ≤ 1) {f g : α → Option β}
    (hfg : ∀ a, Below (f a) (g a)) : Below (l.findSome? f) (l.findSome? g) := by
  match l, hl with
  | [], _ => exact below_refl _
  | [a], _ =>
      simp only [List.findSome?_singleton]
      exact hfg a

variable {api world : Api}

theorem below_deployment (h : Truthful api world) (ns name : String) :
    Below (getDeploymentSelector api ns name) (getDeploymentSelector world ns name) :=
  Below.join (h.deployment ns name)

theorem below_ownerSelector (h : Truthful api world) (ns : String) (owner : OwnerReference) :
    Below (ownerSelector api ns owner) (ownerSelector world ns owner) := by
  unfold ownerSelector
  split_ifs
  · apply Below.bind
    · apply Below.bind (Below.join (h.replicaSet ns owner.name))
      intro owners _
      exact below_refl _
    · intro deployment _
      exact below_deployment h ns deployment.name
  · exact below_deployment h ns owner.name
  · exact Below.join (h.statefulSet ns owner.name)
  · exact Below.join (h.daemonSet ns owner.name)
  · exact below_refl none

theorem below_nameAndSelector (h : Truthful api world) {ns name : String}
    (hone : ∀ above, world.replicaSet ns name = some (some above) →
      (above.filter fun owner => owner.kind = "Deployment").length ≤ 1) :
    Below (getDeploymentNameAndSelectorFromReplicaset api ns name)
      (getDeploymentNameAndSelectorFromReplicaset world ns name) := by
  apply Below.bind (Below.join (h.replicaSet ns name))
  intro above habove
  apply below_findSome? (hone above (Option.join_eq_some_iff.mp habove))
  intro owner
  exact (below_deployment h ns owner.name).map _

theorem ownerSelector_eq_none (api : Api) (ns : String) {owner : OwnerReference}
    (h : owner.kind ∉ workloadKinds) : ownerSelector api ns owner = none := by
  unfold workloadKinds at h
  simp only [List.mem_cons, List.not_mem_nil, or_false, not_or] at h
  obtain ⟨hreplicaSet, hdeployment, hstatefulSet, hdaemonSet⟩ := h
  rw [ownerSelector, if_neg hreplicaSet, if_neg hdeployment, if_neg hstatefulSet,
    if_neg hdaemonSet]

/-- Owners that are no workloads are passed over. -/
theorem findSome?_ownerSelector (api : Api) (ns : String) (owners : List OwnerReference) :
    owners.findSome? (ownerSelector api ns) =
      (owners.filter fun owner => owner.kind ∈ workloadKinds).findSome? (ownerSelector api ns) := by
  induction owners with
  | nil => rfl
  | cons owner owners ih =>
      by_cases hkind : owner.kind ∈ workloadKinds
      · rw [List.filter_cons_of_pos (by simpa using hkind), List.findSome?_cons,
          List.findSome?_cons, ih]
      · rw [List.filter_cons_of_neg (by simpa using hkind), List.findSome?_cons,
          ownerSelector_eq_none api ns hkind, ih]

theorem traceOwners_filter (api : Api) (ns : String) (owners : List OwnerReference) :
    traceOwners api ns owners =
      traceOwners api ns (owners.filter fun owner => owner.kind ∈ workloadKinds) := by
  induction owners with
  | nil => rfl
  | cons owner owners ih =>
      by_cases hkind : owner.kind ∈ workloadKinds
      · rw [List.filter_cons_of_pos (by simpa using hkind), traceOwners, traceOwners, ih]
      · rw [List.filter_cons_of_neg (by simpa using hkind), ← ih]
        unfold workloadKinds at hkind
        simp only [List.mem_cons, List.not_mem_nil, or_false, not_or] at hkind
        obtain ⟨hreplicaSet, hdeployment, hstatefulSet, hdaemonSet⟩ := hkind
        rw [traceOwners, if_neg hreplicaSet, if_neg hdeployment, if_neg hstatefulSet,
          if_neg hdaemonSet]

/-- Both parts of a trace. -/
structure BothBelow (r r' : Option String × Option Labels) : Prop where
  identity : Below r.1 r'.1
  selectors : Below r.2 r'.2

theorem bothBelow_refl (r : Option String × Option Labels) : BothBelow r r :=
  ⟨below_refl _, below_refl _⟩

theorem bothBelow_traceOwners (h : Truthful api world) {ns : String}
    (hone : ∀ name above, world.replicaSet ns name = some (some above) →
      (above.filter fun owner => owner.kind = "Deployment").length ≤ 1)
    {owners : List OwnerReference} (howners : owners.length ≤ 1) :
    BothBelow (traceOwners api ns owners) (traceOwners world ns owners) := by
  match owners, howners with
  | [], _ => exact bothBelow_refl _
  | [owner], _ =>
      simp only [traceOwners]
      split_ifs
      · have hbelow := below_nameAndSelector h (hone owner.name)
        cases hfound : getDeploymentNameAndSelectorFromReplicaset api ns owner.name with
        | none => exact ⟨below_none _, below_none _⟩
        | some found =>
            rw [hbelow found hfound]
            exact bothBelow_refl _
      · exact ⟨below_refl _, below_deployment h ns owner.name⟩
      · exact ⟨below_refl _, Below.join (h.statefulSet ns owner.name)⟩
      · exact ⟨below_refl _, Below.join (h.daemonSet ns owner.name)⟩
      · exact bothBelow_refl _

/-- What a trace finds, it also finds when no request fails. -/
theorem bothBelow_extract (h : Truthful api world) (hmanaged : Managed world pod) :
    BothBelow (extractPodIdentityAndSelectors api pod)
      (extractPodIdentityAndSelectors world pod) := by
  have hone := hmanaged.oneOwner
  unfold extractPodIdentityAndSelectors
  cases identityLabels.findSome? (pod.labels.getD ∅).lookup with
  | some name =>
      refine ⟨below_refl _, ?_⟩
      unfold traceOwnerToWorkloadWithSelectors
      cases howners : pod.ownerReferences with
      | none => exact below_refl _
      | some owners =>
          rw [howners, Option.getD_some] at hone
          rw [Option.bind_some, Option.bind_some, findSome?_ownerSelector api,
            findSome?_ownerSelector world]
          exact below_findSome? hone (below_ownerSelector h pod.id.ns)
  | none =>
      unfold traceOwnerToWorkloadWithSelectorsAndName
      cases howners : pod.ownerReferences with
      | none => exact bothBelow_refl _
      | some owners =>
          rw [howners, Option.getD_some] at hone
          rw [Option.map_some, Option.map_some, Option.getD_some, Option.getD_some,
            traceOwners_filter api, traceOwners_filter world]
          exact bothBelow_traceOwners h hmanaged.oneDeployment hone

/-! What a trace finds. -/

theorem owns_of_ownerSelector {owners : List OwnerReference} (howners : pod.ownerReferences =
    some owners) {owner : OwnerReference} (hmem : owner ∈ owners) {selector : Labels}
    (h : ownerSelector world pod.id.ns owner = some selector) : Owns world pod selector := by
  unfold ownerSelector at h
  split_ifs at h with hreplicaSet hdeployment hstatefulSet hdaemonSet
  · obtain ⟨above, habove, hselector⟩ := Option.bind_eq_some_iff.mp h
    obtain ⟨all, hall, hfind⟩ := Option.bind_eq_some_iff.mp habove
    have hkind : above.kind = "Deployment" := by simpa using List.find?_some hfind
    exact .replicaSet howners hmem hreplicaSet (Option.join_eq_some_iff.mp hall)
      (List.mem_of_find?_eq_some hfind) hkind (Option.join_eq_some_iff.mp hselector)
  · exact .deployment howners hmem hdeployment (Option.join_eq_some_iff.mp h)
  · exact .statefulSet howners hmem hstatefulSet (Option.join_eq_some_iff.mp h)
  · exact .daemonSet howners hmem hdaemonSet (Option.join_eq_some_iff.mp h)

theorem owns_of_traceOwners {owners rest : List OwnerReference}
    (howners : pod.ownerReferences = some owners) (hrest : rest ⊆ owners) {selector : Labels}
    (h : (traceOwners world pod.id.ns rest).2 = some selector) : Owns world pod selector := by
  induction rest with
  | nil => cases h
  | cons owner rest ih =>
      have hmem : owner ∈ owners := hrest List.mem_cons_self
      have hlater := ih fun a ha => hrest (List.mem_cons_of_mem _ ha)
      rw [traceOwners] at h
      split_ifs at h with hreplicaSet hdeployment hstatefulSet hdaemonSet
      · split at h
        · rename_i name found hfound
          obtain rfl := Option.some.inj h
          obtain ⟨above, habove, hfind⟩ := Option.bind_eq_some_iff.mp hfound
          obtain ⟨deployment, hdeployment, hname⟩ := List.exists_of_findSome?_eq_some hfind
          obtain ⟨hin, hkind⟩ := List.mem_filter.mp hdeployment
          obtain ⟨l, hl, heq⟩ := Option.map_eq_some_iff.mp hname
          obtain ⟨-, rfl⟩ := Prod.mk.inj heq
          exact .replicaSet howners hmem hreplicaSet (Option.join_eq_some_iff.mp habove) hin
            (of_decide_eq_true hkind) (Option.join_eq_some_iff.mp hl)
        · exact hlater h
      · exact .deployment howners hmem hdeployment (Option.join_eq_some_iff.mp h)
      · exact .statefulSet howners hmem hstatefulSet (Option.join_eq_some_iff.mp h)
      · exact .daemonSet howners hmem hdaemonSet (Option.join_eq_some_iff.mp h)
      · exact hlater h

theorem owns_of_extract {selector : Labels}
    (h : (extractPodIdentityAndSelectors world pod).2 = some selector) :
    Owns world pod selector := by
  unfold extractPodIdentityAndSelectors at h
  cases hname : identityLabels.findSome? (pod.labels.getD ∅).lookup with
  | some name =>
      rw [hname] at h
      obtain ⟨owners, howners, hfind⟩ := Option.bind_eq_some_iff.mp h
      obtain ⟨owner, hmem, hselector⟩ := List.exists_of_findSome?_eq_some hfind
      exact owns_of_ownerSelector howners hmem hselector
  | none =>
      rw [hname] at h
      unfold traceOwnerToWorkloadWithSelectorsAndName at h
      cases howners : pod.ownerReferences with
      | none =>
          rw [howners] at h
          cases h
      | some owners =>
          rw [howners] at h
          exact owns_of_traceOwners howners (List.Subset.refl _) h

/-! Labels in records. -/

theorem readLabels_labelsJson (labels : Labels) : readLabels (labelsJson labels) = some labels := by
  have hentries (l : List (Sigma fun _ : String => String)) :
      (l.map fun e => (e.1, Json.str e.2)).mapM readEntry = some (l.map fun e => (e.1, e.2)) := by
    induction l with
    | nil => rfl
    | cons e l ih =>
        rw [List.map_cons, List.mapM_cons, ih]
        rfl
  have hkeys : ((labels.entries.map fun e => (e.1, e.2)).map Prod.fst).Nodup := by
    rw [List.map_map]
    exact labels.nodupKeys
  have hlabels : Labels.ofList (labels.entries.map fun e => (e.1, e.2)) = labels := by
    apply AList.ext
    rw [ManifestText.entries_ofList hkeys, List.map_map]
    exact List.map_id _
  rw [readLabels, labelsJson, Json.asObj, Option.bind_some, hentries, Option.map_some, hlabels]

def dropManagedFields (fields : Fields) : Json :=
  match fields.lookup "metadata" with
  | some (.obj metadata) =>
      .obj (setKey "metadata" (.obj (deleteKey metadata "managedFields")) fields)
  | _ => .obj fields

theorem metadataLabels_dropManagedFields (fields : Fields) :
    metadataLabels (dropManagedFields fields) = metadataLabels (.obj fields) := by
  unfold dropManagedFields
  split
  · rename_i metadata hmetadata
    simp only [metadataLabels, Json.asObj, Option.bind_some, lookup_setKey, if_true, hmetadata,
      lookup_deleteKey]
    rw [if_neg (by decide)]
  · rfl

/-- Manifests with the same metadata have the same labels. -/
theorem metadataLabels_congr {fields fields' : Fields}
    (h : fields.lookup "metadata" = fields'.lookup "metadata") :
    metadataLabels (.obj fields) = metadataLabels (.obj fields') := by
  simp only [metadataLabels, Json.asObj, Option.bind_some, h]

/-- What the broker drops of a manifest is not read. -/
theorem metadataLabels_compactPodObj (manifest : Json) :
    metadataLabels (compactPodObj manifest) = metadataLabels manifest := by
  cases manifest with
  | obj fields =>
      have hstatus (fields : Fields) :
          (deleteKey fields "status").lookup "metadata" = fields.lookup "metadata" :=
        (lookup_deleteKey _ _ _).trans (if_neg (by decide))
      cases hhost : hostNetworkOf fields with
      | none =>
          have hcompact : compactPodObj (.obj fields) =
              dropManagedFields (deleteKey (deleteKey fields "spec") "status") := by
            simp only [compactPodObj, hhost]
            rfl
          rw [hcompact, metadataLabels_dropManagedFields]
          apply metadataLabels_congr
          rw [hstatus, lookup_deleteKey, if_neg (by decide)]
      | some hostNetwork =>
          have hcompact : compactPodObj (.obj fields) =
              dropManagedFields (deleteKey
                (setKey "spec" (.obj [("hostNetwork", hostNetwork)]) fields) "status") := by
            simp only [compactPodObj, hhost]
            rfl
          rw [hcompact, metadataLabels_dropManagedFields]
          apply metadataLabels_congr
          rw [hstatus, lookup_setKey, if_neg (by decide)]
  | _ => rfl

/-! The row of the pod. -/

/-- What the row says of the pod and its workload. -/
structure RowTells (world : Api) (pod : Pod) (learned : Bool) (row : PodDetail) : Prop where
  labels : row.podObj.bind metadataLabels = pod.labels
  identity : Below row.podIdentity (extractPodIdentityAndSelectors world pod).1
  selectors : row.workloadSelectorLabels =
    if learned then (extractPodIdentityAndSelectors world pod).2.map labelsJson else none

structure Tells (world : Api) (pod : Pod) (s : State) : Prop where
  row : ∀ row, s.table.lookup pod.id.name = some row → RowTells world pod s.learned row
  absent : s.table.lookup pod.id.name = none → s.learned = false

theorem lookup_seen (t : PodTable) (w : WatchedPod) (name : String) :
    (addPodDetails t (updatePodsDetails w)).lookup name =
      if name = w.pod.name then
        some (((t.lookup name).map (changeset (PodUpserts.compacted (updatePodsDetails w)))).getD
          (inserted (PodUpserts.compacted (updatePodsDetails w))))
      else t.lookup name :=
  PodUpserts.lookup_addPodDetails t ⟨updatePodsDetails w, w.pod.not_blank⟩ name

/-- A sighting keeps what the row knows, and adds what its trace finds. -/
theorem Tells.seen {s : State} (h : Tells world pod s) (hmanaged : Managed world pod)
    (sighting : Sighting pod) (htruthful : Truthful sighting.api world) :
    Tells world pod ⟨addPodDetails s.table (updatePodsDetails sighting.watched),
      s.learned || finds pod sighting.api⟩ := by
  have hbelow := bothBelow_extract htruthful hmanaged
  have hlookup := lookup_seen s.table sighting.watched pod.id.name
  rw [if_pos (show pod.id.name = sighting.watched.pod.name from rfl)] at hlookup
  have hobj : metadataLabels (compactPodObj sighting.podObj) = pod.labels :=
    (metadataLabels_compactPodObj _).trans sighting.labels
  have hfound (l : Labels) (hl : (extractPodIdentityAndSelectors sighting.api pod).2 = some l) :
      (extractPodIdentityAndSelectors world pod).2 = some l := hbelow.selectors l hl
  constructor
  · intro row hrow
    rw [hlookup] at hrow
    obtain rfl := Option.some.inj hrow
    cases hold : s.table.lookup pod.id.name with
    | none =>
        have hlearned := h.absent hold
        refine ⟨hobj, hbelow.identity, ?_⟩
        show (extractPodIdentityAndSelectors sighting.api pod).2.map labelsJson = _
        rw [hlearned, Bool.false_or, finds]
        cases hfind : (extractPodIdentityAndSelectors sighting.api pod).2 with
        | none => rfl
        | some l => rw [hfound l hfind]; rfl
    | some old =>
        have hrowOld := h.row old hold
        refine ⟨hobj, ?_, ?_⟩
        · intro i hi
          obtain hnew | ⟨-, hkept⟩ := Option.or_eq_some_iff.mp hi
          · exact hbelow.identity i hnew
          · exact hrowOld.identity i hkept
        · show ((extractPodIdentityAndSelectors sighting.api pod).2.map labelsJson).or
            old.workloadSelectorLabels = _
          rw [hrowOld.selectors, finds]
          cases hfind : (extractPodIdentityAndSelectors sighting.api pod).2 with
          | none => simp
          | some l => rw [hfound l hfind]; simp
  · intro hnone
    rw [hlookup] at hnone
    cases hnone

theorem RowTells.markRow {learned : Bool} {row : PodDetail}
    (h : RowTells world pod learned row) (name : String) (ip : Option String) :
    RowTells world pod learned (markRow name ip row) := by
  unfold PodRecords.markRow
  split
  · exact ⟨h.labels, h.identity, h.selectors⟩
  · exact h

theorem Tells.markedDead {s : State} (h : Tells world pod s) (q : PodId) (ip : Option String) :
    Tells world pod { s with table := (markPodAsDead s.table q.name ip).1 } := by
  have hlookup := lookup_markPodAsDead s.table q ip pod.id.name
  constructor
  · intro row hrow
    rw [hlookup] at hrow
    obtain ⟨old, hold, rfl⟩ := Option.map_eq_some_iff.mp hrow
    exact (h.row old hold).markRow q.name ip
  · intro hnone
    rw [hlookup] at hnone
    exact h.absent (Option.map_eq_none_iff.mp hnone)

/-- A batch deletes a row or leaves it as it is. -/
theorem lookup_runDeadPodBatch (now : ℤ) (batchSize : ℕ) (t : PodTable) (name : String) :
    (runDeadPodBatch db days now batchSize t).1.lookup name = none ∨
      (runDeadPodBatch db days now batchSize t).1.lookup name = t.lookup name := by
  have hlookup : (runDeadPodBatch db days now batchSize t).1.lookup name = _ :=
    Table.lookup_delete t _ name
  rw [hlookup]
  cases t.lookup name with
  | none => exact Or.inl rfl
  | some row =>
      rw [Option.filter_some]
      split
      · exact Or.inr rfl
      · exact Or.inl rfl

theorem Tells.batch {s : State} (h : Tells world pod s) {t : PodTable}
    (ht : t.lookup pod.id.name = none ∨ t.lookup pod.id.name = s.table.lookup pod.id.name) :
    Tells world pod ⟨t, s.learned && (t.lookup pod.id.name).isSome⟩ := by
  constructor
  · intro row hrow
    obtain hnone | hsame := ht
    · rw [hnone] at hrow
      cases hrow
    · simp only [hrow, Option.isSome_some, Bool.and_true]
      exact h.row row (hsame ▸ hrow)
  · intro hnone
    simp only [hnone, Option.isSome_none, Bool.and_false]

/-- The answers that the traces of a run get are true. -/
def TrueAnswers (world : Api) (events : List (Event pod)) : Prop :=
  ∀ sighting, .seen sighting ∈ events → Truthful sighting.api world

/-- No pod of another namespace that is seen has the name of the pod. -/
def OwnName (events : List (Event pod)) : Prop :=
  ∀ w, .otherSeen w ∈ events → w.pod.name ≠ pod.id.name

theorem Tells.step {s s' : State} {e : Event pod} (h : Tells world pod s)
    (hmanaged : Managed world pod)
    (htrue : ∀ sighting, e = .seen sighting → Truthful sighting.api world)
    (hown : ∀ w, e = .otherSeen w → w.pod.name ≠ pod.id.name)
    (hstep : step db days s e = some s') : Tells world pod s' := by
  cases e with
  | seen sighting =>
      obtain rfl := Option.some.inj hstep
      exact h.seen hmanaged sighting (htrue sighting rfl)
  | otherSeen w =>
      obtain ⟨-, rfl⟩ := Machine.of_guard hstep
      have hlookup := lookup_seen s.table w pod.id.name
      rw [if_neg (Ne.symm (hown w rfl))] at hlookup
      exact ⟨fun row hrow => h.row row (hlookup ▸ hrow), fun hnone => h.absent (hlookup ▸ hnone)⟩
  | markedDead q ip =>
      obtain rfl := Option.some.inj hstep
      exact h.markedDead q ip
  | batch now batchSize =>
      obtain rfl := Option.some.inj hstep
      exact h.batch (lookup_runDeadPodBatch db days now batchSize s.table pod.id.name)

theorem tells_run (hmanaged : Managed world pod) {events : List (Event pod)} {s : State}
    (h : (machine db days pod).run events = some s) (htrue : TrueAnswers world events)
    (hown : OwnName events) : Tells world pod s := by
  refine Machine.invariant (P := fun events s => TrueAnswers world events → OwnName events →
    Tells world pod s) ?_ ?_ h htrue hown
  · intro _ _
    refine ⟨?_, fun _ => rfl⟩
    intro row hrow
    cases hrow
  · intro before s₀ e s' _ hs₀ hstep htrue hown
    have hlast : e ∈ before ++ [e] := List.mem_append_right _ (List.mem_singleton_self _)
    have hbefore : TrueAnswers world before :=
      fun sighting hmem => htrue sighting (List.mem_append_left _ hmem)
    have hownBefore : OwnName before := fun w hmem => hown w (List.mem_append_left _ hmem)
    refine (hs₀ hbefore hownBefore).step db days hmanaged ?_ ?_ hstep
    · intro sighting heq
      exact htrue sighting (heq ▸ hlast)
    · intro w heq
      exact hown w (heq ▸ hlast)

/-! What the frontend selects. -/

theorem carried_self (labels : Labels) : Carried labels labels := by
  intro l hl
  exact AList.mem_lookup_iff.mpr hl

/-- Nothing is on an object without labels. -/
theorem not_carried_empty {labels : Labels} (h : labels.keys ≠ []) : ¬ Carried labels ∅ := by
  intro hcarried
  obtain ⟨key, hkey⟩ := List.exists_mem_of_ne_nil _ h
  obtain ⟨v, hv⟩ := List.mem_keys.mp hkey
  have hlookup := hcarried _ hv
  rw [AList.lookup_empty] at hlookup
  cases hlookup

theorem presentLabels_eq_some {labels : Option Labels} {l : Labels}
    (h : presentLabels labels = some l) : labels = some l ∧ l.keys ≠ [] := by
  obtain ⟨hl, hne⟩ := Option.filter_eq_some_iff.mp h
  exact ⟨hl, of_decide_eq_true hne⟩

/-- The labels that the frontend selects by are on the pod, unless it has none. -/
theorem carried_targetPodLabels_iff {info : PodInfo} {labels : Option Labels}
    (hlabels : info.labels = labels)
    (hselectors : ∀ l, info.workloadSelectorLabels = some l → Carried l (labels.getD ∅)) :
    Carried (targetPodLabels info) (labels.getD ∅) ↔ (labels.getD ∅).keys ≠ [] := by
  have hempty {l : Labels} (hl : (labels.getD ∅).keys = []) (hne : l.keys ≠ []) :
      ¬ Carried l (labels.getD ∅) := by
    have heq : labels.getD ∅ = ∅ := by
      apply AList.ext
      exact List.map_eq_nil_iff.mp hl
    rw [heq]
    exact not_carried_empty hne
  unfold targetPodLabels labelsOf
  cases hworkload : presentLabels info.workloadSelectorLabels with
  | some l =>
      obtain ⟨hl, hne⟩ := presentLabels_eq_some hworkload
      have hcarried := hselectors l hl
      exact iff_of_true hcarried fun hkeys => hempty hkeys hne hcarried
  | none =>
      rw [Option.none_or]
      cases hown : presentLabels info.labels with
      | some l =>
          obtain ⟨hl, hne⟩ := presentLabels_eq_some hown
          rw [hlabels] at hl
          subst hl
          exact iff_of_true (carried_self l) hne
      | none =>
          have hkeys : (labels.getD ∅).keys = [] := by
            rw [hlabels] at hown
            cases labels with
            | none => rfl
            | some l =>
                by_contra hne
                have hpresent : l.keys ≠ [] := hne
                have hsome : presentLabels (some l) = some l := by
                  rw [presentLabels, Option.filter_some, if_pos (decide_eq_true hpresent)]
                rw [hown] at hsome
                cases hsome
          have happ : (appLabel info.podName).keys ≠ [] := by
            intro h
            cases h
          exact iff_of_false (hempty hkeys happ) fun hne => hne hkeys

/-- What the frontend makes of the row of a pod. -/
structure SelectsWorkload (world : Api) (pod : Pod) (learned : Bool) (info : PodInfo) : Prop where
  identity : Below info.podIdentity (extractPodIdentityAndSelectors world pod).1
  selectors : info.workloadSelectorLabels =
    if learned then (extractPodIdentityAndSelectors world pod).2 else none
  target : Carried (targetPodLabels info) (pod.labels.getD ∅) ↔ (pod.labels.getD ∅).keys ≠ []

/-- Whichever requests fail, the row of a name that one pod has never tells another
workload, it keeps what one trace has found, and the frontend selects the pod by labels
that it has. -/
theorem row_selectsWorkload (hmanaged : Managed world pod) {events : List (Event pod)} {s : State}
    (h : (machine db days pod).run events = some s) (htrue : TrueAnswers world events)
    (hown : OwnName events) {row : PodDetail} (hrow : s.table.lookup pod.id.name = some row) :
    SelectsWorkload world pod s.learned (infoOf row) := by
  have htells := (tells_run db days hmanaged h htrue hown).row row hrow
  have hselectors : (infoOf row).workloadSelectorLabels =
      if s.learned then (extractPodIdentityAndSelectors world pod).2 else none := by
    show row.workloadSelectorLabels.bind readLabels = _
    rw [htells.selectors]
    cases s.learned with
    | false => rfl
    | true =>
        cases (extractPodIdentityAndSelectors world pod).2 with
        | none => rfl
        | some l => exact readLabels_labelsJson l
  refine ⟨htells.identity, hselectors, ?_⟩
  apply carried_targetPodLabels_iff htells.labels
  intro l hl
  rw [hselectors] at hl
  split at hl
  · exact hmanaged.selects l (owns_of_extract hl)
  · cases hl

/-! A pod of a deployment, seen while the API server is away, then there, then away. -/

def tierLabel : Labels := Labels.ofList [("tier", "web")]

def shopPod : Pod where
  id := prodWeb
  labels := some tierLabel
  ownerReferences := some [⟨"ReplicaSet", "web-6d4"⟩]

def away : Api := ⟨fun _ _ => none, fun _ _ => none, fun _ _ => none, fun _ _ => none⟩

def shopApi : Api :=
  { away with
    deployment := fun _ name => if name = "web" then some (some tierLabel) else none
    replicaSet := fun _ name =>
      if name = "web-6d4" then some (some [⟨"Deployment", "web"⟩]) else none }

def shopManifest : Json := .obj [("metadata", .obj [("labels", labelsJson tierLabel)])]

theorem shopManifest_labels : metadataLabels shopManifest = shopPod.labels :=
  readLabels_labelsJson tierLabel

def sighted (api : Api) : Event shopPod :=
  .seen ⟨"10.244.1.7", shopManifest, shopManifest_labels, 1000000000, "node-a", api⟩

def neighbour : PodId where
  ns := "staging"
  name := "api-0"
  named := ⟨by decide, fun c hc => Bool.eq_false_iff.mpr (List.any_eq_false.mp (by decide) c hc)⟩

/-- A pod of another name is seen in between. -/
def flaky : List (Event shopPod) :=
  [sighted away, sighted shopApi, .otherSeen (watchedWeb neighbour "10.244.1.8" "node-a"),
    sighted away]

def quietDatabase : Database := ⟨fun _ => 0, fun _ _ => true⟩

theorem away_truthful (world : Api) : Truthful away world := by
  constructor <;> exact fun _ _ v hv => by cases hv

theorem shopPod_managed : Managed shopApi shopPod where
  oneOwner := by decide
  oneDeployment := by
    intro name above habove
    have hname : above = [⟨"Deployment", "web"⟩] := by
      simp only [shopApi] at habove
      split at habove
      · exact (Option.some.inj (Option.some.inj habove)).symm
      · cases habove
    subst hname
    decide
  selects := by
    intro selector howns
    have hdeployment (name : String)
        (h : shopApi.deployment shopPod.id.ns name = some (some selector)) :
        Carried selector tierLabel := by
      simp only [shopApi] at h
      split at h
      · obtain rfl := Option.some.inj (Option.some.inj h)
        exact carried_self tierLabel
      · cases h
    cases howns with
    | deployment _ _ _ h => exact hdeployment _ h
    | statefulSet _ _ _ h => cases h
    | daemonSet _ _ _ h => cases h
    | replicaSet _ _ _ _ _ _ h => exact hdeployment _ h

theorem shopPod_selected : ∃ s row,
    (machine quietDatabase 7 shopPod).run flaky = some s ∧ s.table.lookup "web-1" = some row ∧
      s.learned = true ∧ SelectsWorkload shopApi shopPod s.learned (infoOf row) := by
  have hrun : ((machine quietDatabase 7 shopPod).run flaky).isSome = true := rfl
  have hsome := (Option.some_get hrun).symm
  have htrue : TrueAnswers shopApi flaky := by
    intro sighting hmem
    simp only [flaky, List.mem_cons, List.not_mem_nil, or_false] at hmem
    obtain h | h | h | h := hmem
    · obtain rfl := Event.seen.inj h
      exact away_truthful shopApi
    · obtain rfl := Event.seen.inj h
      exact ⟨fun _ _ _ => id, fun _ _ _ => id, fun _ _ _ => id, fun _ _ _ => id⟩
    · cases h
    · obtain rfl := Event.seen.inj h
      exact away_truthful shopApi
  have hown : OwnName flaky := by
    intro w hmem
    simp only [flaky, sighted, List.mem_cons, List.not_mem_nil, or_false, reduceCtorEq, false_or,
      Event.otherSeen.injEq] at hmem
    rw [hmem]
    decide
  refine ⟨_, _, hsome, rfl, rfl, ?_⟩
  exact row_selectsWorkload quietDatabase 7 shopPod_managed hsome htrue hown rfl

end KGuardian.WorkloadSelectors
