import KGuardian.InodeOwners
import KGuardian.PodRecords

/-!
What the watcher does with a pod (`process_pod` in `controller/src/pod_watcher.rs`): it publishes
the pod's details, hands its address to the probes if a daemonset owns it, and registers its
containers. A pod counts as not ready when the messages of its failed conditions make a text that
is not empty, so one failed condition without a message goes unnoticed.
-/
namespace KGuardian.PodReadiness

open GoJson InodeOwners
open NetworkEvents (PodInfo)
open PodRecords (PodDetail)

/-- A pod with the kinds of its owners, its identity and selector as they are looked up, and the
text of the object. -/
structure WatchedPod where
  pod : Pod
  ownerKinds : Option (List String)
  identity : Option String
  workloadSelectorLabels : Option Json
  object : Json

/-- The settings of a controller, and what it reads besides the pod. -/
structure Watcher where
  excludedNamespaces : List String
  ignoreDaemonsetTraffic : Bool
  nodeName : String
  now : KeyedTables.NaiveDateTime
  inspect : String → Option (BitVec 64)

/-- What is posted to the broker, sent to the probes and registered. -/
structure Effects where
  posted : Option PodDetail
  ignored : Option String
  registered : Option (BitVec 64 × PodInfo)

def Effects.none : Effects := ⟨.none, .none, .none⟩

def podDetail (w : Watcher) (p : WatchedPod) (podIp : String) : PodDetail where
  podName := p.pod.name
  podIp := podIp
  podNamespace := p.pod.ns
  podObj := some p.object
  timeStamp := w.now
  nodeName := w.nodeName
  isDead := false
  podIdentity := p.identity
  workloadSelectorLabels := p.workloadSelectorLabels

/-- The details that are posted, and the address. -/
def updatePodsDetails (w : Watcher) (p : WatchedPod) : Option (PodDetail × String) :=
  (p.pod.status.bind PodStatus.podIp).map fun podIp => (podDetail w p podIp, podIp)

def isBackedByDaemonset (p : WatchedPod) : Bool :=
  (p.ownerKinds.getD []).any fun kind => kind = "DaemonSet"

def processPod (w : Watcher) (p : WatchedPod) : Effects :=
  match podUnready p.pod with
  | none => .none
  | some conIds =>
      match updatePodsDetails w p with
      | none => .none
      | some (detail, podIp) =>
          { posted := some detail
            ignored :=
              if w.ignoreDaemonsetTraffic && isBackedByDaemonset p then some podIp else none
            registered :=
              if shouldProcessPod p.pod.ns w.excludedNamespaces then
                (processContainerIds conIds w.inspect).map fun inum =>
                  (inum, createPodInfo p.pod podIp)
              else none }

/-- What is registered is what the runs of the controller register. -/
theorem registered_processPod (w : Watcher) (p : WatchedPod) :
    (processPod w p).registered = InodeOwners.processPod w.excludedNamespaces p.pod w.inspect := by
  unfold processPod InodeOwners.processPod updatePodsDetails
  cases podUnready p.pod with
  | none => rfl
  | some conIds => cases p.pod.status.bind PodStatus.podIp <;> rfl

/-! Conditions. -/

def conditions (pod : Pod) : List PodCondition :=
  (pod.status.bind PodStatus.conditions).getD []

/-- A condition says that the pod is not ready. -/
def PodCondition.Failed (c : PodCondition) : Prop := c.type = "Ready" ∧ c.status = "False"

instance (c : PodCondition) : Decidable (PodCondition.Failed c) :=
  inferInstanceAs (Decidable (_ ∧ _))

def failedConditions (pod : Pod) : List PodCondition :=
  (conditions pod).filter fun c => PodCondition.Failed c

/-- The pod is registered, or published as live. -/
def Effects.TakesAsLive (e : Effects) : Prop :=
  e.registered ≠ .none ∨ ∃ detail, e.posted = some detail ∧ detail.isDead = false

/-- One condition says that the pod is not ready, and it has no message or an empty one, while
the pod has containers and an address. -/
structure SilentlyUnready (pod : Pod) : Prop where
  condition : ∃ c, failedConditions pod = [c] ∧ c.message.getD "" = ""
  containers : (pod.status.bind PodStatus.containerStatuses).isSome
  address : (pod.status.bind PodStatus.podIp).isSome

theorem intercalate_eq_empty_iff (messages : List String) :
    ",".intercalate messages = "" ↔ messages = [] ∨ messages = [""] := by
  cases messages with
  | nil => simp
  | cons message rest => cases rest <;> simp

/-- The messages of the failed conditions, as they are joined. -/
def failureText (pod : Pod) : String :=
  ",".intercalate ((failedConditions pod).map fun c => c.message.getD "")

theorem failureText_eq_empty_iff (pod : Pod) :
    failureText pod = "" ↔
      failedConditions pod = [] ∨ ∃ c, failedConditions pod = [c] ∧ c.message.getD "" = "" := by
  rw [failureText, intercalate_eq_empty_iff, List.map_eq_nil_iff, List.map_eq_singleton_iff]

theorem podUnready_eq (pod : Pod) :
    podUnready pod =
      if failureText pod ≠ "" then none
      else (pod.status.bind PodStatus.containerStatuses).map fun ids => ids.filterMap id := by
  unfold podUnready
  cases hstatus : pod.status with
  | none => simp
  | some status =>
      have hconditions : conditions pod = status.conditions.getD [] := by
        rw [conditions, hstatus, Option.bind_some]
      have htext : failureText pod = ",".intercalate (((status.conditions.getD []).filter fun c =>
          c.type = "Ready" && c.status = "False").map fun c => c.message.getD "") := by
        have hfilter : failedConditions pod = (status.conditions.getD []).filter fun c =>
            c.type = "Ready" && c.status = "False" := by
          rw [failedConditions, hconditions]
          exact List.filter_congr fun c _ => Bool.decide_and _ _
        rw [failureText, hfilter]
      rw [htext, Option.bind_some]

/-- A pod is taken for ready exactly when no condition failed, or one without a message. -/
theorem podUnready_isSome_iff (pod : Pod) :
    (podUnready pod).isSome ↔
      (failedConditions pod = [] ∨ ∃ c, failedConditions pod = [c] ∧ c.message.getD "" = "") ∧
        (pod.status.bind PodStatus.containerStatuses).isSome := by
  rw [podUnready_eq, ← failureText_eq_empty_iff]
  by_cases htext : failureText pod = ""
  · rw [if_neg (not_not.mpr htext), Option.isSome_map, and_iff_right htext]
  · rw [if_pos htext]
    simp [htext]

/-- A pod is published when it is taken for ready and has an address, and only then can its
containers be registered. -/
theorem takesAsLive_iff (w : Watcher) (p : WatchedPod) :
    (processPod w p).TakesAsLive ↔
      (podUnready p.pod).isSome ∧ (p.pod.status.bind PodStatus.podIp).isSome := by
  unfold processPod updatePodsDetails Effects.TakesAsLive
  cases podUnready p.pod with
  | none => simp [Effects.none]
  | some conIds =>
      cases p.pod.status.bind PodStatus.podIp with
      | none => simp [Effects.none]
      | some podIp => simp [podDetail]

theorem failedConditions_eq_nil_iff (pod : Pod) :
    failedConditions pod = [] ↔ ∀ c ∈ conditions pod, ¬ PodCondition.Failed c := by
  simp [failedConditions, List.filter_eq_nil_iff]

/-- Only ready pods are taken as live, except those that are silently unready. -/
theorem processPod_ready_iff (w : Watcher) (p : WatchedPod) :
    ((processPod w p).TakesAsLive → ∀ c ∈ conditions p.pod, ¬ PodCondition.Failed c) ↔
      ¬ SilentlyUnready p.pod := by
  rw [takesAsLive_iff, podUnready_isSome_iff, ← failedConditions_eq_nil_iff]
  constructor
  · rintro h ⟨⟨c, hone, hmessage⟩, hcontainers, haddress⟩
    have hnone := h ⟨⟨.inr ⟨c, hone, hmessage⟩, hcontainers⟩, haddress⟩
    rw [hone] at hnone
    cases hnone
  · rintro h ⟨⟨hnone | hone, hcontainers⟩, haddress⟩
    · exact hnone
    · exact absurd ⟨hone, hcontainers, haddress⟩ h

/-! A job's pod that has completed: it is not ready for a reason, and has no message. -/

def completedPod : WatchedPod where
  pod :=
    { name := "migrate-x7k2p"
      ns := some "shop"
      status := some
        { conditions := some [⟨"Initialized", "True", none⟩, ⟨"Ready", "False", none⟩]
          containerStatuses := some [some "containerd://5f2c"]
          podIp := some "10.0.0.9" } }
  ownerKinds := some ["Job"]
  identity := none
  workloadSelectorLabels := none
  object := .null

def watcher : Watcher := ⟨[], true, "node-1", 837777600000000000, fun _ => some 4026532281⟩

theorem completedPod_taken_as_live :
    ¬ ((processPod watcher completedPod).TakesAsLive →
      ∀ c ∈ conditions completedPod.pod, ¬ PodCondition.Failed c) := by
  intro h
  have hlive : (processPod watcher completedPod).TakesAsLive := by
    rw [takesAsLive_iff]
    exact ⟨by decide, by decide⟩
  exact h hlive ⟨"Ready", "False", none⟩ (by simp [conditions, completedPod]) ⟨rfl, rfl⟩

end KGuardian.PodReadiness
