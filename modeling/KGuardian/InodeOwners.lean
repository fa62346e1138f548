import KGuardian.Histories
import KGuardian.SyscallRuns
import KGuardian.TrafficReports

/-!
Who owns a network namespace, and whom the controller takes for its owner. Pods
are registered under the inode number of their namespace when they are processed
(`controller/src/pod_watcher.rs`) and never taken out again, while the kernel gives
the number of a pod that is gone to any later pod, be it one that is not processed.
-/
namespace KGuardian.InodeOwners

open Histories NetworkEvents Runs SyscallRuns
open BrokerTraffic (PodTraffic)
open TrafficReports (Report)

/-! What the watcher makes of a pod. -/

/-- A condition by type, status and message. -/
structure PodCondition where
  type : String
  status : String
  message : Option String

structure PodStatus where
  conditions : Option (List PodCondition)
  containerStatuses : Option (List (Option String))
  podIp : Option String

structure Pod where
  name : String
  ns : Option String
  status : Option PodStatus

/-- The containers of a pod, unless a condition says why it is not ready. -/
def podUnready (pod : Pod) : Option (List String) :=
  match pod.status with
  | none => none
  | some status =>
      let failed := ((status.conditions.getD []).filter fun c =>
        c.type = "Ready" && c.status = "False").map fun c => c.message.getD ""
      if ",".intercalate failed ≠ "" then none
      else status.containerStatuses.map fun ids => ids.filterMap id

def shouldProcessPod (ns : Option String) (excluded : List String) : Bool :=
  !ns.any fun ns => excluded.contains ns

def createPodInfo (pod : Pod) (podIp : String) : PodInfo := ⟨pod.name, pod.ns, podIp⟩

/-- The first container of which the runtime knows the namespace. -/
def processContainerIds (conIds : List String) (inspect : String → Option (BitVec 64)) :
    Option (BitVec 64) := conIds.findSome? inspect

/-- What is registered of a pod. -/
def processPod (excluded : List String) (pod : Pod) (inspect : String → Option (BitVec 64)) :
    Option (BitVec 64 × PodInfo) :=
  match podUnready pod with
  | none => none
  | some conIds =>
      match pod.status.bind PodStatus.podIp with
      | none => none
      | some podIp =>
          if shouldProcessPod pod.ns excluded then
            (processContainerIds conIds inspect).map fun inum => (inum, createPodInfo pod podIp)
          else none

/-! Events of the kernel, and what is stored of them. -/

inductive Payload where
  | traffic (report : Report)
  | syscall (inum : BitVec 64) (sysnbr : ℕ)

def Payload.inum : Payload → BitVec 64
  | .traffic (.network data) => data.inum
  | .traffic (.policyDrop data) => data.inum
  | .syscall inum _ => inum

/-- An event on its way, and the pod that owned the namespace when it happened. -/
structure Happened where
  payload : Payload
  owner : Option PodInfo

inductive Record where
  | row (traffic : PodTraffic)
  | syscall (podName syscallName : String)

/-- The record is filed under the pod. -/
def Record.Names (pod : PodInfo) : Record → Prop
  | .row traffic => traffic.podName = some pod.podName ∧
      traffic.podNamespace = pod.podNamespace ∧ traffic.podIp = some pod.podIp
  | .syscall podName _ => podName = pod.podName

/-- A record with the pod that it was made for, and the owner when it happened. -/
structure Attribution where
  record : Record
  pod : PodInfo
  owner : Option PodInfo

structure State where
  owner : BitVec 64 → Option PodInfo
  containerMap : BitVec 64 → Option PodInfo
  queue : List (BitVec 64)
  inodeNum : List (BitVec 64)
  pending : List Happened
  cache : List TrafficKey
  syscalls : List (String × String)
  stored : List Attribution

inductive Event where
  | started (pod : PodInfo) (inum : BitVec 64)
  | deleted (inum : BitVec 64)
  | processed (pod : Pod) (inspect : String → Option (BitVec 64))
  | polled
  | evicted (keepInode : BitVec 64 → Bool) (keepKey : TrafficKey → Bool)
      (keepSyscall : String × String → Bool)
  | happened (payload : Payload)
  | handled (index : ℕ) (uuid : String)

variable (excluded : List String) (hostInum : BitVec 64) (names : SyscallNames)

/-- The caches afterwards, and the record if there is none like it. -/
def build (s : State) (podData : PodInfo) (payload : Payload) (uuid : String) :
    State × Option Record :=
  match payload with
  | .traffic report =>
      let (cache, row) := TrafficReports.build s.cache report podData uuid
      ({ s with cache }, row.map Record.row)
  | .syscall _ sysnbr =>
      let entry := (podData.podName, syscallName names sysnbr)
      if s.syscalls.contains entry then (s, none)
      else ({ s with syscalls := entry :: s.syscalls }, some (.syscall entry.1 entry.2))

def handle (s : State) (h : Happened) (uuid : String) : State :=
  match s.containerMap h.payload.inum with
  | none => s
  | some podData =>
      let (s', record) := build names s podData h.payload uuid
      { s' with stored := s'.stored ++ (record.map fun r => ⟨r, podData, h.owner⟩).toList }

/-- A container that runs is in the namespace of its pod or in that of the node,
and so is what makes events. -/
def step (s : State) : Event → Option State
  | .started pod inum =>
      if inum ≠ hostInum ∧ s.owner inum = none then
        some { s with owner := Function.update s.owner inum (some pod) }
      else none
  | .deleted inum => some { s with owner := Function.update s.owner inum none }
  | .processed pod inspect =>
      match processPod excluded pod inspect with
      | none => some s
      | some (inum, podData) =>
          if inum = hostInum ∨ s.owner inum = some podData then
            some { s with
              containerMap := Function.update s.containerMap inum (some podData)
              queue := s.queue ++ [inum] }
          else none
  | .polled =>
      match s.queue with
      | [] => some s
      | inum :: queue => some { s with queue, inodeNum := inum :: s.inodeNum }
  | .evicted keepInode keepKey keepSyscall =>
      some { s with
        inodeNum := s.inodeNum.filter keepInode
        cache := s.cache.filter keepKey
        syscalls := s.syscalls.filter keepSyscall }
  | .happened payload =>
      if s.inodeNum.contains payload.inum ∧
          (payload.inum = hostInum ∨ s.owner payload.inum ≠ none) then
        some { s with pending := s.pending ++ [⟨payload, s.owner payload.inum⟩] }
      else none
  | .handled index uuid =>
      match s.pending[index]? with
      | none => none
      | some h => some (handle names { s with pending := s.pending.eraseIdx index } h uuid)

def start : State := ⟨fun _ => none, fun _ => none, [], [], [], [], [], []⟩

def machine : Machine State Event := ⟨start, step excluded hostInum names⟩

def registered : Event → Option (BitVec 64 × PodInfo)
  | .processed pod inspect => processPod excluded pod inspect
  | _ => none

/-- The pod that was last processed in the namespace. -/
def lastRegistered (events : List Event) (inum : BitVec 64) : Option PodInfo :=
  (lastWith (fun r => r.1 = inum) (events.filterMap (registered excluded))).map Prod.snd

/-- Records are made for the pod that owned the namespace. -/
structure AttributesToOwner (s : State) : Prop where
  named : ∀ a ∈ s.stored, a.record.Names a.pod
  owner : ∀ a ∈ s.stored, a.owner = some a.pod
  excluded : ∀ a ∈ s.stored, ∀ pod, a.owner = some pod →
    shouldProcessPod pod.podNamespace excluded = false → a.pod = pod

variable {excluded hostInum names}

/-! Handling one event. -/

theorem cacheKey_names {report : Report} {podData : PodInfo} {key : TrafficKey}
    (h : report.cacheKey podData = some key) :
    key.podName = podData.podName ∧ key.podIp = podData.podIp := by
  cases report with
  | network data =>
      simp only [Report.cacheKey, NetworkEvents.cacheKey] at h
      grind
  | policyDrop data =>
      simp only [Report.cacheKey, dropKey] at h
      grind

theorem names_of_build {s : State} {podData : PodInfo} {payload : Payload} {uuid : String}
    {record : Record} (h : (build names s podData payload uuid).2 = some record) :
    record.Names podData := by
  cases payload with
  | traffic report =>
      obtain ⟨row, hrow, rfl⟩ := Option.map_eq_some_iff.mp h
      change (TrafficReports.build s.cache report podData uuid).2 = some row at hrow
      rw [TrafficReports.build_eq] at hrow
      split at hrow
      · cases hrow
      · rename_i key hkey
        obtain ⟨hname, hip⟩ := cacheKey_names hkey
        split at hrow
        · cases hrow
        · obtain rfl := Option.some.inj hrow
          exact ⟨congrArg some hname, rfl, congrArg some hip⟩
  | syscall inum sysnbr =>
      rw [build] at h
      split at h
      · cases h
      · obtain rfl := Option.some.inj h
        exact rfl

/-- Building a record touches nothing but the caches. -/
theorem build_frame (names : SyscallNames) (s : State) (podData : PodInfo) (payload : Payload)
    (uuid : String) :
    ∃ cache syscalls, (build names s podData payload uuid).1 = { s with cache, syscalls } := by
  cases payload with
  | traffic report => exact ⟨_, s.syscalls, rfl⟩
  | syscall inum sysnbr =>
      rw [build]
      split
      · exact ⟨s.cache, s.syscalls, rfl⟩
      · exact ⟨s.cache, _, rfl⟩

/-- What is stored of an event. -/
def attributions (names : SyscallNames) (s : State) (h : Happened) (uuid : String) :
    List Attribution :=
  match s.containerMap h.payload.inum with
  | none => []
  | some podData =>
      ((build names s podData h.payload uuid).2.map fun r => ⟨r, podData, h.owner⟩).toList

/-- Handling an event touches the caches and what is stored. -/
theorem handle_frame (names : SyscallNames) (s : State) (h : Happened) (uuid : String) :
    ∃ cache syscalls, handle names s h uuid =
      { s with cache, syscalls, stored := s.stored ++ attributions names s h uuid } := by
  rw [handle, attributions]
  cases s.containerMap h.payload.inum with
  | none => exact ⟨s.cache, s.syscalls, by rw [List.append_nil]⟩
  | some podData =>
      obtain ⟨cache, syscalls, hbuild⟩ := build_frame names s podData h.payload uuid
      refine ⟨cache, syscalls, ?_⟩
      simp only [hbuild]

/-- What is stored of an event does not depend on others that are on their way. -/
theorem attributions_of_pending (s : State) (pending : List Happened) (h : Happened)
    (uuid : String) :
    attributions names { s with pending } h uuid = attributions names s h uuid := by
  obtain ⟨payload, owner⟩ := h
  cases payload with
  | traffic report => rfl
  | syscall inum sysnbr =>
      simp only [attributions, build]
      split
      · rfl
      · split <;> rfl

/-- What a poll and a pod that is processed can do. -/
theorem polled_of_step {s s' : State} (hstep : step excluded hostInum names s .polled = some s') :
    s' = s ∨ ∃ inum queue, s.queue = inum :: queue ∧
      s' = { s with queue, inodeNum := inum :: s.inodeNum } := by
  rw [step] at hstep
  split at hstep
  · exact .inl (Option.some.inj hstep).symm
  · rename_i inum queue hqueue
    exact .inr ⟨inum, queue, hqueue, (Option.some.inj hstep).symm⟩

theorem processed_of_step {s s' : State} {pod : Pod} {inspect : String → Option (BitVec 64)}
    (hstep : step excluded hostInum names s (.processed pod inspect) = some s') :
    processPod excluded pod inspect = none ∧ s' = s ∨
      ∃ inum podData, processPod excluded pod inspect = some (inum, podData) ∧
        (inum = hostInum ∨ s.owner inum = some podData) ∧
        s' = { s with
          containerMap := Function.update s.containerMap inum (some podData)
          queue := s.queue ++ [inum] } := by
  rw [step] at hstep
  split at hstep
  · rename_i hpod
    exact .inl ⟨hpod, (Option.some.inj hstep).symm⟩
  · rename_i inum podData hpod
    obtain ⟨howner, hs'⟩ := Machine.of_guard hstep
    exact .inr ⟨inum, podData, hpod, howner, hs'.symm⟩

/-- An event is handled as it was queued, and no other of them is touched. -/
theorem handled_of_step {s s' : State} {index : ℕ} {uuid : String}
    (hstep : step excluded hostInum names s (.handled index uuid) = some s') :
    ∃ h cache syscalls, s.pending[index]? = some h ∧ s' = { s with
      pending := s.pending.eraseIdx index
      cache, syscalls
      stored := s.stored ++ attributions names s h uuid } := by
  rw [step] at hstep
  split at hstep
  · cases hstep
  · rename_i h hpending
    obtain ⟨cache, syscalls, hhandle⟩ :=
      handle_frame names { s with pending := s.pending.eraseIdx index } h uuid
    refine ⟨h, cache, syscalls, hpending, ?_⟩
    rw [← Option.some.inj hstep, hhandle, attributions_of_pending]

theorem mem_attributions_iff {s : State} {h : Happened} {uuid : String} {a : Attribution} :
    a ∈ attributions names s h uuid ↔ ∃ podData record,
      s.containerMap h.payload.inum = some podData ∧
      (build names s podData h.payload uuid).2 = some record ∧
      a = ⟨record, podData, h.owner⟩ := by
  rw [attributions]
  cases s.containerMap h.payload.inum with
  | none => simp
  | some podData => simp [eq_comm]

/-! Registrations over a run. -/

theorem lastRegistered_concat_of_none {events : List Event} {e : Event}
    (h : registered excluded e = none) (inum : BitVec 64) :
    lastRegistered excluded (events ++ [e]) inum = lastRegistered excluded events inum := by
  rw [lastRegistered, List.filterMap_append, List.filterMap_cons_none h, List.filterMap_nil,
    List.append_nil, lastRegistered]

theorem lastRegistered_concat_of_some {events : List Event} {e : Event}
    {r : BitVec 64 × PodInfo} (h : registered excluded e = some r) (inum : BitVec 64) :
    lastRegistered excluded (events ++ [e]) inum =
      if r.1 = inum then some r.2 else lastRegistered excluded events inum := by
  rw [lastRegistered, List.filterMap_append, List.filterMap_cons_some h, List.filterMap_nil,
    lastWith_concat]
  split
  · rfl
  · rfl

theorem containerMap_step {events : List Event} {s s' : State} {e : Event}
    (h : ∀ inum, s.containerMap inum = lastRegistered excluded events inum)
    (hstep : step excluded hostInum names s e = some s') (inum : BitVec 64) :
    s'.containerMap inum = lastRegistered excluded (events ++ [e]) inum := by
  cases e with
  | started pod n =>
      obtain ⟨-, rfl⟩ := Machine.of_guard hstep
      rw [lastRegistered_concat_of_none rfl, h inum]
  | deleted n =>
      obtain rfl := Option.some.inj hstep
      rw [lastRegistered_concat_of_none rfl, h inum]
  | processed pod inspect =>
      obtain ⟨hpod, rfl⟩ | ⟨n, podData, hpod, -, rfl⟩ := processed_of_step hstep
      · rw [lastRegistered_concat_of_none (e := .processed pod inspect) hpod, h inum]
      · rw [lastRegistered_concat_of_some (e := .processed pod inspect) hpod]
        by_cases hn : n = inum
        · subst hn
          simp only [Function.update_self, if_true]
        · simp only [Function.update_of_ne (Ne.symm hn), if_neg hn, h inum]
  | polled =>
      rw [lastRegistered_concat_of_none rfl, ← h inum]
      obtain rfl | ⟨n, queue, -, rfl⟩ := polled_of_step hstep
      · rfl
      · rfl
  | evicted keepInode keepKey keepSyscall =>
      obtain rfl := Option.some.inj hstep
      rw [lastRegistered_concat_of_none rfl, h inum]
  | happened payload =>
      obtain ⟨-, rfl⟩ := Machine.of_guard hstep
      rw [lastRegistered_concat_of_none rfl, h inum]
  | handled index uuid =>
      obtain ⟨hap, cache, syscalls, -, rfl⟩ := handled_of_step hstep
      rw [lastRegistered_concat_of_none rfl, h inum]

/-- The map holds the pod that was last processed in each namespace. -/
theorem containerMap_of_run {events : List Event} {s : State}
    (h : (machine excluded hostInum names).run events = some s) (inum : BitVec 64) :
    s.containerMap inum = lastRegistered excluded events inum := by
  refine Machine.invariant (P := fun events s =>
    ∀ inum, s.containerMap inum = lastRegistered excluded events inum) (fun _ => rfl) ?_ h inum
  exact fun _ _ _ _ _ hmap hstep => containerMap_step hmap hstep

/-! Attributions over a run. -/

/-- Only handling stores anything. -/
theorem stored_of_step {s s' : State} {e : Event}
    (hstep : step excluded hostInum names s e = some s')
    (hother : ∀ index uuid, e ≠ .handled index uuid) : s'.stored = s.stored := by
  cases e with
  | started pod n =>
      obtain ⟨-, rfl⟩ := Machine.of_guard hstep
      rfl
  | deleted n =>
      obtain rfl := Option.some.inj hstep
      rfl
  | processed pod inspect =>
      obtain ⟨-, rfl⟩ | ⟨n, podData, -, -, rfl⟩ := processed_of_step hstep
      · rfl
      · rfl
  | polled =>
      obtain rfl | ⟨n, queue, -, rfl⟩ := polled_of_step hstep
      · rfl
      · rfl
  | evicted keepInode keepKey keepSyscall =>
      obtain rfl := Option.some.inj hstep
      rfl
  | happened payload =>
      obtain ⟨-, rfl⟩ := Machine.of_guard hstep
      rfl
  | handled index uuid => exact absurd rfl (hother index uuid)

/-! Namespaces that are not used again. -/

/-- No pod starts in the namespace of another one that was registered, and none is
registered in that of the node. -/
def KeepsInodes (excluded : List String) (hostInum : BitVec 64) (before : List Event) :
    Event → Prop
  | .started pod inum => ∀ podData, lastRegistered excluded before inum = some podData →
      podData = pod
  | .processed pod inspect => ∀ r, processPod excluded pod inspect = some r → r.1 ≠ hostInum
  | _ => True

/-- Registered pods own their namespaces as long as anyone does, and only of these
namespaces are there events. -/
structure Owned (hostInum : BitVec 64) (s : State) : Prop where
  registered : ∀ inum podData, s.containerMap inum = some podData →
    inum ≠ hostInum ∧ (s.owner inum = none ∨ s.owner inum = some podData)
  queue : ∀ inum ∈ s.queue, s.containerMap inum ≠ none
  inodeNum : ∀ inum ∈ s.inodeNum, s.containerMap inum ≠ none
  pending : ∀ h ∈ s.pending, h.owner ≠ none ∧ s.containerMap h.payload.inum = h.owner

theorem Owned.started {s : State} (h : Owned hostInum s) {pod : PodInfo} {inum : BitVec 64}
    (hkeep : ∀ podData, s.containerMap inum = some podData → podData = pod) :
    Owned hostInum { s with owner := Function.update s.owner inum (some pod) } := by
  refine ⟨fun n podData hmap => ?_, h.queue, h.inodeNum, h.pending⟩
  refine ⟨(h.registered n podData hmap).1, ?_⟩
  by_cases hn : n = inum
  · subst hn
    exact .inr (by rw [hkeep podData hmap]; exact Function.update_self ..)
  · have howner := (h.registered n podData hmap).2
    simp only [Function.update_of_ne hn]
    exact howner

theorem Owned.deleted {s : State} (h : Owned hostInum s) (inum : BitVec 64) :
    Owned hostInum { s with owner := Function.update s.owner inum none } := by
  refine ⟨fun n podData hmap => ?_, h.queue, h.inodeNum, h.pending⟩
  refine ⟨(h.registered n podData hmap).1, ?_⟩
  by_cases hn : n = inum
  · subst hn
    exact .inl (Function.update_self ..)
  · have howner := (h.registered n podData hmap).2
    simp only [Function.update_of_ne hn]
    exact howner

/-- A pod that is processed again is the one that was registered. -/
theorem Owned.processed {s : State} (h : Owned hostInum s) {r : BitVec 64 × PodInfo}
    (hhost : r.1 ≠ hostInum) (howner : s.owner r.1 = some r.2) :
    Owned hostInum { s with
      containerMap := Function.update s.containerMap r.1 (some r.2)
      queue := s.queue ++ [r.1] } := by
  have hsame (podData : PodInfo) (hmap : s.containerMap r.1 = some podData) :
      podData = r.2 := by
    rcases (h.registered r.1 podData hmap).2 with hnone | hsome
    · rw [howner] at hnone
      cases hnone
    · exact Option.some.inj (hsome.symm.trans howner)
  have hkept (n : BitVec 64) (hn : s.containerMap n ≠ none) :
      Function.update s.containerMap r.1 (some r.2) n ≠ none := by
    by_cases heq : n = r.1
    · subst heq
      rw [Function.update_self]
      exact Option.some_ne_none _
    · rwa [Function.update_of_ne heq]
  constructor
  · intro n podData hmap
    by_cases hn : n = r.1
    · subst hn
      simp only [Function.update_self] at hmap
      exact ⟨hhost, .inr (howner.trans hmap)⟩
    · simp only [Function.update_of_ne hn] at hmap
      exact h.registered n podData hmap
  · intro n hn
    rcases List.mem_append.mp hn with hold | hnew
    · exact hkept n (h.queue n hold)
    · rw [List.mem_singleton.mp hnew]
      simp only [Function.update_self]
      exact Option.some_ne_none _
  · exact fun n hn => hkept n (h.inodeNum n hn)
  · intro hap hhap
    obtain ⟨hne, hmap⟩ := h.pending hap hhap
    refine ⟨hne, ?_⟩
    by_cases hn : hap.payload.inum = r.1
    · obtain ⟨podData, hpod⟩ := Option.ne_none_iff_exists'.mp hne
      rw [hpod] at hmap ⊢
      rw [hn] at hmap ⊢
      simp only [Function.update_self, hsame podData hmap]
    · simp only [Function.update_of_ne hn]
      exact hmap

theorem Owned.polled {s : State} (h : Owned hostInum s) {inum : BitVec 64}
    {queue : List (BitVec 64)} (hqueue : s.queue = inum :: queue) :
    Owned hostInum { s with queue, inodeNum := inum :: s.inodeNum } := by
  refine ⟨h.registered, fun n hn => h.queue n (hqueue ▸ List.mem_cons_of_mem _ hn), ?_, h.pending⟩
  intro n hn
  rcases List.mem_cons.mp hn with rfl | hold
  · exact h.queue n (hqueue ▸ List.mem_cons_self)
  · exact h.inodeNum n hold

theorem Owned.happened {s : State} (h : Owned hostInum s) {payload : Payload}
    (htracked : payload.inum ∈ s.inodeNum)
    (hexists : payload.inum = hostInum ∨ s.owner payload.inum ≠ none) :
    Owned hostInum { s with pending := s.pending ++ [⟨payload, s.owner payload.inum⟩] } := by
  refine ⟨h.registered, h.queue, h.inodeNum, fun hap hhap => ?_⟩
  rcases List.mem_append.mp hhap with hold | hnew
  · exact h.pending hap hold
  · rw [List.mem_singleton.mp hnew]
    obtain ⟨podData, hpod⟩ := Option.ne_none_iff_exists'.mp (h.inodeNum _ htracked)
    obtain ⟨hhost, howner⟩ := h.registered _ podData hpod
    have hne := hexists.resolve_left hhost
    exact ⟨hne, hpod.trans (howner.resolve_left hne).symm⟩

theorem owned_step {events : List Event} {s s' : State} {e : Event}
    (hrun : (machine excluded hostInum names).run events = some s) (h : Owned hostInum s)
    (hstep : step excluded hostInum names s e = some s')
    (hkeeps : KeepsInodes excluded hostInum events e) : Owned hostInum s' := by
  cases e with
  | started pod inum =>
      obtain ⟨-, rfl⟩ := Machine.of_guard hstep
      refine h.started fun podData hmap => hkeeps podData ?_
      rw [← containerMap_of_run hrun, hmap]
  | deleted inum =>
      obtain rfl := Option.some.inj hstep
      exact h.deleted inum
  | processed pod inspect =>
      obtain ⟨-, rfl⟩ | ⟨inum, podData, hpod, howner, rfl⟩ := processed_of_step hstep
      · exact h
      · have hhost := hkeeps _ hpod
        exact h.processed (r := (inum, podData)) hhost (howner.resolve_left hhost)
  | polled =>
      obtain rfl | ⟨inum, queue, hqueue, rfl⟩ := polled_of_step hstep
      · exact h
      · exact h.polled hqueue
  | evicted keepInode keepKey keepSyscall =>
      obtain rfl := Option.some.inj hstep
      exact ⟨h.registered, h.queue, fun n hn => h.inodeNum n (List.mem_of_mem_filter hn), h.pending⟩
  | happened payload =>
      obtain ⟨⟨htracked, hexists⟩, rfl⟩ := Machine.of_guard hstep
      exact h.happened (List.contains_iff_mem.mp htracked) hexists
  | handled index uuid =>
      obtain ⟨hap, cache, syscalls, -, rfl⟩ := handled_of_step hstep
      exact ⟨h.registered, h.queue, h.inodeNum,
        fun hap' hhap' => h.pending hap' (List.mem_of_mem_eraseIdx hhap')⟩

theorem owned_start (hostInum : BitVec 64) : Owned hostInum start := by
  refine ⟨fun _ _ hmap => (Option.some_ne_none _ hmap.symm).elim, ?_, ?_, ?_⟩
  · exact fun _ hn => absurd hn List.not_mem_nil
  · exact fun _ hn => absurd hn List.not_mem_nil
  · exact fun _ hhap => absurd hhap List.not_mem_nil

/-- What is stored of an event on its way is of its owner. -/
theorem Owned.attributions {s : State} (h : Owned hostInum s) {hap : Happened}
    (hpending : hap ∈ s.pending) {uuid : String} {a : Attribution}
    (ha : a ∈ attributions names s hap uuid) : a.record.Names a.pod ∧ a.owner = some a.pod := by
  obtain ⟨podData, record, hmap, hbuild, rfl⟩ := mem_attributions_iff.mp ha
  exact ⟨names_of_build hbuild, (h.pending hap hpending).2.symm.trans hmap⟩

theorem attributesToOwner_start : AttributesToOwner excluded start :=
  ⟨fun _ ha => absurd ha List.not_mem_nil, fun _ ha => absurd ha List.not_mem_nil,
    fun _ ha => absurd ha List.not_mem_nil⟩

theorem attributesToOwner_step {s s' : State} {e : Event} (howned : Owned hostInum s)
    (h : AttributesToOwner excluded s) (hstep : step excluded hostInum names s e = some s') :
    AttributesToOwner excluded s' := by
  have hkept (hsame : s'.stored = s.stored) : AttributesToOwner excluded s' :=
    ⟨hsame ▸ h.named, hsame ▸ h.owner, hsame ▸ h.excluded⟩
  by_cases hhandled : ∃ index uuid, e = .handled index uuid
  · obtain ⟨index, uuid, rfl⟩ := hhandled
    obtain ⟨hap, cache, syscalls, hpending, hs'⟩ := handled_of_step hstep
    have hstored : s'.stored = s.stored ++ attributions names s hap uuid := by rw [hs']
    have hnew (a : Attribution) (ha : a ∈ attributions names s hap uuid) :=
      howned.attributions (List.mem_of_getElem? hpending) ha
    have howner : ∀ a ∈ s'.stored, a.owner = some a.pod := by
      rw [hstored, List.forall_mem_append]
      exact ⟨h.owner, fun a ha => (hnew a ha).2⟩
    refine ⟨?_, howner, fun a ha pod hpod _ => Option.some.inj ((howner a ha).symm.trans hpod)⟩
    rw [hstored, List.forall_mem_append]
    exact ⟨h.named, fun a ha => (hnew a ha).1⟩
  · exact hkept (stored_of_step hstep fun index uuid heq => hhandled ⟨index, uuid, heq⟩)

/-- Where no number is used again and no pod is registered under that of the node,
everything that is stored is of the owner all along. -/
theorem attributesToOwner_of_keepsInodes (excluded : List String) (hostInum : BitVec 64)
    (names : SyscallNames) (events : List Event)
    (hkeeps : (machine excluded hostInum names).EveryStep events
      fun before _ e _ => KeepsInodes excluded hostInum before e) :
    (machine excluded hostInum names).EveryState events
      fun _ s => AttributesToOwner excluded s := by
  intro before after s hevents hrun
  rw [hevents] at hkeeps
  refine (Machine.invariant_of_everyStep
    (P := fun _ s => Owned hostInum s ∧ AttributesToOwner excluded s)
    ⟨owned_start hostInum, attributesToOwner_start⟩ ?_ hrun hkeeps.of_append).2
  intro _ _ _ _ hrun ⟨howned, hattributes⟩ hstep hkeep
  exact ⟨owned_step hrun howned hstep hkeep, attributesToOwner_step howned hattributes hstep⟩

/-! A pod of an excluded namespace in the namespace of a pod that is gone. -/

def webInfo : PodInfo := ⟨"web-1", some "prod", "10.244.1.7"⟩

def proxyInfo : PodInfo := ⟨"kube-proxy-x", some "kube-system", "10.244.1.9"⟩

def webPod : Pod where
  name := "web-1"
  ns := some "prod"
  status := some ⟨some [⟨"Ready", "True", none⟩], some [some "containerd://a1"], some "10.244.1.7"⟩

/-- The call is stored when the pod is gone. -/
def calledOnce : List Event :=
  [.started webInfo 7, .processed webPod fun _ => some 7, .polled, .happened (.syscall 7 0),
    .deleted 7, .handled 0 "u1"]

theorem calledOnce_keepsInodes : (machine ["kube-system"] 1 amd64Names).EveryStep calledOnce
    fun before _ e _ => KeepsInodes ["kube-system"] 1 before e := by
  intro before e after s s' hevents _ _
  have he : e ∈ calledOnce := hevents ▸ List.mem_append_right _ List.mem_cons_self
  cases e with
  | started pod inum =>
      obtain rfl : before = [] := by
        rcases before with _ | ⟨e₁, _ | ⟨e₂, _ | ⟨e₃, _ | ⟨e₄, _ | ⟨e₅, _ | ⟨e₆, rest⟩⟩⟩⟩⟩⟩ <;>
          simp_all [calledOnce]
      exact fun podData hmap => absurd hmap (by simp [lastRegistered, lastWith])
  | processed pod inspect =>
      intro r hr
      obtain ⟨rfl, rfl⟩ : pod = webPod ∧ inspect = fun _ => some 7 := by simpa [calledOnce] using he
      obtain rfl := Option.some.inj ((show some (7, webInfo) = some r from hr))
      decide
  | _ => trivial

theorem calledOnce_attributed :
    (machine ["kube-system"] 1 amd64Names).EveryState calledOnce
      fun _ s => AttributesToOwner ["kube-system"] s :=
  attributesToOwner_of_keepsInodes ["kube-system"] 1 amd64Names calledOnce calledOnce_keepsInodes

def reusedInode : List Event :=
  [.started webInfo 7, .processed webPod fun _ => some 7, .polled, .deleted 7,
    .started proxyInfo 7, .happened (.syscall 7 0), .handled 0 "u1"]

theorem reusedInode_names_web :
    ¬ ∀ events, (machine ["kube-system"] 1 amd64Names).EveryState events
      fun _ s => AttributesToOwner ["kube-system"] s := by
  intro h
  have howner := (h reusedInode _ [] _ (List.append_nil _).symm rfl).owner _ (.head _)
  exact absurd (Option.some.inj howner) (by decide)

end KGuardian.InodeOwners
