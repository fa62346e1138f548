import KGuardian.PodRecords
import KGuardian.Runs

/-!
Reconcile passes against pods that come and go. A pass reads the live rows of a
node, lists the pods of the node later, and its requests arrive later still, while
watchers go on writing rows. A row that a request marks is of a pod that had
stopped before the request was made.
-/
namespace KGuardian.StaleReconciles

open Histories KeyedTables PodRecords Runs

/-- One life of a pod, on one node and under one address. -/
@[ext]
structure Incarnation where
  pod : PodId
  podIp : String
  nodeName : String
  addressed : podIp ≠ "" ∧ ∀ c ∈ podIp.toList, TextScan.isWhitespace c = false

instance : DecidableEq Incarnation := fun _ _ => decidable_of_iff _ Incarnation.ext_iff.symm

/-- What a watcher posts for an incarnation, on the node that it is on. -/
structure Upsert where
  incarnation : Incarnation
  podObj : GoJson.Json
  timeStamp : NaiveDateTime
  podIdentity : Option String
  workloadSelectorLabels : Option GoJson.Json

def Upsert.watched (u : Upsert) : WatchedPod where
  pod := u.incarnation.pod
  podIp := u.incarnation.podIp
  podObj := u.podObj
  timeStamp := u.timeStamp
  nodeName := u.incarnation.nodeName
  podIdentity := u.podIdentity
  workloadSelectorLabels := u.workloadSelectorLabels

/-- The rows that a pass has read for its node. -/
structure NodeRead where
  nodeName : String
  dbPods : List PodDetail

/-- Requests stay, since each of them may arrive at any later time. -/
structure State where
  started : List Incarnation
  cluster : List Incarnation
  table : PodTable
  reads : List NodeRead
  requests : List (String × String)

inductive Event where
  | started (i : Incarnation)
  | stopped (i : Incarnation)
  | upserted (u : Upsert)
  | read (nodeName : String)
  | listed (index : ℕ)
  | marked (podName podIp : String)

/-- The pods that a list of the node shows. -/
def runningPods (cluster : List Incarnation) (nodeName : String) : List (Option String × String) :=
  (cluster.filter fun i => i.nodeName = nodeName).map fun i => (some i.pod.ns, i.pod.name)

def markRequest (row : PodDetail) : String × String := (row.podName, row.podIp)

/-- No two lives of a name have the same address. -/
def step (s : State) : Event → Option State
  | .started i =>
      if ∀ j ∈ s.started, j.pod.name = i.pod.name → j.podIp ≠ i.podIp then
        some { s with started := i :: s.started, cluster := i :: s.cluster }
      else none
  | .stopped i => some { s with cluster := s.cluster.filter fun j => j ≠ i }
  | .upserted u =>
      if u.incarnation ∈ s.started then
        some { s with table := addPodDetails s.table (updatePodsDetails u.watched) }
      else none
  | .read nodeName => some { s with reads := s.reads ++ [⟨nodeName, podsByNode s.table nodeName⟩] }
  | .listed index => s.reads[index]?.map fun read =>
      { s with requests := s.requests ++
          (findDeadPodDetails read.dbPods (runningPods s.cluster read.nodeName)).map markRequest }
  | .marked podName podIp =>
      if (podName, podIp) ∈ s.requests then
        some { s with table := (markPodAsDead s.table podName (some podIp)).1 }
      else none

def machine : Machine State Event := ⟨⟨[], [], Table.empty, [], []⟩, step⟩

def upserts (events : List Event) : List Upsert :=
  events.filterMap fun
    | .upserted u => some u
    | _ => none

/-- Whose upsert made the row of a name what it is. -/
def stored (events : List Event) (podName : String) : Option Incarnation :=
  (lastWith (fun u => u.incarnation.pod.name = podName) (upserts events)).map Upsert.incarnation

/-! What rows, reads and requests are about. -/

/-- The row has what was posted for the incarnation. -/
structure RowOf (i : Incarnation) (row : PodDetail) : Prop where
  podName : row.podName = i.pod.name
  podNamespace : row.podNamespace = some i.pod.ns
  podIp : row.podIp = i.podIp
  nodeName : row.nodeName = i.nodeName

/-- What holds between any two events. -/
structure Inv (events : List Event) (s : State) : Prop where
  distinct : ∀ i ∈ s.started, ∀ j ∈ s.started, i.pod.name = j.pod.name → i.podIp = j.podIp → i = j
  rows : ∀ podName row, s.table.lookup podName = some row →
    ∃ i ∈ s.started, stored events podName = some i ∧ RowOf i row
  reads : ∀ read ∈ s.reads, ∀ row ∈ read.dbPods,
    ∃ i ∈ s.started, RowOf i row ∧ i.nodeName = read.nodeName
  requests : ∀ request ∈ s.requests, ∃ i ∈ s.started, i ∉ s.cluster ∧
    request = (i.pod.name, i.podIp)

theorem upserts_concat (events : List Event) (e : Event) :
    upserts (events ++ [e]) = upserts events ++ upserts [e] :=
  List.filterMap_append

/-- Only upserts change whose row it is. -/
theorem stored_concat {events : List Event} {e : Event} (h : upserts [e] = []) (podName : String) :
    stored (events ++ [e]) podName = stored events podName := by
  rw [stored, upserts_concat, h, List.append_nil, stored]

theorem stored_upserted (events : List Event) (u : Upsert) (podName : String) :
    stored (events ++ [.upserted u]) podName =
      if u.incarnation.pod.name = podName then some u.incarnation else stored events podName := by
  rw [stored, upserts_concat]
  change (lastWith _ (upserts events ++ [u])).map _ = _
  rw [lastWith_concat]
  split
  · rfl
  · rfl

/-- The row right after an upsert. -/
theorem rowOf_upserted (t : PodTable) (u : Upsert) :
    ∃ row, (addPodDetails t (updatePodsDetails u.watched)).lookup u.incarnation.pod.name =
      some row ∧ RowOf u.incarnation row := by
  have hnamed : ¬ SyscallIngest.Blank (updatePodsDetails u.watched).podName :=
    u.incarnation.pod.not_blank
  rw [addPodDetails, if_neg hnamed, upsertPodDetails]
  refine ⟨_, (Table.lookup_upsert t _ _ _ u.incarnation.pod.name).trans (if_pos rfl), ?_⟩
  cases hold : t.lookup u.incarnation.pod.name with
  | none => exact ⟨rfl, rfl, rfl, rfl⟩
  | some row =>
      have hname := Table.key_of_lookup hold
      exact ⟨hname, rfl, rfl, rfl⟩

theorem RowOf.markRow {i : Incarnation} {row : PodDetail} (h : RowOf i row) (pod : String)
    (ip : Option String) : RowOf i (markRow pod ip row) := by
  rw [PodRecords.markRow]
  split
  · exact ⟨h.podName, h.podNamespace, h.podIp, h.nodeName⟩
  · exact h

/-- A request with an address marks only rows with that address. -/
theorem podIp_of_isMarked {i : Incarnation} {row : PodDetail}
    (h : isMarked i.pod.name (some i.podIp) row = true) : row.podIp = i.podIp := by
  have htrim : PodRecords.trim i.podIp = i.podIp := by
    rw [PodRecords.trim, trim_eq_self i.addressed.2, String.ofList_toList]
  have haddress : ((some i.podIp).map PodRecords.trim).filter (fun s => s ≠ "") = some i.podIp := by
    rw [Option.map_some, htrim, Option.filter_some_pos (by simpa using i.addressed.1)]
  rw [isMarked, haddress] at h
  exact of_decide_eq_true (Bool.and_eq_true _ _ ▸ h).2

/-! One step. -/

theorem inv_init : Inv [] machine.init := by
  refine ⟨?_, fun _ _ hrow => (Option.some_ne_none _ hrow.symm).elim, ?_, ?_⟩
  · exact fun _ hi => absurd hi List.not_mem_nil
  · exact fun _ hread => absurd hread List.not_mem_nil
  · exact fun _ hrequest => absurd hrequest List.not_mem_nil

theorem Inv.started {events : List Event} {s : State} (h : Inv events s) {i : Incarnation}
    (hnew : ∀ j ∈ s.started, j.pod.name = i.pod.name → j.podIp ≠ i.podIp) :
    Inv (events ++ [.started i])
      { s with started := i :: s.started, cluster := i :: s.cluster } := by
  constructor
  · intro j hj k hk hname hip
    rcases List.mem_cons.mp hj with rfl | hj'
    · rcases List.mem_cons.mp hk with rfl | hk'
      · rfl
      · exact absurd hip.symm (hnew k hk' hname.symm)
    · rcases List.mem_cons.mp hk with rfl | hk'
      · exact absurd hip (hnew j hj' hname)
      · exact h.distinct j hj' k hk' hname hip
  · intro podName row hrow
    obtain ⟨j, hj, hstored, hrowOf⟩ := h.rows podName row hrow
    exact ⟨j, List.mem_cons_of_mem _ hj, (stored_concat rfl podName).trans hstored, hrowOf⟩
  · intro read hread row hrow
    obtain ⟨j, hj, hrowOf⟩ := h.reads read hread row hrow
    exact ⟨j, List.mem_cons_of_mem _ hj, hrowOf⟩
  · intro request hrequest
    obtain ⟨j, hj, hstopped, rfl⟩ := h.requests request hrequest
    refine ⟨j, List.mem_cons_of_mem _ hj, fun hmem => ?_, rfl⟩
    rcases List.mem_cons.mp hmem with rfl | hmem
    · exact hnew j hj rfl rfl
    · exact hstopped hmem

theorem Inv.stopped {events : List Event} {s : State} (h : Inv events s) (i : Incarnation) :
    Inv (events ++ [.stopped i]) { s with cluster := s.cluster.filter fun j => j ≠ i } := by
  refine ⟨h.distinct, ?_, h.reads, ?_⟩
  · intro podName row hrow
    rw [stored_concat rfl]
    exact h.rows podName row hrow
  · intro request hrequest
    obtain ⟨j, hj, hstopped, heq⟩ := h.requests request hrequest
    exact ⟨j, hj, fun hmem => hstopped (List.mem_of_mem_filter hmem), heq⟩

theorem Inv.upserted {events : List Event} {s : State} (h : Inv events s) {u : Upsert}
    (hu : u.incarnation ∈ s.started) :
    Inv (events ++ [.upserted u])
      { s with table := addPodDetails s.table (updatePodsDetails u.watched) } := by
  refine ⟨h.distinct, ?_, h.reads, h.requests⟩
  intro podName row hrow
  rw [stored_upserted]
  by_cases hname : u.incarnation.pod.name = podName
  · subst hname
    obtain ⟨row', hrow', hrowOf⟩ := rowOf_upserted s.table u
    obtain rfl := Option.some.inj (hrow'.symm.trans hrow)
    exact ⟨u.incarnation, hu, if_pos rfl, hrowOf⟩
  · rw [if_neg hname]
    rw [lookup_addPodDetails_of_ne s.table u.watched (Ne.symm hname)] at hrow
    exact h.rows podName row hrow

theorem Inv.read {events : List Event} {s : State} (h : Inv events s) (nodeName : String) :
    Inv (events ++ [.read nodeName])
      { s with reads := s.reads ++ [⟨nodeName, podsByNode s.table nodeName⟩] } := by
  refine ⟨h.distinct, ?_, ?_, h.requests⟩
  · intro podName row hrow
    rw [stored_concat rfl]
    exact h.rows podName row hrow
  · intro read hread row hrow
    rcases List.mem_append.mp hread with hold | hnew
    · exact h.reads read hold row hrow
    · obtain rfl := List.mem_singleton.mp hnew
      obtain ⟨hmem, hfilter⟩ := List.mem_filter.mp hrow
      obtain ⟨i, hi, -, hrowOf⟩ := h.rows row.podName row (Table.lookup_of_mem hmem)
      rw [Bool.and_eq_true] at hfilter
      exact ⟨i, hi, hrowOf, hrowOf.nodeName.symm.trans (of_decide_eq_true hfilter.1)⟩

/-- What is missing in the list has stopped, since a pod stays on its node. -/
theorem Inv.listed {events : List Event} {s : State} (h : Inv events s) {index : ℕ}
    {read : NodeRead} (hread : s.reads[index]? = some read) :
    Inv (events ++ [.listed index]) { s with requests := s.requests ++
      (findDeadPodDetails read.dbPods (runningPods s.cluster read.nodeName)).map markRequest } := by
  refine ⟨h.distinct, ?_, h.reads, ?_⟩
  · intro podName row hrow
    rw [stored_concat rfl]
    exact h.rows podName row hrow
  · intro request hrequest
    rcases List.mem_append.mp hrequest with hold | hnew
    · exact h.requests request hold
    · obtain ⟨row, hrow, rfl⟩ := List.mem_map.mp hnew
      obtain ⟨hmem, hmissing⟩ := List.mem_filter.mp hrow
      obtain ⟨i, hi, hrowOf, hnode⟩ :=
        h.reads read (List.mem_of_getElem? hread) row hmem
      refine ⟨i, hi, fun hrunning => of_decide_eq_true hmissing ?_, ?_⟩
      · rw [hrowOf.podNamespace, hrowOf.podName]
        refine List.mem_map.mpr ⟨i, List.mem_filter.mpr ⟨hrunning, ?_⟩, rfl⟩
        exact decide_eq_true hnode
      · rw [markRequest, hrowOf.podName, hrowOf.podIp]

theorem Inv.marked {events : List Event} {s : State} (h : Inv events s) {podName podIp : String}
    (hrequest : (podName, podIp) ∈ s.requests) :
    Inv (events ++ [.marked podName podIp])
      { s with table := (markPodAsDead s.table podName (some podIp)).1 } := by
  obtain ⟨i, -, -, heq⟩ := h.requests _ hrequest
  obtain ⟨rfl, rfl⟩ := Prod.mk.inj heq
  refine ⟨h.distinct, ?_, h.reads, h.requests⟩
  intro podName row hrow
  rw [lookup_markPodAsDead] at hrow
  obtain ⟨old, hold, rfl⟩ := Option.map_eq_some_iff.mp hrow
  obtain ⟨j, hj, hstored, hrowOf⟩ := h.rows podName old hold
  exact ⟨j, hj, (stored_concat rfl podName).trans hstored, hrowOf.markRow _ _⟩

/-! Runs. -/

theorem inv_step {events : List Event} {s s' : State} {e : Event} (h : Inv events s)
    (hstep : step s e = some s') : Inv (events ++ [e]) s' := by
  cases e with
  | started i =>
      obtain ⟨hnew, rfl⟩ := Machine.of_guard hstep
      exact h.started hnew
  | stopped i =>
      obtain rfl := Option.some.inj hstep
      exact h.stopped i
  | upserted u =>
      obtain ⟨hu, rfl⟩ := Machine.of_guard hstep
      exact h.upserted hu
  | read nodeName =>
      obtain rfl := Option.some.inj hstep
      exact h.read nodeName
  | listed index =>
      obtain ⟨read, hread, rfl⟩ := Option.map_eq_some_iff.mp hstep
      exact h.listed hread
  | marked podName podIp =>
      obtain ⟨hrequest, rfl⟩ := Machine.of_guard hstep
      exact h.marked hrequest

theorem inv_of_run {events : List Event} {s : State} (h : machine.run events = some s) :
    Inv events s :=
  Machine.invariant inv_init (fun _ _ _ _ _ hinv hstep => inv_step hinv hstep) h

/-- A row that a request sets dead is of an incarnation that no longer runs. -/
theorem mark_spares_running {events : List Event} {s s' : State} {podName podIp : String}
    (hrun : machine.run events = some s) (hstep : step s (.marked podName podIp) = some s')
    {name : String} {row old : PodDetail} (hrow : s'.table.lookup name = some row)
    (hold : s.table.lookup name = some old) (hdead : row.isDead = true)
    (hlive : old.isDead = false) :
    ∃ i, stored events name = some i ∧ RowOf i old ∧ i ∉ s.cluster := by
  have h := inv_of_run hrun
  obtain ⟨hrequest, rfl⟩ := Machine.of_guard hstep
  obtain ⟨i, hi, hstopped, heq⟩ := h.requests _ hrequest
  obtain ⟨rfl, rfl⟩ := Prod.mk.inj heq
  obtain ⟨j, hj, hstored, hrowOf⟩ := h.rows name old hold
  change (markPodAsDead s.table i.pod.name (some i.podIp)).1.lookup name = some row at hrow
  rw [lookup_markPodAsDead, hold, Option.map_some] at hrow
  obtain rfl := Option.some.inj hrow
  have hmarked : isMarked i.pod.name (some i.podIp) old = true := by
    by_contra hnot
    rw [markRow, if_neg hnot, hlive] at hdead
    cases hdead
  have hname : j.pod.name = i.pod.name := hrowOf.podName.symm.trans (podName_of_isMarked hmarked)
  have hip : j.podIp = i.podIp := hrowOf.podIp.symm.trans (podIp_of_isMarked hmarked)
  obtain rfl := h.distinct j hj i hi hname hip
  exact ⟨j, hstored, hrowOf, hstopped⟩

/-! A request for a pod that stopped after its row was read. -/

def webIncarnation : Incarnation :=
  ⟨prodWeb, "10.244.1.7", "node-a", by decide, by simp [TextScan.isWhitespace]⟩

def webUpsert : Upsert := ⟨webIncarnation, .null, 767872800000000000, none, none⟩

def stoppedAfterRead : List Event :=
  [.started webIncarnation, .upserted webUpsert, .read "node-a", .stopped webIncarnation, .listed 0]

def webRow (isDead : Bool) : PodDetail where
  podName := "web-1"
  podIp := "10.244.1.7"
  podNamespace := some "prod"
  podObj := some .null
  timeStamp := 767872800000000000
  nodeName := "node-a"
  isDead := isDead
  podIdentity := none
  workloadSelectorLabels := none

def webState (isDead : Bool) : State where
  started := [webIncarnation]
  cluster := []
  table := ⟨[webRow isDead], List.nodup_singleton _⟩
  reads := [⟨"node-a", [webRow false]⟩]
  requests := [("web-1", "10.244.1.7")]

theorem webRow_not_running :
    ∃ i, stored stoppedAfterRead "web-1" = some i ∧ RowOf i (webRow false) ∧
      i ∉ (webState false).cluster := by
  have hrun : machine.run stoppedAfterRead = some (webState false) := rfl
  have hstep : step (webState false) (.marked "web-1" "10.244.1.7") = some (webState true) := rfl
  have hrow : (webState true).table.lookup "web-1" = some (webRow true) := rfl
  have hold : (webState false).table.lookup "web-1" = some (webRow false) := rfl
  exact mark_spares_running hrun hstep hrow hold rfl rfl

end KGuardian.StaleReconciles
