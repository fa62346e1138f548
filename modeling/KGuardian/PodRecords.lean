import KGuardian.MergePatch
import KGuardian.SyscallIngest

/-!
What the broker stores of each pod (`pod_details` and `pod_syscalls`). Pods are
known by namespace and name, and both tables by the name alone, so pods of one
name in two namespaces share a row. An operation on a pod leaves the others alone
as long as no other pod of its name has one.
-/
namespace KGuardian.PodRecords

open GoJson Histories KeyedTables MergePatch SeccompProfiles SyscallIngest

/-- A pod of the cluster. Names are not empty and have no white space. -/
structure PodId where
  ns : String
  name : String
  named : name ≠ "" ∧ ∀ c ∈ name.toList, TextScan.isWhitespace c = false
  deriving DecidableEq

structure PodDetail where
  podName : String
  podIp : String
  podNamespace : Option String
  podObj : Option Json
  timeStamp : NaiveDateTime
  nodeName : String
  isDead : Bool
  podIdentity : Option String
  workloadSelectorLabels : Option Json

abbrev PodTable := Table PodDetail.podName

structure Records where
  details : PodTable
  syscalls : SyscallTable

def Records.empty : Records := ⟨Table.empty, Table.empty⟩

/-! The broker. -/

def hostNetworkOf (fields : Fields) : Option Json :=
  match (fields.lookup "spec").bind fun spec => spec.asObj.bind (List.lookup "hostNetwork") with
  | some .null => none
  | hostNetwork => hostNetwork

/-- Of a manifest only the labels and `spec.hostNetwork` are read later. -/
def compactPodObj : Json → Json
  | .obj fields =>
      let fields :=
        match hostNetworkOf fields with
        | some hostNetwork => setKey "spec" (.obj [("hostNetwork", hostNetwork)]) fields
        | none => deleteKey fields "spec"
      let fields := deleteKey fields "status"
      match fields.lookup "metadata" with
      | some (.obj metadata) =>
          .obj (setKey "metadata" (.obj (deleteKey metadata "managedFields")) fields)
      | _ => .obj fields
  | value => value

/-- The row that an insert makes of a record. -/
def inserted (detail : PodDetail) : PodDetail :=
  { detail with timeStamp := timestampColumn detail.timeStamp }

/-- An update from a record leaves the columns that it has no value for. -/
def changeset (detail row : PodDetail) : PodDetail where
  podName := row.podName
  podIp := detail.podIp
  podNamespace := detail.podNamespace.or row.podNamespace
  podObj := detail.podObj.or row.podObj
  timeStamp := timestampColumn detail.timeStamp
  nodeName := detail.nodeName
  isDead := detail.isDead
  podIdentity := detail.podIdentity.or row.podIdentity
  workloadSelectorLabels := detail.workloadSelectorLabels.or row.workloadSelectorLabels

def upsertPodDetails (t : PodTable) (detail : PodDetail) : PodTable :=
  let detail := { detail with podObj := detail.podObj.map compactPodObj }
  t.upsert (inserted detail) (changeset detail) fun _ => rfl

def addPodDetails (t : PodTable) (detail : PodDetail) : PodTable :=
  if Blank detail.podName then t else upsertPodDetails t detail

def trim (s : String) : String := String.ofList (TextScan.trim s.toList)

/-- The rows that a request marks. An empty address is no address. -/
def isMarked (pod : String) (ip : Option String) (row : PodDetail) : Bool :=
  match (ip.map trim).filter fun s => s ≠ "" with
  | some preciseIp => row.podName = pod && row.podIp = preciseIp
  | none => row.podName = pod

/-- The table afterwards, and how many rows were updated. -/
def markPodAsDead (t : PodTable) (pod : String) (ip : Option String) : PodTable × ℕ :=
  let pod := trim pod
  if pod = "" then (t, 0)
  else (t.update (isMarked pod ip) (fun row => { row with isDead := true }) fun _ => rfl,
    t.rows.countP (isMarked pod ip))

def podsByNode (t : PodTable) (node : String) : List PodDetail :=
  t.rows.filter fun row => row.nodeName = node && !row.isDead

/-! The controller. -/

/-- What the watcher reads of a pod that has an address. -/
structure WatchedPod where
  pod : PodId
  podIp : String
  podObj : Json
  timeStamp : NaiveDateTime
  nodeName : String
  podIdentity : Option String
  workloadSelectorLabels : Option Json

def updatePodsDetails (w : WatchedPod) : PodDetail where
  podName := w.pod.name
  podIp := w.podIp
  podNamespace := some w.pod.ns
  podObj := some w.podObj
  timeStamp := w.timeStamp
  nodeName := w.nodeName
  isDead := false
  podIdentity := w.podIdentity
  workloadSelectorLabels := w.workloadSelectorLabels

def findDeadPodDetails (dbPods : List PodDetail) (running : List (Option String × String)) :
    List PodDetail :=
  dbPods.filter fun row => (row.podNamespace, row.podName) ∉ running

/-- One request for each row that was listed. -/
def markAll (t : PodTable) (dead : List PodDetail) : PodTable :=
  dead.foldl (fun t row => (markPodAsDead t row.podName (some row.podIp)).1) t

/-- A pass over the pods of a node, of whose requests some may fail. -/
def reconcilePods (t : PodTable) (node : String) (running : List (Option String × String))
    (delivered : PodDetail → Bool) : PodTable :=
  markAll t ((findDeadPodDetails (podsByNode t node) running).filter delivered)

/-- An entry of the sender's cache, and the pods that its system calls came from. -/
structure SyscallEntry where
  podName : String
  pods : List PodId
  named : ∀ pod ∈ pods, pod.name = podName
  recorded : pods ≠ []
  syscalls : List String
  timeStamp : String

/-- The cache of a controller has one entry for a name. -/
structure SyscallBatch where
  arch : String
  entries : List SyscallEntry
  names : (entries.map SyscallEntry.podName).Nodup

def SyscallEntry.input (arch : String) (e : SyscallEntry) : PodInputSyscalls :=
  ⟨e.podName, "", e.syscalls, arch, e.timeStamp⟩

def SyscallBatch.inputs (batch : SyscallBatch) : List PodInputSyscalls :=
  batch.entries.map (SyscallEntry.input batch.arch)

/-! Operations, and what they leave alone. -/

inductive Op where
  | upserted (w : WatchedPod)
  | sent (batch : SyscallBatch)
  | markedDead (pod : PodId) (podIp : Option String)
  | reconciled (node : String) (running : List (Option String × String))
      (delivered : PodDetail → Bool)

def apply (t : Records) : Op → Records
  | .upserted w => { t with details := addPodDetails t.details (updatePodsDetails w) }
  | .sent batch => { t with syscalls := afterBatch t.syscalls batch.inputs }
  | .markedDead pod podIp => { t with details := (markPodAsDead t.details pod.name podIp).1 }
  | .reconciled node running delivered =>
      { t with details := reconcilePods t.details node running delivered }

def run (ops : List Op) : Records := ops.foldl apply Records.empty

/-- The pods that an operation is about. A cache entry that several pods share is
about none of them alone. -/
def IsTarget (t : Records) (q : PodId) : Op → Prop
  | .upserted w => q = w.pod
  | .sent batch => ∃ e ∈ batch.entries, ∀ pod ∈ e.pods, pod = q
  | .markedDead pod _ => q = pod
  | .reconciled node running _ =>
      ∃ row ∈ findDeadPodDetails (podsByNode t.details node) running,
        row.podNamespace = some q.ns ∧ row.podName = q.name

/-- The pods that something was stored for. -/
def storedPods (ops : List Op) : List PodId :=
  ops.flatMap fun
    | .upserted w => [w.pod]
    | .sent batch => batch.entries.flatMap SyscallEntry.pods
    | _ => []

def detailsOf (t : Records) (q : PodId) : Option PodDetail :=
  (t.details.lookup q.name).filter fun row => row.podNamespace = some q.ns

/-- System calls are read by the name of a pod. -/
def syscallsOf (t : Records) (q : PodId) : Option String :=
  (t.syscalls.lookup q.name).map PodSyscalls.syscalls

/-- The operation leaves what is stored for all other pods. -/
structure Framed (before : List Op) (op : Op) : Prop where
  details : ∀ q, ¬ IsTarget (run before) q op →
    detailsOf (apply (run before) op) q = detailsOf (run before) q
  syscalls : ∀ q ∈ storedPods before, ¬ IsTarget (run before) q op →
    syscallsOf (apply (run before) op) q = syscallsOf (run before) q

/-- No other pod is stored under a name that the operation writes, or nothing is
written that changes it. -/
def Alone (before : List Op) : Op → Prop
  | .upserted w => ∀ row, (run before).details.lookup w.pod.name = some row →
      row.podNamespace = some w.pod.ns
  | .sent batch => OneOwner (run before).syscalls batch.inputs →
      ∀ e ∈ batch.entries, ∀ q ∈ storedPods before, q.name = e.podName →
        (∀ pod ∈ e.pods, pod = q) ∨ syscallsOf (run before) q = some (joinCommas e.syscalls)
  | .markedDead pod podIp => ∀ row, (run before).details.lookup pod.name = some row →
      row.podNamespace = some pod.ns ∨ isMarked pod.name podIp row = false ∨ row.isDead = true
  | .reconciled _ _ _ => True

def EveryOp (ops : List Op) (P : List Op → Op → Prop) : Prop :=
  ∀ before op after, ops = before ++ op :: after → P before op

/-! Names and rows of a cluster. -/

theorem trim_eq_self {s : List Char} (h : ∀ c ∈ s, TextScan.isWhitespace c = false) :
    TextScan.trim s = s := by
  have hkept (s : List Char) (h : ∀ c ∈ s, TextScan.isWhitespace c = false) :
      s.dropWhile TextScan.isWhitespace = s := by
    cases s with
    | nil => rfl
    | cons c rest => rw [List.dropWhile_cons_of_neg (by simp [h c])]
  rw [TextScan.trim, hkept s h, hkept s.reverse fun c hc => h c (List.mem_reverse.mp hc),
    List.reverse_reverse]

theorem PodId.not_blank (pod : PodId) : ¬ Blank pod.name := by
  rw [Blank, trim_eq_self pod.named.2]
  exact fun h => pod.named.1 (String.toList_inj.mp h)

theorem PodId.trim_name (pod : PodId) : trim pod.name = pod.name := by
  rw [trim, trim_eq_self pod.named.2, String.ofList_toList]

theorem PodId.eq_of {q pod : PodId} (hns : q.ns = pod.ns) (hname : q.name = pod.name) :
    q = pod := by
  cases q
  cases pod
  simp_all

/-- Each row is of some pod. -/
def FromPods (t : PodTable) : Prop :=
  ∀ name row, t.lookup name = some row →
    ∃ pod : PodId, row.podName = pod.name ∧ row.podNamespace = some pod.ns

/-! One operation. -/

theorem lookup_addPodDetails_of_ne (t : PodTable) (w : WatchedPod) {name : String}
    (hname : name ≠ w.pod.name) :
    (addPodDetails t (updatePodsDetails w)).lookup name = t.lookup name := by
  have hnamed : ¬ Blank (updatePodsDetails w).podName := w.pod.not_blank
  rw [addPodDetails, if_neg hnamed, upsertPodDetails]
  exact (Table.lookup_upsert t _ _ _ name).trans (if_neg hname)

theorem lookup_addPodDetails_self (t : PodTable) (w : WatchedPod) :
    ∃ row, (addPodDetails t (updatePodsDetails w)).lookup w.pod.name = some row ∧
      row.podNamespace = some w.pod.ns := by
  have hnamed : ¬ Blank (updatePodsDetails w).podName := w.pod.not_blank
  rw [addPodDetails, if_neg hnamed, upsertPodDetails]
  refine ⟨_, (Table.lookup_upsert t _ _ _ w.pod.name).trans (if_pos rfl), ?_⟩
  cases t.lookup w.pod.name <;> rfl

theorem podName_of_isMarked {pod : String} {ip : Option String} {row : PodDetail}
    (h : isMarked pod ip row = true) : row.podName = pod := by
  rw [isMarked] at h
  split at h
  · rw [Bool.and_eq_true] at h
    exact of_decide_eq_true h.1
  · exact of_decide_eq_true h

def markRow (pod : String) (ip : Option String) (row : PodDetail) : PodDetail :=
  if isMarked pod ip row then { row with isDead := true } else row

theorem markRow_eq_self_iff (pod : String) (ip : Option String) (row : PodDetail) :
    markRow pod ip row = row ↔ isMarked pod ip row = false ∨ row.isDead = true := by
  rw [markRow]
  cases hmarked : isMarked pod ip row with
  | false => simp
  | true =>
      simp only [if_true, Bool.true_eq_false, false_or]
      constructor
      · intro h
        rw [← h]
      · intro h
        rw [← h]

theorem podNamespace_markRow (pod : String) (ip : Option String) (row : PodDetail) :
    (markRow pod ip row).podNamespace = row.podNamespace := by
  rw [markRow]
  split <;> rfl

theorem lookup_markDead (t : PodTable) {pod : String} (hpod : trim pod ≠ "") (ip : Option String)
    (name : String) :
    (markPodAsDead t pod ip).1.lookup name = (t.lookup name).map (markRow (trim pod) ip) := by
  rw [markPodAsDead, if_neg hpod]
  exact Table.lookup_update t (isMarked (trim pod) ip) (fun row => { row with isDead := true })
    (fun _ => rfl) name

theorem lookup_markPodAsDead (t : PodTable) (pod : PodId) (ip : Option String) (name : String) :
    (markPodAsDead t pod.name ip).1.lookup name =
      (t.lookup name).map (markRow pod.name ip) := by
  have hnamed : trim pod.name ≠ "" := by
    rw [pod.trim_name]
    exact pod.named.1
  rw [lookup_markDead t hnamed, pod.trim_name]

theorem filter_markRow (pod : String) (ip : Option String) (row : Option PodDetail)
    (ns : String) :
    (row.map (markRow pod ip)).filter (fun row => row.podNamespace = some ns) =
      (row.filter fun row => row.podNamespace = some ns).map (markRow pod ip) := by
  cases row with
  | none => rfl
  | some row =>
      rw [Option.map_some, Option.filter_some, Option.filter_some, podNamespace_markRow]
      split <;> rfl

/-- A mark changes only rows of its name. -/
theorem markRow_of_ne {pod : String} {ip : Option String} {row : PodDetail}
    (h : row.podName ≠ pod) : markRow pod ip row = row := by
  refine (markRow_eq_self_iff pod ip row).mpr (.inl ?_)
  exact Bool.eq_false_iff.mpr fun hmarked => h (podName_of_isMarked hmarked)

/-! The states of a run. -/

theorem FromPods.addPodDetails {t : PodTable} (h : FromPods t) (w : WatchedPod) :
    FromPods (addPodDetails t (updatePodsDetails w)) := by
  intro name row hrow
  by_cases hname : name = w.pod.name
  · subst hname
    obtain ⟨row', hrow', hns⟩ := lookup_addPodDetails_self t w
    obtain rfl := Option.some.inj (hrow.symm.trans hrow')
    exact ⟨w.pod, Table.key_of_lookup hrow, hns⟩
  · rw [lookup_addPodDetails_of_ne t w hname] at hrow
    exact h name row hrow

theorem FromPods.markPodAsDead {t : PodTable} (h : FromPods t) (pod : PodId)
    (ip : Option String) : FromPods (markPodAsDead t pod.name ip).1 := by
  intro name row hrow
  rw [lookup_markPodAsDead] at hrow
  obtain ⟨old, hold, rfl⟩ := Option.map_eq_some_iff.mp hrow
  obtain ⟨pod', hname, hns⟩ := h name old hold
  refine ⟨pod', ?_, (podNamespace_markRow _ _ old).trans hns⟩
  rw [← hname, markRow]
  split <;> rfl

theorem FromPods.markAll {t : PodTable} (h : FromPods t) {dead : List PodDetail}
    (hdead : ∀ row ∈ dead, ∃ pod : PodId, row.podName = pod.name) : FromPods (markAll t dead) := by
  induction dead generalizing t with
  | nil => exact h
  | cons row rest ih =>
      obtain ⟨pod, hpod⟩ := hdead row List.mem_cons_self
      have hrest := ih (h.markPodAsDead pod (some row.podIp)) fun row' hrow' =>
        hdead row' (List.mem_cons_of_mem _ hrow')
      rw [← hpod] at hrest
      exact hrest

theorem lookup_of_dead {t : PodTable} {node : String} {running : List (Option String × String)}
    {row : PodDetail} (h : row ∈ findDeadPodDetails (podsByNode t node) running) :
    t.lookup row.podName = some row :=
  Table.lookup_of_mem (List.mem_of_mem_filter (List.mem_of_mem_filter h))

theorem FromPods.podName_of_dead {t : PodTable} (h : FromPods t) {node : String}
    {running : List (Option String × String)} {row : PodDetail}
    (hrow : row ∈ findDeadPodDetails (podsByNode t node) running) :
    ∃ pod : PodId, row.podName = pod.name := by
  obtain ⟨pod, hname, -⟩ := h _ _ (lookup_of_dead hrow)
  exact ⟨pod, hname⟩

theorem fromPods_run (ops : List Op) : FromPods (run ops).details := by
  induction ops using List.reverseRecOn with
  | nil => exact fun name row hrow => nomatch hrow
  | append_singleton ops op ih =>
      rw [run, List.foldl_concat, ← run]
      cases op with
      | upserted w => exact ih.addPodDetails w
      | sent batch => exact ih
      | markedDead pod podIp => exact ih.markPodAsDead pod podIp
      | reconciled node running delivered =>
          exact ih.markAll fun row hrow => ih.podName_of_dead (List.mem_of_mem_filter hrow)

/-! What is stored for a pod. -/

theorem detailsOf_of_lookup {t : Records} {row : PodDetail} {pod : PodId}
    (hrow : t.details.lookup pod.name = some row) (hns : row.podNamespace = some pod.ns) :
    detailsOf t pod = some row := by
  rw [detailsOf, hrow, Option.filter_some_pos (by simpa using hns)]

theorem lookup_of_detailsOf {t : Records} {row : PodDetail} {q : PodId}
    (h : detailsOf t q = some row) :
    t.details.lookup q.name = some row ∧ row.podNamespace = some q.ns := by
  rw [detailsOf, Option.filter_eq_some_iff] at h
  exact ⟨h.1, of_decide_eq_true h.2⟩

/-- Where a name stands for one pod, nothing is stored for another of that name. -/
theorem detailsOf_eq_none {t : Records} {q pod : PodId} (hname : q.name = pod.name)
    (hq : q ≠ pod) (hrows : ∀ row, t.details.lookup pod.name = some row →
      row.podNamespace = some pod.ns) : detailsOf t q = none := by
  cases hold : detailsOf t q with
  | none => rfl
  | some row =>
      obtain ⟨hrow, hns⟩ := lookup_of_detailsOf hold
      have hsame := hrows row (hname ▸ hrow)
      exact absurd (PodId.eq_of (Option.some.inj (hns.symm.trans hsame)) hname) hq

/-! The watcher. -/

theorem detailsOf_upserted_of_ne (t : Records) (w : WatchedPod) {q : PodId}
    (hname : q.name ≠ w.pod.name) : detailsOf (apply t (.upserted w)) q = detailsOf t q := by
  rw [detailsOf, apply, lookup_addPodDetails_of_ne t.details w hname, detailsOf]

theorem detailsOf_upserted_other (t : Records) (w : WatchedPod) {q : PodId}
    (hname : q.name = w.pod.name) (hq : q ≠ w.pod) :
    detailsOf (apply t (.upserted w)) q = none := by
  refine detailsOf_eq_none hname hq fun row hrow => ?_
  obtain ⟨row', hrow', hns⟩ := lookup_addPodDetails_self t.details w
  obtain rfl := Option.some.inj (hrow.symm.trans hrow')
  exact hns

theorem framed_upserted_iff (before : List Op) (w : WatchedPod) :
    Framed before (.upserted w) ↔ Alone before (.upserted w) := by
  constructor
  · intro h row hrow
    obtain ⟨pod, hpod, hns⟩ := fromPods_run before _ _ hrow
    have hname : pod.name = w.pod.name := hpod.symm.trans (Table.key_of_lookup hrow)
    by_contra hother
    have hne : pod ≠ w.pod := by
      rintro rfl
      exact hother hns
    have hframe := h.details pod hne
    rw [detailsOf_upserted_other _ w hname hne, detailsOf_of_lookup (hname ▸ hrow) hns] at hframe
    cases hframe
  · intro h
    refine ⟨fun q hq => ?_, fun q _ _ => rfl⟩
    by_cases hname : q.name = w.pod.name
    · rw [detailsOf_upserted_other _ w hname hq, detailsOf_eq_none hname hq h]
    · exact detailsOf_upserted_of_ne _ w hname

/-! The sender. -/

theorem SyscallEntry.name_of_alone {e : SyscallEntry} {q : PodId} (h : ∀ pod ∈ e.pods, pod = q) :
    q.name = e.podName := by
  obtain ⟨pod, hpod⟩ := List.exists_mem_of_ne_nil e.pods e.recorded
  rw [← h pod hpod]
  exact e.named pod hpod

theorem SyscallEntry.not_blank (e : SyscallEntry) : ¬ Blank e.podName := by
  obtain ⟨pod, hpod⟩ := List.exists_mem_of_ne_nil e.pods e.recorded
  rw [← e.named pod hpod]
  exact pod.not_blank

theorem SyscallBatch.eq_of_name_eq {batch : SyscallBatch} {e e' : SyscallEntry}
    (he : e ∈ batch.entries) (he' : e' ∈ batch.entries) (hname : e.podName = e'.podName) :
    e = e' :=
  List.inj_on_of_nodup_map batch.names he he' hname

/-- A batch is refused as a whole when one of its names belongs to another owner. -/
theorem afterBatch_of_not_oneOwner {t : SyscallTable} {batch : List PodInputSyscalls}
    (h : ¬ OneOwner t batch) : afterBatch t batch = t := by
  rw [afterBatch]
  cases hresult : createPodSyscalls t batch with
  | error err => rfl
  | ok t' => exact absurd (oneOwner_of_ok hresult) h

theorem afterBatch_of_oneOwner {t : SyscallTable} {batch : List PodInputSyscalls}
    (h : OneOwner t batch) : createPodSyscalls t batch = .ok (afterBatch t batch) := by
  obtain ⟨t', hok, -⟩ := allStored_of_oneOwner h
  rw [afterBatch, hok]

/-- A batch that is committed writes the text of each entry under its name. -/
theorem syscallsOf_sent_of_mem {t : Records} {batch : SyscallBatch}
    (howner : OneOwner t.syscalls batch.inputs) {e : SyscallEntry} (he : e ∈ batch.entries)
    {q : PodId} (hname : q.name = e.podName) :
    syscallsOf (apply t (.sent batch)) q = some (joinCommas e.syscalls) := by
  have hlast : lastWith (fun i => ¬ Blank i.podName ∧ q.name = i.podName) batch.inputs =
      some (e.input batch.arch) := by
    refine lastWith_eq_some (List.mem_map_of_mem he) ⟨e.not_blank, hname⟩ ?_
    rintro i hi ⟨-, hi_name⟩
    obtain ⟨e', he', rfl⟩ := List.mem_map.mp hi
    rw [batch.eq_of_name_eq he' he (hi_name.symm.trans hname)]
  have hstored := syscalls_of_create (afterBatch_of_oneOwner howner) q.name
  rw [hlast] at hstored
  exact hstored

theorem syscallsOf_sent_of_not_mem {t : Records} {batch : SyscallBatch}
    (howner : OneOwner t.syscalls batch.inputs) {q : PodId}
    (hname : ∀ e ∈ batch.entries, q.name ≠ e.podName) :
    syscallsOf (apply t (.sent batch)) q = syscallsOf t q := by
  have hlast : lastWith (fun i => ¬ Blank i.podName ∧ q.name = i.podName) batch.inputs = none := by
    refine lastWith_eq_none ?_
    rintro i hi ⟨-, hi_name⟩
    obtain ⟨e, he, rfl⟩ := List.mem_map.mp hi
    exact hname e he hi_name
  have hstored := syscalls_of_create (afterBatch_of_oneOwner howner) q.name
  rw [hlast] at hstored
  exact hstored

theorem framed_sent_iff (before : List Op) (batch : SyscallBatch) :
    Framed before (.sent batch) ↔ Alone before (.sent batch) := by
  constructor
  · intro h howner e he q hq hname
    by_contra hother
    rw [not_or] at hother
    have hfree : ¬ IsTarget (run before) q (.sent batch) := by
      rintro ⟨e', he', halone⟩
      have hsame := (SyscallEntry.name_of_alone halone).symm.trans hname
      rw [batch.eq_of_name_eq he' he hsame] at halone
      exact hother.1 halone
    have hframe := h.syscalls q hq hfree
    rw [syscallsOf_sent_of_mem howner he hname] at hframe
    exact hother.2 hframe.symm
  · intro h
    refine ⟨fun q _ => rfl, fun q hq hfree => ?_⟩
    by_cases howner : OneOwner (run before).syscalls batch.inputs
    · by_cases hname : ∃ e ∈ batch.entries, q.name = e.podName
      · obtain ⟨e, he, hname⟩ := hname
        rcases h howner e he q hq hname with halone | hsame
        · exact absurd ⟨e, he, halone⟩ hfree
        · rw [syscallsOf_sent_of_mem howner he hname, hsame]
      · exact syscallsOf_sent_of_not_mem howner fun e he heq => hname ⟨e, he, heq⟩
    · rw [syscallsOf, apply, afterBatch_of_not_oneOwner howner, syscallsOf]

/-! Marks. -/

theorem detailsOf_markedDead (t : Records) (pod : PodId) (ip : Option String) (q : PodId) :
    detailsOf (apply t (.markedDead pod ip)) q = (detailsOf t q).map (markRow pod.name ip) := by
  rw [detailsOf, apply, lookup_markPodAsDead, filter_markRow, detailsOf]

theorem framed_markedDead_iff (before : List Op) (pod : PodId) (ip : Option String) :
    Framed before (.markedDead pod ip) ↔ Alone before (.markedDead pod ip) := by
  constructor
  · intro h row hrow
    obtain ⟨q, hname, hns⟩ := fromPods_run before _ _ hrow
    have hq : q.name = pod.name := hname.symm.trans (Table.key_of_lookup hrow)
    by_cases hpod : q = pod
    · exact .inl (hpod ▸ hns)
    · have hold : detailsOf (run before) q = some row := detailsOf_of_lookup (hq ▸ hrow) hns
      have hframe := h.details q hpod
      rw [detailsOf_markedDead, hold, Option.map_some] at hframe
      exact .inr ((markRow_eq_self_iff pod.name ip row).mp (Option.some.inj hframe))
  · intro h
    refine ⟨fun q hq => ?_, fun q _ _ => rfl⟩
    rw [detailsOf_markedDead]
    cases hold : detailsOf (run before) q with
    | none => rfl
    | some row =>
        obtain ⟨hrow, hns⟩ := lookup_of_detailsOf hold
        rw [Option.map_some]
        by_cases hname : q.name = pod.name
        · rcases h row (hname ▸ hrow) with hsame | hkept
          · refine absurd (PodId.eq_of ?_ hname) hq
            exact Option.some.inj (hns.symm.trans hsame)
          · rw [(markRow_eq_self_iff pod.name ip row).mpr hkept]
        · rw [markRow_of_ne (Table.key_of_lookup hrow ▸ hname)]

/-- Marks leave a row whose name they have only for rows of other namespaces. -/
theorem filter_lookup_markAll {t : PodTable} {dead : List PodDetail} {name ns : String}
    (hdead : ∀ row ∈ dead, ∃ pod : PodId, row.podName = pod.name)
    (hother : ∀ row ∈ dead, row.podName = name →
      (t.lookup name).filter (fun row => row.podNamespace = some ns) = none) :
    ((markAll t dead).lookup name).filter (fun row => row.podNamespace = some ns) =
      (t.lookup name).filter fun row => row.podNamespace = some ns := by
  induction dead generalizing t with
  | nil => rfl
  | cons row rest ih =>
      obtain ⟨pod, hpod⟩ := hdead row List.mem_cons_self
      have hmark : ((markPodAsDead t row.podName (some row.podIp)).1.lookup name).filter
          (fun row => row.podNamespace = some ns) =
            (t.lookup name).filter fun row => row.podNamespace = some ns := by
        rw [hpod, lookup_markPodAsDead, filter_markRow]
        by_cases hname : row.podName = name
        · rw [hother row List.mem_cons_self hname]
          rfl
        · cases hold : (t.lookup name).filter fun row => row.podNamespace = some ns with
          | none => rfl
          | some old =>
              have hrow := Option.eq_some_of_filter_eq_some hold
              rw [Option.map_some, markRow_of_ne]
              rw [Table.key_of_lookup hrow, ← hpod]
              exact Ne.symm hname
      rw [markAll, List.foldl_cons, ← markAll, ih, hmark]
      · exact fun row' hrow' => hdead row' (List.mem_cons_of_mem _ hrow')
      · intro row' hrow' hname
        rw [hmark]
        exact hother row' (List.mem_cons_of_mem _ hrow') hname

/-- A pass compares names and namespaces, so it marks only rows of its targets. -/
theorem framed_reconciled (before : List Op) (node : String)
    (running : List (Option String × String)) (delivered : PodDetail → Bool) :
    Framed before (.reconciled node running delivered) := by
  refine ⟨fun q hq => ?_, fun q _ _ => rfl⟩
  rw [detailsOf, apply, reconcilePods, filter_lookup_markAll, detailsOf]
  · intro row hrow
    exact (fromPods_run before).podName_of_dead (List.mem_of_mem_filter hrow)
  · intro row hrow hname
    have hdead := List.mem_of_mem_filter hrow
    rw [← hname, lookup_of_dead hdead, Option.filter_some_neg]
    exact decide_eq_false fun hns => hq ⟨row, hdead, hns, hname⟩

/-! Runs. -/

theorem framed_op_iff (before : List Op) (op : Op) : Framed before op ↔ Alone before op := by
  cases op with
  | upserted w => exact framed_upserted_iff before w
  | sent batch => exact framed_sent_iff before batch
  | markedDead pod podIp => exact framed_markedDead_iff before pod podIp
  | reconciled node running delivered =>
      exact iff_of_true (framed_reconciled before node running delivered) trivial

/-- All operations of a run leave other pods as they are exactly when each of them
finds no other pod under the names that it changes. -/
theorem framed_iff_alone (ops : List Op) : EveryOp ops Framed ↔ EveryOp ops Alone := by
  constructor
  · exact fun h before op after hops => (framed_op_iff before op).mp (h before op after hops)
  · exact fun h before op after hops => (framed_op_iff before op).mpr (h before op after hops)

/-! Pods of one name in two namespaces. -/

def prodWeb : PodId := ⟨"prod", "web-1", by decide, by simp [TextScan.isWhitespace]⟩

def stagingWeb : PodId := ⟨"staging", "web-1", by decide, by simp [TextScan.isWhitespace]⟩

def watchedWeb (pod : PodId) (podIp nodeName : String) : WatchedPod where
  pod := pod
  podIp := podIp
  podObj := .obj [("metadata", .obj [("labels", .obj [("app", .str "web")])])]
  timeStamp := 767872800000000000
  nodeName := nodeName
  podIdentity := none
  workloadSelectorLabels := some (.obj [("app", .str "web")])

def upsertedWeb : Op := .upserted (watchedWeb prodWeb "10.244.1.7" "node-a")

def upsertedStaging : Op := .upserted (watchedWeb stagingWeb "10.244.2.9" "node-b")

/-- The second pod takes the row of the first. -/
theorem not_framed_upsertedStaging :
    ¬ EveryOp [upsertedWeb, upsertedStaging] Framed ∧
      (detailsOf (run [upsertedWeb]) prodWeb).isSome = true ∧
      detailsOf (run [upsertedWeb, upsertedStaging]) prodWeb = none := by
  have hbefore : (detailsOf (run [upsertedWeb]) prodWeb).isSome = true := by decide
  have hafter : detailsOf (run [upsertedWeb, upsertedStaging]) prodWeb = none := rfl
  have hother : prodWeb ≠ stagingWeb := by decide
  refine ⟨fun h => ?_, hbefore, hafter⟩
  have hframe := (h [upsertedWeb] upsertedStaging [] rfl).details prodWeb hother
  change detailsOf (run [upsertedWeb, upsertedStaging]) prodWeb = _ at hframe
  rw [← hframe, hafter] at hbefore
  cases hbefore

end KGuardian.PodRecords
