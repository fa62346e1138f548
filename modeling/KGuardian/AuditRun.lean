import KGuardian.NetworkEvents

/-!
The audit pipeline over whole runs: controllers on any number of nodes observe
traffic and post batches, the broker stores what is new and queues it, and the
evaluator answers from the policies it knows at that time. A step is one event of
one party, in any order, and each posted batch is handled as a whole.
-/
namespace KGuardian.AuditRun

open Selectors Matcher KeyedLists PolicyDecode PolicyStore PolicySemantics Server DedupTable
  BrokerTraffic BrokerAudit NetworkProbe NetworkEvents

structure Controller where
  cache : List TrafficKey
  batch : List PodTraffic

/-- A row that was sent to the evaluator, and the evaluator's store at that
time. -/
structure Audited where
  traffic : PodTraffic
  store : Store

structure System where
  controllers : String → Controller
  table : Table
  queue : List PodTraffic
  dropped : ℕ
  store : Store
  audited : List Audited

def System.setController (s : System) (node : String) (c : Controller) : System :=
  { s with controllers := Function.update s.controllers node c }

theorem controllers_setController_self (s : System) (node : String) (c : Controller) :
    (s.setController node c).controllers node = c := by
  simp [System.setController]

theorem controllers_setController_ne (s : System) {node node' : String} (c : Controller)
    (h : node' ≠ node) : (s.setController node c).controllers node' = s.controllers node' := by
  simp [System.setController, h]

/-- Pods and namespaces change as the informers follow the cluster. -/
def refreshed (s objects : Store) : Store :=
  { s with
    pods := objects.pods
    namespaces := objects.namespaces
    podsFiled := objects.podsFiled }

inductive SystemStep where
  | observe (node : String) (data : NetworkEventData) (podData : PodInfo) (uuid : String)
  | evict (node : String) (keep : TrafficKey → Bool)
  | flush (node : String) (delivered : Bool)
  | evaluate (index : ℕ)
  | policyAddOrUpdate (obj : WatchObject)
  | clusterPolicyAddOrUpdate (obj : WatchObject)
  | refresh (objects : Store)

/-- A full queue drops the row and counts it. -/
def tryEnqueue (capacity : ℕ) (s : System) (traffic : PodTraffic) : System :=
  if s.queue.length < capacity then { s with queue := s.queue ++ [traffic] }
  else { s with dropped := s.dropped + 1 }

/-- The handler of a posted batch, with audit enabled. -/
def addPodsBatch (capacity : ℕ) (s : System) (batch : List PodTraffic) : Except String System :=
  (createPodTrafficBatch s.table batch).map fun (table, inserted) =>
    inserted.foldl (tryEnqueue capacity) { s with table }

def flushStep (capacity : ℕ) (s : System) (node : String) (delivered : Bool) : System :=
  let c := s.controllers node
  if c.batch = [] then s
  else
    match if delivered then addPodsBatch capacity s c.batch else .error "not delivered" with
    | .ok s' => s'.setController node ⟨c.cache, flushNetworkBatch c.batch true⟩
    | .error _ => s.setController node ⟨c.cache, flushNetworkBatch c.batch false⟩

/-- Rows leave the queue in turn, but their evaluations overlap, so any queued
row may be next. -/
def step (capacity : ℕ) (s : System) : SystemStep → System
  | .observe node data podData uuid =>
      let c := s.controllers node
      let (cache, traffic) := buildTrafficEvent c.cache data podData uuid
      s.setController node ⟨cache, c.batch ++ traffic.toList⟩
  | .evict node keep =>
      let c := s.controllers node
      s.setController node ⟨c.cache.filter keep, c.batch⟩
  | .flush node delivered => flushStep capacity s node delivered
  | .evaluate index =>
      match s.queue[index]? with
      | none => s
      | some traffic =>
          { s with
            queue := s.queue.eraseIdx index
            audited := s.audited ++ [⟨traffic, s.store⟩] }
  | .policyAddOrUpdate obj => { s with store := s.store.onPolicyAddOrUpdate obj }
  | .clusterPolicyAddOrUpdate obj => { s with store := s.store.onClusterPolicyAddOrUpdate obj }
  | .refresh objects => { s with store := refreshed s.store objects }

def run (capacity : ℕ) (s : System) (steps : List SystemStep) : System :=
  steps.foldl (step capacity) s

/-- An audit policy of either kind, by its key. Edits keep the key. -/
inductive PolicyRef where
  | namespaced (ns name : String)
  | cluster (name : String)

def PolicyRef.In (s : Store) : PolicyRef → Prop
  | .namespaced ns name => ∃ p ∈ s.policies, Store.policyKey p = (ns, name)
  | .cluster name => ∃ p ∈ s.clusterPolicies, p.name = name

/-- The row was sent while the policy was known, and the answer holds every
verdict of the policy that counts. -/
def AuditedAgainst (api : Apimachinery) (a : Audited) : PolicyRef → Prop
  | .namespaced ns name => ∃ p ∈ a.store.policies, Store.policyKey p = (ns, name) ∧
      ∃ flow, buildFlowForTraffic a.traffic = some flow ∧
        ∀ r ∈ matchPolicy api flow.received p a.store.lookup, isCounted r = true →
          r ∈ (handleEvaluate api a.store.lookup flow.received a.store).results
  | .cluster name => ∃ p ∈ a.store.clusterPolicies, p.name = name ∧
      ∃ flow, buildFlowForTraffic a.traffic = some flow ∧
        ∀ r ∈ matchCluster api flow.received p a.store.lookup, isCounted r = true →
          r ∈ (handleEvaluate api a.store.lookup flow.received a.store).results

/-- Once in the queue, a row is there or was audited with the policy known. -/
structure Waiting (ref : PolicyRef) (log : List Audited) (traffic : PodTraffic) (s : System) :
    Prop where
  known : ref.In s.store
  logged : ∃ later, s.audited = log ++ later ∧
    (traffic ∈ s.queue ∨ ∃ a ∈ later, a.traffic = traffic ∧ ref.In a.store)

/-! Policies stay known, and rows stay in the pipeline. -/

theorem in_onPolicyAddOrUpdate {ref : PolicyRef} {s : Store} (h : ref.In s) (obj : WatchObject) :
    ref.In (s.onPolicyAddOrUpdate obj) := by
  unfold Store.onPolicyAddOrUpdate
  split
  · split
    · exact h
    · rename_i policy _
      cases ref with
      | cluster name => exact h
      | namespaced ns name =>
          obtain ⟨p, hp, hkey⟩ := h
          by_cases hsame : Store.policyKey p = Store.policyKey policy
          · exact ⟨policy, (s.mem_policies_putPolicy policy policy).mpr (Or.inl rfl),
              hsame.symm.trans hkey⟩
          · exact ⟨p, (s.mem_policies_putPolicy policy p).mpr (Or.inr ⟨hp, hsame⟩), hkey⟩
  · exact h

theorem in_onClusterPolicyAddOrUpdate {ref : PolicyRef} {s : Store} (h : ref.In s)
    (obj : WatchObject) : ref.In (s.onClusterPolicyAddOrUpdate obj) := by
  unfold Store.onClusterPolicyAddOrUpdate
  split
  · split
    · exact h
    · rename_i policy _
      cases ref with
      | namespaced ns name => exact h
      | cluster name =>
          obtain ⟨p, hp, hname⟩ := h
          by_cases hsame : p.name = policy.name
          · exact ⟨policy, (mem_put _ _ _ _).mpr (Or.inl rfl), hsame.symm.trans hname⟩
          · exact ⟨p, (mem_put _ _ _ _).mpr (Or.inr ⟨hp, hsame⟩), hname⟩
  · exact h

section

variable (capacity : ℕ)

/-- Queueing rows changes the queue, which only grows, and the drop counter. -/
theorem foldl_tryEnqueue (s : System) (rows : List PodTraffic) :
    ∃ queued drops, rows.foldl (tryEnqueue capacity) s =
      { s with queue := s.queue ++ queued, dropped := s.dropped + drops } ∧
      (drops = 0 → queued = rows) := by
  induction rows generalizing s with
  | nil => exact ⟨[], 0, by simp, fun _ => rfl⟩
  | cons row rest ih =>
      obtain ⟨queued, drops, heq, hall⟩ := ih (tryEnqueue capacity s row)
      rw [List.foldl_cons, heq]
      by_cases hroom : s.queue.length < capacity
      · refine ⟨row :: queued, drops, ?_, fun h => by rw [hall h]⟩
        simp [tryEnqueue, hroom]
      · refine ⟨queued, drops + 1, ?_, fun h => absurd h (by simp)⟩
        simp only [tryEnqueue, hroom, if_false, Nat.add_assoc, Nat.add_comm 1 drops]

theorem inserted_of_ok {t : Table} {batch : List PodTraffic} {t' : Table}
    {inserted : List PodTraffic} (h : createPodTrafficBatch t batch = .ok (t', inserted)) :
    inserted = newRows trafficContentKey (fun e => (getRow t e).isSome) [] batch := by
  unfold createPodTrafficBatch at h
  split at h
  · rename_i hnil
    cases h
    rw [hnil]
    rfl
  · simp only at h
    split at h
    · rename_i hnone
      cases h
      exact hnone.symm
    · cases hinsert : insertInto t (newRows trafficContentKey
          (fun e => (getRow t e).isSome) [] batch) with
      | error e => simp [hinsert, Except.map] at h
      | ok t'' =>
          simp only [hinsert, Except.map, Except.ok.injEq, Prod.mk.injEq] at h
          exact h.2.symm

/-- An accepted batch: the new rows are stored, and queued as far as there is
room. -/
theorem addPodsBatch_ok {s s' : System} {batch : List PodTraffic}
    (h : addPodsBatch capacity s batch = .ok s') :
    ∃ table inserted queued drops, createPodTrafficBatch s.table batch = .ok (table, inserted) ∧
      (drops = 0 → queued = inserted) ∧
      s' = { s with table, queue := s.queue ++ queued, dropped := s.dropped + drops } := by
  unfold addPodsBatch at h
  cases hbatch : createPodTrafficBatch s.table batch with
  | error e => simp [hbatch, Except.map] at h
  | ok out =>
      obtain ⟨table, inserted⟩ := out
      obtain ⟨queued, drops, heq, hall⟩ := foldl_tryEnqueue capacity { s with table } inserted
      simp only [hbatch, Except.map, heq, Except.ok.injEq] at h
      exact ⟨table, inserted, queued, drops, rfl, hall, h.symm⟩

/-- What a flush leaves as it was, and what only grows. -/
structure Flushed (s s' : System) (node : String) : Prop where
  store : s'.store = s.store
  audited : s'.audited = s.audited
  queue : s.queue ⊆ s'.queue
  dropped : s.dropped ≤ s'.dropped
  others : ∀ node', node' ≠ node → s'.controllers node' = s.controllers node'

theorem flushed_setController (s s' : System) (hstore : s'.store = s.store)
    (haudited : s'.audited = s.audited) (hqueue : s.queue ⊆ s'.queue)
    (hdropped : s.dropped ≤ s'.dropped) (hcontrollers : s'.controllers = s.controllers)
    (node : String) (c : Controller) : Flushed s (s'.setController node c) node where
  store := hstore
  audited := haudited
  queue := hqueue
  dropped := hdropped
  others _ h := by rw [controllers_setController_ne _ _ h, hcontrollers]

theorem flushed_step (s : System) (node : String) (delivered : Bool) :
    Flushed s (step capacity s (.flush node delivered)) node := by
  have hkept (c : Controller) : Flushed s (s.setController node c) node :=
    flushed_setController s s rfl rfl (List.Subset.refl _) le_rfl rfl node c
  rw [step, flushStep]
  split
  · exact ⟨rfl, rfl, List.Subset.refl _, le_rfl, fun _ _ => rfl⟩
  · split
    · rename_i s' hposted
      cases delivered with
      | false => exact absurd hposted (by simp)
      | true =>
          obtain ⟨table, inserted, queued, drops, -, -, rfl⟩ := addPodsBatch_ok capacity hposted
          exact flushed_setController s
            { s with table, queue := s.queue ++ queued, dropped := s.dropped + drops } rfl rfl
            (List.subset_append_left _ _) (Nat.le_add_right _ _) rfl node _
    · exact hkept _

theorem known_step {ref : PolicyRef} {s : System} (h : ref.In s.store) (x : SystemStep) :
    ref.In (step capacity s x).store := by
  cases x with
  | observe node data podData uuid => exact h
  | evict node keep => exact h
  | flush node delivered => rwa [(flushed_step capacity s node delivered).store]
  | evaluate index =>
      rw [step]
      split <;> exact h
  | policyAddOrUpdate obj => exact in_onPolicyAddOrUpdate h obj
  | clusterPolicyAddOrUpdate obj => exact in_onClusterPolicyAddOrUpdate h obj
  | refresh objects => cases ref <;> exact h

theorem known_run {ref : PolicyRef} {s : System} (h : ref.In s.store) (steps : List SystemStep) :
    ref.In (run capacity s steps).store := by
  induction steps generalizing s with
  | nil => exact h
  | cons x rest ih => exact ih (known_step capacity h x)

theorem dropped_le_step (s : System) (x : SystemStep) :
    s.dropped ≤ (step capacity s x).dropped := by
  cases x with
  | flush node delivered => exact (flushed_step capacity s node delivered).dropped
  | evaluate index =>
      rw [step]
      split <;> exact le_rfl
  | _ => exact le_rfl

theorem run_append (s : System) (steps steps' : List SystemStep) :
    run capacity s (steps ++ steps') = run capacity (run capacity s steps) steps' :=
  List.foldl_append

theorem dropped_le_run (s : System) (steps : List SystemStep) :
    s.dropped ≤ (run capacity s steps).dropped := by
  induction steps generalizing s with
  | nil => exact le_rfl
  | cons x rest ih => exact (dropped_le_step capacity s x).trans (ih _)

/-- The log of audited rows only grows. -/
theorem audited_step (s : System) (x : SystemStep) :
    ∃ later, (step capacity s x).audited = s.audited ++ later := by
  cases x with
  | flush node delivered =>
      exact ⟨[], by rw [(flushed_step capacity s node delivered).audited, List.append_nil]⟩
  | evaluate index =>
      rw [step]
      split
      · exact ⟨[], (List.append_nil _).symm⟩
      · exact ⟨_, rfl⟩
  | _ => exact ⟨[], (List.append_nil _).symm⟩

theorem audited_run (s : System) (steps : List SystemStep) :
    ∃ later, (run capacity s steps).audited = s.audited ++ later := by
  induction steps generalizing s with
  | nil => exact ⟨[], (List.append_nil _).symm⟩
  | cons x rest ih =>
      obtain ⟨first, hfirst⟩ := audited_step capacity s x
      obtain ⟨later, hlater⟩ := ih (step capacity s x)
      exact ⟨first ++ later, by rw [run, List.foldl_cons, ← run, hlater, hfirst,
        List.append_assoc]⟩

theorem waiting_step {ref : PolicyRef} {log : List Audited} {traffic : PodTraffic} {s : System}
    (h : Waiting ref log traffic s) (x : SystemStep) :
    Waiting ref log traffic (step capacity s x) := by
  refine ⟨known_step capacity h.known x, ?_⟩
  obtain ⟨later, hlater, hcase⟩ := h.logged
  cases x with
  | flush node delivered =>
      have hflushed := flushed_step capacity s node delivered
      exact ⟨later, hflushed.audited.trans hlater, hcase.imp_left fun hq => hflushed.queue hq⟩
  | evaluate index =>
      rw [step]
      cases hindex : s.queue[index]? with
      | none => exact ⟨later, hlater, hcase⟩
      | some row =>
          refine ⟨later ++ [⟨row, s.store⟩], by simp [hlater], ?_⟩
          rcases hcase with hqueue | ⟨a, ha, htraffic, hknown⟩
          · -- the row at the index is audited now, any other stays
            obtain ⟨i, hi⟩ := List.mem_iff_getElem?.mp hqueue
            by_cases hsame : i = index
            · subst hsame
              obtain rfl := Option.some.inj (hindex.symm.trans hi)
              exact Or.inr ⟨⟨row, s.store⟩, by simp, rfl, h.known⟩
            · exact Or.inl (List.mem_eraseIdx_iff_getElem?.mpr ⟨i, hsame, hi⟩)
          · exact Or.inr ⟨a, List.mem_append_left _ ha, htraffic, hknown⟩
  | _ => exact ⟨later, hlater, hcase⟩

theorem waiting_run {ref : PolicyRef} {log : List Audited} {traffic : PodTraffic} {s : System}
    (h : Waiting ref log traffic s) (steps : List SystemStep) :
    Waiting ref log traffic (run capacity s steps) := by
  induction steps generalizing s with
  | nil => exact h
  | cons x rest ih => exact ih (waiting_step capacity h x)

/-- A post that fails, since it does not arrive or the broker refuses it, and the cap of the pending
batch leaves the row in it. -/
structure Held (s : System) (node : String) (delivered : Bool) (row : PodTraffic) : Prop where
  failed : delivered = true →
    ∃ e, createPodTrafficBatch s.table (s.controllers node).batch = .error e
  kept : row ∈ capBatch (s.controllers node).batch maxPendingEvents

theorem held_flush {s : System} {node : String} {delivered : Bool} {row : PodTraffic}
    (h : Held s node delivered row) :
    row ∈ ((step capacity s (.flush node delivered)).controllers node).batch := by
  have hnil : (s.controllers node).batch ≠ [] :=
    List.ne_nil_of_mem (List.mem_of_mem_drop h.kept)
  obtain ⟨e, herror⟩ : ∃ e, (if delivered = true then
      addPodsBatch capacity s (s.controllers node).batch else .error "not delivered") =
        .error e := by
    cases delivered with
    | false => exact ⟨_, rfl⟩
    | true =>
        obtain ⟨e, herror⟩ := h.failed rfl
        exact ⟨e, by rw [if_pos rfl, addPodsBatch, herror]; rfl⟩
  have hstep : step capacity s (.flush node delivered) = s.setController node
      ⟨(s.controllers node).cache, capBatch (s.controllers node).batch maxPendingEvents⟩ := by
    simp only [step, flushStep, if_neg hnil, herror]
    rw [flushNetworkBatch, if_neg Bool.false_ne_true]
  simpa only [hstep, controllers_setController_self] using h.kept

/-- Until its controller posts it with success, an observed row stays in the batch. -/
theorem pending_step {s : System} {node : String} {row : PodTraffic}
    (h : row ∈ (s.controllers node).batch) (x : SystemStep)
    (hx : ∀ delivered, x = .flush node delivered → Held s node delivered row) :
    row ∈ ((step capacity s x).controllers node).batch := by
  have hset (node' : String) (c : Controller) (hc : (s.controllers node').batch ⊆ c.batch) :
      row ∈ ((s.setController node' c).controllers node).batch := by
    by_cases hnode : node = node'
    · subst hnode
      rw [controllers_setController_self]
      exact hc h
    · rw [controllers_setController_ne _ _ hnode]
      exact h
  cases x with
  | observe node' data podData uuid => exact hset node' _ (List.subset_append_left _ _)
  | evict node' keep => exact hset node' _ (List.Subset.refl _)
  | flush node' delivered =>
      by_cases hnode : node = node'
      · subst hnode
        exact held_flush capacity (hx delivered rfl)
      · rw [(flushed_step capacity s node' delivered).others node hnode]
        exact h
  | evaluate index =>
      rw [step]
      split <;> exact h
  | _ => exact h

theorem pending_run {s : System} {node : String} {row : PodTraffic}
    (h : row ∈ (s.controllers node).batch) (steps : List SystemStep)
    (hsteps : ∀ front delivered back, steps = front ++ .flush node delivered :: back →
      Held (run capacity s front) node delivered row) :
    row ∈ ((run capacity s steps).controllers node).batch := by
  induction steps generalizing s with
  | nil => exact h
  | cons x rest ih =>
      refine ih (pending_step capacity h x fun delivered hx => ?_)
        fun front delivered back heq => ?_
      · exact hsteps [] delivered rest (by rw [hx, List.nil_append])
      · exact hsteps (x :: front) delivered back (by rw [heq, List.cons_append])

/-- An earlier event of the batch has the same content. -/
def RepeatedIn (batch : List PodTraffic) (row : PodTraffic) : Prop :=
  ∃ front back, batch = front ++ row :: back ∧
    ∃ x ∈ front, trafficContentKey x = trafficContentKey row

theorem not_repeatedIn_singleton (row : PodTraffic) : ¬ RepeatedIn [row] row := by
  intro h
  obtain ⟨front, back, hsplit, x, hx, -⟩ := h
  have hlength : 1 = front.length + (back.length + 1) := by
    simpa using congrArg List.length hsplit
  have hpos := List.length_pos_of_mem hx
  omega

/-- A row of an accepted batch that is not taken for a duplicate is queued. -/
theorem queued_flush {s : System} {node : String} {row : PodTraffic}
    (hrow : row ∈ (s.controllers node).batch)
    (haccepted : ∃ out, createPodTrafficBatch s.table (s.controllers node).batch = .ok out)
    (hnotFull : (step capacity s (.flush node true)).dropped = s.dropped)
    (hbatch : ¬ RepeatedIn (s.controllers node).batch row) (htable : getRow s.table row = none) :
    row ∈ (step capacity s (.flush node true)).queue := by
  obtain ⟨out, hout⟩ := haccepted
  have hnil : (s.controllers node).batch ≠ [] := List.ne_nil_of_mem hrow
  obtain ⟨s', hposted⟩ : ∃ s', addPodsBatch capacity s (s.controllers node).batch = .ok s' := by
    rw [addPodsBatch, hout]
    exact ⟨_, rfl⟩
  have hstep : step capacity s (.flush node true) =
      s'.setController node ⟨(s.controllers node).cache, []⟩ := by
    simp [step, flushStep, hnil, hposted, flushNetworkBatch]
  obtain ⟨table, inserted, queued, drops, hok, hall, rfl⟩ := addPodsBatch_ok capacity hposted
  rw [hstep] at hnotFull ⊢
  obtain rfl := hall (by simpa [System.setController] using hnotFull)
  obtain ⟨front, back, hsplit⟩ := List.append_of_mem hrow
  have hfirst : ∀ x ∈ front, trafficContentKey x ≠ trafficContentKey row := fun x hx hsame =>
    hbatch ⟨front, back, hsplit, x, hx, hsame⟩
  refine List.mem_append_right _ ?_
  rw [inserted_of_ok hok, hsplit]
  exact mem_newRows_of_first _ (by simp [htable]) List.not_mem_nil hfirst

/-- The evaluator can always catch up. -/
theorem queue_drains (s : System) :
    (run capacity s (List.replicate s.queue.length (.evaluate 0))).queue = [] := by
  generalize hlength : s.queue.length = n
  induction n generalizing s with
  | zero => exact List.length_eq_zero_iff.mp hlength
  | succ n ih =>
      obtain ⟨row, rest, hqueue⟩ := List.exists_cons_of_length_eq_add_one hlength
      have hstep : (step capacity s (.evaluate 0)).queue = rest := by
        simp [step, hqueue]
      refine ih (step capacity s (.evaluate 0)) ?_
      rw [hstep]
      simpa [hqueue] using hlength

end

theorem auditedAgainst_of_in (api : Apimachinery) {ref : PolicyRef} {a : Audited}
    (hknown : ref.In a.store) {flow : AuditFlow}
    (hflow : buildFlowForTraffic a.traffic = some flow) : AuditedAgainst api a ref := by
  have hcounted (r : Result) := @mem_counted_iff api a.store.lookup flow.received
    a.store.lookup_sound a.store.lookup_anonymous a.store r
  cases ref with
  | namespaced ns name =>
      obtain ⟨p, hp, hkey⟩ := hknown
      refine ⟨p, hp, hkey, flow, hflow, fun r hr hc => ?_⟩
      refine (List.mem_filter.mp ((hcounted r).mpr (List.mem_filter.mpr ⟨?_, hc⟩))).1
      exact List.mem_append_left _ (List.mem_flatMap.mpr ⟨p, hp, hr⟩)
  | cluster name =>
      obtain ⟨p, hp, hname⟩ := hknown
      refine ⟨p, hp, hname, flow, hflow, fun r hr hc => ?_⟩
      refine (List.mem_filter.mp ((hcounted r).mpr (List.mem_filter.mpr ⟨?_, hc⟩))).1
      exact List.mem_append_right _ (List.mem_flatMap.mpr ⟨p, hp, hr⟩)

/-- From the arrival of a policy on, every event that no stage remembers is
audited against it: its key is not in the cache of its controller, and when its
batch is accepted, maybe after posts that failed, no earlier event there has its
content and no stored row is found for it. -/
theorem new_event_audited (capacity : ℕ) (api : Apimachinery) (ref : PolicyRef) (s : System)
    (harrived : ref.In s.store) (before between after : List SystemStep) (node : String)
    (data : NetworkEventData) (podData : PodInfo) (uuid : String) (key : TrafficKey)
    (hkey : cacheKey data podData = some key) (observing posting final : System)
    (hobserving : observing = run capacity s before)
    (hposting : posting = run capacity observing (.observe node data podData uuid :: between))
    (hfinal : final = run capacity posting (.flush node true :: after))
    (hheld : ∀ front delivered back, between = front ++ .flush node delivered :: back →
      Held (run capacity observing (.observe node data podData uuid :: front)) node delivered
        (trafficRow key podData.podNamespace uuid))
    (haccepted : ∃ out,
      createPodTrafficBatch posting.table (posting.controllers node).batch = .ok out)
    (hnotFull : final.dropped = s.dropped) (hdrained : final.queue = [])
    (hcache : key ∉ (observing.controllers node).cache)
    (hbatch : ¬ RepeatedIn (posting.controllers node).batch
      (trafficRow key podData.podNamespace uuid))
    (htable : getRow posting.table (trafficRow key podData.podNamespace uuid) = none) :
    ∃ later, final.audited = s.audited ++ later ∧
      ∃ a ∈ later, a.traffic = trafficRow key podData.podNamespace uuid ∧
        AuditedAgainst api a ref := by
  have hobserved : trafficRow key podData.podNamespace uuid ∈
      ((step capacity observing (.observe node data podData uuid)).controllers node).batch := by
    simp [step, buildTrafficEvent, hkey, hcache, controllers_setController_self]
  have hrow : trafficRow key podData.podNamespace uuid ∈ (posting.controllers node).batch := by
    rw [hposting]
    exact pending_run capacity hobserved between hheld
  have hknown : ref.In posting.store := by
    rw [hposting, hobserving]
    exact known_run capacity (known_run capacity harrived before) _
  have hreached : posting =
      run capacity s (before ++ .observe node data podData uuid :: between) := by
    rw [hposting, hobserving, run_append]
  have hdropped : (step capacity posting (.flush node true)).dropped = posting.dropped := by
    have hbefore : s.dropped ≤ posting.dropped := hreached ▸ dropped_le_run capacity s _
    have hflush := dropped_le_step capacity posting (.flush node true)
    have hafter : (step capacity posting (.flush node true)).dropped ≤ final.dropped :=
      hfinal ▸ dropped_le_run capacity _ after
    omega
  have hqueued := queued_flush capacity hrow haccepted hdropped hbatch htable
  -- from here on the row is in the queue or audited with the policy known
  have hwaiting : Waiting ref (step capacity posting (.flush node true)).audited
      (trafficRow key podData.podNamespace uuid) final := by
    rw [hfinal]
    exact waiting_run capacity
      ⟨known_step capacity hknown _, [], (List.append_nil _).symm, Or.inl hqueued⟩ after
  obtain ⟨later, hlater, hcase⟩ := hwaiting.logged
  rw [hdrained] at hcase
  obtain ⟨a, ha, htraffic, hin⟩ := hcase.resolve_left List.not_mem_nil
  obtain ⟨earlier, hearlier⟩ : ∃ earlier,
      (step capacity posting (.flush node true)).audited = s.audited ++ earlier := by
    obtain ⟨first, hfirst⟩ := hreached ▸ audited_run capacity s _
    obtain ⟨second, hsecond⟩ := audited_step capacity posting (.flush node true)
    exact ⟨first ++ second, by rw [hsecond, hfirst, List.append_assoc]⟩
  obtain ⟨flow, hflow⟩ := buildFlow_trafficRow hkey podData.podNamespace uuid
  refine ⟨earlier ++ later, by rw [hlater, hearlier, List.append_assoc], a,
    List.mem_append_right _ ha, htraffic, ?_⟩
  exact auditedAgainst_of_in api hin (htraffic ▸ hflow)

/-! The api of the shop is called by the frontend, before and after there is a
policy for it. -/

def start (store : Store) : System where
  controllers _ := ⟨[], []⟩
  table := []
  queue := []
  dropped := 0
  store
  audited := []

/-- The address of the frontend is in network byte order. -/
def webEvent : NetworkEventData := ⟨7, 0x0800000A#32, 8080, 0x0700000A#32, 40112, 2⟩

def apiInfo : PodInfo := ⟨"api-0", some "shop", "10.0.0.8"⟩

def webKey : TrafficKey := ⟨"api-0", "10.0.0.8", "8080", "10.0.0.7", "0", "INGRESS", "TCP", "ALLOW"⟩

def apiObject : Unstructured where
  ns := "shop"
  name := "api"
  uid := "7f1c"
  generation := 1
  labels := ∅
  annotations := ∅
  spec := some (.obj [("podSelector", .obj [("matchLabels", .obj [("app", .str "api")])])])

/-- The first post does not arrive, and the second one is accepted. -/
theorem webEvent_audited :
    ∃ a ∈ (run 2048 (start shopStore) [.observe "node-a" webEvent apiInfo "a1",
        .flush "node-a" false, .flush "node-a" true, .evaluate 0]).audited,
      a.traffic = trafficRow webKey (some "shop") "a1" ∧
        AuditedAgainst reference a (.namespaced "shop" "api") := by
  have hheld : ∀ front delivered back,
      [SystemStep.flush "node-a" false] = front ++ .flush "node-a" delivered :: back →
        Held (run 2048 (start shopStore) (.observe "node-a" webEvent apiInfo "a1" :: front))
          "node-a" delivered (trafficRow webKey (some "shop") "a1") := by
    intro front delivered back heq
    cases front with
    | nil =>
        obtain ⟨rfl, -⟩ : delivered = false ∧ back = [] := by simpa using heq
        exact ⟨fun h => absurd h Bool.false_ne_true, List.mem_cons_self⟩
    | cons x rest => exact absurd (List.cons.inj heq).2 (by simp)
  obtain ⟨later, hlater, haudited⟩ := new_event_audited 2048 reference
    (.namespaced "shop" "api") (start shopStore)
    ⟨apiPolicy, List.mem_cons_of_mem _ List.mem_cons_self, rfl⟩ [] [.flush "node-a" false]
    [.evaluate 0] "node-a" webEvent apiInfo "a1" webKey (by decide) _ _ _ rfl rfl rfl hheld
    ⟨_, rfl⟩ rfl rfl List.not_mem_nil (not_repeatedIn_singleton _) rfl
  exact (show _ = later from hlater) ▸ haudited

/-- The flow recurs after the policy has arrived, the first time in the cache of
its controller and the second time in the table of the broker. Nothing is pending
and nothing was dropped, and no event was audited against the policy. -/
theorem recurring_not_audited :
    let final := run 2048 (start empty)
      [.observe "node-a" webEvent apiInfo "a1", .flush "node-a" true, .evaluate 0,
        .policyAddOrUpdate (.object apiObject),
        .observe "node-a" webEvent apiInfo "a2", .flush "node-a" true,
        .evict "node-a" (fun _ => false),
        .observe "node-a" webEvent apiInfo "a3", .flush "node-a" true]
    PolicyRef.In final.store (.namespaced "shop" "api") ∧
      (final.controllers "node-a").batch = [] ∧ final.queue = [] ∧ final.dropped = 0 ∧
      ∀ a ∈ final.audited, ¬ AuditedAgainst reference a (.namespaced "shop" "api") := by
  refine ⟨⟨_, List.mem_cons_self, rfl⟩, rfl, rfl, rfl, ?_⟩
  intro a ha haudited
  obtain rfl := List.mem_singleton.mp ha
  obtain ⟨p, hp, -⟩ := haudited
  exact absurd hp List.not_mem_nil

end KGuardian.AuditRun
