import KGuardian.TrafficReports

/-!
The loop that both handlers run (`controller/src/network.rs`): it queues the row of each
event, flushes a batch that is full or old, and keeps the newest rows when the broker does
not take them. Beside the loop, what was queued since the last post that succeeded is
counted.
-/
namespace KGuardian.PendingBatch

open NetworkEvents NetworkProbe
open BrokerTraffic (PodTraffic)
open TrafficReports (batchSize)

/-- What a handler's loop depends on, with its timeout in milliseconds. -/
structure Task (Event : Type*) where
  inum : Event → BitVec 64
  build : List TrafficKey → Event → PodInfo → String → List TrafficKey × Option PodTraffic
  batchTimeout : ℕ

def networkEvents : Task NetworkEventData := ⟨NetworkEventData.inum, buildTrafficEvent, 1000⟩

def policyDropEvents : Task PolicyDropEvent :=
  ⟨PolicyDropEvent.inum, buildPolicyDropEvent, 2000⟩

/-- What the wait for an event ends with. The pods and the cache are shared with other
tasks. -/
inductive Wait (Event : Type*) where
  | received (event : Event) (containerMap : BitVec 64 → Option PodInfo)
      (cache : List TrafficKey) (uuid : String)
  | closed
  | timedOut

/-- One turn of the loop, at a time and with the time after a flush, which the broker takes
or not. -/
structure Iteration (Event : Type*) where
  wait : Wait Event
  now : ℕ
  posted : Bool
  flushedAt : ℕ

/-- The variables of the loop, and whether it was left. -/
structure Loop where
  batch : List PodTraffic
  lastFlush : ℕ
  left : Bool

def shouldFlush (batchLen elapsed batchSize batchTimeout : ℕ) : Bool :=
  if batchLen = 0 then false else batchSize ≤ batchLen || batchTimeout ≤ elapsed

section Task

variable {Event : Type*} (task : Task Event)

/-- The row that an iteration pushes. -/
def pushed : Wait Event → List PodTraffic
  | .received event containerMap cache uuid =>
      match containerMap (task.inum event) with
      | some podInspect => (task.build cache event podInspect uuid).2.toList
      | none => []
  | .closed => []
  | .timedOut => []

/-- Whether the batch is flushed, once the row is pushed. -/
def flushes (lastFlush : ℕ) (i : Iteration Event) (batch : List PodTraffic) : Bool :=
  match i.wait with
  | .received .. =>
      shouldFlush batch.length (i.now - lastFlush) batchSize task.batchTimeout
  | .closed => !batch.isEmpty
  | .timedOut => !batch.isEmpty

def body (s : Loop) (i : Iteration Event) : Loop :=
  let batch := s.batch ++ pushed task i.wait
  let flushed := flushes task s.lastFlush i batch
  let batch := if flushed then flushNetworkBatch batch i.posted else batch
  match i.wait with
  | .closed => ⟨batch, s.lastFlush, true⟩
  | _ => ⟨batch, if flushed then i.flushedAt else s.lastFlush, false⟩

/-- Nothing is done once the loop was left. -/
def iterate (s : Loop) (i : Iteration Event) : Loop :=
  if s.left then s else body task s i

def started (now : ℕ) : Loop := ⟨[], now, false⟩

/-- The loop after some iterations. -/
def run (now : ℕ) (iterations : List (Iteration Event)) : Loop :=
  iterations.foldl (iterate task) (started now)

/-- The loop with all rows queued since the last flush that succeeded, and whether a flush
since then has trimmed the batch. -/
structure Watched where
  loop : Loop
  queued : List PodTraffic
  trimmed : Bool

/-- The outcome of the flush of an iteration, if there is one. -/
def outcome (s : Loop) (i : Iteration Event) : Option Bool :=
  if flushes task s.lastFlush i (s.batch ++ pushed task i.wait) then some i.posted else none

def watch (w : Watched) (i : Iteration Event) : Watched :=
  if w.loop.left then w
  else
    let queued := w.queued ++ pushed task i.wait
    let batch := w.loop.batch ++ pushed task i.wait
    let loop := body task w.loop i
    match outcome task w.loop i with
    | none => ⟨loop, queued, w.trimmed⟩
    | some true => ⟨loop, [], false⟩
    | some false => ⟨loop, queued, w.trimmed || decide (maxPendingEvents < batch.length)⟩

def watchRun (now : ℕ) (iterations : List (Iteration Event)) : Watched :=
  iterations.foldl (watch task) ⟨started now, [], false⟩

end Task

/-- The batch is the newest suffix, in the order of arrival: all of it, unless a failed
flush has trimmed it to the cap. -/
structure Newest (w : Watched) : Prop where
  bounded : w.loop.batch.length ≤ maxPendingEvents
  newest : w.loop.batch <:+ w.queued
  complete : w.trimmed = false → w.loop.batch = w.queued
  capped : w.trimmed = true → w.loop.batch.length = maxPendingEvents

/-! The cap. -/

theorem length_capBatch (batch : List PodTraffic) (max : ℕ) :
    (capBatch batch max).length = min batch.length max := by
  rw [capBatch, List.length_drop]
  omega

theorem capBatch_suffix (batch : List PodTraffic) (max : ℕ) : capBatch batch max <:+ batch :=
  List.drop_suffix _ _

theorem capBatch_of_le {batch : List PodTraffic} {max : ℕ} (h : batch.length ≤ max) :
    capBatch batch max = batch := by
  rw [capBatch, Nat.sub_eq_zero_of_le h, List.drop_zero]

/-! One iteration. -/

section Task

variable {Event : Type*} (task : Task Event)

/-- A full batch is always flushed. -/
theorem length_lt_of_not_flushes {lastFlush : ℕ} {i : Iteration Event}
    {batch : List PodTraffic} (h : flushes task lastFlush i batch = false) :
    batch.length < batchSize := by
  unfold flushes at h
  split at h
  · unfold shouldFlush at h
    split at h
    · rename_i hempty
      rw [hempty]
      decide
    · simp only [Bool.or_eq_false_iff, decide_eq_false_iff_not, not_le] at h
      exact h.1
  · rw [Bool.not_eq_false', List.isEmpty_iff] at h
    rw [h]
    decide
  · rw [Bool.not_eq_false', List.isEmpty_iff] at h
    rw [h]
    decide

theorem batch_body (s : Loop) (i : Iteration Event) :
    (body task s i).batch =
      match outcome task s i with
      | none => s.batch ++ pushed task i.wait
      | some posted => flushNetworkBatch (s.batch ++ pushed task i.wait) posted := by
  unfold body outcome
  split <;> split <;> simp_all

theorem watch_of_left {w : Watched} (h : w.loop.left = true) (i : Iteration Event) :
    watch task w i = w := by
  rw [watch, if_pos h]

theorem watch_of_not_left {w : Watched} (h : w.loop.left = false) (i : Iteration Event) :
    watch task w i =
      match outcome task w.loop i with
      | none => ⟨body task w.loop i, w.queued ++ pushed task i.wait, w.trimmed⟩
      | some true => ⟨body task w.loop i, [], false⟩
      | some false => ⟨body task w.loop i, w.queued ++ pushed task i.wait, w.trimmed ||
          decide (maxPendingEvents < (w.loop.batch ++ pushed task i.wait).length)⟩ := by
  rw [watch, if_neg (by rw [h]; decide)]

/-- Watching does not change the loop. -/
theorem loop_watch (w : Watched) (i : Iteration Event) :
    (watch task w i).loop = iterate task w.loop i := by
  cases hleft : w.loop.left with
  | true => rw [watch_of_left task hleft, iterate, if_pos hleft]
  | false =>
      rw [watch_of_not_left task hleft, iterate, if_neg (by rw [hleft]; decide)]
      split <;> rfl

theorem loop_foldl_watch (iterations : List (Iteration Event)) (w : Watched) :
    (iterations.foldl (watch task) w).loop = iterations.foldl (iterate task) w.loop := by
  induction iterations generalizing w with
  | nil => rfl
  | cons i rest ih => rw [List.foldl_cons, List.foldl_cons, ih, loop_watch]

/-- A batch that is not flushed was never trimmed, as it is far from the cap. -/
theorem newest_of_kept {w : Watched} (h : Newest w) {i : Iteration Event}
    (hkept : outcome task w.loop i = none) :
    Newest ⟨body task w.loop i, w.queued ++ pushed task i.wait, w.trimmed⟩ := by
  have hbatch : (body task w.loop i).batch = w.loop.batch ++ pushed task i.wait := by
    rw [batch_body, hkept]
  have hlength : (w.loop.batch ++ pushed task i.wait).length < batchSize := by
    unfold outcome at hkept
    split at hkept
    · cases hkept
    · rename_i hflushes
      rw [Bool.not_eq_true] at hflushes
      exact length_lt_of_not_flushes task hflushes
  have hsmall : w.loop.batch.length < maxPendingEvents := by
    rw [List.length_append] at hlength
    unfold maxPendingEvents batchSize at *
    omega
  have htrimmed : w.trimmed = false := by
    rw [← Bool.not_eq_true]
    intro htrimmed
    have := h.capped htrimmed
    omega
  have hqueued : (body task w.loop i).batch = w.queued ++ pushed task i.wait := by
    rw [hbatch, h.complete htrimmed]
  refine ⟨?_, ?_, fun _ => hqueued, fun hcapped => ?_⟩
  · show (body task w.loop i).batch.length ≤ _
    rw [hbatch]
    unfold maxPendingEvents batchSize at *
    omega
  · show (body task w.loop i).batch <:+ _
    rw [hqueued]
  · have hfalse : w.trimmed = true := hcapped
    rw [htrimmed] at hfalse
    cases hfalse

/-- The broker took all of the batch. -/
theorem newest_of_posted {s : Loop} {i : Iteration Event}
    (hposted : outcome task s i = some true) : Newest ⟨body task s i, [], false⟩ := by
  have hempty : (body task s i).batch = [] := by
    rw [batch_body, hposted]
    rfl
  refine ⟨?_, ?_, fun _ => hempty, fun hcapped => by cases hcapped⟩
  · show (body task s i).batch.length ≤ _
    rw [hempty]
    exact Nat.zero_le _
  · show (body task s i).batch <:+ _
    rw [hempty]

/-- The oldest rows above the cap are dropped. -/
theorem newest_of_refused {w : Watched} (h : Newest w) {i : Iteration Event}
    (hrefused : outcome task w.loop i = some false) :
    Newest ⟨body task w.loop i, w.queued ++ pushed task i.wait, w.trimmed ||
      decide (maxPendingEvents < (w.loop.batch ++ pushed task i.wait).length)⟩ := by
  have hbatch : (body task w.loop i).batch =
      capBatch (w.loop.batch ++ pushed task i.wait) maxPendingEvents := by
    rw [batch_body, hrefused]
    exact TrafficReports.flushNetworkBatch_failed _
  have hlength := length_capBatch (w.loop.batch ++ pushed task i.wait) maxPendingEvents
  refine ⟨?_, ?_, fun hcomplete => ?_, fun hcapped => ?_⟩
  · show (body task w.loop i).batch.length ≤ _
    rw [hbatch, hlength]
    exact Nat.min_le_right _ _
  · show (body task w.loop i).batch <:+ _
    rw [hbatch]
    obtain ⟨older, hqueued⟩ := h.newest
    apply (capBatch_suffix _ _).trans
    exact ⟨older, by rw [← List.append_assoc, hqueued]⟩
  · simp only [Bool.or_eq_false_iff, decide_eq_false_iff_not, not_lt] at hcomplete
    show (body task w.loop i).batch = _
    rw [hbatch, capBatch_of_le hcomplete.2, h.complete hcomplete.1]
  · simp only [Bool.or_eq_true, decide_eq_true_eq] at hcapped
    show (body task w.loop i).batch.length = _
    rw [hbatch, hlength]
    apply Nat.min_eq_right
    obtain htrimmed | hover := hcapped
    · have := h.capped htrimmed
      rw [List.length_append]
      omega
    · omega

theorem newest_watch {w : Watched} (h : Newest w) (i : Iteration Event) :
    Newest (watch task w i) := by
  cases hleft : w.loop.left with
  | true =>
      rw [watch_of_left task hleft]
      exact h
  | false =>
      rw [watch_of_not_left task hleft]
      split
      · rename_i hkept
        exact newest_of_kept task h hkept
      · rename_i hposted
        exact newest_of_posted task hposted
      · rename_i hrefused
        exact newest_of_refused task h hrefused

/-! Every run. -/

theorem newest_started (now : ℕ) : Newest ⟨started now, [], false⟩ :=
  ⟨Nat.zero_le _, List.suffix_refl _, fun _ => rfl, fun h => by cases h⟩

theorem newest_foldl (iterations : List (Iteration Event)) {w : Watched} (h : Newest w) :
    Newest (iterations.foldl (watch task) w) := by
  induction iterations generalizing w with
  | nil => exact h
  | cons i rest ih => exact ih (newest_watch task h i)

theorem newest_watchRun (now : ℕ) (iterations : List (Iteration Event)) :
    Newest (watchRun task now iterations) :=
  newest_foldl task iterations (newest_started now)

theorem loop_watchRun (now : ℕ) (iterations : List (Iteration Event)) :
    (watchRun task now iterations).loop = run task now iterations :=
  loop_foldl_watch task iterations _

end Task

/-- After every iteration the pending batch is at most the cap, and it is the newest part of
what was queued since the last flush that succeeded, in order. -/
theorem handleNetworkEvents_newest (now : ℕ) (iterations : List (Iteration NetworkEventData)) :
    (watchRun networkEvents now iterations).loop = run networkEvents now iterations ∧
      Newest (watchRun networkEvents now iterations) :=
  ⟨loop_watchRun networkEvents now iterations, newest_watchRun networkEvents now iterations⟩

theorem handlePolicyDropEvents_newest (now : ℕ)
    (iterations : List (Iteration PolicyDropEvent)) :
    (watchRun policyDropEvents now iterations).loop = run policyDropEvents now iterations ∧
      Newest (watchRun policyDropEvents now iterations) :=
  ⟨loop_watchRun policyDropEvents now iterations,
    newest_watchRun policyDropEvents now iterations⟩

end KGuardian.PendingBatch
