import KGuardian.NetworkEvents
import KGuardian.Runs

/-!
The traffic cache over the life of a controller (`controller/src/network.rs`). A
key is cached when its row is queued, and the row may be dropped from the queue
later while the broker does not answer. The key stays, so nothing is reported of
that flow until the cache evicts it.
-/
namespace KGuardian.TrafficReports

open NetworkEvents NetworkProbe Runs
open BrokerTraffic (PodTraffic)

/-- The two tasks with a batch of their own. -/
inductive Handler where
  | networkEvents
  | policyDropEvents
  deriving DecidableEq

/-- An event of either probe. -/
inductive Report where
  | network (data : NetworkEventData)
  | policyDrop (data : PolicyDropEvent)

def Report.handler : Report → Handler
  | .network _ => .networkEvents
  | .policyDrop _ => .policyDropEvents

def Report.cacheKey : Report → PodInfo → Option TrafficKey
  | .network data, podData => NetworkEvents.cacheKey data podData
  | .policyDrop data, podData => dropKey data podData

def build (cache : List TrafficKey) (report : Report) (podData : PodInfo) (uuid : String) :
    List TrafficKey × Option PodTraffic :=
  match report with
  | .network data => buildTrafficEvent cache data podData uuid
  | .policyDrop data => buildPolicyDropEvent cache data podData uuid

def batchSize : ℕ := 100

def shouldFlush (batchLen : ℕ) (timedOut : Bool) : Bool :=
  if batchLen = 0 then false else batchSize ≤ batchLen || timedOut

/-- A batch, and whether it is flushed before the next event is received. -/
structure Pending where
  batch : List PodTraffic
  due : Bool

structure State where
  cache : List TrafficKey
  pending : Handler → Pending
  acknowledged : List PodTraffic

/-- Events of a pod that is not known are received without a pod. -/
inductive Event where
  | received (report : Report) (podData : Option PodInfo) (uuid : String) (timedOut : Bool)
  | flushed (handler : Handler) (posted : Bool)
  | evicted (key : TrafficKey)

def receive (s : State) (report : Report) (podData : Option PodInfo) (uuid : String)
    (timedOut : Bool) : State :=
  let (cache, row) := (podData.map fun podData => build s.cache report podData uuid).getD
    (s.cache, none)
  let batch := (s.pending report.handler).batch ++ row.toList
  { s with
    cache
    pending := Function.update s.pending report.handler
      ⟨batch, shouldFlush batch.length timedOut⟩ }

def flush (s : State) (handler : Handler) (posted : Bool) : State where
  cache := s.cache
  pending := Function.update s.pending handler
    ⟨flushNetworkBatch (s.pending handler).batch posted, false⟩
  acknowledged :=
    if posted then s.acknowledged ++ (s.pending handler).batch else s.acknowledged

def step (s : State) : Event → Option State
  | .received report podData uuid timedOut =>
      if (s.pending report.handler).due = false then
        some (receive s report podData uuid timedOut)
      else none
  | .flushed handler posted =>
      if (s.pending handler).batch ≠ [] then some (flush s handler posted) else none
  | .evicted key => some { s with cache := s.cache.filter fun k => k ≠ key }

def machine : Machine State Event := ⟨⟨[], fun _ => ⟨[], false⟩, []⟩, step⟩

/-- The row was made for the key. -/
def IsRowOf (key : TrafficKey) (row : PodTraffic) : Prop :=
  row = trafficRow key row.podNamespace row.uuid

/-- A row of the key is pending or was acknowledged. -/
def Known (s : State) (key : TrafficKey) : Prop :=
  ∃ row, IsRowOf key row ∧ (row ∈ s.acknowledged ∨ ∃ handler, row ∈ (s.pending handler).batch)

/-- Nothing is cached that was lost, so what was lost is reported again. -/
structure ForgetsDropped (s : State) : Prop where
  cached : ∀ key ∈ s.cache, Known s key
  reported : ∀ report podData key uuid, report.cacheKey podData = some key → ¬ Known s key →
    (build s.cache report podData uuid).2 = some (trafficRow key podData.podNamespace uuid)

/-- The rows that a failed post drops. -/
def trimmed (batch : List PodTraffic) : List PodTraffic :=
  batch.take (batch.length - maxPendingEvents)

/-- A row of the key is known that a failed post does not drop. -/
def KnownElsewhere (s : State) (handler : Handler) (key : TrafficKey) : Prop :=
  ∃ row, IsRowOf key row ∧ (row ∈ s.acknowledged ∨
    row ∈ capBatch (s.pending handler).batch maxPendingEvents ∨
    ∃ other, other ≠ handler ∧ row ∈ (s.pending other).batch)

/-- A failed post does not drop the only row of a key that is cached. -/
def DropsNoCached (s : State) : Event → Prop
  | .flushed handler false => ∀ row ∈ trimmed (s.pending handler).batch, ∀ key ∈ s.cache,
      IsRowOf key row → KnownElsewhere s handler key
  | _ => True

/-! One event. -/

theorem isRowOf_trafficRow (key : TrafficKey) (podNamespace : Option String) (uuid : String) :
    IsRowOf key (trafficRow key podNamespace uuid) := rfl

/-- Both probes' events are built the same way from their keys. -/
theorem build_eq (cache : List TrafficKey) (report : Report) (podData : PodInfo)
    (uuid : String) :
    build cache report podData uuid =
      match report.cacheKey podData with
      | none => (cache, none)
      | some key =>
          if cache.contains key then (cache, none)
          else (key :: cache, some (trafficRow key podData.podNamespace uuid)) := by
  cases report with
  | network data => rfl
  | policyDrop data => rfl

/-- Either nothing changes, or a new key is cached and its row is queued. -/
theorem build_cases (cache : List TrafficKey) (report : Report) (podData : PodInfo)
    (uuid : String) :
    build cache report podData uuid = (cache, none) ∨
      ∃ key, build cache report podData uuid =
        (key :: cache, some (trafficRow key podData.podNamespace uuid)) := by
  rw [build_eq]
  split
  · exact .inl rfl
  · split
    · exact .inl rfl
    · exact .inr ⟨_, rfl⟩

theorem forgetsDropped_iff (s : State) : ForgetsDropped s ↔ ∀ key ∈ s.cache, Known s key := by
  refine ⟨ForgetsDropped.cached, fun h => ⟨h, ?_⟩⟩
  intro report podData key uuid hkey hlost
  have hnew : s.cache.contains key = false := by
    rw [List.contains_eq_mem, decide_eq_false_iff_not]
    exact fun hcached => hlost (h key hcached)
  rw [build_eq, hkey]
  simp only [hnew, Bool.false_eq_true, if_false]

theorem Known.mono {s s' : State} {key : TrafficKey} (h : Known s key)
    (hkept : ∀ row, (row ∈ s.acknowledged ∨ ∃ handler, row ∈ (s.pending handler).batch) →
      row ∈ s'.acknowledged ∨ ∃ handler, row ∈ (s'.pending handler).batch) : Known s' key := by
  obtain ⟨row, hrow, hknown⟩ := h
  exact ⟨row, hrow, hkept row hknown⟩

theorem known_receive {s : State} {key : TrafficKey} (h : Known s key) (report : Report)
    (podData : Option PodInfo) (uuid : String) (timedOut : Bool) :
    Known (receive s report podData uuid timedOut) key := by
  refine h.mono fun row hrow => ?_
  rcases hrow with hrow | ⟨handler, hrow⟩
  · exact .inl hrow
  · refine .inr ⟨handler, ?_⟩
    by_cases hhandler : handler = report.handler
    · subst hhandler
      simp only [receive, Function.update_self]
      exact List.mem_append_left _ hrow
    · simp only [receive, Function.update_of_ne hhandler]
      exact hrow

theorem cached_receive {s : State} (h : ∀ key ∈ s.cache, Known s key) (report : Report)
    (podData : Option PodInfo) (uuid : String) (timedOut : Bool) :
    ∀ key ∈ (receive s report podData uuid timedOut).cache,
      Known (receive s report podData uuid timedOut) key := by
  intro key hkey
  by_cases hold : key ∈ s.cache
  · exact known_receive (h key hold) report podData uuid timedOut
  cases podData with
  | none => exact absurd hkey hold
  | some podData =>
      rcases build_cases s.cache report podData uuid with hbuild | ⟨key', hbuild⟩
      · simp only [receive, Option.map_some, Option.getD_some, hbuild] at hkey
        exact absurd hkey hold
      · simp only [receive, Option.map_some, Option.getD_some, hbuild, List.mem_cons, hold,
          or_false] at hkey
        subst hkey
        refine ⟨_, isRowOf_trafficRow key podData.podNamespace uuid, .inr ⟨report.handler, ?_⟩⟩
        simp only [receive, Option.map_some, Option.getD_some, hbuild, Function.update_self,
          Option.toList_some, List.mem_append, List.mem_singleton, or_true]

/-- What is pending stays known when a post succeeds. -/
theorem known_flush_posted {s : State} {key : TrafficKey} (h : Known s key) (handler : Handler) :
    Known (flush s handler true) key := by
  refine h.mono fun row hrow => ?_
  rcases hrow with hrow | ⟨handler', hrow⟩
  · exact .inl (List.mem_append_left _ hrow)
  · by_cases hhandler : handler' = handler
    · subst hhandler
      exact .inl (List.mem_append_right _ hrow)
    · refine .inr ⟨handler', ?_⟩
      simp only [flush, Function.update_of_ne hhandler]
      exact hrow

theorem flushNetworkBatch_failed (batch : List PodTraffic) :
    flushNetworkBatch batch false = capBatch batch maxPendingEvents :=
  if_neg Bool.false_ne_true

theorem trimmed_append_capBatch (batch : List PodTraffic) :
    trimmed batch ++ capBatch batch maxPendingEvents = batch :=
  List.take_append_drop _ batch

theorem known_flush_failed_iff (s : State) (handler : Handler) (key : TrafficKey) :
    Known (flush s handler false) key ↔ KnownElsewhere s handler key := by
  constructor
  · rintro ⟨row, hrow, hack | ⟨other, hpending⟩⟩
    · exact ⟨row, hrow, .inl hack⟩
    · by_cases hother : other = handler
      · subst hother
        simp only [flush, Function.update_self, flushNetworkBatch_failed] at hpending
        exact ⟨row, hrow, .inr (.inl hpending)⟩
      · simp only [flush, Function.update_of_ne hother] at hpending
        exact ⟨row, hrow, .inr (.inr ⟨other, hother, hpending⟩)⟩
  · rintro ⟨row, hrow, hack | hkept | ⟨other, hother, hpending⟩⟩
    · exact ⟨row, hrow, .inl hack⟩
    · refine ⟨row, hrow, .inr ⟨handler, ?_⟩⟩
      simp only [flush, Function.update_self, flushNetworkBatch_failed]
      exact hkept
    · refine ⟨row, hrow, .inr ⟨other, ?_⟩⟩
      simp only [flush, Function.update_of_ne hother]
      exact hpending

/-- A key that is known has a row among those that are dropped, or is known elsewhere. -/
theorem Known.trimmed_or_elsewhere {s : State} {key : TrafficKey} (h : Known s key)
    (handler : Handler) :
    (∃ row ∈ trimmed (s.pending handler).batch, IsRowOf key row) ∨
      KnownElsewhere s handler key := by
  obtain ⟨row, hrow, hack | ⟨other, hpending⟩⟩ := h
  · exact .inr ⟨row, hrow, .inl hack⟩
  · by_cases hother : other = handler
    · subst hother
      rw [← trimmed_append_capBatch (s.pending other).batch] at hpending
      rcases List.mem_append.mp hpending with htrimmed | hkept
      · exact .inl ⟨row, htrimmed, hrow⟩
      · exact .inr ⟨row, hrow, .inr (.inl hkept)⟩
    · exact .inr ⟨row, hrow, .inr (.inr ⟨other, hother, hpending⟩)⟩

theorem cached_step_iff {s s' : State} {e : Event} (h : ∀ key ∈ s.cache, Known s key)
    (hstep : step s e = some s') : (∀ key ∈ s'.cache, Known s' key) ↔ DropsNoCached s e := by
  cases e with
  | received report podData uuid timedOut =>
      obtain ⟨-, rfl⟩ := Machine.of_guard hstep
      exact iff_of_true (cached_receive h report podData uuid timedOut) trivial
  | flushed handler posted =>
      obtain ⟨-, rfl⟩ := Machine.of_guard hstep
      cases posted with
      | true => exact iff_of_true (fun key hkey => known_flush_posted (h key hkey) handler) trivial
      | false =>
          constructor
          · exact fun hknown row _ key hkey _ =>
              (known_flush_failed_iff s handler key).mp (hknown key hkey)
          · intro hdropped key hkey
            rcases (h key hkey).trimmed_or_elsewhere handler with ⟨row, htrimmed, hrow⟩ | helse
            · exact (known_flush_failed_iff s handler key).mpr
                (hdropped row htrimmed key hkey hrow)
            · exact (known_flush_failed_iff s handler key).mpr helse
  | evicted key =>
      obtain rfl := Option.some.inj hstep
      exact iff_of_true (fun key' hkey' => h key' (List.mem_of_mem_filter hkey')) trivial

/-! Runs. -/

/-- Each cached key is of a row that is pending or was acknowledged all along
exactly when no failed post drops the last known row of a cached key. -/
theorem forgetsDropped_iff_dropsNoCached (events : List Event) :
    machine.EveryState events (fun _ s => ForgetsDropped s) ↔
      machine.EveryStep events (fun _ s e _ => DropsNoCached s e) := by
  simp only [forgetsDropped_iff]
  refine Machine.everyState_iff_everyStep ?_ ?_
  · exact fun key hkey => absurd hkey List.not_mem_nil
  · exact fun _ s e s' _ h hstep => cached_step_iff h hstep

/-! An outage in which a pod makes one call more than the batch can hold. -/

def callingPod : PodInfo := ⟨"web-1", some "prod", "10.244.1.7"⟩

def call (n : ℕ) : NetworkEventData where
  inum := 4026532001
  saddr := 0x0701f40a
  sport := 0
  daddr := 0x0900000a
  dport := BitVec.ofNat 16 (n + 1)
  kind := 1

def callKey (n : ℕ) : TrafficKey :=
  ⟨"web-1", "10.244.1.7", "0", "10.0.0.9", toString (n + 1), "EGRESS", "TCP", "ALLOW"⟩

def callRow (n : ℕ) : PodTraffic := trafficRow (callKey n) (some "prod") (toString n)

def called (n : ℕ) : Event := .received (.network (call n)) (some callingPod) (toString n) false

/-- A post fails after each call from the one that fills the batch. -/
def outage : ℕ → List Event
  | 0 => []
  | n + 1 => outage n ++
      if batchSize ≤ n + 1 then [called n, .flushed .networkEvents false] else [called n]

def outageState (n : ℕ) (due : Bool) : State where
  cache := ((List.range n).map callKey).reverse
  pending := Function.update (fun _ => ⟨[], false⟩) .networkEvents
    ⟨(List.range n).map callRow, due⟩
  acknowledged := []

theorem pending_outageState (n : ℕ) (due : Bool) :
    (outageState n due).pending .networkEvents = ⟨(List.range n).map callRow, due⟩ := by
  simp only [outageState, Function.update_self]

theorem pending_outageState_of_ne (n : ℕ) (due : Bool) {handler : Handler}
    (h : handler ≠ .networkEvents) : (outageState n due).pending handler = ⟨[], false⟩ := by
  simp only [outageState, Function.update_of_ne h]

theorem cacheKey_call {n : ℕ} (h : n < 65535) :
    (Report.network (call n)).cacheKey callingPod = some (callKey n) := by
  have hport : (call n).dport.toNat = n + 1 := by
    rw [call, BitVec.toNat_ofNat]
    exact Nat.mod_eq_of_lt (by omega)
  have hkind : eventKind (call n) = some ("EGRESS", "TCP", 0, n + 1) := by
    have hcall : (call n).kind = 1 := rfl
    rw [eventKind, hcall, hport]
    rfl
  have haddress : ipv4String (fromBe (call n).daddr) = "10.0.0.9" := by
    change ipv4String (fromBe 0x0900000a) = "10.0.0.9"
    decide
  rw [Report.cacheKey, NetworkEvents.cacheKey, hkind, haddress]
  rfl

theorem toString_injective {n m : ℕ} (h : toString n = toString m) : n = m := by
  rw [Nat.toString_eq_ofList_toDigits, Nat.toString_eq_ofList_toDigits] at h
  have hdigits := String.ofList_injective h
  rw [← Nat.ofDigitChars_ten_toDigits (n := n), hdigits, Nat.ofDigitChars_ten_toDigits]

theorem callKey_injective : Function.Injective callKey := by
  intro n m h
  exact Nat.succ.inj (toString_injective (congrArg TrafficKey.trafficInOutPort h))

theorem step_called {n : ℕ} (h : n < 65535) :
    step (outageState n false) (called n) =
      some (outageState (n + 1) (decide (batchSize ≤ n + 1))) := by
  have hnew : (outageState n false).cache.contains (callKey n) = false := by
    rw [List.contains_eq_mem, decide_eq_false_iff_not, outageState, List.mem_reverse,
      List.mem_map]
    rintro ⟨m, hm, heq⟩
    rw [callKey_injective heq] at hm
    exact absurd (List.mem_range.mp hm) (Nat.lt_irrefl n)
  have hbuild : build (outageState n false).cache (.network (call n)) callingPod (toString n) =
      (callKey n :: (outageState n false).cache, some (callRow n)) := by
    rw [build_eq, cacheKey_call h]
    simp only [hnew, Bool.false_eq_true, if_false]
    rfl
  have hcache : callKey n :: (outageState n false).cache =
      ((List.range (n + 1)).map callKey).reverse := by
    rw [List.range_succ, List.map_append, List.reverse_append]
    rfl
  have hbatch : ((outageState n false).pending .networkEvents).batch ++ [callRow n] =
      (List.range (n + 1)).map callRow := by
    rw [List.range_succ, List.map_append]
    rfl
  have hdue : ((outageState n false).pending (Report.network (call n)).handler).due = false :=
    rfl
  rw [called, step, if_pos hdue, receive, Option.map_some, Option.getD_some, hbuild, hcache]
  simp only [Report.handler, Option.toList_some, hbatch, List.length_map, List.length_range]
  rw [outageState, outageState, Function.update_idem, shouldFlush]
  simp

theorem step_flushed {n : ℕ} (hn : 0 < n) (h : n ≤ maxPendingEvents) (due : Bool) :
    step (outageState n due) (.flushed .networkEvents false) = some (outageState n false) := by
  have hkept : capBatch ((List.range n).map callRow) maxPendingEvents =
      (List.range n).map callRow := by
    rw [capBatch, List.length_map, List.length_range, Nat.sub_eq_zero_of_le h, List.drop_zero]
  have hpending : ((outageState n due).pending .networkEvents).batch ≠ [] := by
    rw [pending_outageState]
    simpa using hn.ne'
  rw [step, if_pos hpending, flush, pending_outageState, flushNetworkBatch_failed, hkept,
    outageState, outageState, Function.update_idem]
  rfl

theorem run_outage {n : ℕ} (h : n ≤ maxPendingEvents) :
    machine.run (outage n) = some (outageState n false) := by
  induction n with
  | zero =>
      have hpending : (outageState 0 false).pending = fun _ => ⟨[], false⟩ := by
        funext handler
        by_cases hhandler : handler = .networkEvents
        · rw [hhandler, pending_outageState]
          rfl
        · exact pending_outageState_of_ne 0 false hhandler
      rw [outage, Machine.run_nil, machine, ← hpending]
      rfl
  | succ n ih =>
      have hstep := step_called (n := n) (by rw [maxPendingEvents] at h; omega)
      have hrun := ih (by omega)
      rw [outage]
      by_cases hdue : batchSize ≤ n + 1
      · rw [if_pos hdue, List.append_cons]
        rw [decide_eq_true hdue] at hstep
        exact Machine.run_concat_eq_some_iff.mpr
          ⟨_, Machine.run_concat_eq_some_iff.mpr ⟨_, hrun, hstep⟩,
            step_flushed n.succ_pos h true⟩
      · rw [if_neg hdue]
        rw [decide_eq_false hdue] at hstep
        exact Machine.run_concat_eq_some_iff.mpr ⟨_, hrun, hstep⟩

/-- The call that is one too many takes the place of the first one. -/
theorem not_known_after_overflow {n : ℕ} (h : n = maxPendingEvents) :
    ¬ Known (flush (outageState (n + 1) true) .networkEvents false) (callKey 0) := by
  rw [known_flush_failed_iff]
  rintro ⟨row, hrow, hack | hkept | ⟨other, hother, hpending⟩⟩
  · exact absurd hack List.not_mem_nil
  · rw [pending_outageState, capBatch, List.length_map, List.length_range, ← h,
      Nat.add_sub_cancel_left, List.range_succ_eq_map, List.map_cons, List.drop_succ_cons,
      List.drop_zero, List.map_map] at hkept
    obtain ⟨m, -, rfl⟩ := List.mem_map.mp hkept
    have hport := Option.some.inj (congrArg PodTraffic.trafficInOutPort hrow)
    exact absurd (toString_injective hport) (by simp)
  · rw [pending_outageState_of_ne (n + 1) true hother] at hpending
    exact absurd hpending List.not_mem_nil

theorem outage_not_forgotten :
    ¬ ∀ events, machine.EveryState events fun _ s => ForgetsDropped s := by
  intro h
  obtain ⟨n, hn⟩ : ∃ n, n = maxPendingEvents := ⟨_, rfl⟩
  have hrun := run_outage hn.le
  have hcalled := step_called (n := n) (by rw [hn, maxPendingEvents]; decide)
  rw [decide_eq_true (by rw [hn, maxPendingEvents, batchSize]; decide)] at hcalled
  have hflushed : step (outageState (n + 1) true) (.flushed .networkEvents false) =
      some (flush (outageState (n + 1) true) .networkEvents false) := by
    refine if_pos ?_
    rw [pending_outageState]
    simp
  have hlost : machine.run (outage n ++ [called n] ++ [.flushed .networkEvents false]) = some _ :=
    Machine.run_concat_eq_some_iff.mpr
      ⟨_, Machine.run_concat_eq_some_iff.mpr ⟨_, hrun, hcalled⟩, hflushed⟩
  refine not_known_after_overflow hn ((h _ _ [] _ (List.append_nil _).symm hlost).cached _ ?_)
  exact List.mem_reverse.mpr (List.mem_map_of_mem (List.mem_range.mpr n.succ_pos))

end KGuardian.TrafficReports
