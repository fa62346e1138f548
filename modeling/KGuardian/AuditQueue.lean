import KGuardian.BrokerAudit
import KGuardian.Channels
import KGuardian.Runs
import Mathlib.Data.List.Nodup
import Mathlib.Data.List.Perm.Basic

/-!
The audit queue of the broker (`broker/src/audit.rs`). Ingest offers flows and never
waits, a dispatcher takes a permit and then a flow, and the task that evaluates the
flow gives the permit back. Every flow that was offered is in one place.
-/
namespace KGuardian.AuditQueue

open BrokerAudit Channels Runs
open BrokerTraffic (PodTraffic)

/-! Limits from the environment. -/

/-- The method `str::parse` at `usize`. -/
def parseUsize (s : List Char) : Option ℕ :=
  ((match s with
    | '+' :: rest => TextScan.parseDigits rest
    | s => TextScan.parseDigits s)).filter fun n => n < 2 ^ 64

/-- A limit is at least one. Text that is not a number counts as not set. -/
def limit (default : ℕ) (raw : Option String) : ℕ :=
  ((raw.bind fun v => parseUsize (TextScan.trim v.toList)).map fun n => max n 1).getD default

def auditInflightPermits : ℕ := 16

def auditQueueCapacity : ℕ := 2048

/-- The variables `AUDIT_INFLIGHT_PERMITS` and `AUDIT_QUEUE_CAPACITY`. -/
structure Env where
  inflightPermits : Option String
  queueCapacity : Option String

def Env.permits (env : Env) : ℕ := limit auditInflightPermits env.inflightPermits

def Env.capacity (env : Env) : ℕ := limit auditQueueCapacity env.queueCapacity

/-! One evaluation. -/

/-- What comes back from the evaluator. A body that is decoded has verdicts. -/
inductive Response where
  | unreachable
  | answered (status : ℕ) (body : Option (List String))

inductive Insert where
  | rows
  | noConnection
  | refused
  | panicked

structure Reply where
  response : Response
  insert : Insert

/-- The ways in which an evaluation ends. -/
inductive Outcome where
  | disabled
  | unknownTrafficType
  | unreachable
  | notSuccessful
  | undecodable
  | nothingToInsert
  | inserted (result : Insert)

def isPersistableVerdict (verdict : String) : Bool := verdict = "Allow" || verdict = "WouldDeny"

def evaluateAndPersist (enabled : Bool) (traffic : PodTraffic) (reply : Reply) : Outcome :=
  if !enabled then .disabled
  else
    match buildFlowForTraffic traffic with
    | none => .unknownTrafficType
    | some _ =>
        match reply.response with
        | .unreachable => .unreachable
        | .answered status body =>
            if ¬ (200 ≤ status ∧ status < 300) then .notSuccessful
            else
              match body with
              | none => .undecodable
              | some verdicts =>
                  if verdicts.filter isPersistableVerdict = [] then .nothingToInsert
                  else .inserted reply.insert

/-! The queue. -/

/-- A flow with its place among all that were offered. -/
abbrev Job := PodTraffic × ℕ

/-- What the dispatcher waits for. It holds a permit while it waits for a flow. -/
inductive Dispatcher where
  | acquiring
  | receiving
  deriving DecidableEq

/-- The queue and its tasks. The number of offers gives each flow its place. -/
structure State (env : Env) where
  offers : ℕ
  channel : Channel Job env.capacity
  dispatcher : Dispatcher
  availablePermits : ℕ
  evaluating : List Job
  finished : List (Job × Outcome)
  dropped : BitVec 64

inductive Event where
  | tryEnqueue (traffic : PodTraffic)
  | acquired
  | received
  | completed (index : ℕ) (reply : Reply)

def tryEnqueue {env : Env} (s : State env) (traffic : PodTraffic) : State env :=
  let job := (traffic, s.offers)
  let s := { s with offers := s.offers + 1 }
  match s.channel.trySend job with
  | some channel => { s with channel }
  | none => { s with dropped := s.dropped + 1 }

/-- The client is enabled, since it was started. However an evaluation ends, its
permit is dropped after it. -/
def step (env : Env) (s : State env) : Event → Option (State env)
  | .tryEnqueue traffic => some (tryEnqueue s traffic)
  | .acquired =>
      if s.dispatcher = .acquiring ∧ 0 < s.availablePermits then
        some { s with dispatcher := .receiving, availablePermits := s.availablePermits - 1 }
      else none
  | .received =>
      if s.dispatcher = .receiving then
        s.channel.recv.map fun (job, channel) =>
          { s with channel, dispatcher := .acquiring, evaluating := s.evaluating ++ [job] }
      else none
  | .completed index reply =>
      s.evaluating[index]?.map fun job =>
        { s with
          evaluating := s.evaluating.eraseIdx index
          finished := s.finished ++ [(job, evaluateAndPersist true job.1 reply)]
          availablePermits := s.availablePermits + 1 }

def start (env : Env) : State env where
  offers := 0
  channel := .empty
  dispatcher := .acquiring
  availablePermits := env.permits
  evaluating := []
  finished := []
  dropped := 0

def machine (env : Env) : Machine (State env) Event := ⟨start env, step env⟩

def Event.offered : Event → Option PodTraffic
  | .tryEnqueue traffic => some traffic
  | _ => none

/-- The flows that were offered, in their places. -/
def offeredJobs (events : List Event) : List Job := (events.filterMap Event.offered).zipIdx

/-- The jobs that wait, are in flight or are finished. -/
def jobs {env : Env} (s : State env) : List Job :=
  s.channel.waiting ++ s.evaluating ++ s.finished.map Prod.fst

/-- The permits that the dispatcher has or can have. -/
def dispatcherPermits {env : Env} (s : State env) : ℕ :=
  s.availablePermits + if s.dispatcher = .receiving then 1 else 0

/-- The jobs of the state and those that were shed are the offered ones, each in one
place, and the shed ones are counted. -/
structure Accounted {env : Env} (events : List Event) (s : State env) (shed : List Job) :
    Prop where
  offered : (jobs s ++ shed).Perm (offeredJobs events)
  inOnePlace : (jobs s ++ shed).Nodup
  counted : s.dropped = BitVec.ofNat 64 shed.length

/-- Work is conserved and the limits are kept. -/
structure Conserves {env : Env} (events : List Event) (s : State env) : Prop where
  inFlight : s.evaluating.length ≤ env.permits
  waiting : s.channel.waiting.length ≤ env.capacity
  accounted : ∃ shed, Accounted events s shed
  evaluatedOnce : (s.evaluating ++ s.finished.map Prod.fst).Nodup
  permits : s.evaluating = [] → dispatcherPermits s = env.permits

/-- The parts from which the rest follows. -/
structure Inv {env : Env} (events : List Event) (s : State env) (shed : List Job) : Prop where
  offers : s.offers = (offeredJobs events).length
  offered : (jobs s ++ shed).Perm (offeredJobs events)
  counted : s.dropped = BitVec.ofNat 64 shed.length
  permits : dispatcherPermits s + s.evaluating.length = env.permits

variable {env : Env} {events : List Event} {shed : List Job}

theorem nodup_offeredJobs (events : List Event) : (offeredJobs events).Nodup := by
  refine List.Nodup.of_map Prod.snd ?_
  rw [offeredJobs, List.zipIdx_map_snd]
  exact List.nodup_range'

theorem offeredJobs_tryEnqueue (events : List Event) (traffic : PodTraffic) :
    offeredJobs (events ++ [.tryEnqueue traffic]) =
      offeredJobs events ++ [(traffic, (offeredJobs events).length)] := by
  rw [offeredJobs, List.filterMap_append, List.zipIdx_append, Nat.zero_add, offeredJobs,
    List.length_zipIdx]
  rfl

theorem offeredJobs_concat_of_none (events : List Event) {e : Event} (h : e.offered = none) :
    offeredJobs (events ++ [e]) = offeredJobs events := by
  rw [offeredJobs, List.filterMap_append, List.filterMap_cons_none h, List.filterMap_nil,
    List.append_nil, offeredJobs]

theorem Inv.toConserves {s : State env} (h : Inv events s shed) : Conserves events s := by
  have hnodup : (jobs s ++ shed).Nodup := h.offered.nodup_iff.mpr (nodup_offeredJobs events)
  refine ⟨?_, s.channel.bounded, ⟨shed, h.offered, hnodup, h.counted⟩, ?_, fun hidle => ?_⟩
  · rw [← h.permits]
    exact Nat.le_add_left _ _
  · have hjobs := (List.nodup_append.mp hnodup).1
    rw [jobs, List.append_assoc s.channel.waiting] at hjobs
    exact (List.nodup_append.mp hjobs).2.1
  · rw [← h.permits, hidle]
    rfl

/-! One step. -/

theorem inv_start : Inv [] (start env) [] := ⟨rfl, .refl _, rfl, rfl⟩

/-- An offered flow waits from then on, or it is shed. -/
theorem Inv.tryEnqueue {s : State env} (h : Inv events s shed) (traffic : PodTraffic) :
    ∃ shed', Inv (events ++ [.tryEnqueue traffic]) (tryEnqueue s traffic) shed' := by
  have hoffers : s.offers + 1 = (offeredJobs (events ++ [.tryEnqueue traffic])).length := by
    rw [offeredJobs_tryEnqueue, List.length_append, List.length_singleton, h.offers]
  have hjobs : (jobs s ++ shed ++ [(traffic, s.offers)]).Perm
      (offeredJobs (events ++ [.tryEnqueue traffic])) := by
    rw [offeredJobs_tryEnqueue, h.offers]
    exact h.offered.append_right _
  rw [AuditQueue.tryEnqueue]
  cases hsend : s.channel.trySend (traffic, s.offers) with
  | some channel =>
      refine ⟨shed, hoffers, .trans ?_ hjobs, h.counted, h.permits⟩
      simp only [jobs, Channel.waiting_of_trySend hsend, List.append_assoc]
      refine .append_left _ (List.perm_append_comm.trans ?_)
      simp only [List.append_assoc, List.Perm.refl]
  | none =>
      refine ⟨shed ++ [(traffic, s.offers)], hoffers, ?_, ?_, h.permits⟩
      · rw [List.append_assoc] at hjobs
        exact hjobs
      · simp only [h.counted, List.length_append, List.length_singleton]
        exact (BitVec.ofNat_add _ 1).symm

theorem Inv.acquired {s : State env} (h : Inv events s shed)
    (hdispatcher : s.dispatcher = .acquiring) (hpermit : 0 < s.availablePermits) :
    Inv events
      { s with dispatcher := .receiving, availablePermits := s.availablePermits - 1 } shed := by
  refine ⟨h.offers, h.offered, h.counted, ?_⟩
  have hpermits := h.permits
  simp only [dispatcherPermits, hdispatcher, reduceCtorEq, if_false, if_true] at hpermits ⊢
  omega

theorem Inv.received {s : State env} (h : Inv events s shed)
    (hdispatcher : s.dispatcher = .receiving) {job : Job} {channel : Channel Job env.capacity}
    (hrecv : s.channel.recv = some (job, channel)) :
    Inv events
      { s with channel, dispatcher := .acquiring, evaluating := s.evaluating ++ [job] } shed := by
  refine ⟨h.offers, .trans ?_ h.offered, h.counted, ?_⟩
  · refine .append_right _ ?_
    simp only [jobs, Channel.waiting_of_recv hrecv, List.append_assoc, List.cons_append]
    rw [← List.append_assoc channel.waiting s.evaluating, List.nil_append]
    refine List.perm_middle.trans ?_
    simp only [List.append_assoc, List.Perm.refl]
  · have hpermits := h.permits
    simp only [dispatcherPermits, hdispatcher, reduceCtorEq, if_false, if_true,
      List.length_append, List.length_singleton] at hpermits ⊢
    omega

theorem Inv.completed {s : State env} (h : Inv events s shed) {index : ℕ} {job : Job}
    (outcome : Outcome) (hjob : s.evaluating[index]? = some job) :
    Inv events { s with
      evaluating := s.evaluating.eraseIdx index
      finished := s.finished ++ [(job, outcome)]
      availablePermits := s.availablePermits + 1 } shed := by
  obtain ⟨hindex, rfl⟩ := List.getElem?_eq_some_iff.mp hjob
  refine ⟨h.offers, .trans ?_ h.offered, h.counted, ?_⟩
  · refine .append_right _ ?_
    have hmoved := List.getElem_cons_eraseIdx_perm hindex
    simp only [jobs, List.map_append, List.map_singleton, List.append_assoc]
    refine .append_left _ (.trans ?_ (hmoved.append_right _))
    rw [← List.append_assoc, List.cons_append]
    exact List.perm_append_comm
  · have hpermits := h.permits
    simp only [dispatcherPermits, List.length_eraseIdx_of_lt hindex] at hpermits ⊢
    omega

/-! Runs. -/

theorem inv_step {s s' : State env} {e : Event} (h : Inv events s shed)
    (hstep : step env s e = some s') : ∃ shed', Inv (events ++ [e]) s' shed' := by
  have hkept (hnone : e.offered = none) (h' : Inv events s' shed) :
      ∃ shed', Inv (events ++ [e]) s' shed' := by
    refine ⟨shed, ?_, ?_, h'.counted, h'.permits⟩
    · rw [offeredJobs_concat_of_none events hnone, h'.offers]
    · rw [offeredJobs_concat_of_none events hnone]
      exact h'.offered
  cases e with
  | tryEnqueue traffic =>
      obtain rfl := Option.some.inj hstep
      exact h.tryEnqueue traffic
  | acquired =>
      obtain ⟨⟨hdispatcher, hpermit⟩, rfl⟩ := Machine.of_guard hstep
      exact hkept rfl (h.acquired hdispatcher hpermit)
  | received =>
      obtain ⟨hdispatcher, hreceived⟩ := Option.ite_none_right_eq_some.mp hstep
      obtain ⟨⟨job, channel⟩, hrecv, rfl⟩ := Option.map_eq_some_iff.mp hreceived
      exact hkept rfl (h.received hdispatcher hrecv)
  | completed index reply =>
      obtain ⟨job, hjob, rfl⟩ := Option.map_eq_some_iff.mp hstep
      exact hkept rfl (h.completed _ hjob)

/-- Work is conserved in each state of each run, with any limits: the flows that the
events before the state offered are in one place each. -/
theorem conserves (env : Env) (events : List Event) :
    (machine env).EveryState events fun before s => Conserves before s := by
  intro before after s _ hrun
  obtain ⟨shed, h⟩ := Machine.invariant (P := fun before s => ∃ shed, Inv before s shed)
    ⟨[], inv_start⟩ (fun _ _ _ _ _ ⟨_, h⟩ hstep => inv_step h hstep) hrun
  exact h.toConserves

/-- A timeout gives the permit back. -/
example : ((machine ⟨some " 1\n", some "many"⟩).run
    [.tryEnqueue webRow, .acquired, .received, .completed 0 ⟨.unreachable, .rows⟩]).map
      dispatcherPermits = some 1 := rfl

end KGuardian.AuditQueue
