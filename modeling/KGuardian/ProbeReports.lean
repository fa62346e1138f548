import KGuardian.NetworkProbe
import KGuardian.Runs

/-!
What the traffic probes submit over the life of the connection map. A probe marks
a connection before it asks the ring buffer for space, and the key of the map
always ends in the remote port, also where the service port is the local one.
-/
namespace KGuardian.ProbeReports

open NetworkProbe Runs

/-! Probe calls that get past all filters. -/

/-- A socket, and the namespace and the kind that are reported of it. -/
structure Observation where
  sk : Sock
  inum : BitVec 64
  kind : ℕ
  room : Bool

def protocolOf (kind : ℕ) : ℕ := if kind = 3 then 2 else 1

def directionOfKind (kind : ℕ) : ℕ := if kind = 3 then 1 else kind

def Observation.key (o : Observation) : ConnKey :=
  connKey o.sk o.inum (protocolOf o.kind) (directionOfKind o.kind)

def Observation.event (o : Observation) : NetworkEventData :=
  ⟨o.inum, o.sk.rcvSaddr, o.sk.num, o.sk.daddr, ntohs o.sk.dport, o.kind⟩

def observe (s : ProbeState) : ProbeStep → Option Observation
  | .udpSendmsg sk room =>
      if sk.netNsInum ∈ s.inodeNum ∧ shouldFilterTraffic s sk.rcvSaddr sk.daddr = false then
        some ⟨sk, sk.netNsInum, 3, room⟩
      else none
  | .tcpSetState sk state room =>
      if state = tcpEstablished ∧ sk.family = afInet ∧ sk.netNsInum ∈ s.inodeNum ∧
          shouldFilterTraffic s sk.rcvSaddr sk.daddr = false then
        some ⟨sk, sk.netNsInum, directionOf sk.num, room⟩
      else none
  | .acceptExit tid cpu (some sk) room =>
      if shouldFilterTraffic s sk.rcvSaddr sk.daddr = false then
        (lookupCtx s tid cpu).map fun inum => ⟨sk, inum, 2, room⟩
      else none
  | _ => none

/-- The connection that an event is about. -/
def keyOf (e : NetworkEventData) : ConnKey :=
  ⟨e.inum, e.saddr, e.daddr, e.dport, protocolOf e.kind, directionOfKind e.kind⟩

/-- The probes, and what was observed and submitted so far. -/
structure State where
  probe : ProbeState
  log : List (Observation × Option NetworkEventData)

def step (s : State) (x : ProbeStep) : State where
  probe := (NetworkProbe.step s.probe x).1
  log := s.log ++ ((observe s.probe x).map fun o => (o, (NetworkProbe.step s.probe x).2)).toList

def start : State := ⟨⟨[], [], [], []⟩, []⟩

def machine : Machine State ProbeStep := ⟨start, fun s x => some (step s x)⟩

/-- What is left of an observation once its key was looked up. -/
def Outcome (connections : List ConnKey) (o : Observation)
    (after : ProbeState × Option NetworkEventData) : Prop :=
  after.1.connections =
      (if o.key ∈ connections then connections else o.key :: connections) ∧
    after.2 = if o.key ∈ connections then none else if o.room then some o.event else none

theorem outcome_report (s : ProbeState) (o : Observation) {protocol direction : ℕ}
    (hprotocol : protocol = protocolOf o.kind) (hdirection : direction = directionOfKind o.kind) :
    Outcome s.connections o (report s o.sk o.inum protocol direction o.kind o.room) := by
  subst hprotocol hdirection
  rw [Outcome, report, isNewConnection, List.contains_eq_mem, ← Observation.key]
  by_cases hkey : o.key ∈ s.connections
  · simp [hkey]
  · simp only [hkey, decide_false, Bool.not_false, if_true, if_false, Observation.event, and_self]

theorem directionOfKind_directionOf (sport : BitVec 16) :
    directionOf sport = directionOfKind (directionOf sport) :=
  (if_neg (directionOf_ne_three sport)).symm

theorem protocolOf_directionOf (sport : BitVec 16) : 1 = protocolOf (directionOf sport) :=
  (if_neg (directionOf_ne_three sport)).symm

theorem traceUdpSend_eq (s : ProbeState) (sk : Sock) (room : Bool) :
    traceUdpSend s sk room =
      if sk.netNsInum ∈ s.inodeNum ∧
          shouldFilterTraffic s sk.rcvSaddr sk.daddr = false then
        report s sk sk.netNsInum 2 1 3 room
      else (s, none) := by
  rw [traceUdpSend, getAndValidateInum]
  by_cases hinum : sk.netNsInum ∈ s.inodeNum
  · cases hfilter : shouldFilterTraffic s sk.rcvSaddr sk.daddr <;> simp [hinum]
  · simp [hinum]

theorem traceTcpStateChange_eq (s : ProbeState) (sk : Sock) (state : ℕ) (room : Bool) :
    traceTcpStateChange s sk state room =
      if state = tcpEstablished ∧ sk.family = afInet ∧ sk.netNsInum ∈ s.inodeNum ∧
          shouldFilterTraffic s sk.rcvSaddr sk.daddr = false then
        report s sk sk.netNsInum 1 (directionOf sk.num) (directionOf sk.num) room
      else (s, none) := by
  rw [traceTcpStateChange, getAndValidateInum]
  by_cases hstate : state = tcpEstablished
  · by_cases hfamily : sk.family = afInet
    · by_cases hinum : sk.netNsInum ∈ s.inodeNum
      · cases hfilter : shouldFilterTraffic s sk.rcvSaddr sk.daddr <;> simp [hstate, hfamily, hinum]
      · simp [hstate, hfamily, hinum]
    · simp [hstate, hfamily]
  · simp [hstate]

/-- An accept that returns takes the context of its thread in any case. -/
theorem tcpAcceptExit_eq (s : ProbeState) (tid : BitVec 32) (cpu : ℕ) (newSk : Option Sock)
    (room : Bool) :
    ∃ s', s'.connections = s.connections ∧
      tcpAcceptExit s tid cpu newSk room =
        match observe s (.acceptExit tid cpu newSk room) with
        | some o => report s' o.sk o.inum 1 2 2 room
        | none => (s', none) := by
  rw [tcpAcceptExit]
  cases hctx : lookupCtx s tid cpu with
  | none =>
      refine ⟨s, rfl, ?_⟩
      cases newSk <;> simp [observe, hctx]
  | some inum =>
      refine ⟨{ s with tcpCtx := s.tcpCtx.filter fun c => c.tid ≠ tid }, rfl, ?_⟩
      cases newSk with
      | none => rfl
      | some sk =>
          have hignored : shouldFilterTraffic
              { s with tcpCtx := s.tcpCtx.filter fun c => c.tid ≠ tid } sk.rcvSaddr sk.daddr =
                shouldFilterTraffic s sk.rcvSaddr sk.daddr := rfl
          cases hfilter : shouldFilterTraffic s sk.rcvSaddr sk.daddr with
          | false => simp only [observe, hctx, hfilter, hignored, Option.map_some, if_true,
              Bool.false_eq_true, if_false]
          | true => simp only [observe, hfilter, hignored, if_true, Bool.true_eq_false, if_false]

theorem kind_of_observe_acceptExit {s : ProbeState} {tid : BitVec 32} {cpu : ℕ}
    {newSk : Option Sock} {room : Bool} {o : Observation}
    (h : observe s (.acceptExit tid cpu newSk room) = some o) : o.kind = 2 ∧ o.room = room := by
  cases newSk with
  | none => cases h
  | some sk =>
      obtain ⟨-, ho⟩ := Option.ite_none_right_eq_some.mp h
      obtain ⟨inum, -, rfl⟩ := Option.map_eq_some_iff.mp ho
      exact ⟨rfl, rfl⟩

/-- An observation goes on to mark its key and to submit its event. -/
theorem step_of_observe {s : ProbeState} {x : ProbeStep} {o : Observation}
    (h : observe s x = some o) : Outcome s.connections o (NetworkProbe.step s x) := by
  cases x with
  | udpSendmsg sk room =>
      obtain ⟨hguard, ho⟩ := Option.ite_none_right_eq_some.mp h
      obtain rfl := Option.some.inj ho
      rw [NetworkProbe.step, traceUdpSend_eq, if_pos hguard]
      exact outcome_report s ⟨sk, sk.netNsInum, 3, room⟩ rfl rfl
  | tcpSetState sk state room =>
      obtain ⟨hguard, ho⟩ := Option.ite_none_right_eq_some.mp h
      obtain rfl := Option.some.inj ho
      rw [NetworkProbe.step, traceTcpStateChange_eq, if_pos hguard]
      exact outcome_report s ⟨sk, sk.netNsInum, directionOf sk.num, room⟩
        (protocolOf_directionOf sk.num) (directionOfKind_directionOf sk.num)
  | acceptEntry tid cpu sk => cases h
  | acceptExit tid cpu newSk room =>
      obtain ⟨s', hconnections, heq⟩ := tcpAcceptExit_eq s tid cpu newSk room
      obtain ⟨hkind, hroom⟩ := kind_of_observe_acceptExit h
      rw [NetworkProbe.step, heq, h, ← hconnections]
      have hprotocol : 1 = protocolOf o.kind := by rw [hkind]; rfl
      have hdirection : 2 = directionOfKind o.kind := by rw [hkind]; rfl
      have hreport := outcome_report s' o hprotocol hdirection
      rwa [hkind, hroom] at hreport
  | configure inodeNum ignoreIps => cases h
  | evict keepConn keepCtx => cases h

/-- Without an observation nothing is submitted, and nothing marked either. -/
theorem step_of_not_observe {s : ProbeState} {x : ProbeStep} (h : observe s x = none) :
    (NetworkProbe.step s x).2 = none ∧
      ((NetworkProbe.step s x).1.connections = s.connections ∨
        ∃ keepConn keepCtx, x = .evict keepConn keepCtx ∧
          (NetworkProbe.step s x).1.connections = s.connections.filter keepConn) := by
  cases x with
  | udpSendmsg sk room =>
      have hguard := (ite_eq_right_iff.mp h).mt (Option.some_ne_none _)
      rw [NetworkProbe.step, traceUdpSend_eq, if_neg hguard]
      exact ⟨rfl, .inl rfl⟩
  | tcpSetState sk state room =>
      have hguard := (ite_eq_right_iff.mp h).mt (Option.some_ne_none _)
      rw [NetworkProbe.step, traceTcpStateChange_eq, if_neg hguard]
      exact ⟨rfl, .inl rfl⟩
  | acceptEntry tid cpu sk =>
      refine ⟨rfl, .inl ?_⟩
      rw [NetworkProbe.step, tcpAcceptEntry]
      split <;> rfl
  | acceptExit tid cpu newSk room =>
      obtain ⟨s', hconnections, heq⟩ := tcpAcceptExit_eq s tid cpu newSk room
      rw [NetworkProbe.step, heq, h]
      exact ⟨rfl, .inl hconnections⟩
  | configure inodeNum ignoreIps => exact ⟨rfl, .inl rfl⟩
  | evict keepConn keepCtx => exact ⟨rfl, .inr ⟨keepConn, keepCtx, rfl, rfl⟩⟩

/-! Marks and submissions. -/

def Submitted (s : State) (key : ConnKey) : Prop :=
  ∃ entry ∈ s.log, ∃ e, entry.2 = some e ∧ keyOf e = key

/-- Only what was submitted is marked, so the rest is submitted when it is seen. -/
structure MarksReported (s : State) : Prop where
  marked : ∀ key ∈ s.probe.connections, Submitted s key
  reported : ∀ x o, observe s.probe x = some o → o.room = true → ¬ Submitted s o.key →
    (NetworkProbe.step s.probe x).2 = some o.event

/-- A connection is marked while the ring buffer has room for its event, unless an
event of it was submitted before the map evicted it. -/
def MarksWithRoom (s : State) (x : ProbeStep) : Prop :=
  ∀ o, observe s.probe x = some o → o.key ∉ s.probe.connections →
    o.room = true ∨ Submitted s o.key

theorem marksReported_iff (s : State) :
    MarksReported s ↔ ∀ key ∈ s.probe.connections, Submitted s key := by
  refine ⟨MarksReported.marked, fun h => ⟨h, fun x o hobserve hroom hnew => ?_⟩⟩
  have hkey : o.key ∉ s.probe.connections := fun hmem => hnew (h o.key hmem)
  rw [(step_of_observe hobserve).2, if_neg hkey, if_pos hroom]

theorem log_of_observe {s : State} {x : ProbeStep} {o : Observation}
    (h : observe s.probe x = some o) :
    (step s x).log = s.log ++ [(o, (NetworkProbe.step s.probe x).2)] := by
  rw [step, h]
  rfl

theorem log_of_not_observe {s : State} {x : ProbeStep} (h : observe s.probe x = none) :
    (step s x).log = s.log := by
  rw [step, h]
  exact List.append_nil _

theorem Submitted.step {s : State} {key : ConnKey} (h : Submitted s key) (x : ProbeStep) :
    Submitted (step s x) key := by
  obtain ⟨entry, hentry, hevent⟩ := h
  exact ⟨entry, List.mem_append_left _ hentry, hevent⟩

/-- A key that is submitted by a step and was not before is that of its observation. -/
theorem submitted_of_step {s : State} {x : ProbeStep} {o : Observation}
    (h : observe s.probe x = some o) (hnew : o.key ∉ s.probe.connections) :
    Submitted (step s x) o.key ↔ o.room = true ∨ Submitted s o.key := by
  have hevent := (step_of_observe h).2
  rw [if_neg hnew] at hevent
  constructor
  · rintro ⟨entry, hentry, e, he, hkey⟩
    rw [log_of_observe h] at hentry
    rcases List.mem_append.mp hentry with hold | hlast
    · exact .inr ⟨entry, hold, e, he, hkey⟩
    · obtain rfl := List.mem_singleton.mp hlast
      rw [hevent] at he
      exact .inl (Option.ite_none_right_eq_some.mp he).1
  · rintro (hroom | hold)
    · refine ⟨_, log_of_observe h ▸ List.mem_append_right _ (List.mem_singleton_self _), o.event,
        ?_, rfl⟩
      rw [hevent, if_pos hroom]
    · exact hold.step x

theorem marked_step_iff {s : State} (h : ∀ key ∈ s.probe.connections, Submitted s key)
    (x : ProbeStep) :
    (∀ key ∈ (step s x).probe.connections, Submitted (step s x) key) ↔ MarksWithRoom s x := by
  cases hobserve : observe s.probe x with
  | none =>
      refine iff_of_true (fun key hkey => (h key ?_).step x) fun o ho => ?_
      · rcases (step_of_not_observe hobserve).2 with hsame | ⟨keepConn, keepCtx, -, hevicted⟩
        · exact hsame ▸ hkey
        · exact List.mem_of_mem_filter (hevicted ▸ hkey)
      · rw [hobserve] at ho
        cases ho
  | some o =>
      have hconnections : (step s x).probe.connections = _ := (step_of_observe hobserve).1
      rw [MarksWithRoom, hobserve]
      by_cases hnew : o.key ∈ s.probe.connections
      · rw [hconnections, if_pos hnew]
        refine iff_of_true (fun key hkey => (h key hkey).step x) fun o' ho' hnew' => ?_
        obtain rfl := Option.some.inj ho'
        exact absurd hnew hnew'
      · rw [hconnections, if_neg hnew, List.forall_mem_cons, submitted_of_step hobserve hnew]
        constructor
        · rintro ⟨hkey, -⟩ o' ho' -
          obtain rfl := Option.some.inj ho'
          exact hkey
        · exact fun hroom => ⟨hroom o rfl hnew, fun key hkey => (h key hkey).step x⟩

/-- Whatever is marked was submitted all along exactly when no new connection is
observed without room in the buffer. -/
theorem marksReported_iff_marksWithRoom (steps : List ProbeStep) :
    machine.EveryState steps (fun _ s => MarksReported s) ↔
      machine.EveryStep steps (fun _ s x _ => MarksWithRoom s x) := by
  simp only [marksReported_iff]
  refine Machine.everyState_iff_everyStep ?_ ?_
  · exact fun key hkey => absurd hkey List.not_mem_nil
  · intro _ s x s' _ h hstep
    obtain rfl := Option.some.inj hstep
    exact marked_step_iff h x

/-- A pod that calls another one while the buffer is full. -/
def nameLookup (room : Bool) : ProbeStep :=
  .udpSendmsg ⟨afInet, 7, 0x0800000A#32, 0x0700000A#32, 0xC350#16, 0x3500#16, 0⟩ room

theorem full_buffer_marks :
    ¬ ∀ steps, machine.EveryState steps fun _ s => MarksReported s := by
  intro h
  have hmarks := h [.configure [7] [], nameLookup false] _ [] _ (List.append_nil _).symm rfl
  have hkey : connKey ⟨afInet, 7, 0x0800000A#32, 0x0700000A#32, 0xC350#16, 0x3500#16, 0⟩ 7 2 1 ∈
      (step (step start (.configure [7] [])) (nameLookup false)).probe.connections := by decide
  obtain ⟨entry, hentry, e, he, -⟩ := hmarks.marked _ hkey
  obtain rfl := List.mem_singleton.mp hentry
  cases he

/-! Flows and their service ports. -/

/-- A flow as policies see it. The service port is that of the side that listens. -/
structure Flow where
  inum : BitVec 64
  direction : ℕ
  peer : BitVec 32
  protocol : ℕ
  servicePort : BitVec 16
  deriving DecidableEq

def Observation.flow (o : Observation) : Flow where
  inum := o.sk.netNsInum
  direction := directionOfKind o.kind
  peer := o.sk.daddr
  protocol := protocolOf o.kind
  servicePort := if directionOfKind o.kind = 2 then o.sk.num else ntohs o.sk.dport

structure Carries (e : NetworkEventData) (flow : Flow) : Prop where
  inum : e.inum = flow.inum
  direction : directionOfKind e.kind = flow.direction
  peer : e.daddr = flow.peer
  protocol : protocolOf e.kind = flow.protocol
  servicePort : (if directionOfKind e.kind = 2 then e.sport else e.dport) = flow.servicePort

def reportOf (flow : Flow) (entry : Observation × Option NetworkEventData) :
    Option NetworkEventData :=
  if entry.1.flow = flow then entry.2 else none

/-- The events that observations of the flow led to. -/
def reports (s : State) (flow : Flow) : List NetworkEventData := s.log.filterMap (reportOf flow)

structure ReportedOnce (s : State) : Prop where
  reported : ∀ entry ∈ s.log, ∃ e ∈ reports s entry.1.flow, Carries e entry.1.flow
  once : ∀ flow, (reports s flow).length ≤ 1

/-- The buffer has room and the map evicts nothing. -/
def isQuiet : ProbeStep → Bool
  | .udpSendmsg _ room => room
  | .tcpSetState _ _ room => room
  | .acceptExit _ _ _ room => room
  | .evict _ _ => false
  | _ => true

def quiet : Machine State ProbeStep :=
  ⟨start, fun s x => if isQuiet x = true then some (step s x) else none⟩

/-- A connection is new to the map exactly when its flow is new, and the first
observation of a flow reports the namespace of the socket. -/
def KeyedByFlow (s : State) (x : ProbeStep) : Prop :=
  ∀ o, observe s.probe x = some o →
    ((∃ entry ∈ s.log, entry.1.key = o.key) ↔ ∃ entry ∈ s.log, entry.1.flow = o.flow) ∧
      ((∃ entry ∈ s.log, entry.1.flow = o.flow) ∨ o.inum = o.sk.netNsInum)

theorem room_of_isQuiet {s : ProbeState} {x : ProbeStep} {o : Observation}
    (hquiet : isQuiet x = true) (h : observe s x = some o) : o.room = true := by
  cases x with
  | udpSendmsg sk room =>
      obtain ⟨-, ho⟩ := Option.ite_none_right_eq_some.mp h
      obtain rfl := Option.some.inj ho
      exact hquiet
  | tcpSetState sk state room =>
      obtain ⟨-, ho⟩ := Option.ite_none_right_eq_some.mp h
      obtain rfl := Option.some.inj ho
      exact hquiet
  | acceptEntry tid cpu sk => cases h
  | acceptExit tid cpu newSk room => exact (kind_of_observe_acceptExit h).2.trans hquiet
  | configure inodeNum ignoreIps => cases h
  | evict keepConn keepCtx => cases h

/-- With room and no evictions the marked keys are those of all observations. -/
def MarksObserved (s : State) : Prop :=
  ∀ key, key ∈ s.probe.connections ↔ ∃ entry ∈ s.log, entry.1.key = key

theorem marksObserved_step {s : State} (h : MarksObserved s) {x : ProbeStep}
    (hquiet : isQuiet x = true) : MarksObserved (step s x) := by
  intro key
  cases hobserve : observe s.probe x with
  | none =>
      have hsame : (step s x).probe.connections = s.probe.connections := by
        rcases (step_of_not_observe hobserve).2 with hsame | ⟨keepConn, keepCtx, rfl, -⟩
        · exact hsame
        · cases hquiet
      rw [hsame, log_of_not_observe hobserve, h key]
  | some o =>
      have hconnections : (step s x).probe.connections = _ := (step_of_observe hobserve).1
      have hmem : key ∈ (step s x).probe.connections ↔ key ∈ s.probe.connections ∨ o.key = key := by
        rw [hconnections]
        split
        · rename_i hold
          exact ⟨.inl, fun hkey => hkey.elim id fun heq => heq ▸ hold⟩
        · rw [List.mem_cons, or_comm, eq_comm]
      rw [hmem, h key, log_of_observe hobserve]
      simp [or_and_right, exists_or]

theorem marksObserved_of_run {steps : List ProbeStep} {s : State}
    (h : quiet.run steps = some s) : MarksObserved s := by
  refine Machine.invariant (P := fun _ s => MarksObserved s) ?_ ?_ h
  · intro key
    exact iff_of_false List.not_mem_nil fun ⟨_, hentry, _⟩ => absurd hentry List.not_mem_nil
  · intro _ s x s' _ hmarks hstep
    obtain ⟨hquiet, rfl⟩ := Machine.of_guard hstep
    exact marksObserved_step hmarks hquiet

theorem carries_event_iff (o : Observation) :
    Carries o.event o.flow ↔ o.inum = o.sk.netNsInum :=
  ⟨Carries.inum, fun h => ⟨h, rfl, rfl, rfl, rfl⟩⟩

theorem reports_append {s s' : State} {o : Observation} {event : Option NetworkEventData}
    (hlog : s'.log = s.log ++ [(o, event)]) (flow : Flow) :
    reports s' flow = reports s flow ++ (if o.flow = flow then event else none).toList := by
  rw [reports, hlog, List.filterMap_append, ← reports]
  rfl

theorem reports_eq_nil {s : State} {flow : Flow} (h : ∀ entry ∈ s.log, entry.1.flow ≠ flow) :
    reports s flow = [] := by
  refine List.filterMap_eq_nil_iff.mpr fun entry hentry => ?_
  rw [reportOf, if_neg (h entry hentry)]

/-- A flow that was seen has its event. -/
theorem reportedOnce_append_seen {s s' : State} {o : Observation}
    {event : Option NetworkEventData} (h : ReportedOnce s)
    (hlog : s'.log = s.log ++ [(o, event)]) (hseen : ∃ entry ∈ s.log, entry.1.flow = o.flow) :
    ReportedOnce s' ↔ event = none := by
  constructor
  · intro h'
    obtain ⟨entry, hentry, hflow⟩ := hseen
    obtain ⟨e, he, -⟩ := h.reported entry hentry
    rw [hflow] at he
    have hlength := h'.once o.flow
    rw [reports_append hlog, if_pos rfl, List.length_append] at hlength
    cases event with
    | none => rfl
    | some e' =>
        have hpos := List.length_pos_of_mem he
        simp only [Option.toList_some, List.length_singleton] at hlength
        omega
  · rintro rfl
    have hreports (flow : Flow) : reports s' flow = reports s flow := by
      rw [reports_append hlog, ite_self, Option.toList_none, List.append_nil]
    refine ⟨fun entry hentry => ?_, fun flow => hreports flow ▸ h.once flow⟩
    rw [hreports]
    rw [hlog] at hentry
    rcases List.mem_append.mp hentry with hold | hlast
    · exact h.reported entry hold
    · obtain rfl := List.mem_singleton.mp hlast
      obtain ⟨entry', hentry', hflow⟩ := hseen
      exact hflow ▸ h.reported entry' hentry'

theorem reportedOnce_append_new {s s' : State} {o : Observation}
    {event : Option NetworkEventData} (h : ReportedOnce s)
    (hlog : s'.log = s.log ++ [(o, event)]) (hnew : ∀ entry ∈ s.log, entry.1.flow ≠ o.flow) :
    ReportedOnce s' ↔ ∃ e, event = some e ∧ Carries e o.flow := by
  have hself : reports s' o.flow = event.toList := by
    rw [reports_append hlog, if_pos rfl, reports_eq_nil hnew, List.nil_append]
  constructor
  · intro h'
    obtain ⟨e, he, hcarries⟩ := h'.reported (o, event)
      (hlog ▸ List.mem_append_right _ (List.mem_singleton_self _))
    rw [hself] at he
    exact ⟨e, Option.mem_toList.mp he, hcarries⟩
  · rintro ⟨e, rfl, hcarries⟩
    have hother {flow : Flow} (hflow : o.flow ≠ flow) : reports s' flow = reports s flow := by
      rw [reports_append hlog, if_neg hflow, Option.toList_none, List.append_nil]
    constructor
    · intro entry hentry
      rw [hlog] at hentry
      rcases List.mem_append.mp hentry with hold | hlast
      · rw [hother (Ne.symm (hnew entry hold))]
        exact h.reported entry hold
      · obtain rfl := List.mem_singleton.mp hlast
        rw [hself]
        exact ⟨e, List.mem_singleton_self e, hcarries⟩
    · intro flow
      by_cases hflow : o.flow = flow
      · subst hflow
        rw [hself]
        exact Nat.le_refl 1
      · rw [hother hflow]
        exact h.once flow

theorem reportedOnce_step_iff {s : State} (h : ReportedOnce s) (hmarks : MarksObserved s)
    {x : ProbeStep} (hquiet : isQuiet x = true) :
    ReportedOnce (step s x) ↔ KeyedByFlow s x := by
  cases hobserve : observe s.probe x with
  | none =>
      have hlog := log_of_not_observe hobserve
      refine iff_of_true ?_ fun o ho => ?_
      · refine ⟨fun entry hentry => ?_, fun flow => ?_⟩
        · rw [reports, hlog]
          exact h.reported entry (hlog ▸ hentry)
        · rw [reports, hlog]
          exact h.once flow
      · rw [hobserve] at ho
        cases ho
  | some o =>
      have hlog := log_of_observe hobserve
      have hevent := (step_of_observe hobserve).2
      rw [if_pos (room_of_isQuiet hquiet hobserve)] at hevent
      have hcond : KeyedByFlow s x ↔
          ((o.key ∈ s.probe.connections ↔ ∃ entry ∈ s.log, entry.1.flow = o.flow) ∧
            ((∃ entry ∈ s.log, entry.1.flow = o.flow) ∨ o.inum = o.sk.netNsInum)) := by
        rw [KeyedByFlow, hobserve, hmarks o.key]
        exact ⟨fun hall => hall o rfl, fun hall o' ho' => Option.some.inj ho' ▸ hall⟩
      rw [hcond]
      by_cases hseen : ∃ entry ∈ s.log, entry.1.flow = o.flow
      · rw [reportedOnce_append_seen h hlog hseen, hevent]
        by_cases hkey : o.key ∈ s.probe.connections
        · simp [hkey, hseen]
        · simp [hkey, hseen]
      · have hnew : ∀ entry ∈ s.log, entry.1.flow ≠ o.flow :=
          fun entry hentry hflow => hseen ⟨entry, hentry, hflow⟩
        rw [reportedOnce_append_new h hlog hnew, hevent]
        by_cases hkey : o.key ∈ s.probe.connections
        · simp [hkey, hseen]
        · rw [if_neg hkey]
          simp [hkey, hseen, carries_event_iff]

/-- Each flow has one event all along exactly when connections are new to the map
as flows are new, and the first event of each carries its namespace. -/
theorem reportedOnce_iff_keyedByFlow (steps : List ProbeStep) :
    quiet.EveryState steps (fun _ s => ReportedOnce s) ↔
      quiet.EveryStep steps (fun _ s x _ => KeyedByFlow s x) := by
  refine Machine.everyState_iff_everyStep ?_ ?_
  · exact ⟨fun entry hentry => absurd hentry List.not_mem_nil, fun flow => Nat.zero_le 1⟩
  · intro steps s x s' hrun h hstep
    obtain ⟨hquiet, rfl⟩ := Machine.of_guard hstep
    exact reportedOnce_step_iff h (marksObserved_of_run hrun) hquiet

/-- A client that calls a port of a pod from the port given, and the accept. -/
def served (clientPort : BitVec 16) : List ProbeStep :=
  [.acceptEntry 41 0 ⟨afInet, 7, 0, 0, 80, 0, 10⟩,
    .acceptExit 41 0 (some ⟨afInet, 7, 0x0800000A#32, 0x0700000A#32, 80, clientPort, 1⟩) true]

/-- Two calls from two ports of the client lead to two events of one flow. -/
theorem served_twice : ¬ ∀ steps, quiet.EveryState steps fun _ s => ReportedOnce s := by
  intro h
  have honce := (h (.configure [7] [] :: served 0x50C3 ++ served 0x51C3) _ [] _
    (List.append_nil _).symm rfl).once ⟨7, 2, 0x0700000A#32, 1, 80⟩
  revert honce
  decide

end KGuardian.ProbeReports
