import Mathlib.Data.List.Basic

/-!
The traffic probes in the kernel (`bpf/network_probe.bpf.c`), over runs in which
connections, evictions and configuration come in any order. A step is one probe
call or one change of the maps by others. Time stamps and counters in the
connection map are left out, since no probe reads them.
-/
namespace KGuardian.NetworkProbe

/-- The fields of `struct sock_common` that the probes read, ports and addresses
as the kernel keeps them, and the TCP state of the socket. -/
structure Sock where
  family : ℕ
  netNsInum : BitVec 64
  rcvSaddr : BitVec 32
  daddr : BitVec 32
  num : BitVec 16
  dport : BitVec 16
  state : ℕ
  deriving DecidableEq

def afInet : ℕ := 2

def tcpEstablished : ℕ := 1

/-- The state of a child socket until its handshake completes. -/
def tcpSynRecv : ℕ := 3

def ntohs (x : BitVec 16) : BitVec 16 := x <<< 8 ||| x >>> 8

structure NetworkEventData where
  inum : BitVec 64
  saddr : BitVec 32
  sport : BitVec 16
  daddr : BitVec 32
  dport : BitVec 16
  kind : ℕ
  deriving DecidableEq

/-- The key of the connection map. -/
structure ConnKey where
  inum : BitVec 64
  saddr : BitVec 32
  daddr : BitVec 32
  dport : BitVec 16
  protocol : ℕ
  direction : ℕ
  deriving DecidableEq

/-- One slot of the per-CPU map `tcp_ctx`. -/
structure CtxSlot where
  tid : BitVec 32
  cpu : ℕ
  inum : BitVec 64
  deriving DecidableEq

structure ProbeState where
  inodeNum : List (BitVec 64)
  ignoreIps : List (BitVec 32)
  connections : List ConnKey
  tcpCtx : List CtxSlot
  deriving DecidableEq

/-- What can happen next. `room` says whether the ring buffer has space. -/
inductive ProbeStep where
  | udpSendmsg (sk : Sock) (room : Bool)
  | tcpSetState (sk : Sock) (state : ℕ) (room : Bool)
  | acceptEntry (tid : BitVec 32) (cpu : ℕ) (sk : Sock)
  | acceptExit (tid : BitVec 32) (cpu : ℕ) (newSk : Option Sock) (room : Bool)
  | configure (inodeNum : List (BitVec 64)) (ignoreIps : List (BitVec 32))
  | evict (keepConn : ConnKey → Bool) (keepCtx : CtxSlot → Bool)

def shouldFilterTraffic (s : ProbeState) (saddr daddr : BitVec 32) : Bool :=
  if saddr = daddr then true
  else if saddr = 0x0100007F#32 || daddr = 0x0100007F#32 then true
  else if saddr = 0 || daddr = 0 then true
  else if s.ignoreIps.contains saddr then true
  else s.ignoreIps.contains daddr

def getAndValidateInum (s : ProbeState) (sk : Sock) : Option (BitVec 64) :=
  if s.inodeNum.contains sk.netNsInum then some sk.netNsInum else none

def isNewConnection (s : ProbeState) (key : ConnKey) : Bool := !s.connections.contains key

def connKey (sk : Sock) (inum : BitVec 64) (protocol direction : ℕ) : ConnKey :=
  ⟨inum, sk.rcvSaddr, sk.daddr, ntohs sk.dport, protocol, direction⟩

/-- The common end of the three probes: remember a new connection and submit its
event, which is lost when the buffer is full. -/
def report (s : ProbeState) (sk : Sock) (inum : BitVec 64) (protocol direction kind : ℕ)
    (room : Bool) : ProbeState × Option NetworkEventData :=
  let conn := connKey sk inum protocol direction
  if isNewConnection s conn then
    ({ s with connections := conn :: s.connections },
      if room then some ⟨inum, sk.rcvSaddr, sk.num, sk.daddr, ntohs sk.dport, kind⟩ else none)
  else (s, none)

def traceUdpSend (s : ProbeState) (sk : Sock) (room : Bool) :
    ProbeState × Option NetworkEventData :=
  match getAndValidateInum s sk with
  | none => (s, none)
  | some inum =>
      if shouldFilterTraffic s sk.rcvSaddr sk.daddr then (s, none)
      else report s sk inum 2 1 3 room

/-- Egress is guessed from the local port. -/
def directionOf (sport : BitVec 16) : ℕ := if sport.toNat > 1024 then 1 else 2

def traceTcpStateChange (s : ProbeState) (sk : Sock) (state : ℕ) (room : Bool) :
    ProbeState × Option NetworkEventData :=
  if state ≠ tcpEstablished then (s, none)
  else if sk.family ≠ afInet then (s, none)
  else
    match getAndValidateInum s sk with
    | none => (s, none)
    | some inum =>
        if shouldFilterTraffic s sk.rcvSaddr sk.daddr then (s, none)
        else report s sk inum 1 (directionOf sk.num) (directionOf sk.num) room

def tcpAcceptEntry (s : ProbeState) (tid : BitVec 32) (cpu : ℕ) (sk : Sock) : ProbeState :=
  match getAndValidateInum s sk with
  | none => s
  | some inum =>
      { s with tcpCtx := ⟨tid, cpu, inum⟩ ::
          s.tcpCtx.filter fun c => !(c.tid = tid && c.cpu = cpu) }

/-- The context of a thread. An element made on another CPU reads as zero. -/
def lookupCtx (s : ProbeState) (tid : BitVec 32) (cpu : ℕ) : Option (BitVec 64) :=
  if s.tcpCtx.any fun c => c.tid = tid then
    some (((s.tcpCtx.find? fun c => c.tid = tid && c.cpu = cpu).map CtxSlot.inum).getD 0)
  else none

def tcpAcceptExit (s : ProbeState) (tid : BitVec 32) (cpu : ℕ) (newSk : Option Sock)
    (room : Bool) : ProbeState × Option NetworkEventData :=
  match lookupCtx s tid cpu with
  | none => (s, none)
  | some inum =>
      let s := { s with tcpCtx := s.tcpCtx.filter fun c => c.tid ≠ tid }
      match newSk with
      | none => (s, none)
      | some sk =>
          if shouldFilterTraffic s sk.rcvSaddr sk.daddr then (s, none)
          else report s sk inum 1 2 2 room

def step (s : ProbeState) : ProbeStep → ProbeState × Option NetworkEventData
  | .udpSendmsg sk room => traceUdpSend s sk room
  | .tcpSetState sk state room => traceTcpStateChange s sk state room
  | .acceptEntry tid cpu sk => (tcpAcceptEntry s tid cpu sk, none)
  | .acceptExit tid cpu newSk room => tcpAcceptExit s tid cpu newSk room
  | .configure inodeNum ignoreIps => ({ s with inodeNum, ignoreIps }, none)
  | .evict keepConn keepCtx =>
      ({ s with connections := s.connections.filter keepConn
                tcpCtx := s.tcpCtx.filter keepCtx }, none)

/-- A run: the state that each step meets, the step, and the event it emits. -/
def run (s : ProbeState) : List ProbeStep → List (ProbeState × ProbeStep × Option NetworkEventData)
  | [] => []
  | x :: rest => (s, x, (step s x).2) :: run (step s x).1 rest

/-- The step is about a connection that the pod accepts: its child socket
completes the handshake, or is returned from accept. -/
def isPassive : ProbeStep → Bool
  | .tcpSetState sk _ _ => sk.state = tcpSynRecv
  | .acceptExit _ _ _ _ => true
  | _ => false

/-- No accepted connection is reported as outgoing. -/
def ServesWithoutEgress (s : ProbeState) (steps : List ProbeStep) : Prop :=
  ∀ x ∈ run s steps, isPassive x.2.1 = true → ∀ e ∈ x.2.2, e.kind ≠ 1 ∧ e.kind ≠ 3

/-- A completed handshake that the probe reports, on a port above 1024. -/
def TakenForClient (s : ProbeState) : ProbeStep → Prop
  | .tcpSetState sk state room =>
      sk.state = tcpSynRecv ∧ state = tcpEstablished ∧ sk.family = afInet ∧
        sk.netNsInum ∈ s.inodeNum ∧ shouldFilterTraffic s sk.rcvSaddr sk.daddr = false ∧
        1024 < sk.num.toNat ∧ connKey sk sk.netNsInum 1 1 ∉ s.connections ∧ room = true
  | _ => False

theorem report_event {s : ProbeState} {sk : Sock} {inum : BitVec 64}
    {protocol direction kind : ℕ} {room : Bool} {e : NetworkEventData} :
    e ∈ (report s sk inum protocol direction kind room).2 ↔
      connKey sk inum protocol direction ∉ s.connections ∧ room = true ∧
        e = ⟨inum, sk.rcvSaddr, sk.num, sk.daddr, ntohs sk.dport, kind⟩ := by
  simp only [report, isNewConnection]
  by_cases hnew : connKey sk inum protocol direction ∈ s.connections
  · simp [hnew]
  · cases room <;> simp [hnew, eq_comm]

/-- The accept probe only reports ingress. -/
theorem kind_of_acceptExit {s : ProbeState} {tid : BitVec 32} {cpu : ℕ} {newSk : Option Sock}
    {room : Bool} {e : NetworkEventData} (he : e ∈ (tcpAcceptExit s tid cpu newSk room).2) :
    e.kind = 2 := by
  cases hctx : lookupCtx s tid cpu with
  | none => simp [tcpAcceptExit, hctx] at he
  | some inum =>
      cases newSk with
      | none => simp [tcpAcceptExit, hctx] at he
      | some sk =>
          simp only [tcpAcceptExit, hctx] at he
          split at he
          · exact absurd he (by simp)
          · rw [(report_event.mp he).2.2]

/-- When the handshake probe reports, and in which direction. -/
theorem stateChange_event {s : ProbeState} {sk : Sock} {state : ℕ} {room : Bool}
    {e : NetworkEventData} :
    e ∈ (traceTcpStateChange s sk state room).2 ↔
      state = tcpEstablished ∧ sk.family = afInet ∧ sk.netNsInum ∈ s.inodeNum ∧
        shouldFilterTraffic s sk.rcvSaddr sk.daddr = false ∧
        connKey sk sk.netNsInum 1 (directionOf sk.num) ∉ s.connections ∧ room = true ∧
        e = ⟨sk.netNsInum, sk.rcvSaddr, sk.num, sk.daddr, ntohs sk.dport, directionOf sk.num⟩ := by
  by_cases hstate : state = tcpEstablished
  · by_cases hfamily : sk.family = afInet
    · by_cases hinum : sk.netNsInum ∈ s.inodeNum
      · cases hfilter : shouldFilterTraffic s sk.rcvSaddr sk.daddr with
        | true =>
            simp [traceTcpStateChange, getAndValidateInum, hstate, hfamily, hinum, hfilter]
        | false =>
            simp [traceTcpStateChange, getAndValidateInum, hstate, hfamily, hinum, hfilter,
              -Option.mem_def, report_event]
      · simp [traceTcpStateChange, getAndValidateInum, hstate, hfamily, hinum]
    · simp [traceTcpStateChange, hstate, hfamily]
  · simp [traceTcpStateChange, hstate]

theorem directionOf_ne_three (sport : BitVec 16) : directionOf sport ≠ 3 := by
  rw [directionOf]
  split <;> decide

theorem directionOf_eq_one (sport : BitVec 16) : directionOf sport = 1 ↔ 1024 < sport.toNat := by
  simp [directionOf]

/-- One step: the only way to take an accepted connection for an outgoing one is
a reported handshake on a high port. -/
theorem step_egress_iff (s : ProbeState) (x : ProbeStep) :
    (isPassive x = true → ∀ e ∈ (step s x).2, e.kind ≠ 1 ∧ e.kind ≠ 3) ↔
      ¬ TakenForClient s x := by
  cases x with
  | udpSendmsg sk room => simp [isPassive, TakenForClient]
  | acceptEntry tid cpu sk => simp [isPassive, TakenForClient]
  | configure inodeNum ignoreIps => simp [isPassive, TakenForClient]
  | evict keepConn keepCtx => simp [isPassive, TakenForClient]
  | acceptExit tid cpu newSk room =>
      refine iff_of_true (fun _ e he => ?_) not_false
      rw [kind_of_acceptExit he]
      decide
  | tcpSetState sk state room =>
      constructor
      · intro h hcase
        obtain ⟨hpassive, hstate, hfamily, hinum, hfilter, hport, hnew, hroom⟩ := hcase
        have hdir : directionOf sk.num = 1 := (directionOf_eq_one sk.num).mpr hport
        have hevent := stateChange_event.mpr
          ⟨hstate, hfamily, hinum, hfilter, hdir.symm ▸ hnew, hroom, rfl⟩
        exact (h (by simp [isPassive, hpassive]) _ hevent).1 hdir
      · intro h hpassive e he
        obtain ⟨hstate, hfamily, hinum, hfilter, hnew, hroom, rfl⟩ := stateChange_event.mp he
        refine ⟨fun hdir => h ?_, directionOf_ne_three sk.num⟩
        have hdir' : directionOf sk.num = 1 := hdir
        refine ⟨by simpa [isPassive] using hpassive, hstate, hfamily, hinum, hfilter,
          (directionOf_eq_one sk.num).mp hdir', ?_, hroom⟩
        rwa [hdir'] at hnew

theorem event_of_mem_run {s : ProbeState} {steps : List ProbeStep}
    {x : ProbeState × ProbeStep × Option NetworkEventData} (hx : x ∈ run s steps) :
    x.2.2 = (step x.1 x.2.1).2 := by
  induction steps generalizing s with
  | nil => exact absurd hx List.not_mem_nil
  | cons a rest ih =>
      rcases List.mem_cons.mp hx with rfl | hrest
      · rfl
      · exact ih hrest

theorem event_egress_iff {s : ProbeState} {steps : List ProbeStep}
    {x : ProbeState × ProbeStep × Option NetworkEventData} (hx : x ∈ run s steps) :
    (isPassive x.2.1 = true → ∀ e ∈ x.2.2, e.kind ≠ 1 ∧ e.kind ≠ 3) ↔
      ¬ TakenForClient x.1 x.2.1 := by
  rw [event_of_mem_run hx]
  exact step_egress_iff x.1 x.2.1

/-- Over every run, accepted connections are never reported as outgoing exactly
when no handshake on a port above 1024 is reported. -/
theorem servesWithoutEgress_iff (s : ProbeState) (steps : List ProbeStep) :
    ServesWithoutEgress s steps ↔ ∀ x ∈ run s steps, ¬ TakenForClient x.1 x.2.1 := by
  apply forall₂_congr
  intro x hx
  exact event_egress_iff hx

/-- A pod that listens on a port, and one client: the listener accepts, the child
socket is established, the accept returns. -/
def serveClient (port : BitVec 16) : List ProbeStep :=
  let listener : Sock := ⟨afInet, 7, 0, 0, port, 0, 10⟩
  let child : Sock := ⟨afInet, 7, 0x0800000A#32, 0x0700000A#32, port, 0x50C3#16, tcpSynRecv⟩
  [.acceptEntry 41 0 listener, .tcpSetState child tcpEstablished true,
    .acceptExit 41 0 (some { child with state := tcpEstablished }) true]

theorem serveClient_egress : ¬ ServesWithoutEgress ⟨[7], [], [], []⟩ (serveClient 8080) := by
  intro h
  have hchild := h _ (List.mem_cons_of_mem _ List.mem_cons_self) rfl
  exact absurd (hchild ⟨7, 0x0800000A#32, 8080, 0x0700000A#32, 0xC350#16, 1⟩ (by decide)).1
    (by decide)

end KGuardian.NetworkProbe
