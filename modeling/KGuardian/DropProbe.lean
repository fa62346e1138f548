import KGuardian.NetworkProbe
import KGuardian.Runs
import Mathlib.Algebra.Group.Nat.Defs

/-!
The probes that detect dropped connections (`bpf/netpolicy_drop.bpf.c`). Attempts are
counted under their addresses and ports, so a new attempt starts from the entry that an
earlier one with the same ports has left. Time stamps are left out, since no probe reads
them, and so are the UDP entries, which have keys of their own.
-/
namespace KGuardian.DropProbe

open NetworkProbe Runs

def tcpSynSent : ℕ := 2

def tcpClose : ℕ := 7

/-- The key of the map `connection_tracking`. -/
structure ConnAttempt where
  inum : BitVec 64
  saddr : BitVec 32
  daddr : BitVec 32
  sport : BitVec 16
  dport : BitVec 16
  protocol : ℕ
  deriving DecidableEq

structure ConnState where
  synCount : ℕ
  established : Bool
  deriving DecidableEq

structure PolicyDropEvent where
  inum : BitVec 64
  saddr : BitVec 32
  daddr : BitVec 32
  sport : BitVec 16
  dport : BitVec 16
  protocol : ℕ
  synRetries : ℕ
  deriving DecidableEq

/-- The map, from which nothing is evicted. -/
abbrev Tracking := ConnAttempt → Option ConnState

def connAttempt (sk : Sock) (inum : BitVec 64) : ConnAttempt :=
  ⟨inum, sk.rcvSaddr, sk.daddr, sk.num, ntohs sk.dport, 6⟩

/-- The entry after one more retransmission, and whether the attempt counts as blocked. -/
def countRetransmit : Option ConnState → ConnState × Bool
  | none => (⟨2, false⟩, false)
  | some state =>
      let synCount := (state.synCount + 1) % 2 ^ 32
      if synCount ≥ 4 && !state.established then (⟨synCount, true⟩, true)
      else (⟨synCount, state.established⟩, false)

variable (maps : ProbeState)

def traceTcpRetransmit (table : Tracking) (sk : Sock) : Tracking × Option PolicyDropEvent :=
  match getAndValidateInum maps sk with
  | none => (table, none)
  | some inum =>
      if shouldFilterTraffic maps sk.rcvSaddr sk.daddr then (table, none)
      else if sk.state = tcpSynSent then
        let key := connAttempt sk inum
        let (state, blocked) := countRetransmit (table key)
        (Function.update table key (some state),
          if blocked then
            some ⟨inum, key.saddr, key.daddr, key.sport, key.dport, 6, state.synCount⟩
          else none)
      else (table, none)

def traceTcpConnect (table : Tracking) (sk : Sock) : Tracking :=
  match getAndValidateInum maps sk with
  | none => table
  | some inum =>
      if shouldFilterTraffic maps sk.rcvSaddr sk.daddr then table
      else Function.update table (connAttempt sk inum) (some ⟨1, false⟩)

def traceTcpStateChange (table : Tracking) (sk : Sock) (state : ℕ) : Tracking :=
  if state = tcpEstablished then
    match getAndValidateInum maps sk with
    | none => table
    | some inum =>
        let key := connAttempt sk inum
        match table key with
        | none => table
        | some entry => Function.update table key (some { entry with established := true })
  else table

/-! Connection attempts over time. -/

/-- The ends of a connection, as its socket holds them once the destination is set. -/
structure Tuple where
  netNsInum : BitVec 64
  rcvSaddr : BitVec 32
  daddr : BitVec 32
  num : BitVec 16
  dport : BitVec 16
  deriving DecidableEq

def Tuple.sock (t : Tuple) (state : ℕ) : Sock :=
  ⟨afInet, t.netNsInum, t.rcvSaddr, t.daddr, t.num, t.dport, state⟩

def Tuple.key (t : Tuple) : ConnAttempt := connAttempt (t.sock tcpSynSent) t.netNsInum

/-- What has happened to an attempt, and the entry under its key when it began. -/
structure Attempt where
  inherited : Option ConnState
  retransmits : ℕ
  established : Bool
  reports : ℕ
  deriving DecidableEq

structure State where
  table : Tracking
  sockState : Tuple → ℕ
  attempts : Tuple → Option Attempt

/-- A connect begins with the addresses and the port that its socket has so far. Only a
connect brings a socket into the state of a sent SYN. -/
inductive Event where
  | connect (t : Tuple) (rcvSaddr : BitVec 32) (num : BitVec 16)
  | retransmit (t : Tuple)
  | setState (t : Tuple) (state : ℕ) (hstate : state ≠ tcpSynSent)

/-- The socket on entry to `tcp_v4_connect`, without a destination. -/
def entrySock (t : Tuple) (rcvSaddr : BitVec 32) (num : BitVec 16) : Sock :=
  ⟨afInet, t.netNsInum, rcvSaddr, 0, num, 0, tcpClose⟩

/-- The drop event that a step emits. -/
def emitted (s : State) : Event → Option PolicyDropEvent
  | .retransmit t => (traceTcpRetransmit maps s.table (t.sock (s.sockState t))).2
  | _ => none

def next (s : State) : Event → State
  | .connect t rcvSaddr num =>
      let table := traceTcpConnect maps s.table (entrySock t rcvSaddr num)
      { table := traceTcpStateChange maps table (t.sock tcpClose) tcpSynSent
        sockState := Function.update s.sockState t tcpSynSent
        attempts := Function.update s.attempts t (some ⟨table t.key, 0, false, 0⟩) }
  | .retransmit t =>
      let (table, event) := traceTcpRetransmit maps s.table (t.sock (s.sockState t))
      let sent := if s.sockState t = tcpSynSent then 1 else 0
      { s with
        table := table
        attempts := Function.update s.attempts t ((s.attempts t).map fun a =>
          { a with retransmits := a.retransmits + sent
                   reports := a.reports + event.toList.length }) }
  | .setState t state _ =>
      { table := traceTcpStateChange maps s.table (t.sock (s.sockState t)) state
        sockState := Function.update s.sockState t state
        attempts := Function.update s.attempts t ((s.attempts t).map fun a =>
          { a with established := a.established || state = tcpEstablished }) }

def machine : Machine State Event where
  init := ⟨fun _ => none, fun _ => tcpClose, fun _ => none⟩
  step s e := some (next maps s e)

/-- The probes look at the connection: its pod is known and no filter applies. -/
def Tracked (t : Tuple) : Prop :=
  maps.inodeNum.contains t.netNsInum = true ∧
    shouldFilterTraffic maps t.rcvSaddr t.daddr = false

instance (t : Tuple) : Decidable (Tracked maps t) := by
  unfold Tracked
  infer_instance

/-- A drop event is about the attempt that retransmits, for the third time at least and
not yet established, and is its first. An attempt gets its event at the third
retransmission. -/
def Judged (s : State) (e : Event) : Prop :=
  (∀ event ∈ emitted maps s e, ∃ t a, e = .retransmit t ∧ s.attempts t = some a ∧
    (⟨event.inum, event.saddr, event.daddr, event.sport, event.dport, event.protocol⟩ :
      ConnAttempt) = t.key ∧
    3 ≤ a.retransmits + 1 ∧ a.established = false ∧ a.reports = 0) ∧
  ∀ t a, e = .retransmit t → s.attempts t = some a → Tracked maps t →
    s.sockState t = tcpSynSent → a.established = false → a.retransmits + 1 = 3 →
    emitted maps s e ≠ none

/-- An attempt that began with an entry of an earlier one does not come far enough for
the entry to matter: to the third retransmission, if the entry was reported or
established, and to a count of four otherwise. -/
def NotInherited (s : State) (e : Event) : Prop :=
  ∀ t a, e = .retransmit t → s.attempts t = some a → Tracked maps t →
    s.sockState t = tcpSynSent → a.established = false → ∀ entry ∈ a.inherited,
      if entry.established then a.retransmits + 1 ≠ 3
      else entry.synCount + (a.retransmits + 1) < 4

/-! The probes, one lemma each. -/

theorem ntohs_ntohs (x : BitVec 16) : ntohs (ntohs x) = x := by
  unfold ntohs
  ext i hi
  by_cases hlow : i < 8
  · have hlt : 8 + i < 16 := by omega
    have hge : ¬ 8 + i < 8 := by omega
    have hout : x.getLsbD (8 + (8 + i)) = false := BitVec.getLsbD_of_ge x _ (by omega)
    simp [hlow, hlt, hge, hout]
  · have hlt : i - 8 < 8 := by omega
    have hsum : 8 + (i - 8) = i := by omega
    have hout : ¬ 8 + i < 16 := by omega
    have hout' : x.getLsbD (8 + (8 + i)) = false := BitVec.getLsbD_of_ge x _ (by omega)
    simp [hlow, hlt, hsum, hout, hout', BitVec.getLsbD_eq_getElem hi]

theorem key_inj {t t' : Tuple} : t.key = t'.key ↔ t = t' := by
  constructor
  · intro h
    unfold Tuple.key connAttempt Tuple.sock at h
    simp only [ConnAttempt.mk.injEq] at h
    obtain ⟨hinum, hsaddr, hdaddr, hsport, hdport, -⟩ := h
    have hport : t.dport = t'.dport := by
      rw [← ntohs_ntohs t.dport, hdport, ntohs_ntohs]
    cases t
    cases t'
    simp_all
  · exact congrArg Tuple.key

theorem update_key_of_ne {table : Tracking} {t t' : Tuple} (h : t' ≠ t)
    (entry : Option ConnState) : Function.update table t.key entry t'.key = table t'.key :=
  Function.update_of_ne (fun hkey => h (key_inj.mp hkey)) _ _

theorem getAndValidateInum_sock (t : Tuple) (state : ℕ) :
    getAndValidateInum maps (t.sock state) =
      if maps.inodeNum.contains t.netNsInum then some t.netNsInum else none := rfl

/-- On entry the destination is zero, so the filter takes the socket out. -/
theorem traceTcpConnect_entrySock (table : Tracking) (t : Tuple) (rcvSaddr : BitVec 32)
    (num : BitVec 16) : traceTcpConnect maps table (entrySock t rcvSaddr num) = table := by
  have hfilter : shouldFilterTraffic maps (entrySock t rcvSaddr num).rcvSaddr
      (entrySock t rcvSaddr num).daddr = true := by
    simp only [shouldFilterTraffic, entrySock]
    split
    · rfl
    · simp
  unfold traceTcpConnect
  cases getAndValidateInum maps (entrySock t rcvSaddr num) with
  | none => rfl
  | some inum => exact if_pos hfilter

/-- What a retransmission does to the map, and the event. -/
theorem traceTcpRetransmit_sock (table : Tracking) (t : Tuple) (state : ℕ) :
    traceTcpRetransmit maps table (t.sock state) =
      if Tracked maps t ∧ state = tcpSynSent then
        (Function.update table t.key (some (countRetransmit (table t.key)).1),
          if (countRetransmit (table t.key)).2 then
            some ⟨t.netNsInum, t.key.saddr, t.key.daddr, t.key.sport, t.key.dport, 6,
              (countRetransmit (table t.key)).1.synCount⟩
          else none)
      else (table, none) := by
  have hkey : connAttempt (t.sock state) t.netNsInum = t.key := rfl
  unfold traceTcpRetransmit
  rw [getAndValidateInum_sock]
  by_cases hinum : maps.inodeNum.contains t.netNsInum = true
  · by_cases hfilter : shouldFilterTraffic maps t.rcvSaddr t.daddr = true
    · have htracked : ¬ Tracked maps t := by simp [Tracked, hfilter]
      rw [if_pos hinum, if_neg (fun h => htracked h.1)]
      exact if_pos hfilter
    · have htracked : Tracked maps t := ⟨hinum, by simpa using hfilter⟩
      rw [if_pos hinum]
      simp only [htracked, true_and, hkey]
      exact if_neg hfilter
  · have htracked : ¬ Tracked maps t := fun h => hinum h.1
    rw [if_neg hinum, if_neg (fun h => htracked h.1)]

theorem traceTcpStateChange_sock {table : Tracking} {t : Tuple}
    (htracked : table t.key ≠ none → Tracked maps t) (was state : ℕ) :
    traceTcpStateChange maps table (t.sock was) state =
      Function.update table t.key ((table t.key).map fun entry =>
        ⟨entry.synCount, entry.established || state = tcpEstablished⟩) := by
  have hkey : connAttempt (t.sock was) t.netNsInum = t.key := rfl
  unfold traceTcpStateChange
  rw [getAndValidateInum_sock]
  cases hentry : table t.key with
  | none =>
      have hsame : Function.update table t.key none = table := by
        rw [← hentry, Function.update_eq_self]
      by_cases hinum : t.netNsInum ∈ maps.inodeNum <;> simp [hinum, hkey, hentry, hsame]
  | some entry =>
      have hinum : t.netNsInum ∈ maps.inodeNum := by
        simpa using (htracked (by simp [hentry])).1
      by_cases hstate : state = tcpEstablished
      · simp [hinum, hkey, hentry, hstate]
      · have hsame : Function.update table t.key (some entry) = table := by
          rw [← hentry, Function.update_eq_self]
        simp [hstate, hsame]

/-- An entry counts as blocked from a count of four on, until it is marked. -/
theorem countRetransmit_snd (entry : Option ConnState) :
    (countRetransmit entry).2 = true ↔
      ∃ state ∈ entry, 4 ≤ (state.synCount + 1) % 2 ^ 32 ∧ state.established = false := by
  cases entry with
  | none => simp [countRetransmit]
  | some state =>
      simp only [countRetransmit]
      split <;> simp_all

/-! The invariant, for each connection by itself. -/

/-- How the entry of a connection follows its current attempt. -/
def Follows (t : Tuple) (entry : Option ConnState) (a : Attempt) : Prop :=
  match a.inherited, entry with
  | none, none => a.reports = 0 ∧ (Tracked maps t → a.retransmits = 0)
  | none, some state =>
      1 ≤ a.retransmits ∧ (state.established = true ↔ a.established = true ∨ 3 ≤ a.retransmits) ∧
        (state.established = false → state.synCount = a.retransmits + 1) ∧
        a.reports = if 3 ≤ a.retransmits then 1 else 0
  | some _, none => False
  | some first, some state =>
      a.reports = 0 ∧
        if first.established then state.established = true
        else 2 ≤ first.synCount ∧ state.established = a.established ∧
          state.synCount = first.synCount + a.retransmits ∧ state.synCount < 4

structure Fine (t : Tuple) (entry : Option ConnState) (sockState : ℕ)
    (attempt : Option Attempt) : Prop where
  tracked : entry ≠ none → Tracked maps t
  pending : ∀ state ∈ entry, state.established = false →
    2 ≤ state.synCount ∧ state.synCount < 4
  unattempted : attempt = none → entry = none ∧ sockState ≠ tcpSynSent
  settled : ∀ a ∈ attempt, a.established = true → sockState ≠ tcpSynSent
  follows : ∀ a ∈ attempt, Follows maps t entry a

def Inv (s : State) : Prop :=
  ∀ t, Fine maps t (s.table t.key) (s.sockState t) (s.attempts t)

theorem inv_init : Inv maps (machine maps).init := by
  intro t
  constructor
  · exact fun h => absurd rfl h
  · intro state hstate
    exact absurd hstate (by simp [machine])
  · intro _
    exact ⟨rfl, by simp [machine, tcpClose, tcpSynSent]⟩
  · intro a ha
    exact absurd ha (by simp [machine])
  · intro a ha
    exact absurd ha (by simp [machine])

variable {maps}

/-- A new attempt takes over the entry. -/
theorem fine_connect {t : Tuple} {entry : Option ConnState} {sockState : ℕ}
    {attempt : Option Attempt} (h : Fine maps t entry sockState attempt) :
    Fine maps t entry tcpSynSent (some ⟨entry, 0, false, 0⟩) := by
  refine ⟨h.tracked, h.pending, by simp, by simp, ?_⟩
  intro a ha
  obtain rfl := Option.some.inj ha
  cases entry with
  | none => exact ⟨rfl, fun _ => rfl⟩
  | some state =>
      refine ⟨rfl, ?_⟩
      show if state.established then _ else _
      cases hest : state.established with
      | true => simp
      | false =>
          have hcount := h.pending state rfl hest
          simp [hcount.1, hcount.2]

/-- The entry and the attempt are marked alike. -/
theorem Follows.setState {t : Tuple} {entry : Option ConnState} {a : Attempt}
    (h : Follows maps t entry a) (marks : Bool) :
    Follows maps t (entry.map fun e => ⟨e.synCount, e.established || marks⟩)
      { a with established := a.established || marks } := by
  unfold Follows at h ⊢
  cases hinherited : a.inherited with
  | none =>
      cases entry with
      | none => simpa [hinherited] using h
      | some e =>
          simp only [hinherited] at h
          obtain ⟨hone, hest, hcount, hreports⟩ := h
          refine ⟨hone, ?_, ?_, hreports⟩
          · rw [Bool.or_eq_true, Bool.or_eq_true, hest]
            exact or_right_comm
          · intro hfalse
            exact hcount (Bool.or_eq_false_iff.mp hfalse).1
  | some first =>
      cases entry with
      | none => simp [hinherited] at h
      | some e =>
          simp only [hinherited] at h
          obtain ⟨hreports, hrest⟩ := h
          refine ⟨hreports, ?_⟩
          cases hest : first.established with
          | true =>
              rw [hest, if_pos rfl] at hrest
              rw [if_pos rfl]
              exact Bool.or_eq_true_iff.mpr (.inl hrest)
          | false =>
              simp only [hest, Bool.false_eq_true, if_false] at hrest ⊢
              obtain ⟨htwo, hsame, hcount, hfour⟩ := hrest
              exact ⟨htwo, by rw [hsame], hcount, hfour⟩

theorem fine_setState {t : Tuple} {entry : Option ConnState} {sockState : ℕ}
    {attempt : Option Attempt} (h : Fine maps t entry sockState attempt) {state : ℕ}
    (hstate : state ≠ tcpSynSent) :
    Fine maps t
      (entry.map fun e => ⟨e.synCount, e.established || state = tcpEstablished⟩) state
      (attempt.map fun a => { a with established := a.established || state = tcpEstablished }) := by
  constructor
  · intro hsome
    exact h.tracked (by simpa using hsome)
  · intro e he hest
    obtain ⟨e₀, he₀, rfl⟩ := Option.map_eq_some_iff.mp he
    exact h.pending e₀ he₀ (Bool.or_eq_false_iff.mp hest).1
  · intro hnone
    exact ⟨by simp [(h.unattempted (by simpa using hnone)).1], hstate⟩
  · exact fun _ _ _ => hstate
  · intro a ha
    obtain ⟨a₀, ha₀, rfl⟩ := Option.map_eq_some_iff.mp ha
    exact (h.follows a₀ ha₀).setState _

/-- A retransmission that the probe does not look at. -/
theorem fine_uncounted {t : Tuple} {entry : Option ConnState} {sockState : ℕ}
    {attempt : Option Attempt} (h : Fine maps t entry sockState attempt)
    (hignored : ¬ (Tracked maps t ∧ sockState = tcpSynSent)) :
    Fine maps t entry sockState (attempt.map fun a =>
      { a with retransmits := a.retransmits + if sockState = tcpSynSent then 1 else 0 }) := by
  by_cases hstate : sockState = tcpSynSent
  · have htracked : ¬ Tracked maps t := fun htracked => hignored ⟨htracked, hstate⟩
    have hnone : entry = none := by
      by_contra hsome
      exact htracked (h.tracked hsome)
    refine ⟨h.tracked, h.pending, by simpa using h.unattempted, ?_, ?_⟩
    · intro a ha hest
      obtain ⟨a₀, ha₀, rfl⟩ := Option.map_eq_some_iff.mp ha
      exact h.settled a₀ ha₀ hest
    · intro a ha
      obtain ⟨a₀, ha₀, rfl⟩ := Option.map_eq_some_iff.mp ha
      have hfollows := h.follows a₀ ha₀
      unfold Follows at hfollows ⊢
      subst hnone
      cases hinherited : a₀.inherited with
      | none =>
          simp only [hinherited] at hfollows
          exact ⟨hfollows.1, fun hcase => absurd hcase htracked⟩
      | some first => simp [hinherited] at hfollows
  · have hsame : (attempt.map fun a =>
        { a with retransmits := a.retransmits + if sockState = tcpSynSent then 1 else 0 }) =
        attempt := by
      cases attempt <;> simp [hstate]
    rwa [hsame]

/-- When the third retransmission comes, and whether it is the one that is reported. -/
def Judging (entry : Option ConnState) (a : Attempt) : Prop :=
  ((countRetransmit entry).2 = true → 3 ≤ a.retransmits + 1 ∧ a.reports = 0) ∧
    (a.retransmits + 1 = 3 → (countRetransmit entry).2 = true)

/-- The first entry does not come into it. -/
def Fresh (a : Attempt) : Prop :=
  ∀ first ∈ a.inherited, if first.established then a.retransmits + 1 ≠ 3
    else first.synCount + (a.retransmits + 1) < 4

theorem countRetransmit_of_pending {state : ConnState} (hest : state.established = false)
    (hlt : state.synCount < 4) :
    countRetransmit (some state) = (⟨state.synCount + 1, decide (state.synCount = 3)⟩,
      decide (state.synCount = 3)) := by
  have hmod : (state.synCount + 1) % 2 ^ 32 = state.synCount + 1 := Nat.mod_eq_of_lt (by omega)
  simp only [countRetransmit, hmod, hest]
  by_cases hthree : state.synCount = 3
  · simp [hthree]
  · have hless : ¬ 4 ≤ state.synCount + 1 := by omega
    simp [hthree, hless]

theorem countRetransmit_of_established {state : ConnState} (hest : state.established = true) :
    countRetransmit (some state) = (⟨(state.synCount + 1) % 2 ^ 32, true⟩, false) := by
  simp [countRetransmit, hest]

/-- What counting one more retransmission makes of the entry of an attempt that is not
established, by what the attempt began with. -/
inductive Counted (entry : Option ConnState) (a : Attempt) : Prop where
  | first (hinherited : a.inherited = none) (hnone : a.retransmits = 0) (hreports : a.reports = 0)
      (hcount : countRetransmit entry = (⟨2, false⟩, false))
  | marked (hinherited : a.inherited = none) (hmany : 3 ≤ a.retransmits)
      (hreports : a.reports = 1) {n : ℕ} (hcount : countRetransmit entry = (⟨n, true⟩, false))
  | counting (hinherited : a.inherited = none) (hsome : 1 ≤ a.retransmits)
      (hfew : a.retransmits < 3) (hreports : a.reports = 0)
      (hcount : countRetransmit entry = (⟨a.retransmits + 2, decide (a.retransmits = 2)⟩,
        decide (a.retransmits = 2)))
  | inheritedMarked {state : ConnState} (hinherited : a.inherited = some state)
      (hstate : state.established = true) (hreports : a.reports = 0) {n : ℕ}
      (hcount : countRetransmit entry = (⟨n, true⟩, false))
  | inheritedCounting {state : ConnState} (hinherited : a.inherited = some state)
      (hstate : state.established = false) (hsome : 2 ≤ state.synCount)
      (hfew : state.synCount + a.retransmits < 4) (hreports : a.reports = 0)
      (hcount : countRetransmit entry = (⟨state.synCount + a.retransmits + 1,
        decide (state.synCount + a.retransmits = 3)⟩,
        decide (state.synCount + a.retransmits = 3)))

theorem counted_of_follows {t : Tuple} {entry : Option ConnState} {a : Attempt}
    (htracked : Tracked maps t) (hfollows : Follows maps t entry a)
    (hest : a.established = false) : Counted entry a := by
  unfold Follows at hfollows
  cases hinherited : a.inherited with
  | none =>
      cases entry with
      | none =>
          simp only [hinherited] at hfollows
          exact .first hinherited (hfollows.2 htracked) hfollows.1 rfl
      | some state =>
          simp only [hinherited, hest, Bool.false_eq_true, false_or] at hfollows
          obtain ⟨hone, hstate, hcount, hreports⟩ := hfollows
          cases hmarked : state.established with
          | true =>
              have hthree := hstate.mp hmarked
              rw [if_pos hthree] at hreports
              exact .marked hinherited hthree hreports (countRetransmit_of_established hmarked)
          | false =>
              have hthree : ¬ 3 ≤ a.retransmits := by
                intro hcase
                simp [hstate.mpr hcase] at hmarked
              have hcount := hcount hmarked
              rw [if_neg hthree] at hreports
              refine .counting hinherited hone (by omega) hreports ?_
              rw [countRetransmit_of_pending hmarked (by omega), hcount]
              simp
  | some first =>
      cases entry with
      | none => simp [hinherited] at hfollows
      | some state =>
          simp only [hinherited] at hfollows
          obtain ⟨hreports, hrest⟩ := hfollows
          cases hfirst : first.established with
          | true =>
              rw [if_pos hfirst] at hrest
              exact .inheritedMarked hinherited hfirst hreports
                (countRetransmit_of_established hrest)
          | false =>
              simp only [hfirst, Bool.false_eq_true, if_false, hest] at hrest
              obtain ⟨htwo, hmarked, hcount, hfour⟩ := hrest
              refine .inheritedCounting hinherited hfirst htwo (by omega) hreports ?_
              rw [countRetransmit_of_pending hmarked hfour, hcount]

/-- The verdict on a counted retransmission, by what the attempt began with. -/
theorem Counted.judging_iff_fresh {entry : Option ConnState} {a : Attempt}
    (h : Counted entry a) : Judging entry a ↔ Fresh a := by
  unfold Judging Fresh
  cases h with
  | first hinherited hnone hreports hcount => simp [hinherited, hcount, hnone]
  | marked hinherited hmany hreports hcount =>
      rw [hinherited, hcount]
      simp
      omega
  | counting hinherited hsome hfew hreports hcount =>
      rw [hinherited, hcount]
      simp only [decide_eq_true_eq, hreports, and_true]
      simp
      omega
  | inheritedMarked hinherited hstate hreports hcount =>
      rw [hinherited, hcount]
      simp [hstate]
  | inheritedCounting hinherited hstate hsome hfew hreports hcount =>
      rw [hinherited, hcount]
      simp only [decide_eq_true_eq, hreports, and_true, Option.mem_def, Option.some.injEq,
        forall_eq', hstate, Bool.false_eq_true, if_false]
      omega

theorem Counted.follows {t : Tuple} {entry : Option ConnState} {a : Attempt}
    (h : Counted entry a) (hest : a.established = false) (hfresh : Fresh a) :
    Follows maps t (some (countRetransmit entry).1)
      { a with retransmits := a.retransmits + 1
               reports := a.reports + if (countRetransmit entry).2 then 1 else 0 } := by
  unfold Follows
  cases h with
  | first hinherited hnone hreports hcount =>
      simp [hinherited, hcount, hnone, hest, hreports]
  | marked hinherited hmany hreports hcount =>
      have hmore : 3 ≤ a.retransmits + 1 := by omega
      simp [hinherited, hcount, hreports, hmore]
  | counting hinherited hsome hfew hreports hcount =>
      by_cases hlast : a.retransmits = 2
      · simp [hinherited, hcount, hlast, hest, hreports]
      · have hless : ¬ 3 ≤ a.retransmits + 1 := by omega
        simp [hinherited, hcount, hest, hreports, hlast, hless]
  | inheritedMarked hinherited hstate hreports hcount =>
      simp [hinherited, hcount, hreports, hstate]
  | @inheritedCounting state hinherited hstate hsome hfew hreports hcount =>
      have hfresh := hfresh state hinherited
      rw [if_neg (by rw [hstate]; decide)] at hfresh
      have hne : ¬ state.synCount + a.retransmits = 3 := by omega
      simp [hinherited, hcount, hreports, hstate, hest, hne, hsome]
      omega

theorem pending_counted {entry : Option ConnState}
    (h : ∀ state ∈ entry, state.established = false →
      2 ≤ state.synCount ∧ state.synCount < 4) :
    (countRetransmit entry).1.established = false →
      2 ≤ (countRetransmit entry).1.synCount ∧ (countRetransmit entry).1.synCount < 4 := by
  cases entry with
  | none => simp [countRetransmit]
  | some state =>
      cases hmarked : state.established with
      | true => simp [countRetransmit_of_established hmarked]
      | false =>
          have hcount := h state rfl hmarked
          rw [countRetransmit_of_pending hmarked hcount.2]
          simp only [decide_eq_false_iff_not]
          omega

/-- A retransmission that the probe counts. -/
theorem fine_counted {t : Tuple} {entry : Option ConnState} {sockState : ℕ}
    {attempt : Option Attempt} (h : Fine maps t entry sockState attempt)
    (htracked : Tracked maps t) (hstate : sockState = tcpSynSent)
    (hfresh : ∀ a ∈ attempt, Fresh a) :
    Fine maps t (some (countRetransmit entry).1) sockState (attempt.map fun a =>
      { a with retransmits := a.retransmits + 1
               reports := a.reports + if (countRetransmit entry).2 then 1 else 0 }) := by
  refine ⟨fun _ => htracked, ?_, ?_, ?_, ?_⟩
  · intro state hmem
    obtain rfl := Option.some.inj hmem
    exact pending_counted h.pending
  · intro hnone
    exact absurd hstate (h.unattempted (by simpa using hnone)).2
  · intro a ha hest
    obtain ⟨a₀, ha₀, rfl⟩ := Option.map_eq_some_iff.mp ha
    exact h.settled a₀ ha₀ hest
  · intro a ha
    obtain ⟨a₀, ha₀, rfl⟩ := Option.map_eq_some_iff.mp ha
    have hest : a₀.established = false :=
      Bool.eq_false_iff.mpr fun hcase => h.settled a₀ ha₀ hcase hstate
    have hcounted := counted_of_follows htracked (h.follows a₀ ha₀) hest
    exact hcounted.follows hest (hfresh a₀ ha₀)

/-! Steps and runs. -/

theorem emitted_retransmit (s : State) (t : Tuple) :
    emitted maps s (.retransmit t) =
      if (Tracked maps t ∧ s.sockState t = tcpSynSent) ∧
        (countRetransmit (s.table t.key)).2 = true then
        some ⟨t.netNsInum, t.key.saddr, t.key.daddr, t.key.sport, t.key.dport, 6,
          (countRetransmit (s.table t.key)).1.synCount⟩
      else none := by
  simp only [emitted, traceTcpRetransmit_sock]
  by_cases hcounted : Tracked maps t ∧ s.sockState t = tcpSynSent
  · simp only [hcounted, and_self, if_true, true_and]
  · rw [if_neg hcounted, if_neg (fun h => hcounted h.1)]

/-- The verdict on a retransmission that the probe counts. -/
theorem judged_retransmit {s : State} {t : Tuple} {a : Attempt} (hinv : Inv maps s)
    (ha : s.attempts t = some a) (hcounted : Tracked maps t ∧ s.sockState t = tcpSynSent) :
    Judged maps s (.retransmit t) ↔ Judging (s.table t.key) a := by
  have hest : a.established = false :=
    Bool.eq_false_iff.mpr fun hcase => (hinv t).settled a ha hcase hcounted.2
  unfold Judged Judging
  rw [emitted_retransmit]
  simp only [hcounted, and_self, true_and]
  constructor
  · rintro ⟨honly, hmust⟩
    constructor
    · intro hblocked
      obtain ⟨t', a', heq, ha', -, hthree, -, hreports⟩ := honly _ (if_pos hblocked)
      obtain rfl := Event.retransmit.inj heq
      obtain rfl := Option.some.inj (ha.symm.trans ha')
      exact ⟨hthree, hreports⟩
    · intro hthird
      by_contra hblocked
      exact hmust t a rfl ha hcounted.1 hcounted.2 hest hthird (if_neg hblocked)
  · rintro ⟨honly, hmust⟩
    constructor
    · intro event hevent
      obtain ⟨hblocked, hevent⟩ := Option.ite_none_right_eq_some.mp hevent
      obtain rfl := Option.some.inj hevent
      obtain ⟨hthree, hreports⟩ := honly hblocked
      exact ⟨t, a, rfl, ha, rfl, hthree, hest, hreports⟩
    · intro t' a' heq ha' _ _ _ hthird
      obtain rfl := Event.retransmit.inj heq
      obtain rfl := Option.some.inj (ha.symm.trans ha')
      rw [if_pos (hmust hthird)]
      simp

theorem notInherited_retransmit {s : State} {t : Tuple} {a : Attempt} (hinv : Inv maps s)
    (ha : s.attempts t = some a) (hcounted : Tracked maps t ∧ s.sockState t = tcpSynSent) :
    NotInherited maps s (.retransmit t) ↔ Fresh a := by
  have hest : a.established = false :=
    Bool.eq_false_iff.mpr fun hcase => (hinv t).settled a ha hcase hcounted.2
  unfold NotInherited Fresh
  constructor
  · intro h
    exact h t a rfl ha hcounted.1 hcounted.2 hest
  · intro h t' a' heq ha' _ _ _
    obtain rfl := Event.retransmit.inj heq
    obtain rfl := Option.some.inj (ha.symm.trans ha')
    exact h

/-- At each step the verdict is right exactly when no earlier entry comes into it. -/
theorem judged_iff {s : State} (hinv : Inv maps s) (e : Event) :
    Judged maps s e ↔ NotInherited maps s e := by
  cases e with
  | connect t rcvSaddr num =>
      exact iff_of_true (by simp [Judged, emitted]) (by simp [NotInherited])
  | setState t state hstate =>
      exact iff_of_true (by simp [Judged, emitted]) (by simp [NotInherited])
  | retransmit t =>
      by_cases hcounted : Tracked maps t ∧ s.sockState t = tcpSynSent
      · cases ha : s.attempts t with
        | none => exact absurd hcounted.2 ((hinv t).unattempted ha).2
        | some a =>
            have hest : a.established = false :=
              Bool.eq_false_iff.mpr fun hcase => (hinv t).settled a ha hcase hcounted.2
            rw [judged_retransmit hinv ha hcounted, notInherited_retransmit hinv ha hcounted]
            exact (counted_of_follows hcounted.1 ((hinv t).follows a ha) hest).judging_iff_fresh
      · have hnone : emitted maps s (.retransmit t) = none := by
          rw [emitted_retransmit, if_neg (fun h => hcounted h.1)]
        refine iff_of_true ⟨by simp [hnone], ?_⟩ ?_
        · intro t' a heq _ htracked hstate
          obtain rfl := Event.retransmit.inj heq
          exact absurd ⟨htracked, hstate⟩ hcounted
        · intro t' a heq _ htracked hstate
          obtain rfl := Event.retransmit.inj heq
          exact absurd ⟨htracked, hstate⟩ hcounted

/-- A step that changes one connection keeps the others as they are. -/
theorem inv_of_update {s : State} {t : Tuple} {table : Tracking} {sockState : Tuple → ℕ}
    {attempts : Tuple → Option Attempt} (hinv : Inv maps s)
    (htable : ∀ t', t' ≠ t → table t'.key = s.table t'.key)
    (hstate : ∀ t', t' ≠ t → sockState t' = s.sockState t')
    (hattempts : ∀ t', t' ≠ t → attempts t' = s.attempts t')
    (hfine : Fine maps t (table t.key) (sockState t) (attempts t)) :
    Inv maps ⟨table, sockState, attempts⟩ := by
  intro t'
  by_cases ht : t' = t
  · subst ht
    exact hfine
  · have hsame := hinv t'
    rw [← htable t' ht, ← hstate t' ht, ← hattempts t' ht] at hsame
    exact hsame

theorem inv_next {s : State} {e : Event} (hinv : Inv maps s) (hcond : NotInherited maps s e) :
    Inv maps (next maps s e) := by
  cases e with
  | connect t rcvSaddr num =>
      have htable : traceTcpStateChange maps s.table (t.sock tcpClose) tcpSynSent = s.table := by
        simp [traceTcpStateChange, tcpSynSent, tcpEstablished]
      simp only [next, traceTcpConnect_entrySock, htable]
      apply inv_of_update (t := t) hinv
      · exact fun _ _ => rfl
      · exact fun t' ht => Function.update_of_ne ht _ _
      · exact fun t' ht => Function.update_of_ne ht _ _
      · simp only [Function.update_self]
        exact fine_connect (hinv t)
  | setState t state hstate =>
      simp only [next, traceTcpStateChange_sock maps (hinv t).tracked]
      apply inv_of_update (t := t) hinv
      · exact fun t' ht => update_key_of_ne ht _
      · exact fun t' ht => Function.update_of_ne ht _ _
      · exact fun t' ht => Function.update_of_ne ht _ _
      · simp only [Function.update_self]
        exact fine_setState (hinv t) hstate
  | retransmit t =>
      simp only [next, traceTcpRetransmit_sock]
      by_cases hcounted : Tracked maps t ∧ s.sockState t = tcpSynSent
      · simp only [hcounted, and_self, if_true]
        apply inv_of_update (t := t) hinv
        · exact fun t' ht => update_key_of_ne ht _
        · exact fun _ _ => rfl
        · exact fun t' ht => Function.update_of_ne ht _ _
        · simp only [Function.update_self]
          have hfresh : ∀ a ∈ s.attempts t, Fresh a := fun a ha =>
            (notInherited_retransmit hinv ha hcounted).mp hcond
          have hfine := fine_counted (hinv t) hcounted.1 hcounted.2 hfresh
          cases hblocked : (countRetransmit (s.table t.key)).2 <;> simpa [hblocked] using hfine
      · rw [if_neg hcounted]
        apply inv_of_update (t := t) hinv
        · exact fun _ _ => rfl
        · exact fun _ _ => rfl
        · exact fun t' ht => Function.update_of_ne ht _ _
        · simp only [Function.update_self]
          exact fine_uncounted (hinv t) hcounted

/-- Over every run, each attempt is judged by itself exactly when no attempt comes so far
that the entry of an earlier one counts. -/
theorem drops_perAttempt_iff (maps : ProbeState) (events : List Event) :
    (machine maps).EveryStep events (fun _ s e _ => Judged maps s e) ↔
      (machine maps).EveryStep events (fun _ s e _ => NotInherited maps s e) := by
  apply Machine.everyStep_iff_everyStep (P := fun _ => Inv maps) (inv_init maps)
  · exact fun _ s e _ hinv _ => judged_iff hinv e
  · intro _ s e s' hinv hstep hcond
    obtain rfl := Option.some.inj hstep
    exact inv_next hinv hcond

/-- A pod whose connection to one port is dropped, tried twice from the same source port. -/
def droppedTuple : Tuple := ⟨7, 0x0800000A#32, 0x0700000A#32, 40000, 0x5000#16⟩

/-- The first attempt times out after four retransmissions, the second one as well. -/
def retriedRun : List Event :=
  [.connect droppedTuple 0 0, .retransmit droppedTuple, .retransmit droppedTuple,
    .retransmit droppedTuple, .retransmit droppedTuple,
    .setState droppedTuple tcpClose (by decide),
    .connect droppedTuple 0x0800000A#32 0, .retransmit droppedTuple,
    .retransmit droppedTuple, .retransmit droppedTuple]

/-- The second attempt is not reported. -/
theorem retriedRun_misjudged :
    ¬ (machine ⟨[7], [], [], []⟩).EveryStep retriedRun
      (fun _ s e _ => Judged ⟨[7], [], [], []⟩ s e) := by
  intro h
  have hlast := h (retriedRun.take 9) (.retransmit droppedTuple) []
    ((retriedRun.take 9).foldl (next ⟨[7], [], [], []⟩) (machine ⟨[7], [], [], []⟩).init) _
    rfl rfl rfl
  exact hlast.2 droppedTuple ⟨some ⟨5, true⟩, 2, false, 0⟩ rfl rfl (by decide) rfl rfl rfl rfl

end KGuardian.DropProbe
