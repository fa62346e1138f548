import KGuardian.Runs
import Mathlib.Data.List.Nodup
import Mathlib.Logic.Function.Basic

/-!
How broker replicas agree on the id of their installation (`get_or_create_install_id` in
`broker/src/version_check.rs`, and its migration). A replica reads the table, inserts a
fresh id when there is none, and reads again. The key of the table is the id itself, so
two fresh ids never conflict and each replica that saw no row adds one.
-/
namespace KGuardian.InstallIds

open Runs

/-- Where a replica is: before its first read, after one that found no row, or after the
insert. -/
inductive Phase where
  | start
  | missing
  | inserted
  deriving DecidableEq

/-- The rows of the table by their key, where each replica is, and every id that a call has
returned. -/
structure State (Replica : Type*) where
  installInfo : List String
  phase : Replica → Phase
  reported : List (Replica × String)

/-- The statements of a call, and a replica that is restarted or whose statement fails. -/
inductive Event (Replica : Type*) where
  | read (replica : Replica) (row : Option String)
  | insert (replica : Replica) (fresh : String)
  | reread (replica : Replica) (row : Option String)
  | restart (replica : Replica)

/-- What the first of the rows may be, which are selected in no order. -/
def mayBeFirst (installInfo : List String) : Option String → Bool
  | none => installInfo.isEmpty
  | some existing => installInfo.contains existing

/-- An insert that does nothing on conflict. Only the key of the table conflicts. -/
def onConflictDoNothing (installInfo : List String) (fresh : String) : List String :=
  if installInfo.contains fresh then installInfo else installInfo ++ [fresh]

section Replicas

variable {Replica : Type*} [DecidableEq Replica]

def State.move (s : State Replica) (replica : Replica) (phase : Phase) : State Replica :=
  { s with phase := Function.update s.phase replica phase }

def State.report (s : State Replica) (replica : Replica) (id : String) : State Replica where
  installInfo := s.installInfo
  phase := Function.update s.phase replica .start
  reported := s.reported ++ [(replica, id)]

def step (s : State Replica) : Event Replica → Option (State Replica)
  | .read replica row =>
      if s.phase replica = .start ∧ mayBeFirst s.installInfo row then
        match row with
        | some existing => some (s.report replica existing)
        | none => some (s.move replica .missing)
      else none
  | .insert replica fresh =>
      if s.phase replica = .missing then
        some { s.move replica .inserted with
          installInfo := onConflictDoNothing s.installInfo fresh }
      else none
  | .reread replica row =>
      if s.phase replica = .inserted ∧ mayBeFirst s.installInfo row then
        match row with
        | some id => some (s.report replica id)
        | none => some (s.move replica .start)
      else none
  | .restart replica => some (s.move replica .start)

/-- The replicas on a fresh database. -/
def brokers : Machine (State Replica) (Event Replica) := ⟨⟨[], fun _ => .start, []⟩, step⟩

/-- One install has one id: the table has one row, and its id is what every call returned. -/
structure OneId (s : State Replica) : Prop where
  single : s.installInfo.length ≤ 1
  agreed : ∀ report ∈ s.reported, s.installInfo = [report.2]

/-- An insert does not find the id of another replica. -/
def FindsNoOther (s : State Replica) : Event Replica → Prop
  | .insert _ fresh => ∀ id ∈ s.installInfo, id = fresh
  | _ => True

/-- No replica reads that there is no row while another one is about to insert one. -/
def ReadsAlone (s : State Replica) : Event Replica → Prop
  | .read _ none => ∀ other, s.phase other ≠ .missing
  | _ => True

end Replicas

/-! The statements. -/

theorem mayBeFirst_none {installInfo : List String} :
    mayBeFirst installInfo none = true ↔ installInfo = [] :=
  List.isEmpty_iff

theorem mayBeFirst_some {installInfo : List String} {id : String} :
    mayBeFirst installInfo (some id) = true ↔ id ∈ installInfo :=
  List.contains_iff_mem

/-- A table of one row at most stays one exactly when no other id is found. -/
theorem length_onConflictDoNothing_le_iff {installInfo : List String}
    (h : installInfo.length ≤ 1) (fresh : String) :
    (onConflictDoNothing installInfo fresh).length ≤ 1 ↔ ∀ id ∈ installInfo, id = fresh := by
  match installInfo, h with
  | [], _ => simp [onConflictDoNothing]
  | [id], _ =>
      rw [List.forall_mem_singleton, onConflictDoNothing]
      split
      · rename_i hmem
        rw [List.contains_iff_mem, List.mem_singleton] at hmem
        exact iff_of_true (Nat.le_refl 1) hmem.symm
      · rename_i hmem
        rw [List.contains_iff_mem, List.mem_singleton] at hmem
        exact iff_of_false (by simp) fun heq => hmem heq.symm

section Replicas

variable {Replica : Type*} [DecidableEq Replica]

/-- What a step can do: a call returns an id of the table, a replica finds the table empty and
goes on to the insert, it inserts, or its call ends without an id. -/
theorem step_cases {s s' : State Replica} {e : Event Replica} (h : step s e = some s') :
    (∃ replica id, (e = .read replica (some id) ∨ e = .reread replica (some id)) ∧
      id ∈ s.installInfo ∧ s' = s.report replica id) ∨
    (∃ replica, e = .read replica none ∧ s.installInfo = [] ∧ s' = s.move replica .missing) ∨
    (∃ replica fresh, e = .insert replica fresh ∧ s.phase replica = .missing ∧
      s' = { s.move replica .inserted with
        installInfo := onConflictDoNothing s.installInfo fresh }) ∨
    ∃ replica, (e = .reread replica none ∨ e = .restart replica) ∧
      s' = s.move replica .start := by
  cases e with
  | read replica row =>
      cases row with
      | some existing =>
          obtain ⟨hguard, rfl⟩ := Machine.of_guard h
          exact .inl ⟨replica, existing, .inl rfl, mayBeFirst_some.mp hguard.2, rfl⟩
      | none =>
          obtain ⟨hguard, rfl⟩ := Machine.of_guard h
          exact .inr (.inl ⟨replica, rfl, mayBeFirst_none.mp hguard.2, rfl⟩)
  | insert replica fresh =>
      obtain ⟨hguard, rfl⟩ := Machine.of_guard h
      exact .inr (.inr (.inl ⟨replica, fresh, rfl, hguard, rfl⟩))
  | reread replica row =>
      cases row with
      | some id =>
          obtain ⟨hguard, rfl⟩ := Machine.of_guard h
          exact .inl ⟨replica, id, .inr rfl, mayBeFirst_some.mp hguard.2, rfl⟩
      | none =>
          obtain ⟨hguard, rfl⟩ := Machine.of_guard h
          exact .inr (.inr (.inr ⟨replica, .inl rfl, rfl⟩))
  | restart replica =>
      obtain rfl := Option.some.inj h
      exact .inr (.inr (.inr ⟨replica, .inr rfl, rfl⟩))

/-! Where one id holds, and where it is lost. -/

theorem oneId_init : OneId (brokers : Machine (State Replica) (Event Replica)).init :=
  ⟨Nat.zero_le 1, fun _ hreport => absurd hreport List.not_mem_nil⟩

theorem OneId.move {s : State Replica} (h : OneId s) (replica : Replica) (phase : Phase) :
    OneId (s.move replica phase) :=
  ⟨h.single, h.agreed⟩

/-- A call returns the id of the only row. -/
theorem OneId.report {s : State Replica} (h : OneId s) (replica : Replica) {id : String}
    (hid : id ∈ s.installInfo) : OneId (s.report replica id) := by
  have hrow : s.installInfo = [id] := by
    obtain ⟨row, hrow⟩ := List.length_eq_one_iff.mp
      (Nat.le_antisymm h.single (List.length_pos_of_mem hid))
    rw [hrow, List.mem_singleton] at hid
    rw [hrow, hid]
  refine ⟨h.single, fun report hreport => ?_⟩
  obtain hold | hnew := List.mem_append.mp hreport
  · exact h.agreed report hold
  · obtain rfl := List.mem_singleton.mp hnew
    exact hrow

/-- An insert keeps one id exactly when it finds no other one. -/
theorem oneId_insert_iff {s : State Replica} (h : OneId s) (replica : Replica)
    (fresh : String) :
    OneId { s.move replica .inserted with
      installInfo := onConflictDoNothing s.installInfo fresh } ↔
      ∀ id ∈ s.installInfo, id = fresh := by
  constructor
  · intro hnew
    exact (length_onConflictDoNothing_le_iff h.single fresh).mp hnew.single
  · intro hfinds
    refine ⟨(length_onConflictDoNothing_le_iff h.single fresh).mpr hfinds, ?_⟩
    intro report hreport
    have hrow := h.agreed report hreport
    have hfresh := hfinds report.2 (by rw [hrow]; exact List.mem_singleton_self _)
    show onConflictDoNothing s.installInfo fresh = [report.2]
    rw [hrow, hfresh, onConflictDoNothing, if_pos (by simp)]

theorem oneId_step_iff {s s' : State Replica} {e : Event Replica} (h : OneId s)
    (hstep : step s e = some s') : OneId s' ↔ FindsNoOther s e := by
  obtain ⟨replica, id, hevent, hid, rfl⟩ | ⟨replica, rfl, -, rfl⟩ |
    ⟨replica, fresh, rfl, -, rfl⟩ | ⟨replica, hevent, rfl⟩ := step_cases hstep
  · refine iff_of_true (h.report replica hid) ?_
    obtain rfl | rfl := hevent
    · trivial
    · trivial
  · exact iff_of_true (h.move replica .missing) trivial
  · exact oneId_insert_iff h replica fresh
  · refine iff_of_true (h.move replica .start) ?_
    obtain rfl | rfl := hevent
    · trivial
    · trivial

/-- There is one row and one id all along exactly when no replica inserts next to the row of
another one. -/
theorem oneId_iff (events : List (Event Replica)) :
    brokers.EveryState events (fun _ s => OneId s) ↔
      brokers.EveryStep events (fun _ s e _ => FindsNoOther s e) := by
  refine Machine.everyState_iff_everyStep ?_ ?_
  · exact oneId_init
  · intro _ s e s' _ h hstep
    exact oneId_step_iff h hstep

/-- Both replicas saw no row, so both ids are inserted, and each may read its own. -/
theorem run_overlap {i j : Replica} (hij : i ≠ j) {a b : String} (hab : a ≠ b) :
    ∃ s, brokers.run [.read i none, .read j none, .insert i a, .insert j b,
        .reread i (some a), .reread j (some b)] = some s ∧
      s.installInfo = [a, b] ∧ s.reported = [(i, a), (j, b)] := by
  simp [Machine.run, brokers, step, State.move, State.report, mayBeFirst, onConflictDoNothing,
    Function.update, hij, hij.symm, hab.symm]

/-! Replicas that do not overlap. -/

/-- At most one replica is about to insert, and the table is empty then. -/
structure OneInserts (s : State Replica) : Prop where
  unique : ∀ i j, s.phase i = .missing → s.phase j = .missing → i = j
  empty : ∀ i, s.phase i = .missing → s.installInfo = []

theorem oneInserts_init : OneInserts (brokers : Machine (State Replica) (Event Replica)).init :=
  ⟨fun _ _ hi => (nomatch hi), fun _ hi => (nomatch hi)⟩

theorem phase_move (s : State Replica) (replica : Replica) (phase : Phase) :
    (s.move replica phase).phase = Function.update s.phase replica phase := rfl

/-- A replica that moves elsewhere is not about to insert. -/
theorem missing_of_update {s : State Replica} {replica i : Replica} {phase : Phase}
    (hphase : phase ≠ .missing) (h : Function.update s.phase replica phase i = .missing) :
    i ≠ replica ∧ s.phase i = .missing := by
  by_cases hi : i = replica
  · rw [hi, Function.update_self] at h
    exact absurd h hphase
  · rw [Function.update_of_ne hi] at h
    exact ⟨hi, h⟩

theorem OneInserts.of_phase {s s' : State Replica} (h : OneInserts s) {replica : Replica}
    (hphase : s'.phase = Function.update s.phase replica .start)
    (htable : s'.installInfo = s.installInfo) : OneInserts s' := by
  have hmissing : ∀ i, s'.phase i = .missing → s.phase i = .missing := by
    intro i hi
    rw [hphase] at hi
    exact (missing_of_update (by decide) hi).2
  refine ⟨fun i j hi hj => h.unique i j (hmissing i hi) (hmissing j hj), fun i hi => ?_⟩
  rw [htable]
  exact h.empty i (hmissing i hi)

theorem OneInserts.step {s s' : State Replica} (h : OneInserts s) {e : Event Replica}
    (hstep : step s e = some s') (halone : ReadsAlone s e) : OneInserts s' := by
  obtain ⟨replica, id, -, -, rfl⟩ | ⟨replica, rfl, hempty, rfl⟩ |
    ⟨replica, fresh, rfl, hmissing, rfl⟩ | ⟨replica, -, rfl⟩ := step_cases hstep
  · exact h.of_phase rfl rfl
  · have hself : ∀ i, (s.move replica .missing).phase i = .missing → i = replica := by
      intro i hi
      by_contra hne
      rw [phase_move, Function.update_of_ne hne] at hi
      exact halone i hi
    exact ⟨fun i j hi hj => (hself i hi).trans (hself j hj).symm, fun _ _ => hempty⟩
  · have hnone : ∀ i, (s.move replica .inserted).phase i ≠ .missing := by
      intro i hi
      obtain ⟨hne, hi⟩ := missing_of_update (by decide) hi
      exact hne (h.unique i replica hi hmissing)
    exact ⟨fun i _ hi => absurd hi (hnone i), fun i hi => absurd hi (hnone i)⟩
  · exact h.of_phase rfl rfl

theorem OneInserts.findsNoOther {s s' : State Replica} (h : OneInserts s) {e : Event Replica}
    (hstep : InstallIds.step s e = some s') : FindsNoOther s e := by
  cases e with
  | insert replica fresh =>
      obtain ⟨hmissing, -⟩ := Machine.of_guard hstep
      intro id hid
      rw [h.empty replica hmissing] at hid
      cases hid
  | read replica row => trivial
  | reread replica row => trivial
  | restart replica => trivial

/-- One replica after the other, the installation has one id. -/
theorem oneId_of_readsAlone {events : List (Event Replica)}
    (h : brokers.EveryStep events fun _ s e _ => ReadsAlone s e) :
    brokers.EveryState events fun _ s => OneId s := by
  intro before after s hevents hrun
  subst hevents
  have hboth : OneId s ∧ OneInserts s := by
    refine Machine.invariant_of_everyStep (P := fun _ s => OneId s ∧ OneInserts s) ?_ ?_ hrun
      h.of_append
    · exact ⟨oneId_init, oneInserts_init⟩
    · intro _ s₀ e s' _ hinv hstep halone
      exact ⟨(oneId_step_iff hinv.1 hstep).mpr (hinv.2.findsNoOther hstep),
        hinv.2.step hstep halone⟩
  exact hboth.1

end Replicas

/-- Two replicas on their first start. -/
theorem firstBoot_two_ids :
    ¬ ∀ events : List (Event ℕ), brokers.EveryState events fun _ s => OneId s := by
  intro h
  obtain ⟨s, hrun, hrows, -⟩ := run_overlap (i := 0) (j := 1) (by decide)
    (a := "0b6d1c3e-1f7a-4c7e-9a52-6f1d8e2b4c10") (b := "7e2f9a44-83d5-4b0c-8d6e-2a9c5b7f1e33")
    (by decide)
  have hone := (h _ _ [] s (List.append_nil _).symm hrun).single
  rw [hrows] at hone
  exact absurd hone (by decide)

end KGuardian.InstallIds
