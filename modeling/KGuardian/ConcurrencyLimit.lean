import KGuardian.Runs
import Mathlib.Data.List.Nodup
import Mathlib.Data.List.Count
import Mathlib.Logic.Function.Basic

/-!
The frontend's limit on requests side by side (`withConcurrencyLimit` in
`frontend/src/hooks/usePodData.ts`). Tasks end in any order, and between two awaits any number of
them may have ended. A task leaves the set in the same step in which its result is written, since
nothing reads the set in between.
-/
namespace KGuardian.ConcurrencyLimit

open Runs

variable {α ε : Type*}

/-- What the call waits for, and what it has come to. A race is won by a task that ends (`none`) or
by one that is rejected. -/
inductive Phase (ε : Type*) where
  | racing (won : Option (Option ε))
  | joining (failed : Option ε)
  | returned
  | threw (e : ε)

/-- The set is in the order of insertion, and a rejected task stays in it. -/
structure Pool (α ε : Type*) where
  started : ℕ
  executing : List ℕ
  rejected : List (ℕ × ε)
  results : ℕ → Option α
  phase : Phase ε

inductive Event (α ε : Type*) where
  | settled (index : ℕ) (outcome : Except ε α)
  | resumed

/-- The first promise of the set that is rejected already. -/
def Pool.rejection (p : Pool α ε) : Option ε := p.executing.findSome? fun i => p.rejected.lookup i

def Pool.start (p : Pool α ε) : Pool α ε :=
  { p with started := p.started + 1, executing := p.executing ++ [p.started] }

/-- The loop over the tasks that are left, up to its next await. -/
def launch (limit : ℕ) : ℕ → Pool α ε → Pool α ε
  | 0, p => { p with phase := .joining p.rejection }
  | left + 1, p =>
      if limit ≤ p.start.executing.length then
        { p.start with phase := .racing (p.start.rejection.map some) }
      else launch limit left p.start

def settle (p : Pool α ε) (index : ℕ) : Except ε α → Pool α ε
  | .ok r =>
      { p with
        executing := p.executing.erase index
        results := Function.update p.results index (some r)
        phase := match p.phase with
          | .racing none => .racing (some none)
          | phase => phase }
  | .error e =>
      { p with
        rejected := p.rejected ++ [(index, e)]
        phase := match p.phase with
          | .racing none => .racing (some (some e))
          | .joining none => .joining (some e)
          | phase => phase }

def resume (limit n : ℕ) (p : Pool α ε) : Option (Pool α ε) :=
  match p.phase with
  | .racing (some none) => some (launch limit (n - p.started) p)
  | .racing (some (some e)) => some { p with phase := .threw e }
  | .joining (some e) => some { p with phase := .threw e }
  | .joining none => if p.executing = [] then some { p with phase := .returned } else none
  | _ => none

/-- The tasks whose promises are open. -/
def Pool.inFlight (p : Pool α ε) : List ℕ :=
  p.executing.filter fun i => (p.rejected.lookup i).isNone

def step (limit n : ℕ) (p : Pool α ε) : Event α ε → Option (Pool α ε)
  | .settled index outcome =>
      if index ∈ p.inFlight then some (settle p index outcome) else none
  | .resumed => resume limit n p

def withConcurrencyLimit (limit n : ℕ) : Machine (Pool α ε) (Event α ε) where
  init := launch limit n ⟨0, [], [], fun _ => none, .joining none⟩
  step := step limit n

def Pool.Ended (p : Pool α ε) : Prop := p.phase = .returned ∨ ∃ e, p.phase = .threw e

def Event.index : Event α ε → Option ℕ
  | .settled index _ => some index
  | .resumed => none

def settles (events : List (Event α ε)) : List ℕ := events.filterMap Event.index

def resumes (events : List (Event α ε)) : ℕ := (events.filter fun e => e.index.isNone).length

/-! What every moment of a run keeps. -/

/-- What the set and the results have to do with the tasks that ended. -/
structure Tracked (limit n : ℕ) (events : List (Event α ε)) (p : Pool α ε) : Prop where
  started_le : p.started ≤ n
  nodup : p.executing.Nodup
  bound : p.executing.length ≤ max limit 1
  running : ∀ i, i ∈ p.executing ↔ i < p.started ∧ p.results i = none
  written : ∀ i r, p.results i = some r ↔ .settled i (.ok r) ∈ events
  known : ∀ i r, p.results i = some r → i < p.started
  rejected : ∀ i e, (i, e) ∈ p.rejected ↔ .settled i (.error e) ∈ events
  pending : ∀ i e, (i, e) ∈ p.rejected → i ∈ p.executing
  once : (settles events).Nodup

/-- What the phase says of the rest, and how often the call was resumed to get there. -/
def Consistent (limit n : ℕ) (resumed : ℕ) (p : Pool α ε) : Prop :=
  match p.phase with
  | .racing won => resumed < p.started ∧
      match won with
      | none => p.rejected = [] ∧ p.executing ≠ []
      | some none => p.executing.length < max limit 1
      | some (some e) => ∃ i, (i, e) ∈ p.rejected
  | .joining failed => resumed ≤ p.started ∧ p.started = n ∧
      match failed with
      | none => p.rejected = []
      | some e => ∃ i, (i, e) ∈ p.rejected
  | .returned => resumed ≤ p.started + 1 ∧ p.started = n ∧ p.executing = []
  | .threw e => resumed ≤ p.started + 1 ∧ ∃ i, (i, e) ∈ p.rejected

section Steps

variable {limit n : ℕ} {events : List (Event α ε)} {p p' : Pool α ε}

theorem mem_of_lookup {l : List (ℕ × ε)} {i : ℕ} {e : ε} (h : l.lookup i = some e) :
    (i, e) ∈ l := by
  obtain ⟨before, after, rfl, -⟩ := List.lookup_eq_some_iff.mp h
  exact List.mem_append_right _ List.mem_cons_self

theorem lookup_ne_none {l : List (ℕ × ε)} {i : ℕ} {e : ε} (h : (i, e) ∈ l) :
    l.lookup i ≠ none := by
  intro hnone
  have hother := List.lookup_eq_none_iff.mp hnone (i, e) h
  simp at hother

theorem rejection_eq_some {e : ε} (h : p.rejection = some e) : ∃ i, (i, e) ∈ p.rejected := by
  obtain ⟨i, -, hlookup⟩ := List.exists_of_findSome?_eq_some h
  exact ⟨i, mem_of_lookup hlookup⟩

theorem rejected_eq_nil (h : ∀ i e, (i, e) ∈ p.rejected → i ∈ p.executing)
    (hnone : p.rejection = none) : p.rejected = [] := by
  rw [List.eq_nil_iff_forall_not_mem]
  rintro ⟨i, e⟩ hmem
  exact lookup_ne_none hmem (List.findSome?_eq_none_iff.mp hnone i (h i e hmem))

/-- A started task joins the set. -/
theorem Tracked.start (h : Tracked limit n events p) (hmore : p.started < n)
    (hroom : p.executing.length < max limit 1) : Tracked limit n events p.start where
  started_le := hmore
  nodup := by
    rw [Pool.start, List.nodup_append_comm, List.singleton_append, List.nodup_cons]
    refine ⟨fun hmem => ?_, h.nodup⟩
    exact absurd ((h.running _).mp hmem).1 (Nat.lt_irrefl _)
  bound := by
    rw [Pool.start, List.length_append, List.length_singleton]
    exact hroom
  running i := by
    have hnew : p.results p.started = none := by
      cases hresult : p.results p.started with
      | none => rfl
      | some r => exact absurd (h.known _ r hresult) (Nat.lt_irrefl _)
    simp only [Pool.start, List.mem_append, List.mem_singleton, h.running]
    constructor
    · rintro (⟨hlt, hnone⟩ | rfl)
      · exact ⟨by omega, hnone⟩
      · exact ⟨by omega, hnew⟩
    · rintro ⟨hlt, hnone⟩
      rcases Nat.lt_succ_iff_lt_or_eq.mp hlt with hless | heq
      · exact Or.inl ⟨hless, hnone⟩
      · exact Or.inr heq
  written := h.written
  known i r hresult := Nat.lt_succ_of_lt (h.known i r hresult)
  rejected := h.rejected
  pending i e hmem := List.mem_append_left _ (h.pending i e hmem)
  once := h.once

/-- The phase plays no part in what is tracked. -/
theorem Tracked.setPhase (h : Tracked limit n events p) (phase : Phase ε) :
    Tracked limit n events { p with phase } :=
  ⟨h.started_le, h.nodup, h.bound, h.running, h.written, h.known, h.rejected, h.pending, h.once⟩

/-- The loop starts tasks while there is room for one more. -/
theorem Tracked.launch (h : Tracked limit n events p)
    (hroom : p.executing.length < max limit 1) {left resumed : ℕ} (hleft : p.started + left = n)
    (hresumed : resumed ≤ p.started) :
    Tracked limit n events (launch limit left p) ∧
      Consistent limit n resumed (launch limit left p) := by
  induction left generalizing p with
  | zero =>
      refine ⟨h.setPhase _, hresumed, hleft, ?_⟩
      cases hrejection : p.rejection with
      | none => exact rejected_eq_nil h.pending hrejection
      | some e => exact rejection_eq_some hrejection
  | succ left ih =>
      have hstart := h.start (by omega) hroom
      rw [ConcurrencyLimit.launch]
      by_cases hfull : limit ≤ p.start.executing.length
      · rw [if_pos hfull]
        refine ⟨hstart.setPhase _, Nat.lt_succ_of_le hresumed, ?_⟩
        cases hrejection : p.start.rejection with
        | none =>
            refine ⟨rejected_eq_nil hstart.pending hrejection, ?_⟩
            exact List.append_ne_nil_of_right_ne_nil _ (List.cons_ne_nil _ _)
        | some e => exact rejection_eq_some hrejection
      · rw [if_neg hfull]
        refine ih hstart ?_ ?_ ?_
        · omega
        · change p.started + 1 + left = n
          omega
        · exact Nat.le_succ_of_le hresumed

theorem mem_settles {i : ℕ} : i ∈ settles events ↔ ∃ outcome, .settled i outcome ∈ events := by
  rw [settles, List.mem_filterMap]
  constructor
  · rintro ⟨e, hmem, hindex⟩
    cases e with
    | settled index outcome =>
        obtain rfl := Option.some.inj hindex
        exact ⟨outcome, hmem⟩
    | resumed => cases hindex
  · rintro ⟨outcome, hmem⟩
    exact ⟨_, hmem, rfl⟩

theorem mem_inFlight {i : ℕ} : i ∈ p.inFlight ↔ i ∈ p.executing ∧ ∀ e, (i, e) ∉ p.rejected := by
  rw [Pool.inFlight, List.mem_filter, Option.isNone_iff_eq_none, List.lookup_eq_none_iff]
  refine and_congr_right fun _ => ⟨fun h e hmem => ?_, fun h a ha => ?_⟩
  · have hother := h (i, e) hmem
    simp at hother
  · have hne : i ≠ a.1 := fun heq => h a.2 (heq ▸ ha)
    simpa using hne

/-- A task that ends was not seen before. -/
theorem Tracked.notSettled (h : Tracked limit n events p) {i : ℕ} (hflight : i ∈ p.inFlight) :
    i ∉ settles events := by
  obtain ⟨hexecuting, hopen⟩ := mem_inFlight.mp hflight
  rw [mem_settles]
  rintro ⟨r | r, hmem⟩
  · exact hopen r ((h.rejected i r).mpr hmem)
  · have hnone := ((h.running i).mp hexecuting).2
    rw [(h.written i r).mpr hmem] at hnone
    cases hnone

theorem settles_concat (i : ℕ) (outcome : Except ε α) :
    settles (events ++ [.settled i outcome]) = settles events ++ [i] := by
  rw [settles, List.filterMap_append]
  rfl

theorem once_concat (h : Tracked limit n events p) {i : ℕ} (hflight : i ∈ p.inFlight)
    (outcome : Except ε α) : (settles (events ++ [.settled i outcome])).Nodup := by
  rw [settles_concat, List.nodup_append_comm, List.singleton_append, List.nodup_cons]
  exact ⟨h.notSettled hflight, h.once⟩

/-- A task that ends well leaves the set and writes its result. -/
theorem Tracked.settle_ok (h : Tracked limit n events p) {i : ℕ} (hflight : i ∈ p.inFlight)
    (r : α) : Tracked limit n (events ++ [.settled i (.ok r)]) (settle p i (.ok r)) := by
  obtain ⟨hexecuting, hopen⟩ := mem_inFlight.mp hflight
  obtain ⟨hstarted, hnone⟩ := (h.running i).mp hexecuting
  have hother {j : ℕ} (hne : j ≠ i) : (settle p i (.ok r)).results j = p.results j :=
    Function.update_of_ne hne _ _
  have hself : (settle p i (.ok r)).results i = some r := Function.update_self _ _ _
  constructor
  · exact h.started_le
  · exact h.nodup.erase i
  · exact Nat.le_trans List.erase_sublist.length_le h.bound
  · intro j
    change j ∈ p.executing.erase i ↔ _
    rw [h.nodup.mem_erase_iff, h.running]
    by_cases hne : j = i
    · subst hne
      simp [hself]
    · simp only [hother hne, hne, ne_eq, not_false_eq_true, true_and]
      rfl
  · intro j r'
    rw [List.mem_append, List.mem_singleton, ← h.written]
    by_cases hne : j = i
    · subst hne
      simp [hself, hnone, eq_comm]
    · simp [hother hne, hne]
  · intro j r' hresult
    by_cases hne : j = i
    · subst hne
      exact hstarted
    · exact h.known j r' (hother hne ▸ hresult)
  · intro j e
    have hsame : (j, e) ∈ (settle p i (.ok r)).rejected ↔ (j, e) ∈ p.rejected := Iff.rfl
    rw [hsame, h.rejected]
    simp
  · intro j e hmem
    have hne : j ≠ i := fun heq => hopen e (heq ▸ hmem)
    exact (List.mem_erase_of_ne hne).mpr (h.pending j e hmem)
  · exact once_concat h hflight _

theorem Tracked.settle_error (h : Tracked limit n events p) {i : ℕ} (hflight : i ∈ p.inFlight)
    (e : ε) : Tracked limit n (events ++ [.settled i (.error e)]) (settle p i (.error e)) := by
  obtain ⟨hexecuting, hopen⟩ := mem_inFlight.mp hflight
  constructor
  · exact h.started_le
  · exact h.nodup
  · exact h.bound
  · exact h.running
  · intro j r
    have hsame : (settle p i (.error e)).results j = p.results j := rfl
    rw [hsame, h.written]
    simp
  · exact h.known
  · intro j e'
    have hmore : (settle p i (.error e)).rejected = p.rejected ++ [(i, e)] := rfl
    rw [hmore, List.mem_append, List.mem_append, h.rejected]
    simp
  · intro j e' hmem
    rcases List.mem_append.mp hmem with hold | hnew
    · exact h.pending j e' hold
    · obtain ⟨rfl, rfl⟩ := Prod.mk.inj (List.mem_singleton.mp hnew)
      exact hexecuting
  · exact once_concat h hflight _

theorem Consistent.settle_ok {resumed : ℕ} (hkept : Tracked limit n events p)
    (h : Consistent limit n resumed p) {i : ℕ} (hflight : i ∈ p.inFlight) (r : α) :
    Consistent limit n resumed (settle p i (.ok r)) := by
  have hexecuting := (mem_inFlight.mp hflight).1
  have hlength : (p.executing.erase i).length + 1 = p.executing.length := by
    rw [List.length_erase_of_mem hexecuting]
    have hpos := List.length_pos_of_mem hexecuting
    omega
  have hbound := hkept.bound
  unfold Consistent at h ⊢
  simp only [settle]
  split at h
  · rename_i won hphase
    rw [hphase]
    obtain ⟨hresumed, hwon⟩ := h
    cases won with
    | none =>
        refine ⟨hresumed, ?_⟩
        change (p.executing.erase i).length < max limit 1
        omega
    | some won =>
        refine ⟨hresumed, ?_⟩
        cases won with
        | none =>
            change (p.executing.erase i).length < max limit 1
            have hless : p.executing.length < max limit 1 := hwon
            omega
        | some e => exact hwon
  · rename_i failed hphase
    rw [hphase]
    cases failed <;> exact h
  · rename_i hphase
    rw [h.2.2] at hexecuting
    exact absurd hexecuting List.not_mem_nil
  · rename_i e hphase
    rw [hphase]
    exact h

theorem Consistent.settle_error {resumed : ℕ} (h : Consistent limit n resumed p) {i : ℕ}
    (hflight : i ∈ p.inFlight) (e : ε) : Consistent limit n resumed (settle p i (.error e)) := by
  have hmore {e' : ε} (hmem : ∃ j, (j, e') ∈ p.rejected) :
      ∃ j, (j, e') ∈ p.rejected ++ [(i, e)] := by
    obtain ⟨j, hj⟩ := hmem
    exact ⟨j, List.mem_append_left _ hj⟩
  have hlast : ∃ j, (j, e) ∈ p.rejected ++ [(i, e)] :=
    ⟨i, List.mem_append_right _ List.mem_cons_self⟩
  unfold Consistent at h ⊢
  simp only [settle]
  split at h
  · rename_i won hphase
    rw [hphase]
    obtain ⟨hresumed, hwon⟩ := h
    cases won with
    | none => exact ⟨hresumed, hlast⟩
    | some won =>
        refine ⟨hresumed, ?_⟩
        cases won with
        | none => exact hwon
        | some e' => exact hmore hwon
  · rename_i failed hphase
    rw [hphase]
    obtain ⟨hresumed, hall, hfailed⟩ := h
    cases failed with
    | none => exact ⟨hresumed, hall, hlast⟩
    | some e' => exact ⟨hresumed, hall, hmore hfailed⟩
  · have hexecuting := (mem_inFlight.mp hflight).1
    rw [h.2.2] at hexecuting
    exact absurd hexecuting List.not_mem_nil
  · rename_i e' hphase
    rw [hphase]
    exact ⟨h.1, hmore h.2⟩

theorem Tracked.resumed (h : Tracked limit n events p) :
    Tracked limit n (events ++ [.resumed]) p := by
  refine ⟨h.started_le, h.nodup, h.bound, h.running, fun i r => ?_, h.known, fun i e => ?_,
    h.pending, ?_⟩
  · rw [h.written]
    simp
  · rw [h.rejected]
    simp
  · rw [settles, List.filterMap_append]
    exact (List.append_nil _).symm ▸ h.once

theorem kept_resume (h : Tracked limit n events p) {resumed : ℕ}
    (hphase : Consistent limit n resumed p) (hstep : resume limit n p = some p') :
    Tracked limit n events p' ∧ Consistent limit n (resumed + 1) p' := by
  unfold Consistent at hphase
  unfold resume at hstep
  split at hstep
  · rename_i hracing
    rw [hracing] at hphase
    obtain rfl := Option.some.inj hstep
    have hle := h.started_le
    exact h.launch hphase.2 (by omega) hphase.1
  · rename_i e hracing
    rw [hracing] at hphase
    obtain rfl := Option.some.inj hstep
    exact ⟨h.setPhase _, by have := hphase.1; exact Nat.le_succ_of_le this, hphase.2⟩
  · rename_i e hjoining
    rw [hjoining] at hphase
    obtain rfl := Option.some.inj hstep
    exact ⟨h.setPhase _, Nat.succ_le_succ hphase.1, hphase.2.2⟩
  · rename_i hjoining
    rw [hjoining] at hphase
    obtain ⟨hempty, rfl⟩ := Machine.of_guard hstep
    exact ⟨h.setPhase _, Nat.succ_le_succ hphase.1, hphase.2.1, hempty⟩
  · cases hstep

theorem kept_step (h : Tracked limit n events p) (hphase : Consistent limit n (resumes events) p)
    {e : Event α ε} (hstep : step limit n p e = some p') :
    Tracked limit n (events ++ [e]) p' ∧ Consistent limit n (resumes (events ++ [e])) p' := by
  have hresumes : resumes (events ++ [e]) = resumes events + if e.index.isNone then 1 else 0 := by
    rw [resumes, List.filter_append, List.length_append, ← resumes]
    cases e <;> rfl
  rw [hresumes]
  cases e with
  | settled i outcome =>
      obtain ⟨hflight, rfl⟩ := Machine.of_guard hstep
      cases outcome with
      | ok r => exact ⟨h.settle_ok hflight r, hphase.settle_ok h hflight r⟩
      | error e => exact ⟨h.settle_error hflight e, hphase.settle_error hflight e⟩
  | resumed =>
      obtain ⟨hkept, hconsistent⟩ := kept_resume h hphase hstep
      exact ⟨hkept.resumed, hconsistent⟩

theorem kept_run (h : (withConcurrencyLimit limit n).run events = some p) :
    Tracked limit n events p ∧ Consistent limit n (resumes events) p := by
  refine Machine.invariant (P := fun events p => Tracked limit n events p ∧
    Consistent limit n (resumes events) p) ?_ ?_ h
  · have hnone : Tracked limit n ([] : List (Event α ε))
        ⟨0, [], [], fun _ => none, .joining none⟩ := by
      constructor <;> simp [settles]
    have hroom : ([] : List ℕ).length < max limit 1 :=
      Nat.lt_of_lt_of_le Nat.one_pos (Nat.le_max_right limit 1)
    exact hnone.launch hroom (Nat.zero_add n) (Nat.le_refl 0)
  · intro events p e p' _ hkept hstep
    exact kept_step hkept.1 hkept.2 hstep

theorem length_eq (events : List (Event α ε)) :
    events.length = (settles events).length + resumes events := by
  induction events with
  | nil => rfl
  | cons e rest ih =>
      cases e with
      | settled i outcome =>
          have hsettles : settles (.settled i outcome :: rest) = i :: settles rest := rfl
          have hresumes : resumes (.settled i outcome :: rest) = resumes rest := rfl
          rw [hsettles, hresumes, List.length_cons, List.length_cons, ih]
          omega
      | resumed =>
          have hsettles : settles (.resumed :: rest) = settles rest := rfl
          have hresumes : resumes (.resumed :: rest) = resumes rest + 1 := rfl
          rw [hsettles, hresumes, List.length_cons, ih]
          omega

theorem length_settles_le (h : Tracked limit n events p) : (settles events).length ≤ n := by
  have hsubset : settles events ⊆ List.range n := by
    intro i hi
    have hle := h.started_le
    obtain ⟨r | r, hmem⟩ := mem_settles.mp hi
    · have hlt := ((h.running i).mp (h.pending i r ((h.rejected i r).mpr hmem))).1
      exact List.mem_range.mpr (by omega)
    · have hlt := h.known i r ((h.written i r).mpr hmem)
      exact List.mem_range.mpr (by omega)
  have hlength := (List.subperm_of_subset h.once hsubset).length_le
  rwa [List.length_range] at hlength

theorem resumes_le {resumed : ℕ} (hkept : Tracked limit n events p)
    (h : Consistent limit n resumed p) : resumed ≤ n + 1 := by
  have hle := hkept.started_le
  unfold Consistent at h
  split at h
  · have hlt := h.1
    omega
  · have hless := h.1
    omega
  · have hless := h.1
    omega
  · have hless := h.1
    omega

/-- A call that has not ended waits for a task that is open, or goes on. -/
theorem moves_of_consistent {resumed : ℕ} (h : Consistent limit n resumed p) (hended : ¬ p.Ended) :
    (∃ i, i ∈ p.inFlight) ∨ ∃ p', resume limit n p = some p' := by
  have hopen (hnone : p.rejected = []) (hne : p.executing ≠ []) : ∃ i, i ∈ p.inFlight := by
    obtain ⟨i, hi⟩ := List.exists_mem_of_ne_nil _ hne
    exact ⟨i, mem_inFlight.mpr ⟨hi, fun e => hnone ▸ List.not_mem_nil⟩⟩
  unfold Consistent at h
  unfold resume
  split at h
  · rename_i won hphase
    rw [hphase]
    cases won with
    | none => exact Or.inl (hopen h.2.1 h.2.2)
    | some won => cases won <;> exact Or.inr ⟨_, rfl⟩
  · rename_i failed hphase
    rw [hphase]
    cases failed with
    | some e => exact Or.inr ⟨_, rfl⟩
    | none =>
        by_cases hempty : p.executing = []
        · exact Or.inr ⟨_, if_pos hempty⟩
        · exact Or.inl (hopen h.2.2 hempty)
  · rename_i hphase
    exact absurd (Or.inl hphase) hended
  · rename_i e hphase
    exact absurd (Or.inr ⟨e, hphase⟩) hended

/-- What a caller can rely on, whatever order the tasks end in. -/
structure Obeys (limit n : ℕ) (events : List (Event α ε)) (p : Pool α ε) : Prop where
  bounded : p.inFlight.length ≤ max limit 1
  once : (settles events).Nodup
  answers : p.phase = .returned → (∀ i e, .settled i (.error e) ∉ events) ∧
    ∀ i < n, ∃ r, .settled i (.ok r) ∈ events ∧ p.results i = some r
  fails : ∀ e, p.phase = .threw e → ∃ i, .settled i (.error e) ∈ events
  short : events.length ≤ 2 * n + 1
  moves : ¬ p.Ended → (∃ i, i ∈ p.inFlight) ∨ ∃ p', step limit n p .resumed = some p'

theorem obeys_of_kept (h : Tracked limit n events p)
    (hphase : Consistent limit n (resumes events) p) : Obeys limit n events p where
  bounded := Nat.le_trans (List.length_filter_le _ _) h.bound
  once := h.once
  answers hreturned := by
    unfold Consistent at hphase
    rw [hreturned] at hphase
    obtain ⟨-, hall, hempty⟩ := hphase
    constructor
    · intro i e hmem
      have hexecuting := h.pending i e ((h.rejected i e).mpr hmem)
      rw [hempty] at hexecuting
      exact List.not_mem_nil hexecuting
    · intro i hi
      cases hresult : p.results i with
      | some r => exact ⟨r, (h.written i r).mp hresult, rfl⟩
      | none =>
          have hexecuting := (h.running i).mpr ⟨hall ▸ hi, hresult⟩
          rw [hempty] at hexecuting
          exact absurd hexecuting List.not_mem_nil
  fails e hthrew := by
    unfold Consistent at hphase
    rw [hthrew] at hphase
    obtain ⟨-, i, hmem⟩ := hphase
    exact ⟨i, (h.rejected i e).mp hmem⟩
  short := by
    have hsettles := length_settles_le h
    have hresumes := resumes_le h hphase
    rw [length_eq]
    omega
  moves := moves_of_consistent hphase

/-- In every run of the call no more tasks are open than the limit allows, each task ends at most
once, the results are those of the tasks in the order of the tasks, an error is that of a task,
and a call whose tasks end does end. -/
theorem withConcurrencyLimit_obeys (h : (withConcurrencyLimit limit n).run events = some p) :
    Obeys limit n events p :=
  obeys_of_kept (kept_run h).1 (kept_run h).2

end Steps

/-! Three tasks, two side by side. They end from the last one to the first. -/

def threeTasks : List (Event String String) :=
  [.settled 1 (.ok "b"), .resumed, .settled 2 (.ok "c"), .resumed, .settled 0 (.ok "a"), .resumed]

def threeAnswers : Pool String String where
  started := 3
  executing := []
  rejected := []
  results := Function.update (Function.update (Function.update (fun _ => none) 1 (some "b")) 2
    (some "c")) 0 (some "a")
  phase := .returned

theorem threeTasks_obeys : Obeys 2 3 threeTasks threeAnswers :=
  withConcurrencyLimit_obeys (show (withConcurrencyLimit 2 3).run threeTasks = some _ from rfl)

end KGuardian.ConcurrencyLimit
