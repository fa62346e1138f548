import Mathlib.Data.List.Induction

/-!
Machines that take one event after the other. An event that the state does not
allow has no next state. What holds at the start and is kept by each step holds
after every run, and a condition on each step of a run can be assumed on the way.
-/
namespace KGuardian.Runs

structure Machine (σ ε : Type*) where
  init : σ
  step : σ → ε → Option σ

namespace Machine

variable {σ ε : Type*} (m : Machine σ ε)

/-- The state after the events, if each of them was allowed. -/
def run (events : List ε) : Option σ := events.foldlM m.step m.init

/-- What holds of each step of a run, with the events before it. -/
def EveryStep (events : List ε) (P : List ε → σ → ε → σ → Prop) : Prop :=
  ∀ before e after s s', events = before ++ e :: after → m.run before = some s →
    m.step s e = some s' → P before s e s'

/-- What holds after each event of a run and before the first one. -/
def EveryState (events : List ε) (P : List ε → σ → Prop) : Prop :=
  ∀ before after s, events = before ++ after → m.run before = some s → P before s

variable {m}

/-- A guarded step that was taken. -/
theorem of_guard {p : Prop} [Decidable p] {s s' : σ}
    (h : (if p then some s else none) = some s') : p ∧ s = s' := by
  obtain ⟨hp, hsome⟩ := Option.ite_none_right_eq_some.mp h
  exact ⟨hp, Option.some.inj hsome⟩

@[simp] theorem run_nil : m.run [] = some m.init := rfl

theorem run_concat (events : List ε) (e : ε) :
    m.run (events ++ [e]) = (m.run events).bind fun s => m.step s e := by
  rw [run, List.foldlM_append, ← run]
  cases m.run events with
  | none => rfl
  | some s => exact bind_pure (m.step s e)

theorem run_concat_eq_some_iff {events : List ε} {e : ε} {s' : σ} :
    m.run (events ++ [e]) = some s' ↔ ∃ s, m.run events = some s ∧ m.step s e = some s' := by
  rw [run_concat, Option.bind_eq_some_iff]

/-- Where each event is allowed, each list of events is a run. -/
theorem exists_run (h : ∀ s e, ∃ s', m.step s e = some s') (events : List ε) :
    ∃ s, m.run events = some s := by
  induction events using List.reverseRecOn with
  | nil => exact ⟨m.init, rfl⟩
  | append_singleton events e ih =>
      obtain ⟨s, hs⟩ := ih
      obtain ⟨s', hs'⟩ := h s e
      exact ⟨s', run_concat_eq_some_iff.mpr ⟨s, hs, hs'⟩⟩

theorem invariant {P : List ε → σ → Prop} (hinit : P [] m.init)
    (hstep : ∀ events s e s', m.run events = some s → P events s → m.step s e = some s' →
      P (events ++ [e]) s') {events : List ε} {s : σ} (h : m.run events = some s) :
    P events s := by
  induction events using List.reverseRecOn generalizing s with
  | nil =>
      obtain rfl := Option.some.inj h
      exact hinit
  | append_singleton events e ih =>
      obtain ⟨s₀, hrun, hlast⟩ := run_concat_eq_some_iff.mp h
      exact hstep events s₀ e s hrun (ih hrun) hlast

theorem EveryStep.of_append {before after : List ε} {P : List ε → σ → ε → σ → Prop}
    (h : m.EveryStep (before ++ after) P) : m.EveryStep before P := by
  intro before' e after' s s' hevents
  exact h before' e (after' ++ after) s s' (by simp [hevents])

theorem EveryStep.last {events : List ε} {e : ε} {P : List ε → σ → ε → σ → Prop}
    (h : m.EveryStep (events ++ [e]) P) {s s' : σ} (hrun : m.run events = some s)
    (hstep : m.step s e = some s') : P events s e s' :=
  h events e [] s s' rfl hrun hstep

theorem everyStep_concat_iff {events : List ε} {e : ε} {P : List ε → σ → ε → σ → Prop} {s s' : σ}
    (hrun : m.run events = some s) (hstep : m.step s e = some s') :
    m.EveryStep (events ++ [e]) P ↔ m.EveryStep events P ∧ P events s e s' := by
  constructor
  · intro h
    exact ⟨h.of_append, h.last hrun hstep⟩
  · rintro ⟨hbefore, hlast⟩ before e' after t t' hevents hrun' hstep'
    obtain rfl | ⟨after, last, rfl⟩ := List.eq_nil_or_concat after
    · obtain ⟨rfl, heq⟩ := List.append_inj' hevents rfl
      obtain rfl := List.singleton_inj.mp heq
      obtain rfl := Option.some.inj (hrun.symm.trans hrun')
      obtain rfl := Option.some.inj (hstep.symm.trans hstep')
      exact hlast
    · rw [List.concat_eq_append, ← List.cons_append, ← List.append_assoc] at hevents
      obtain ⟨hevents, -⟩ := List.append_inj' hevents rfl
      exact hbefore before e' after t t' hevents hrun' hstep'

/-- An invariant of the runs whose steps all meet a condition. -/
theorem invariant_of_everyStep {C : List ε → σ → ε → σ → Prop} {P : List ε → σ → Prop}
    (hinit : P [] m.init)
    (hstep : ∀ events s e s', m.run events = some s → P events s → m.step s e = some s' →
      C events s e s' → P (events ++ [e]) s')
    {events : List ε} {s : σ} (h : m.run events = some s) (hcond : m.EveryStep events C) :
    P events s := by
  induction events using List.reverseRecOn generalizing s with
  | nil =>
      obtain rfl := Option.some.inj h
      exact hinit
  | append_singleton events e ih =>
      obtain ⟨s₀, hrun, hlast⟩ := run_concat_eq_some_iff.mp h
      exact hstep events s₀ e s hrun (ih hrun hcond.of_append) hlast (hcond.last hrun hlast)

/-- Two conditions on each step agree over runs when they agree where an invariant
holds that one of them keeps. -/
theorem everyStep_iff_everyStep {J C : List ε → σ → ε → σ → Prop} {P : List ε → σ → Prop}
    (hinit : P [] m.init)
    (hagree : ∀ events s e s', P events s → m.step s e = some s' →
      (J events s e s' ↔ C events s e s'))
    (hkeeps : ∀ events s e s', P events s → m.step s e = some s' → C events s e s' →
      P (events ++ [e]) s')
    {events : List ε} : m.EveryStep events J ↔ m.EveryStep events C := by
  constructor
  · intro h before e after s s' hevents hrun hlast
    have hbefore : m.EveryStep before J := (hevents ▸ h).of_append
    have hP : P before s := by
      refine invariant_of_everyStep hinit ?_ hrun hbefore
      intro events₀ s₀ e₀ s₁ _ hP₀ hstep hJ
      exact hkeeps events₀ s₀ e₀ s₁ hP₀ hstep ((hagree events₀ s₀ e₀ s₁ hP₀ hstep).mp hJ)
    exact (hagree before s e s' hP hlast).mp (h before e after s s' hevents hrun hlast)
  · intro h before e after s s' hevents hrun hlast
    have hbefore : m.EveryStep before C := (hevents ▸ h).of_append
    have hP : P before s := by
      refine invariant_of_everyStep hinit ?_ hrun hbefore
      intro events₀ s₀ e₀ s₁ _ hP₀ hstep hC
      exact hkeeps events₀ s₀ e₀ s₁ hP₀ hstep hC
    exact (hagree before s e s' hP hlast).mpr (h before e after s s' hevents hrun hlast)

/-- A condition on each step is exact when it is what keeps the invariant there. -/
theorem everyState_iff_everyStep {C : List ε → σ → ε → σ → Prop} {P : List ε → σ → Prop}
    (hinit : P [] m.init)
    (hstep : ∀ events s e s', m.run events = some s → P events s → m.step s e = some s' →
      (P (events ++ [e]) s' ↔ C events s e s')) {events : List ε} :
    m.EveryState events P ↔ m.EveryStep events C := by
  constructor
  · intro h before e after s s' hevents hrun hlast
    have hbefore := h before (e :: after) s hevents hrun
    refine (hstep before s e s' hrun hbefore hlast).mp (h _ after s' ?_ ?_)
    · simp [hevents]
    · exact run_concat_eq_some_iff.mpr ⟨s, hrun, hlast⟩
  · intro h before after s hevents hrun
    subst hevents
    refine invariant_of_everyStep hinit ?_ hrun h.of_append
    intro events s₀ e s' hrun₀ hP hlast hC
    exact (hstep events s₀ e s' hrun₀ hP hlast).mpr hC

end Machine

end KGuardian.Runs
