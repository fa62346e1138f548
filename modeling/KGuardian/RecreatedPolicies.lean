import KGuardian.Histories
import KGuardian.StatusPatches

/-!
Policies that are deleted and created anew. The counters know a policy by its
namespace and name only, and they are dropped when a flush finds no such policy,
so what came for a deleted policy is reported for the next one of its name unless
a flush comes in between.
-/
namespace KGuardian.RecreatedPolicies

open Histories StatusAggregator StatusPatches

/-! What a flush has copied. -/

def isStart : Event → Bool
  | .started => true
  | _ => false

/-- What happened before the flush that began last. -/
def beforeFlush (events : List Event) : List Event := beforeLast isStart events

theorem beforeFlush_concat (events : List Event) (e : Event) :
    beforeFlush (events ++ [e]) = if isStart e then events else beforeFlush events :=
  beforeLast_concat isStart events e

/-- The copies of a flush are made of the verdicts before it. -/
theorem pending_eq_aggOf {events : List Event} {s : State} (h : Run events s) :
    ∀ p ∈ s.flush.pending, p.2 = aggOf (counted p.1 (beforeFlush events)) := by
  induction h with
  | init => exact fun p hp => absurd hp List.not_mem_nil
  | step h hstep ih =>
      intro p hp
      rw [beforeFlush_concat]
      cases hstep with
      | recorded counts flush v => exact ih p hp
      | started counts =>
          have hlookup := (mem_snapshot counts p.1 p.2).mp hp
          have hentry := lookup_counts h p.1
          rw [show counts.lookup p.1 = some p.2 from hlookup, entryOf] at hentry
          split at hentry
          · cases hentry
          · exact Option.some.inj hentry
      | patched counts key agg rest outcome =>
          rw [pending_afterPatch] at hp
          exact ih p (List.mem_cons_of_mem _ hp)
      | evicted counts key rest => exact ih p hp
      | finished counts rest => exact absurd hp List.not_mem_nil

theorem mem_pending_of_step {s s' : State} {key : PolicyKey} {agg : PolicyAgg} {outcome : Outcome}
    (h : Step s (.patched key agg outcome) s') : (key, agg) ∈ s.flush.pending := by
  cases h
  exact List.mem_cons_self

/-- The verdicts that the copy of an entry is made of. -/
def flushed (key : PolicyKey) (events : List ClusterEvent) : List Verdict :=
  counted key (beforeFlush (sinceRestart events))

def uidOf (c : Cluster) (key : PolicyKey) : Option String :=
  (c.objects.lookup key).map PolicyObject.uid

/-- Each successful flush writes what was recorded for the policy that exists. -/
def NothingInherited (topN : ℤ) (events : List ClusterEvent) : Prop :=
  EveryFlush topN events fun before c key agg _ =>
    agg = aggOf (flushed key before) ∧
      ∃ uid, uidOf c key = some uid ∧ ∀ v ∈ flushed key before, v.policyUID = uid

/-! Runs in which each deletion is noticed in time. -/

def dropping : Flush → Option PolicyKey
  | .evicting key _ => some key
  | _ => none

/-- No entry is left for a policy that is created, and no verdict comes late. -/
def LeavesNothing (c : Cluster) : ClusterEvent → Prop
  | .aggregator (.recorded v) => ∀ uid, uidOf c (policyKey v) = some uid → v.policyUID = uid
  | .created key _ =>
      (c.evaluator.counts.lookup key = none ∨ dropping c.evaluator.flush = some key) ∧
        key ∉ c.evaluator.flush.pending.map Prod.fst
  | _ => True

inductive TimelyRun (topN : ℤ) : List ClusterEvent → Cluster → Prop
  | init : TimelyRun topN [] Cluster.init
  | step {events : List ClusterEvent} {c c' : Cluster} {e : ClusterEvent}
      (h : TimelyRun topN events c) (hstep : ClusterStep topN c e c')
      (htimely : LeavesNothing c e) : TimelyRun topN (events ++ [e]) c'

theorem TimelyRun.run {topN : ℤ} {events : List ClusterEvent} {c : Cluster}
    (h : TimelyRun topN events c) : ClusterRun topN events c := by
  induction h with
  | init => exact .init
  | step h hstep htimely ih => exact ih.step hstep

/-- The verdicts are about the policy of that key, when it exists. -/
def Own (c : Cluster) (key : PolicyKey) (vs : List Verdict) : Prop :=
  ∀ uid, uidOf c key = some uid → ∀ v ∈ vs, v.policyUID = uid

theorem own_nil (c : Cluster) (key : PolicyKey) : Own c key [] :=
  fun _ _ _ hv => absurd hv List.not_mem_nil

theorem Own.congr {c c' : Cluster} {key : PolicyKey} {vs : List Verdict} (h : Own c key vs)
    (huid : uidOf c' key = uidOf c key) : Own c' key vs := by
  intro uid huid'
  exact h uid (huid.symm.trans huid')

/-- A patch writes the status alone. -/
theorem uidOf_applyPatch (topN : ℤ) (c : Cluster) (s : State) (e : Event) (key : PolicyKey) :
    uidOf { c with evaluator := s, objects := applyPatch topN c.objects e } key = uidOf c key := by
  change ((applyPatch topN c.objects e).lookup key).map PolicyObject.uid = _
  rw [uidOf]
  unfold applyPatch
  split
  · rename_i key' agg
    split
    · rename_i obj hobj
      by_cases hkey : key = key'
      · subst hkey
        rw [AList.lookup_insert, hobj]
        rfl
      · rw [AList.lookup_insert_ne hkey]
    · rfl
  · rfl

theorem flushed_aggregator (key : PolicyKey) (events : List ClusterEvent) (e : Event) :
    flushed key (events ++ [.aggregator e]) =
      if isStart e then counted key (sinceRestart events) else flushed key events := by
  rw [flushed, sinceRestart_concat, addLocal, beforeFlush_concat]
  split <;> rfl

theorem counted_aggregator (key : PolicyKey) (events : List ClusterEvent) (e : Event) :
    counted key (sinceRestart (events ++ [.aggregator e])) =
      countVerdict key (counted key (sinceRestart events)) e := by
  rw [sinceRestart_concat, addLocal, counted_concat]

theorem sinceRestart_created (events : List ClusterEvent) (key : PolicyKey) (uid : String) :
    sinceRestart (events ++ [.created key uid]) = sinceRestart events :=
  sinceRestart_concat events (.created key uid)

theorem sinceRestart_deleted (events : List ClusterEvent) (key : PolicyKey) :
    sinceRestart (events ++ [.deleted key]) = sinceRestart events :=
  sinceRestart_concat events (.deleted key)

/-- What holds between any two steps of a timely run. -/
structure Timely (events : List ClusterEvent) (c : Cluster) : Prop where
  entry : ∀ key, dropping c.evaluator.flush ≠ some key →
    Own c key (counted key (sinceRestart events))
  copy : ∀ key, key ∈ c.evaluator.flush.pending.map Prod.fst → Own c key (flushed key events)

/-- A step of the aggregator. -/
theorem Timely.aggregator {topN : ℤ} {events : List ClusterEvent} {c : Cluster} {s : State}
    {e : Event} (h : Timely events c) (hstep : Step c.evaluator e s)
    (htimely : LeavesNothing c (.aggregator e)) :
    Timely (events ++ [.aggregator e])
      { c with evaluator := s, objects := applyPatch topN c.objects e } := by
  have hkept {key : PolicyKey} {vs : List Verdict} (h : Own c key vs) :
      Own { c with evaluator := s, objects := applyPatch topN c.objects e } key vs :=
    h.congr (uidOf_applyPatch topN c s e key)
  obtain ⟨⟨counts, flush⟩, objects, uids⟩ := c
  constructor
  · intro key hdropping
    refine hkept ?_
    rw [counted_aggregator]
    cases hstep with
    | recorded counts flush v =>
        have hown := h.entry key hdropping
        rw [countVerdict]
        split
        · rename_i hkey
          intro uid huid v' hv'
          rcases List.mem_append.mp hv' with hold | hnew
          · exact hown uid huid v' hold
          · rw [List.mem_singleton.mp hnew]
            exact htimely uid (hkey ▸ huid)
        · exact hown
    | started counts => exact h.entry key (Option.some_ne_none key).symm
    | patched counts key' agg rest outcome => exact h.entry key (Option.some_ne_none key).symm
    | evicted counts key' rest =>
        rw [countVerdict]
        split
        · exact own_nil _ key
        · rename_i hkey
          exact h.entry key fun heq => hkey (Option.some.inj heq)
    | finished counts rest => exact h.entry key (Option.some_ne_none key).symm
  · intro key hpending
    refine hkept ?_
    rw [flushed_aggregator]
    cases hstep with
    | recorded counts flush v => exact h.copy key hpending
    | started counts => exact h.entry key (Option.some_ne_none key).symm
    | patched counts key' agg rest outcome =>
        rw [pending_afterPatch] at hpending
        exact h.copy key (List.mem_cons_of_mem _ hpending)
    | evicted counts key' rest => exact h.copy key hpending
    | finished counts rest => exact absurd hpending List.not_mem_nil

theorem Timely.restarted {events : List ClusterEvent} {c : Cluster} :
    Timely (events ++ [.restarted]) { c with evaluator := State.init } := by
  constructor
  · intro key _
    rw [sinceRestart_concat]
    exact own_nil _ key
  · exact fun key hkey => absurd hkey List.not_mem_nil

/-- An entry that is left is of another policy than the created one. -/
theorem Timely.created {topN : ℤ} {events : List ClusterEvent} {c : Cluster} {key : PolicyKey}
    {uid : String} (h : Timely events c) (hrun : ClusterRun topN events c)
    (htimely : LeavesNothing c (.created key uid)) :
    Timely (events ++ [.created key uid]) { c with
      objects := c.objects.insert key ⟨uid, .obj []⟩, uids := uid :: c.uids } := by
  obtain ⟨hentry, hpending⟩ := htimely
  have hother {key' : PolicyKey} (hne : key' ≠ key) : uidOf { c with
      objects := c.objects.insert key ⟨uid, .obj []⟩, uids := uid :: c.uids } key' =
      uidOf c key' := by
    rw [uidOf, AList.lookup_insert_ne hne, ← uidOf]
  constructor
  · intro key' hdropping
    rw [sinceRestart_created]
    by_cases hkey : key' = key
    · subst hkey
      rcases hentry with hnone | hdrop
      · have hlookup := lookup_counts (run_evaluator hrun) key'
        rw [hnone, entryOf] at hlookup
        split at hlookup
        · rename_i hnil
          rw [hnil]
          exact own_nil _ key'
        · cases hlookup
      · exact absurd hdrop hdropping
    · exact (h.entry key' hdropping).congr (hother hkey)
  · intro key' hkey'
    rw [flushed, sinceRestart_created, ← flushed]
    refine (h.copy key' hkey').congr (hother ?_)
    intro heq
    exact hpending (heq ▸ hkey')

theorem Timely.deleted {events : List ClusterEvent} {c : Cluster} (h : Timely events c)
    (key : PolicyKey) :
    Timely (events ++ [.deleted key]) { c with objects := c.objects.erase key } := by
  have hother {key' : PolicyKey} {vs : List Verdict} (hown : Own c key' vs) :
      Own { c with objects := c.objects.erase key } key' vs := by
    by_cases hkey : key' = key
    · subst hkey
      intro uid huid
      rw [uidOf, AList.lookup_erase] at huid
      cases huid
    · refine hown.congr ?_
      rw [uidOf, AList.lookup_erase_ne hkey, ← uidOf]
  constructor
  · intro key' hdropping
    rw [sinceRestart_deleted]
    exact hother (h.entry key' hdropping)
  · intro key' hkey'
    rw [flushed, sinceRestart_deleted, ← flushed]
    exact hother (h.copy key' hkey')

theorem timely_of_run {topN : ℤ} {events : List ClusterEvent} {c : Cluster}
    (h : TimelyRun topN events c) : Timely events c := by
  induction h with
  | init => exact ⟨fun key _ => own_nil _ key, fun key hkey => absurd hkey List.not_mem_nil⟩
  | step h hstep htimely ih =>
      cases hstep with
      | aggregator hstep hanswer => exact ih.aggregator hstep htimely
      | restarted => exact Timely.restarted
      | created key uid hnew huid => exact ih.created h.run htimely
      | deleted key => exact ih.deleted key

/-! The states of a run are those of its events. -/

theorem step_unique {s s₁ s₂ : State} {e : Event} (h₁ : Step s e s₁) (h₂ : Step s e s₂) :
    s₁ = s₂ := by
  cases h₁ <;> cases h₂ <;> rfl

theorem clusterStep_unique {topN : ℤ} {c c₁ c₂ : Cluster} {e : ClusterEvent}
    (h₁ : ClusterStep topN c e c₁) (h₂ : ClusterStep topN c e c₂) : c₁ = c₂ := by
  cases h₁ with
  | aggregator hstep₁ _ =>
      cases h₂ with
      | aggregator hstep₂ _ => rw [step_unique hstep₁ hstep₂]
  | restarted => cases h₂; rfl
  | created => cases h₂; rfl
  | deleted => cases h₂; rfl

theorem eq_nil_or_step {topN : ℤ} {events : List ClusterEvent} {c : Cluster}
    (h : ClusterRun topN events c) :
    (events = [] ∧ c = Cluster.init) ∨
      ∃ before e c₀, events = before ++ [e] ∧ ClusterRun topN before c₀ ∧
        ClusterStep topN c₀ e c := by
  cases h with
  | init => exact .inl ⟨rfl, rfl⟩
  | step h hstep => exact .inr ⟨_, _, _, rfl, h, hstep⟩

theorem run_unique {topN : ℤ} {events : List ClusterEvent} {c₁ c₂ : Cluster}
    (h₁ : ClusterRun topN events c₁) (h₂ : ClusterRun topN events c₂) : c₁ = c₂ := by
  induction h₁ generalizing c₂ with
  | init =>
      rcases eq_nil_or_step h₂ with ⟨-, rfl⟩ | ⟨before, e, c₀, heq, -, -⟩
      · rfl
      · exact absurd heq.symm (by simp)
  | step h₁ hstep₁ ih =>
      rcases eq_nil_or_step h₂ with ⟨heq, -⟩ | ⟨before, e, c₀, heq, h₂, hstep₂⟩
      · exact absurd heq (by simp)
      · obtain ⟨rfl, hlast⟩ := List.append_inj' heq rfl
        obtain rfl := List.singleton_inj.mp hlast
        obtain rfl := ih h₂
        exact clusterStep_unique hstep₁ hstep₂

/-- A part of a timely run is timely. -/
theorem TimelyRun.before {topN : ℤ} {events : List ClusterEvent} {c : Cluster}
    (h : TimelyRun topN events c) {before after : List ClusterEvent}
    (hevents : events = before ++ after) : ∃ c₀, TimelyRun topN before c₀ := by
  induction h generalizing after with
  | init =>
      obtain ⟨rfl, -⟩ := List.append_eq_nil_iff.mp hevents.symm
      exact ⟨_, .init⟩
  | @step events c c' e h hstep htimely ih =>
      rcases List.eq_nil_or_concat after with rfl | ⟨rest, last, rfl⟩
      · rw [List.append_nil] at hevents
        exact ⟨_, hevents ▸ h.step hstep htimely⟩
      · rw [List.concat_eq_append, ← List.append_assoc] at hevents
        exact ih (List.append_inj' hevents rfl).1

/-- When no entry is left for a policy that is created and no verdict comes late,
each flush writes only what was recorded for the policy itself. -/
theorem nothingInherited_of_timely {topN : ℤ} {events : List ClusterEvent} {c : Cluster}
    (h : TimelyRun topN events c) : NothingInherited topN events := by
  intro before key agg after c₁ c₂ hevents hrun hstep
  obtain ⟨c₀, hbefore⟩ := h.before hevents
  obtain rfl := run_unique hbefore.run hrun
  obtain ⟨s, hpatch, hanswer, -⟩ := step_of_aggregator hstep
  have hmem := mem_pending_of_step hpatch
  obtain ⟨obj, hobj⟩ := Option.ne_none_iff_exists'.mp hanswer
  have huid : uidOf c₀ key = some obj.uid := by rw [uidOf, hobj]; rfl
  refine ⟨pending_eq_aggOf (run_evaluator hrun) (key, agg) hmem, obj.uid, huid, ?_⟩
  exact (timely_of_run hbefore).copy key (List.mem_map.mpr ⟨_, hmem, rfl⟩) obj.uid huid

/-! A policy that is created anew after a flush has found it missing. -/

def newVerdict : Verdict := verdict false "2024-05-01T11:00:00Z" "u2"

def recreatedLate : List ClusterEvent :=
  [.created apiKey "u1", .aggregator (.recorded firstVerdict), .aggregator .started,
    .deleted apiKey, .aggregator (.patched apiKey (aggOf [firstVerdict]) .notFound),
    .aggregator (.evicted apiKey), .aggregator .finished, .created apiKey "u2",
    .aggregator (.recorded newVerdict), .aggregator .started,
    .aggregator (.patched apiKey (aggOf [newVerdict]) .ok)]

theorem nothingInherited_recreatedLate : NothingInherited 25 recreatedLate := by
  have h : TimelyRun 25 [] Cluster.init := .init
  have h := h.step (.created _ apiKey "u1" rfl (by simp [Cluster.init]))
    ⟨.inl rfl, List.not_mem_nil⟩
  have h := h.step (.aggregator _ (.recorded _ _ firstVerdict) trivial)
    fun uid huid => Option.some.inj huid
  have h := h.step (.aggregator _ (.started _) trivial) trivial
  have h := h.step (.deleted _ apiKey) trivial
  have h := h.step (.aggregator _ (.patched _ apiKey (aggOf [firstVerdict]) [] .notFound) rfl)
    trivial
  have h := h.step (.aggregator _ (.evicted _ apiKey []) trivial) trivial
  have h := h.step (.aggregator _ (.finished _ []) trivial) trivial
  have h := h.step (.created _ apiKey "u2" rfl (by simp [Cluster.init]))
    ⟨.inl rfl, List.not_mem_nil⟩
  have h := h.step (.aggregator _ (.recorded _ _ newVerdict) trivial)
    fun uid huid => Option.some.inj huid
  have h := h.step (.aggregator _ (.started _) trivial) trivial
  have h := h.step (.aggregator _ (.patched _ apiKey (aggOf [newVerdict]) [] .ok)
    (Option.some_ne_none _)) trivial
  exact nothingInherited_of_timely h

/-! A policy that is created anew before the next flush. -/

def recreatedEarly : List ClusterEvent :=
  [.created apiKey "u1", .aggregator (.recorded firstVerdict), .deleted apiKey,
    .created apiKey "u2", .aggregator .started]

def recreatedCluster : Cluster where
  evaluator := ⟨record ∅ firstVerdict, .patching [(apiKey, aggOf [firstVerdict])]⟩
  objects := AList.insert apiKey ⟨"u2", .obj []⟩ ∅
  uids := ["u2", "u1"]

theorem run_recreatedEarly : ClusterRun 25 recreatedEarly recreatedCluster := by
  have h : ClusterRun 25 [] Cluster.init := .init
  have h := h.step (.created _ apiKey "u1" rfl (by simp [Cluster.init]))
  have h := h.step (.aggregator _ (.recorded _ _ firstVerdict) trivial)
  have h := h.step (.deleted _ apiKey)
  have h := h.step (.created _ apiKey "u2" rfl (by simp [Cluster.init]))
  exact h.step (.aggregator _ (.started _) trivial)

/-- The denial that came for the deleted policy is written to the new one. -/
theorem not_nothingInherited_recreatedEarly :
    ¬ NothingInherited 25
      (recreatedEarly ++ [.aggregator (.patched apiKey (aggOf [firstVerdict]) .ok)]) := by
  intro h
  have hstep : ClusterStep 25 recreatedCluster
      (.aggregator (.patched apiKey (aggOf [firstVerdict]) .ok)) _ :=
    .aggregator recreatedCluster (.patched _ apiKey (aggOf [firstVerdict]) [] .ok)
      (Option.some_ne_none _)
  obtain ⟨-, uid, huid, hown⟩ := h _ apiKey _ [] _ _ rfl run_recreatedEarly hstep
  obtain rfl := Option.some.inj huid
  exact absurd (hown firstVerdict (List.mem_singleton.mpr rfl)) (by decide)

end KGuardian.RecreatedPolicies
