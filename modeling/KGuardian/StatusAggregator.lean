import KGuardian.Server
import KGuardian.Tally

/-!
The evaluator's counters (`pkg/status`). Verdicts are recorded at any time, also
while a flush is on its way: it copies all counters at once, then patches one
policy after the other from the copy and drops the counters of a policy that no
longer exists. A run of these steps is shown to keep every count exact.
-/
namespace KGuardian.StatusAggregator

open Server Tally

structure PolicyKey where
  ns : String
  name : String
  deriving DecidableEq

structure TupleKey where
  srcPod : String
  dstPod : String
  protocol : String
  direction : Matcher.Direction
  dstPort : ℤ
  deriving DecidableEq

/-- A time is the text that the encoder writes for it, or the zero time. -/
structure PolicyAgg where
  flowsEvaluated : ℕ
  flowsWouldDeny : ℕ
  lastEvaluated : Option String
  observedGeneration : ℤ
  tuples : Counters TupleKey

/-- An entry before its first verdict. -/
def PolicyAgg.fresh : PolicyAgg := ⟨0, 0, none, 0, ∅⟩

abbrev Counts := AList fun _ : PolicyKey => PolicyAgg

/-- A call of `Record` and the time at which it is made. The call does not get
the UID of the policy that the verdict is about. -/
structure Verdict where
  record : Record
  time : String
  policyUID : String

def policyKey (v : Verdict) : PolicyKey := ⟨v.record.policyNamespace, v.record.policyName⟩

def tupleKey (v : Verdict) : TupleKey :=
  ⟨v.record.srcPod, v.record.dstPod, v.record.protocol, v.record.direction, v.record.dstPort⟩

def PolicyAgg.add (agg : PolicyAgg) (v : Verdict) : PolicyAgg :=
  let agg :=
    { agg with
      flowsEvaluated := agg.flowsEvaluated + 1
      lastEvaluated := some v.time
      observedGeneration :=
        if v.record.generation > agg.observedGeneration then v.record.generation
        else agg.observedGeneration }
  if v.record.wouldDeny then
    { agg with
      flowsWouldDeny := agg.flowsWouldDeny + 1
      tuples := bump agg.tuples (tupleKey v) }
  else agg

/-- The method `Record`. -/
def record (counts : Counts) (v : Verdict) : Counts :=
  counts.insert (policyKey v) (((counts.lookup (policyKey v)).getD .fresh).add v)

/-- The order of the keys in a flush. -/
def keyLess (a b : PolicyKey) : Bool := if a.ns ≠ b.ns then a.ns < b.ns else a.name < b.name

/-- The copies that a flush works on. -/
def snapshot (counts : Counts) : List (PolicyKey × PolicyAgg) :=
  (counts.entries.map fun e => (e.1, e.2)).insertionSort fun a b => keyLess b.1 a.1 = false

/-- A flush between two of its steps: what it still has to patch, or an entry
that it is about to drop. -/
inductive Flush where
  | idle
  | patching (rest : List (PolicyKey × PolicyAgg))
  | evicting (key : PolicyKey) (rest : List (PolicyKey × PolicyAgg))

structure State where
  counts : Counts
  flush : Flush

def State.init : State := ⟨∅, .idle⟩

inductive Outcome where
  | ok
  | failed
  | notFound
  deriving DecidableEq

def afterPatch (key : PolicyKey) (rest : List (PolicyKey × PolicyAgg)) : Outcome → Flush
  | .notFound => .evicting key rest
  | _ => .patching rest

/-- What happens at the aggregator. A patch carries the copy that it reports. -/
inductive Event where
  | recorded (v : Verdict)
  | started
  | patched (key : PolicyKey) (agg : PolicyAgg) (outcome : Outcome)
  | evicted (key : PolicyKey)
  | finished

/-- A flush can end early, when the evaluator shuts down. -/
inductive Step : State → Event → State → Prop
  | recorded (counts : Counts) (flush : Flush) (v : Verdict) :
      Step ⟨counts, flush⟩ (.recorded v) ⟨record counts v, flush⟩
  | started (counts : Counts) :
      Step ⟨counts, .idle⟩ .started ⟨counts, .patching (snapshot counts)⟩
  | patched (counts : Counts) (key : PolicyKey) (agg : PolicyAgg)
      (rest : List (PolicyKey × PolicyAgg)) (outcome : Outcome) :
      Step ⟨counts, .patching ((key, agg) :: rest)⟩ (.patched key agg outcome)
        ⟨counts, afterPatch key rest outcome⟩
  | evicted (counts : Counts) (key : PolicyKey) (rest : List (PolicyKey × PolicyAgg)) :
      Step ⟨counts, .evicting key rest⟩ (.evicted key) ⟨counts.erase key, .patching rest⟩
  | finished (counts : Counts) (rest : List (PolicyKey × PolicyAgg)) :
      Step ⟨counts, .patching rest⟩ .finished ⟨counts, .idle⟩

inductive Run : List Event → State → Prop
  | init : Run [] State.init
  | step {events : List Event} {s s' : State} {e : Event} (h : Run events s)
      (hstep : Step s e s') : Run (events ++ [e]) s'

/-! What the counters should be. -/

def countVerdict (key : PolicyKey) (vs : List Verdict) : Event → List Verdict
  | .recorded v => if policyKey v = key then vs ++ [v] else vs
  | .evicted key' => if key' = key then [] else vs
  | _ => vs

/-- The verdicts of a policy since its entry was last dropped. -/
def counted (key : PolicyKey) (events : List Event) : List Verdict :=
  events.foldl (countVerdict key) []

def noteReport (key : PolicyKey) (last : Option PolicyAgg) : Event → Option PolicyAgg
  | .patched key' agg _ => if key' = key then some agg else last
  | .evicted key' => if key' = key then none else last
  | _ => last

/-- The last patch of the entry of a policy. -/
def reported (key : PolicyKey) (events : List Event) : Option PolicyAgg :=
  events.foldl (noteReport key) none

def denials (vs : List Verdict) : List Verdict := vs.filter fun v => v.record.wouldDeny

/-- The counters of an entry are those of the verdicts. -/
structure Exact (vs : List Verdict) (agg : PolicyAgg) : Prop where
  flowsEvaluated : agg.flowsEvaluated = vs.length
  flowsWouldDeny : agg.flowsWouldDeny = (denials vs).length
  tuples : ∀ tk, count agg.tuples tk = ((denials vs).map tupleKey).count tk
  total : total agg.tuples = agg.flowsWouldDeny
  observedGeneration : agg.observedGeneration = (vs.map fun v => v.record.generation).foldl max 0

/-- No counter is lower. -/
structure PolicyAgg.Le (agg agg' : PolicyAgg) : Prop where
  flowsEvaluated : agg.flowsEvaluated ≤ agg'.flowsEvaluated
  flowsWouldDeny : agg.flowsWouldDeny ≤ agg'.flowsWouldDeny
  tuples : ∀ tk, count agg.tuples tk ≤ count agg'.tuples tk
  observedGeneration : agg.observedGeneration ≤ agg'.observedGeneration

/-- The entry that the verdicts make. -/
def aggOf (vs : List Verdict) : PolicyAgg := vs.foldl PolicyAgg.add .fresh

theorem aggOf_concat (vs : List Verdict) (v : Verdict) :
    aggOf (vs ++ [v]) = (aggOf vs).add v := by
  rw [aggOf, List.foldl_concat, ← aggOf]

theorem denials_concat (vs : List Verdict) (v : Verdict) :
    denials (vs ++ [v]) = denials vs ++ if v.record.wouldDeny then [v] else [] := by
  rw [denials, List.filter_append, ← denials]
  cases h : v.record.wouldDeny <;> simp [h]

theorem exact_fresh : Exact [] .fresh :=
  ⟨rfl, rfl, fun _ => rfl, rfl, rfl⟩

/-- One verdict is counted once. -/
theorem Exact.add {vs : List Verdict} {agg : PolicyAgg} (h : Exact vs agg) (v : Verdict) :
    Exact (vs ++ [v]) (agg.add v) := by
  have hgeneration :
      (if v.record.generation > agg.observedGeneration then v.record.generation
        else agg.observedGeneration) =
      ((vs ++ [v]).map fun v => v.record.generation).foldl max 0 := by
    rw [List.map_append, List.map_singleton, List.foldl_concat, ← h.observedGeneration]
    split
    · rename_i hlt
      exact (max_eq_right hlt.le).symm
    · rename_i hge
      exact (max_eq_left (not_lt.mp hge)).symm
  have hlength : agg.flowsEvaluated + 1 = (vs ++ [v]).length := by
    rw [h.flowsEvaluated, List.length_append, List.length_singleton]
  cases hdeny : v.record.wouldDeny with
  | false =>
      have hsame : denials (vs ++ [v]) = denials vs := by simp [denials_concat, hdeny]
      simp only [PolicyAgg.add, hdeny]
      refine ⟨hlength, ?_, ?_, h.total, hgeneration⟩
      · rw [hsame]
        exact h.flowsWouldDeny
      · rw [hsame]
        exact h.tuples
  | true =>
      have hmore : denials (vs ++ [v]) = denials vs ++ [v] := by simp [denials_concat, hdeny]
      simp only [PolicyAgg.add, hdeny, if_true]
      refine ⟨hlength, ?_, fun tk => ?_, ?_, hgeneration⟩
      · rw [hmore, List.length_append, List.length_singleton, h.flowsWouldDeny]
      · rw [hmore, List.map_append, List.map_singleton, List.count_append, count_bump, h.tuples,
          List.count_singleton]
        simp [eq_comm (a := tk)]
      · rw [total_bump, h.total]

theorem exact_aggOf (vs : List Verdict) : Exact vs (aggOf vs) := by
  induction vs using List.reverseRecOn with
  | nil => exact exact_fresh
  | append_singleton vs v ih =>
      rw [aggOf_concat]
      exact ih.add v

theorem PolicyAgg.Le.refl (agg : PolicyAgg) : agg.Le agg :=
  ⟨le_rfl, le_rfl, fun _ => le_rfl, le_rfl⟩

theorem PolicyAgg.Le.trans {agg agg' agg'' : PolicyAgg} (h : agg.Le agg') (h' : agg'.Le agg'') :
    agg.Le agg'' :=
  ⟨h.flowsEvaluated.trans h'.flowsEvaluated, h.flowsWouldDeny.trans h'.flowsWouldDeny,
    fun tk => (h.tuples tk).trans (h'.tuples tk), h.observedGeneration.trans h'.observedGeneration⟩

theorem le_add (agg : PolicyAgg) (v : Verdict) : agg.Le (agg.add v) := by
  have hgeneration : agg.observedGeneration ≤
      if v.record.generation > agg.observedGeneration then v.record.generation
      else agg.observedGeneration := by
    split
    · rename_i hlt
      exact hlt.le
    · exact le_rfl
  unfold PolicyAgg.add
  cases v.record.wouldDeny with
  | false => exact ⟨Nat.le_succ _, le_rfl, fun _ => le_rfl, hgeneration⟩
  | true =>
      refine ⟨Nat.le_succ _, Nat.le_succ _, fun tk => ?_, hgeneration⟩
      simp only [if_true, count_bump]
      exact Nat.le_add_right _ _

theorem aggOf_le_append (vs more : List Verdict) : (aggOf vs).Le (aggOf (vs ++ more)) := by
  induction more using List.reverseRecOn with
  | nil =>
      rw [List.append_nil]
      exact PolicyAgg.Le.refl _
  | append_singleton more v ih =>
      rw [← List.append_assoc, aggOf_concat]
      exact ih.trans (le_add _ v)

/-! The entries of a run. -/

/-- There is an entry once a verdict came. -/
def entryOf (vs : List Verdict) : Option PolicyAgg := if vs = [] then none else some (aggOf vs)

theorem lookup_record (counts : Counts) (v : Verdict) (key : PolicyKey) :
    (record counts v).lookup key =
      if policyKey v = key then some (((counts.lookup key).getD .fresh).add v)
      else counts.lookup key := by
  rw [record]
  by_cases hkey : policyKey v = key
  · subst hkey
    rw [AList.lookup_insert, if_pos rfl]
  · rw [AList.lookup_insert_ne (Ne.symm hkey), if_neg hkey]

theorem entryOf_concat (vs : List Verdict) (v : Verdict) :
    entryOf (vs ++ [v]) = some (((entryOf vs).getD .fresh).add v) := by
  rw [entryOf, if_neg (by simp), aggOf_concat, entryOf]
  split
  · rename_i hnil
    subst hnil
    rfl
  · rfl

theorem counted_concat (key : PolicyKey) (events : List Event) (e : Event) :
    counted key (events ++ [e]) = countVerdict key (counted key events) e := by
  rw [counted, List.foldl_concat, ← counted]

theorem reported_concat (key : PolicyKey) (events : List Event) (e : Event) :
    reported key (events ++ [e]) = noteReport key (reported key events) e := by
  rw [reported, List.foldl_concat, ← reported]

/-- The entry of each policy is made of the verdicts that it should count. -/
theorem lookup_counts {events : List Event} {s : State} (h : Run events s) (key : PolicyKey) :
    s.counts.lookup key = entryOf (counted key events) := by
  induction h with
  | init => rfl
  | step h hstep ih =>
      rw [counted_concat]
      cases hstep with
      | recorded counts flush v =>
          rw [lookup_record, ih, countVerdict]
          split
          · rw [entryOf_concat]
          · rfl
      | started counts => exact ih
      | patched counts key agg rest outcome => exact ih
      | evicted counts key' rest =>
          rw [countVerdict]
          split
          · rename_i hkey
            subst hkey
            exact AList.lookup_erase _ _
          · rename_i hkey
            rw [AList.lookup_erase_ne (Ne.symm hkey), ih]
      | finished counts rest => exact ih

/-- Without a drop the verdicts only become more. -/
theorem counted_append (key : PolicyKey) (before after : List Event)
    (hkept : ∀ e ∈ after, e ≠ .evicted key) :
    ∃ more, counted key (before ++ after) = counted key before ++ more := by
  induction after using List.reverseRecOn with
  | nil => exact ⟨[], by simp⟩
  | append_singleton after e ih =>
      obtain ⟨more, hmore⟩ := ih fun e he => hkept e (List.mem_append_left _ he)
      rw [← List.append_assoc, counted_concat, hmore]
      have he := hkept e (by simp)
      cases e with
      | recorded v =>
          rw [countVerdict]
          split
          · exact ⟨more ++ [v], List.append_assoc _ _ _⟩
          · exact ⟨more, rfl⟩
      | started => exact ⟨more, rfl⟩
      | patched key' agg outcome => exact ⟨more, rfl⟩
      | evicted key' =>
          rw [countVerdict, if_neg fun hkey => he (by rw [hkey])]
          exact ⟨more, rfl⟩
      | finished => exact ⟨more, rfl⟩

/-! What a flush reports. -/

/-- The counters were those of the entry at some moment, and none is lower than
when the entry was last patched. -/
structure Reports (events : List Event) (key : PolicyKey) (agg : PolicyAgg) : Prop where
  moment : ∃ before after s, events = before ++ after ∧ Run before s ∧
    s.counts.lookup key = some agg ∧ ∀ e ∈ after, e ≠ .evicted key
  notLower : ∀ prev, reported key events = some prev → prev.Le agg

def Flush.pending : Flush → List (PolicyKey × PolicyAgg)
  | .idle => []
  | .patching rest => rest
  | .evicting _ rest => rest

theorem pending_afterPatch (key : PolicyKey) (rest : List (PolicyKey × PolicyAgg))
    (outcome : Outcome) : (afterPatch key rest outcome).pending = rest := by
  cases outcome <;> rfl

theorem mem_snapshot (counts : Counts) (key : PolicyKey) (agg : PolicyAgg) :
    (key, agg) ∈ snapshot counts ↔ counts.lookup key = some agg := by
  rw [snapshot, List.mem_insertionSort, List.mem_map]
  constructor
  · intro h
    obtain ⟨e, he, heq⟩ := h
    obtain ⟨rfl, rfl⟩ := Prod.mk.inj heq
    exact AList.mem_lookup_iff.mpr he
  · intro h
    exact ⟨⟨key, agg⟩, AList.mem_lookup_iff.mp h, rfl⟩

theorem nodup_snapshot (counts : Counts) : ((snapshot counts).map Prod.fst).Nodup := by
  have hperm : ((snapshot counts).map Prod.fst).Perm counts.keys := by
    refine ((List.perm_insertionSort _ _).map Prod.fst).trans ?_
    rw [List.map_map]
    exact List.Perm.refl _
  exact hperm.nodup_iff.mpr counts.keys_nodup

/-- What holds between any two steps. -/
structure Inv (events : List Event) (s : State) : Prop where
  pending : ∀ p ∈ s.flush.pending, Reports events p.1 p.2
  nodup : (s.flush.pending.map Prod.fst).Nodup
  evicting : ∀ key rest, s.flush = .evicting key rest → key ∉ rest.map Prod.fst
  reported : ∀ key prev, reported key events = some prev →
    ∃ agg, s.counts.lookup key = some agg ∧ prev.Le agg

/-- Reports stand as long as the entry is neither dropped nor patched. -/
theorem Reports.concat {events : List Event} {key : PolicyKey} {agg : PolicyAgg}
    (h : Reports events key agg) {e : Event} (hkept : e ≠ .evicted key)
    (hsame : noteReport key (reported key events) e = reported key events) :
    Reports (events ++ [e]) key agg := by
  obtain ⟨before, after, s, rfl, hrun, hlookup, hafter⟩ := h.moment
  constructor
  · refine ⟨before, after ++ [e], s, by rw [List.append_assoc], hrun, hlookup, ?_⟩
    intro e' he'
    rcases List.mem_append.mp he' with hold | hnew
    · exact hafter e' hold
    · rw [List.mem_singleton.mp hnew]
      exact hkept
  · rw [reported_concat, hsame]
    exact h.notLower

/-- What was reported is at most what the entry has now. -/
theorem Reports.le_current {events : List Event} {key : PolicyKey} {agg : PolicyAgg} {s : State}
    (h : Reports events key agg) (hrun : Run events s) :
    ∃ current, s.counts.lookup key = some current ∧ agg.Le current := by
  obtain ⟨before, after, s₀, rfl, hbefore, hlookup, hafter⟩ := h.moment
  obtain ⟨more, hmore⟩ := counted_append key before after hafter
  rw [lookup_counts hbefore key, entryOf] at hlookup
  split at hlookup
  · cases hlookup
  · rename_i hsome
    obtain rfl := Option.some.inj hlookup
    refine ⟨aggOf (counted key before ++ more), ?_, aggOf_le_append _ more⟩
    rw [lookup_counts hrun key, hmore, entryOf, if_neg (by simp [hsome])]

/-! One step. -/

theorem inv_init : Inv [] State.init := by
  refine ⟨fun p hp => absurd hp List.not_mem_nil, List.nodup_nil, ?_, ?_⟩
  · intro key rest hevicting
    cases hevicting
  · intro key prev hprev
    cases hprev

theorem Inv.recorded {events : List Event} {counts : Counts} {flush : Flush}
    (h : Inv events ⟨counts, flush⟩) (v : Verdict) :
    Inv (events ++ [.recorded v]) ⟨record counts v, flush⟩ := by
  refine ⟨fun p hp => (h.pending p hp).concat (by simp) rfl, h.nodup, h.evicting, ?_⟩
  intro key prev hprev
  rw [reported_concat] at hprev
  obtain ⟨agg, hagg, hle⟩ := h.reported key prev hprev
  change ∃ agg', (record counts v).lookup key = some agg' ∧ prev.Le agg'
  rw [lookup_record]
  split
  · refine ⟨_, rfl, hle.trans ?_⟩
    rw [show counts.lookup key = some agg from hagg]
    exact le_add agg v
  · exact ⟨agg, hagg, hle⟩

theorem Inv.started {events : List Event} {counts : Counts} (h : Inv events ⟨counts, .idle⟩)
    (hrun : Run events ⟨counts, .idle⟩) :
    Inv (events ++ [.started]) ⟨counts, .patching (snapshot counts)⟩ := by
  refine ⟨?_, nodup_snapshot counts, nofun, ?_⟩
  · intro p hp
    have hagg := (mem_snapshot counts p.1 p.2).mp hp
    constructor
    · exact ⟨events, [.started], _, rfl, hrun, hagg, by simp⟩
    · intro prev hprev
      rw [reported_concat] at hprev
      obtain ⟨agg, hagg', hle⟩ := h.reported p.1 prev hprev
      obtain rfl := Option.some.inj (hagg'.symm.trans hagg)
      exact hle
  · intro key prev hprev
    rw [reported_concat] at hprev
    exact h.reported key prev hprev

theorem Inv.patched {events : List Event} {counts : Counts} {key : PolicyKey} {agg : PolicyAgg}
    {rest : List (PolicyKey × PolicyAgg)} (h : Inv events ⟨counts, .patching ((key, agg) :: rest)⟩)
    (hrun : Run events ⟨counts, .patching ((key, agg) :: rest)⟩) (outcome : Outcome) :
    Inv (events ++ [.patched key agg outcome]) ⟨counts, afterPatch key rest outcome⟩ := by
  obtain ⟨hhead, hrest⟩ := List.forall_mem_cons.mp h.pending
  obtain ⟨hnot, hnodup⟩ := List.nodup_cons.mp h.nodup
  refine ⟨?_, ?_, ?_, ?_⟩
  · intro p hp
    rw [pending_afterPatch] at hp
    refine (hrest p hp).concat (by simp) (if_neg fun hkey => hnot ?_)
    exact List.mem_map.mpr ⟨p, hp, hkey.symm⟩
  · rw [pending_afterPatch]
    exact hnodup
  · intro key' rest' hevicting
    cases outcome with
    | notFound =>
        obtain ⟨rfl, rfl⟩ := Flush.evicting.inj hevicting
        exact hnot
    | ok => cases hevicting
    | failed => cases hevicting
  · intro key' prev hprev
    rw [reported_concat, noteReport] at hprev
    split at hprev
    · rename_i hkey
      obtain rfl := hkey
      obtain rfl := Option.some.inj hprev
      obtain ⟨current, hcurrent, hle⟩ := hhead.le_current hrun
      exact ⟨current, hcurrent, hle⟩
    · exact h.reported key' prev hprev

theorem Inv.evicted {events : List Event} {counts : Counts} {key : PolicyKey}
    {rest : List (PolicyKey × PolicyAgg)} (h : Inv events ⟨counts, .evicting key rest⟩) :
    Inv (events ++ [.evicted key]) ⟨counts.erase key, .patching rest⟩ := by
  have hnot := h.evicting key rest rfl
  refine ⟨?_, h.nodup, nofun, ?_⟩
  · intro p hp
    have hne : key ≠ p.1 := fun hkey => hnot (List.mem_map.mpr ⟨p, hp, hkey.symm⟩)
    refine (h.pending p hp).concat ?_ (if_neg hne)
    intro heq
    exact hne (Event.evicted.inj heq)
  · intro key' prev hprev
    rw [reported_concat, noteReport] at hprev
    split at hprev
    · cases hprev
    · rename_i hkey
      obtain ⟨agg, hagg, hle⟩ := h.reported key' prev hprev
      refine ⟨agg, ?_, hle⟩
      rw [AList.lookup_erase_ne (Ne.symm hkey)]
      exact hagg

theorem Inv.finished {events : List Event} {counts : Counts}
    {rest : List (PolicyKey × PolicyAgg)} (h : Inv events ⟨counts, .patching rest⟩) :
    Inv (events ++ [.finished]) ⟨counts, .idle⟩ := by
  refine ⟨fun p hp => absurd hp List.not_mem_nil, List.nodup_nil, nofun, ?_⟩
  intro key prev hprev
  rw [reported_concat] at hprev
  exact h.reported key prev hprev

/-! A run. -/

theorem inv_of_run {events : List Event} {s : State} (h : Run events s) : Inv events s := by
  induction h with
  | init => exact inv_init
  | step hrun hstep ih =>
      cases hstep with
      | recorded counts flush v => exact ih.recorded v
      | started counts => exact ih.started hrun
      | patched counts key agg rest outcome => exact ih.patched hrun outcome
      | evicted counts key rest => exact ih.evicted
      | finished counts rest => exact ih.finished

/-- A patch reports what a verdict at least was counted in. -/
theorem Reports.exact {events : List Event} {key : PolicyKey} {agg : PolicyAgg}
    (h : Reports events key agg) : ∃ vs, vs ≠ [] ∧ Exact vs agg := by
  obtain ⟨before, after, s, rfl, hrun, hlookup, -⟩ := h.moment
  rw [lookup_counts hrun key, entryOf] at hlookup
  split at hlookup
  · cases hlookup
  · rename_i hsome
    obtain rfl := Option.some.inj hlookup
    exact ⟨counted key before, hsome, exact_aggOf _⟩

theorem reports_of_step {events : List Event} {s s' : State} (h : Run events s) {key : PolicyKey}
    {agg : PolicyAgg} {outcome : Outcome} (hstep : Step s (.patched key agg outcome) s') :
    Reports events key agg := by
  cases hstep with
  | patched counts key agg rest outcome =>
      exact (inv_of_run h).pending (key, agg) List.mem_cons_self

/-- In every run each entry counts the verdicts since it was made, and each patch
reports such counts and leaves them as they are. -/
theorem counters_exact {events : List Event} {s : State} (h : Run events s) :
    (∀ key, s.counts.lookup key = none ↔ counted key events = []) ∧
      (∀ key agg, s.counts.lookup key = some agg → Exact (counted key events) agg) ∧
      ∀ key agg outcome s', Step s (.patched key agg outcome) s' →
        s'.counts = s.counts ∧ Reports events key agg := by
  refine ⟨fun key => ?_, fun key agg hagg => ?_, fun key agg outcome s' hstep => ?_⟩
  · rw [lookup_counts h key, entryOf]
    split
    · rename_i hnil
      exact iff_of_true rfl hnil
    · rename_i hsome
      exact iff_of_false (by simp) hsome
  · rw [lookup_counts h key, entryOf] at hagg
    split at hagg
    · cases hagg
    · rw [← Option.some.inj hagg]
      exact exact_aggOf _
  · have hreports := reports_of_step h hstep
    cases hstep
    exact ⟨rfl, hreports⟩

/-! A denial is recorded while a flush is on its way, and the patch fails. -/

def apiKey : PolicyKey := ⟨"shop", "api"⟩

def verdict (wouldDeny : Bool) (time uid : String) : Verdict :=
  ⟨⟨"shop", "api", "shop/web-0", "shop/api-0", "TCP", .ingress, 8080, wouldDeny, 1⟩, time, uid⟩

def firstVerdict : Verdict := verdict true "2024-05-01T10:00:00Z" "u1"

def secondVerdict : Verdict := verdict true "2024-05-01T10:00:01Z" "u1"

def duringFlush : List Event := [.recorded firstVerdict, .started, .recorded secondVerdict]

def flushing : State where
  counts := record (record ∅ firstVerdict) secondVerdict
  flush := .patching [(apiKey, aggOf [firstVerdict])]

theorem run_duringFlush : Run duringFlush flushing := by
  have h := Run.init.step (.recorded _ _ firstVerdict)
  have h := h.step (.started _)
  exact h.step (.recorded _ _ secondVerdict)

theorem counters_duringFlush :
    Exact (counted apiKey duringFlush) (aggOf [firstVerdict, secondVerdict]) ∧
      Reports duringFlush apiKey (aggOf [firstVerdict]) := by
  obtain ⟨-, hexact, hpatch⟩ := counters_exact run_duringFlush
  constructor
  · exact hexact apiKey _ rfl
  · exact (hpatch apiKey _ .failed _ (.patched _ apiKey (aggOf [firstVerdict]) [] .failed)).2

end KGuardian.StatusAggregator
