import KGuardian.MergePatch
import KGuardian.StatusAggregator

/-!
The status of a policy as the evaluator writes it. A patch carries the counters
of an entry without the fields that are zero or empty, and the API server merges
it into what is stored, so such fields keep what an earlier evaluator wrote. The
stored status is the flushed one exactly when there is nothing to keep.
-/
namespace KGuardian.StatusPatches

open GoJson MergePatch StatusAggregator Tally

structure OffenderSummary where
  srcPod : String
  dstPod : String
  dstPort : ℤ
  protocol : String
  direction : String
  count : ℤ
  deriving DecidableEq

structure EvaluationStatus where
  lastEvaluated : Option String
  flowsEvaluated : ℤ
  flowsWouldDeny : ℤ
  topOffenders : List OffenderSummary
  deriving DecidableEq

structure AuditNetworkPolicyStatus where
  observedGeneration : ℤ
  evaluation : EvaluationStatus
  deriving DecidableEq

/-! The patch of an entry. -/

def directionText : Matcher.Direction → String
  | .ingress => "Ingress"
  | .egress => "Egress"
  | .other name => name

abbrev TupleCount := Sigma fun _ : TupleKey => ℕ

/-- The order of the offenders: higher counts first, then by the tuple. -/
def offenderLess (a b : TupleCount) : Bool :=
  if a.2 ≠ b.2 then a.2 > b.2
  else if a.1.srcPod ≠ b.1.srcPod then a.1.srcPod < b.1.srcPod
  else if a.1.dstPod ≠ b.1.dstPod then a.1.dstPod < b.1.dstPod
  else if a.1.dstPort ≠ b.1.dstPort then a.1.dstPort < b.1.dstPort
  else if a.1.protocol ≠ b.1.protocol then a.1.protocol < b.1.protocol
  else directionText a.1.direction < directionText b.1.direction

def summaryOf (t : TupleCount) : OffenderSummary :=
  ⟨t.1.srcPod, t.1.dstPod, t.1.dstPort, t.1.protocol, directionText t.1.direction, t.2⟩

def topOffenders (m : Counters TupleKey) (n : ℤ) : List OffenderSummary :=
  if n ≤ 0 then []
  else ((m.entries.insertionSort fun a b => offenderLess b a = false).take n.toNat).map summaryOf

def statusPatch (topN : ℤ) (agg : PolicyAgg) : AuditNetworkPolicyStatus where
  observedGeneration := agg.observedGeneration
  evaluation :=
    ⟨agg.lastEvaluated, agg.flowsEvaluated, agg.flowsWouldDeny, topOffenders agg.tuples topN⟩

/-! The encoder, which omits what is empty, and the reader. -/

def omitZero (n : ℤ) : Option Json := if n = 0 then none else some (.int n)

def omitEmpty (s : String) : Option Json := if s = "" then none else some (.str s)

def encodeOffender (o : OffenderSummary) : Json :=
  .obj (members [("srcPod", omitEmpty o.srcPod), ("dstPod", omitEmpty o.dstPod),
    ("dstPort", omitZero o.dstPort), ("protocol", omitEmpty o.protocol),
    ("direction", omitEmpty o.direction), ("count", omitZero o.count)])

def encodeTime : Option String → Json
  | none => .null
  | some time => .str time

/-- The time is a pointer, so it is never omitted. -/
def encodeEvaluation (e : EvaluationStatus) : Fields :=
  members [("lastEvaluated", some (encodeTime e.lastEvaluated)),
    ("flowsEvaluated", omitZero e.flowsEvaluated), ("flowsWouldDeny", omitZero e.flowsWouldDeny),
    ("topOffenders",
      if e.topOffenders = [] then none else some (.arr (e.topOffenders.map encodeOffender)))]

/-- What the body of a patch has under `status`. -/
def encodeStatus (status : AuditNetworkPolicyStatus) : Json :=
  .obj (members [("observedGeneration", omitZero status.observedGeneration),
    ("evaluation", some (.obj (encodeEvaluation status.evaluation)))])

def readInt : Option Json → ℤ
  | some (.int n) => n
  | _ => 0

def readString : Option Json → String
  | some (.str s) => s
  | _ => ""

def readTime : Option Json → Option String
  | some (.str s) => some s
  | _ => none

def readItems : Option Json → List Json
  | some (.arr items) => items
  | _ => []

def readFields : Option Json → Fields
  | some (.obj fields) => fields
  | _ => []

def readOffender (j : Json) : OffenderSummary :=
  let fields := readFields (some j)
  ⟨readString (fields.lookup "srcPod"), readString (fields.lookup "dstPod"),
    readInt (fields.lookup "dstPort"), readString (fields.lookup "protocol"),
    readString (fields.lookup "direction"), readInt (fields.lookup "count")⟩

def readEvaluation (fields : Fields) : EvaluationStatus :=
  ⟨readTime (fields.lookup "lastEvaluated"), readInt (fields.lookup "flowsEvaluated"),
    readInt (fields.lookup "flowsWouldDeny"),
    (readItems (fields.lookup "topOffenders")).map readOffender⟩

/-- A stored status. What is missing is zero or empty. -/
def readStatus (stored : Json) : AuditNetworkPolicyStatus :=
  let fields := readFields (some stored)
  ⟨readInt (fields.lookup "observedGeneration"),
    readEvaluation (readFields (fields.lookup "evaluation"))⟩

/-! What a merged patch leaves. -/

theorem readInt_omitZero (n : ℤ) : readInt (omitZero n) = n := by
  rw [omitZero]
  split
  · rename_i hzero
    exact hzero.symm
  · rfl

theorem readString_omitEmpty (s : String) : readString (omitEmpty s) = s := by
  rw [omitEmpty]
  split
  · rename_i hempty
    exact hempty.symm
  · rfl

theorem readInt_merged (old : Option Json) (n : ℤ) :
    readInt (merged old (omitZero n)) = if n = 0 then readInt old else n := by
  rw [omitZero]
  split <;> rfl

theorem readTime_merged (old : Option Json) (time : Option String) :
    readTime (merged old (some (encodeTime time))) = time := by
  cases time <;> rfl

theorem readOffender_encodeOffender (o : OffenderSummary) :
    readOffender (encodeOffender o) = o := by
  have hnodup : (List.map Prod.fst [("srcPod", omitEmpty o.srcPod),
    ("dstPod", omitEmpty o.dstPod), ("dstPort", omitZero o.dstPort),
    ("protocol", omitEmpty o.protocol), ("direction", omitEmpty o.direction),
    ("count", omitZero o.count)]).Nodup := by
    simp
  simp only [readOffender, encodeOffender, readFields, lookup_members hnodup]
  simp only [lookup_cons]
  simp [readString_omitEmpty, readInt_omitZero]

theorem readItems_merged (old : Option Json) (offenders : List OffenderSummary) :
    (readItems (merged old (if offenders = [] then none
      else some (.arr (offenders.map encodeOffender))))).map readOffender =
      if offenders = [] then (readItems old).map readOffender else offenders := by
  split
  · rfl
  · change (offenders.map encodeOffender).map readOffender = offenders
    rw [List.map_map]
    exact List.map_id'' readOffender_encodeOffender offenders

/-- Fields that the patch omits are those of the stored status. -/
def overlay (old new : AuditNetworkPolicyStatus) : AuditNetworkPolicyStatus where
  observedGeneration :=
    if new.observedGeneration = 0 then old.observedGeneration else new.observedGeneration
  evaluation :=
    { lastEvaluated := new.evaluation.lastEvaluated
      flowsEvaluated :=
        if new.evaluation.flowsEvaluated = 0 then old.evaluation.flowsEvaluated
        else new.evaluation.flowsEvaluated
      flowsWouldDeny :=
        if new.evaluation.flowsWouldDeny = 0 then old.evaluation.flowsWouldDeny
        else new.evaluation.flowsWouldDeny
      topOffenders :=
        if new.evaluation.topOffenders = [] then old.evaluation.topOffenders
        else new.evaluation.topOffenders }

theorem readEvaluation_merge (old : Fields) (e : EvaluationStatus) :
    readEvaluation (mergeFields old (encodeEvaluation e)) =
      (overlay ⟨0, readEvaluation old⟩ ⟨0, e⟩).evaluation := by
  have hnodup : (List.map Prod.fst [("lastEvaluated", some (encodeTime e.lastEvaluated)),
    ("flowsEvaluated", omitZero e.flowsEvaluated), ("flowsWouldDeny", omitZero e.flowsWouldDeny),
    ("topOffenders", if e.topOffenders = [] then none
      else some (.arr (e.topOffenders.map encodeOffender)))]).Nodup := by
    simp
  simp only [readEvaluation, encodeEvaluation, overlay,
    lookup_mergeFields _ _ (nodup_members hnodup), lookup_members hnodup, lookup_cons]
  simp [readTime_merged, readInt_merged, readItems_merged]

theorem readStatus_mergePatch (stored : Json) (status : AuditNetworkPolicyStatus) :
    readStatus (mergePatch stored (encodeStatus status)) =
      overlay (readStatus stored) status := by
  have hnodup : (List.map Prod.fst [("observedGeneration", omitZero status.observedGeneration),
    ("evaluation", some (Json.obj (encodeEvaluation status.evaluation)))]).Nodup := by
    simp
  have hfields (j : Json) : readFields (some j) = j.asObj.getD [] := by
    cases j <;> rfl
  have hevaluation (old : Option Json) :
      readFields (merged old (some (.obj (encodeEvaluation status.evaluation)))) =
        mergeFields (readFields old) (encodeEvaluation status.evaluation) := by
    cases old with
    | none => rfl
    | some j =>
        rw [hfields]
        rfl
  rw [encodeStatus, mergePatch]
  simp only [readStatus, hfields, Json.asObj, Option.getD_some,
    lookup_mergeFields _ _ (nodup_members hnodup), lookup_members hnodup, lookup_cons]
  simp [readInt_merged, hevaluation, readEvaluation_merge, overlay]

/-! A flushed entry. -/

def offenderTotal (offenders : List OffenderSummary) : ℤ :=
  offenders.foldr (fun o n => o.count + n) 0

theorem offenderTotal_map_summaryOf (tuples : List TupleCount) :
    offenderTotal (tuples.map summaryOf) = totalOf tuples := by
  induction tuples with
  | nil => rfl
  | cons t rest ih =>
      change (t.2 : ℤ) + offenderTotal (rest.map summaryOf) = ((t.2 + totalOf rest : ℕ) : ℤ)
      rw [ih]
      push_cast
      rfl

/-- The offenders that are listed account for at most all denials. -/
theorem offenderTotal_topOffenders_le (m : Counters TupleKey) (n : ℤ) :
    offenderTotal (topOffenders m n) ≤ total m := by
  rw [topOffenders]
  split
  · exact Int.natCast_nonneg _
  · rw [offenderTotal_map_summaryOf, total]
    refine Int.ofNat_le.mpr (le_trans (totalOf_sublist (List.take_sublist _ _)) ?_)
    exact (totalOf_perm (List.perm_insertionSort _ m.entries)).le

/-- The stored status is the flushed one, and its counts fit together. -/
structure Consistent (topN : ℤ) (agg : PolicyAgg) (stored : Json) : Prop where
  flushed : readStatus stored = statusPatch topN agg
  denied : (readStatus stored).evaluation.flowsWouldDeny ≤
    (readStatus stored).evaluation.flowsEvaluated
  offenders : offenderTotal (readStatus stored).evaluation.topOffenders ≤
    (readStatus stored).evaluation.flowsWouldDeny

/-- What the patch omits is zero or empty in the stored status too. -/
structure NothingKept (topN : ℤ) (agg : PolicyAgg) (stored : Json) : Prop where
  observedGeneration : agg.observedGeneration = 0 → (readStatus stored).observedGeneration = 0
  flowsWouldDeny : agg.flowsWouldDeny = 0 → (readStatus stored).evaluation.flowsWouldDeny = 0
  topOffenders : topOffenders agg.tuples topN = [] →
    (readStatus stored).evaluation.topOffenders = []

theorem overlay_eq_iff (old : AuditNetworkPolicyStatus) {new : AuditNetworkPolicyStatus}
    (hevaluated : new.evaluation.flowsEvaluated ≠ 0) :
    overlay old new = new ↔
      (new.observedGeneration = 0 → old.observedGeneration = 0) ∧
      (new.evaluation.flowsWouldDeny = 0 → old.evaluation.flowsWouldDeny = 0) ∧
      (new.evaluation.topOffenders = [] → old.evaluation.topOffenders = []) := by
  have hkept {α : Type} [DecidableEq α] {zero old new : α} :
      (if new = zero then old else new) = new ↔ (new = zero → old = zero) := by
    by_cases hzero : new = zero
    · simp [hzero]
    · simp [hzero]
  obtain ⟨generation, time, evaluated, denied, offenders⟩ := new
  simp only [overlay, AuditNetworkPolicyStatus.mk.injEq, EvaluationStatus.mk.injEq, true_and,
    if_neg hevaluated, hkept]

theorem overlay_statusPatch_iff {topN : ℤ} {agg : PolicyAgg} {stored : Json}
    (hevaluated : agg.flowsEvaluated ≠ 0) :
    overlay (readStatus stored) (statusPatch topN agg) = statusPatch topN agg ↔
      NothingKept topN agg stored := by
  have hne : (statusPatch topN agg).evaluation.flowsEvaluated ≠ 0 :=
    Int.natCast_ne_zero.mpr hevaluated
  rw [overlay_eq_iff (readStatus stored) hne]
  simp only [statusPatch, Int.natCast_eq_zero]
  constructor
  · intro h
    exact ⟨h.1, h.2.1, h.2.2⟩
  · intro h
    exact ⟨h.observedGeneration, h.flowsWouldDeny, h.topOffenders⟩

theorem consistent_mergePatch_iff (topN : ℤ) {agg : PolicyAgg} {vs : List Verdict}
    (hexact : Exact vs agg) (hvs : vs ≠ []) (stored : Json) :
    Consistent topN agg (mergePatch stored (encodeStatus (statusPatch topN agg))) ↔
      NothingKept topN agg stored := by
  have hevaluated : agg.flowsEvaluated ≠ 0 := by
    rw [hexact.flowsEvaluated]
    exact fun hzero => hvs (List.eq_nil_of_length_eq_zero hzero)
  rw [← overlay_statusPatch_iff hevaluated, ← readStatus_mergePatch]
  constructor
  · intro h
    exact h.flushed
  · intro h
    refine ⟨h, ?_, ?_⟩
    · rw [h]
      change (agg.flowsWouldDeny : ℤ) ≤ agg.flowsEvaluated
      rw [hexact.flowsEvaluated, hexact.flowsWouldDeny]
      exact Int.ofNat_le.mpr (List.length_filter_le _ _)
    · rw [h]
      change offenderTotal (topOffenders agg.tuples topN) ≤ (agg.flowsWouldDeny : ℤ)
      rw [← hexact.total]
      exact offenderTotal_topOffenders_le _ _

/-! The evaluator and the API server. -/

structure PolicyObject where
  uid : String
  status : Json

/-- The evaluator, the policies that exist, and the UIDs given out so far. -/
structure Cluster where
  evaluator : State
  objects : AList fun _ : PolicyKey => PolicyObject
  uids : List String

def Cluster.init : Cluster := ⟨State.init, ∅, []⟩

inductive ClusterEvent where
  | aggregator (e : Event)
  | restarted
  | created (key : PolicyKey) (uid : String)
  | deleted (key : PolicyKey)

/-- A patch succeeds on a policy that exists, and any patch may fail. -/
def Answers (objects : AList fun _ : PolicyKey => PolicyObject) : Event → Prop
  | .patched key _ .ok => objects.lookup key ≠ none
  | .patched key _ .notFound => objects.lookup key = none
  | _ => True

def applyPatch (topN : ℤ) (objects : AList fun _ : PolicyKey => PolicyObject) :
    Event → AList fun _ : PolicyKey => PolicyObject
  | .patched key agg .ok =>
      match objects.lookup key with
      | some obj =>
          objects.insert key
            { obj with status := mergePatch obj.status (encodeStatus (statusPatch topN agg)) }
      | none => objects
  | _ => objects

inductive ClusterStep (topN : ℤ) : Cluster → ClusterEvent → Cluster → Prop
  | aggregator (c : Cluster) {e : Event} {s : State} (hstep : Step c.evaluator e s)
      (hanswer : Answers c.objects e) :
      ClusterStep topN c (.aggregator e)
        { c with evaluator := s, objects := applyPatch topN c.objects e }
  | restarted (c : Cluster) : ClusterStep topN c .restarted { c with evaluator := State.init }
  | created (c : Cluster) (key : PolicyKey) (uid : String) (hnew : c.objects.lookup key = none)
      (huid : uid ∉ c.uids) :
      ClusterStep topN c (.created key uid)
        { c with objects := c.objects.insert key ⟨uid, .obj []⟩, uids := uid :: c.uids }
  | deleted (c : Cluster) (key : PolicyKey) :
      ClusterStep topN c (.deleted key) { c with objects := c.objects.erase key }

inductive ClusterRun (topN : ℤ) : List ClusterEvent → Cluster → Prop
  | init : ClusterRun topN [] Cluster.init
  | step {events : List ClusterEvent} {c c' : Cluster} {e : ClusterEvent}
      (h : ClusterRun topN events c) (hstep : ClusterStep topN c e c') :
      ClusterRun topN (events ++ [e]) c'

/-- What happened at the aggregator that runs now. -/
def addLocal (events : List Event) : ClusterEvent → List Event
  | .aggregator e => events ++ [e]
  | .restarted => []
  | _ => events

def sinceRestart (events : List ClusterEvent) : List Event := events.foldl addLocal []

theorem sinceRestart_concat (events : List ClusterEvent) (e : ClusterEvent) :
    sinceRestart (events ++ [e]) = addLocal (sinceRestart events) e := by
  rw [sinceRestart, List.foldl_concat, ← sinceRestart]

theorem run_evaluator {topN : ℤ} {events : List ClusterEvent} {c : Cluster}
    (h : ClusterRun topN events c) : Run (sinceRestart events) c.evaluator := by
  induction h with
  | init => exact Run.init
  | step h hstep ih =>
      rw [sinceRestart_concat]
      cases hstep with
      | aggregator hstep hanswer => exact ih.step hstep
      | restarted => exact Run.init
      | created key uid hnew huid => exact ih
      | deleted key => exact ih

theorem step_of_aggregator {topN : ℤ} {c c' : Cluster} {e : Event}
    (h : ClusterStep topN c (.aggregator e) c') :
    ∃ s, Step c.evaluator e s ∧ Answers c.objects e ∧
      c' = { c with evaluator := s, objects := applyPatch topN c.objects e } := by
  cases h with
  | aggregator hstep hanswer => exact ⟨_, hstep, hanswer, rfl⟩

/-- What holds of each successful patch in the events, with the events before it
and the states around it. -/
def EveryFlush (topN : ℤ) (events : List ClusterEvent)
    (P : List ClusterEvent → Cluster → PolicyKey → PolicyAgg → Cluster → Prop) : Prop :=
  ∀ before key agg after c c', events = before ++ .aggregator (.patched key agg .ok) :: after →
    ClusterRun topN before c → ClusterStep topN c (.aggregator (.patched key agg .ok)) c' →
    P before c key agg c'

/-- After each successful flush of a policy, its status is the flushed one. -/
def StatusesConsistent (topN : ℤ) (events : List ClusterEvent) : Prop :=
  EveryFlush topN events fun _ _ key agg c' =>
    ∃ obj, c'.objects.lookup key = some obj ∧ Consistent topN agg obj.status

/-- No successful flush finds anything in the stored status that it omits. -/
def NothingEverKept (topN : ℤ) (events : List ClusterEvent) : Prop :=
  EveryFlush topN events fun _ c key agg _ =>
    ∃ obj, c.objects.lookup key = some obj ∧ NothingKept topN agg obj.status

theorem consistent_step_iff {topN : ℤ} {events : List ClusterEvent} {c c' : Cluster}
    {key : PolicyKey} {agg : PolicyAgg} (h : ClusterRun topN events c)
    (hstep : ClusterStep topN c (.aggregator (.patched key agg .ok)) c') :
    (∃ obj, c'.objects.lookup key = some obj ∧ Consistent topN agg obj.status) ↔
      ∃ obj, c.objects.lookup key = some obj ∧ NothingKept topN agg obj.status := by
  obtain ⟨s, hpatch, hanswer, rfl⟩ := step_of_aggregator hstep
  obtain ⟨vs, hvs, hexact⟩ := (reports_of_step (run_evaluator h) hpatch).exact
  obtain ⟨obj, hobj⟩ := Option.ne_none_iff_exists'.mp hanswer
  have hafter : (applyPatch topN c.objects (.patched key agg .ok)).lookup key =
      some { obj with
        status := mergePatch obj.status (encodeStatus (statusPatch topN agg)) } := by
    simp only [applyPatch, hobj]
    exact AList.lookup_insert _
  have hiff := consistent_mergePatch_iff topN hexact hvs obj.status
  constructor
  · intro h
    obtain ⟨obj', hobj', hconsistent⟩ := h
    obtain rfl := Option.some.inj (hobj'.symm.trans hafter)
    exact ⟨obj, hobj, hiff.mp hconsistent⟩
  · intro h
    obtain ⟨obj', hobj', hkept⟩ := h
    obtain rfl := Option.some.inj (hobj'.symm.trans hobj)
    exact ⟨_, hafter, hiff.mpr hkept⟩

/-- The statuses that a run leaves are consistent exactly when no flush of it
omits a field that an earlier evaluator has stored. -/
theorem statusesConsistent_iff (topN : ℤ) (events : List ClusterEvent) :
    StatusesConsistent topN events ↔ NothingEverKept topN events := by
  constructor
  · intro h before key agg after c c' hevents hrun hstep
    exact (consistent_step_iff hrun hstep).mp (h before key agg after c c' hevents hrun hstep)
  · intro h before key agg after c c' hevents hrun hstep
    exact (consistent_step_iff hrun hstep).mpr (h before key agg after c c' hevents hrun hstep)

/-! Two denials before a restart, and an allowed flow after it. -/

def allowed : Verdict := verdict false "2024-05-01T11:00:00Z" "u1"

def deniedTwice : PolicyAgg := aggOf [firstVerdict, secondVerdict]

def allowedOnce : PolicyAgg := aggOf [allowed]

def untilRestart : List ClusterEvent :=
  [.created apiKey "u1", .aggregator (.recorded firstVerdict),
    .aggregator (.recorded secondVerdict), .aggregator .started,
    .aggregator (.patched apiKey deniedTwice .ok), .aggregator .finished]

def afterRestart : List ClusterEvent :=
  [.restarted, .aggregator (.recorded allowed), .aggregator .started]

def storedBefore : PolicyObject :=
  ⟨"u1", mergePatch (.obj []) (encodeStatus (statusPatch 25 deniedTwice))⟩

def restartedCluster : Cluster where
  evaluator := ⟨record ∅ allowed, .patching [(apiKey, allowedOnce)]⟩
  objects := AList.insert apiKey storedBefore ∅
  uids := ["u1"]

theorem run_restarted : ClusterRun 25 (untilRestart ++ afterRestart) restartedCluster := by
  have h : ClusterRun 25 [] Cluster.init := .init
  have h := h.step (.created _ apiKey "u1" rfl (by simp [Cluster.init]))
  have h := h.step (.aggregator _ (.recorded _ _ firstVerdict) trivial)
  have h := h.step (.aggregator _ (.recorded _ _ secondVerdict) trivial)
  have h := h.step (.aggregator _ (.started _) trivial)
  have h := h.step (.aggregator _ (.patched _ apiKey deniedTwice [] .ok)
    (Option.some_ne_none _))
  have h := h.step (.aggregator _ (.finished _ []) trivial)
  have h := h.step (.restarted _)
  have h := h.step (.aggregator _ (.recorded _ _ allowed) trivial)
  exact h.step (.aggregator _ (.started _) trivial)

/-- The denials of the first evaluator stay beside the flow of the second. -/
theorem not_statusesConsistent_restart :
    ¬ StatusesConsistent 25
      (untilRestart ++ afterRestart ++ [.aggregator (.patched apiKey allowedOnce .ok)]) := by
  intro h
  have hstep : ClusterStep 25 restartedCluster (.aggregator (.patched apiKey allowedOnce .ok)) _ :=
    .aggregator restartedCluster (.patched _ apiKey allowedOnce [] .ok) (Option.some_ne_none _)
  obtain ⟨obj, hobj, hconsistent⟩ := h _ apiKey allowedOnce [] _ _ rfl run_restarted hstep
  have hafter : (applyPatch 25 restartedCluster.objects (.patched apiKey allowedOnce .ok)).lookup
      apiKey = some { storedBefore with
        status := mergePatch storedBefore.status (encodeStatus (statusPatch 25 allowedOnce)) } :=
    rfl
  obtain rfl := Option.some.inj (hobj.symm.trans hafter)
  have hdenied := congrArg (fun s => s.evaluation.flowsWouldDeny) hconsistent.flushed
  exact absurd hdenied (by decide)

end KGuardian.StatusPatches
