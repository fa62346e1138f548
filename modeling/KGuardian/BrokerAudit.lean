import KGuardian.BrokerTraffic
import KGuardian.Server

/-!
The audit of new traffic in the broker (`broker/src/audit.rs`): the flow that is
sent to the evaluator for a row, and the verdicts that are kept. A row knows its
peer by address only, so the flow names one pod. Which verdicts depend on the
name of the other pod is worked out below.
-/
namespace KGuardian.BrokerAudit

open AllowLists NetAddr Selectors Matcher PolicySemantics PolicyStore Server TextScan BrokerTraffic

/-- The body of the request to the evaluator. Absent fields are not sent. -/
structure AuditFlow where
  srcPodNamespace : Option String
  srcPodName : Option String
  dstPodNamespace : Option String
  dstPodName : Option String
  srcIp : Option String
  dstIp : Option String
  dstPort : ℤ
  protocol : String
  deriving DecidableEq

/-- The method `to_ascii_uppercase`. -/
def toAsciiUppercase (c : Char) : Char :=
  if 'a' ≤ c && c ≤ 'z' then Char.ofNat (c.toNat - 32) else c

def normalisedType (traffic : PodTraffic) : List Char :=
  (trim (traffic.trafficType.getD "").toList).map toAsciiUppercase

def rowDirection (traffic : PodTraffic) : Option Direction :=
  if normalisedType traffic = "INGRESS".toList then some .ingress
  else if normalisedType traffic = "EGRESS".toList then some .egress
  else none

def buildFlowForTraffic (traffic : PodTraffic) : Option AuditFlow :=
  let protocol := traffic.ipProtocol.getD "TCP"
  let parsePort (s : String) : ℤ := (parseSigned 32 s).getD 0
  match rowDirection traffic with
  | some .ingress => some
      { srcPodNamespace := none
        srcPodName := none
        srcIp := traffic.trafficInOutIp
        dstPodNamespace := traffic.podNamespace
        dstPodName := traffic.podName
        dstIp := traffic.podIp
        dstPort := parsePort (traffic.podPort.getD "0")
        protocol }
  | some .egress => some
      { srcPodNamespace := traffic.podNamespace
        srcPodName := traffic.podName
        srcIp := traffic.podIp
        dstPodNamespace := none
        dstPodName := none
        dstIp := traffic.trafficInOutIp
        dstPort := parsePort (traffic.trafficInOutPort.getD "0")
        protocol }
  | _ => none

/-- The flow as the evaluator decodes it: an absent string is empty. -/
def AuditFlow.received (f : AuditFlow) : Flow :=
  ⟨f.srcPodNamespace.getD "", f.srcPodName.getD "", f.dstPodNamespace.getD "",
    f.dstPodName.getD "", f.srcIp.getD "", f.dstIp.getD "", f.dstPort, f.protocol⟩

def isPersistableVerdict : Verdict → Bool
  | .allow | .wouldDeny => true
  | .notApplicable => false

/-- A row of the table `audit_verdicts`. -/
structure AuditVerdictInsert where
  policyUid : String
  policyNamespace : String
  policyName : String
  direction : Direction
  srcNamespace : Option String
  srcPod : Option String
  dstNamespace : Option String
  dstPod : Option String
  dstPort : ℤ
  protocol : String
  reason : Option String
  verdict : Verdict
  deriving DecidableEq

def auditVerdict (flow : AuditFlow) (r : Result) : AuditVerdictInsert :=
  ⟨r.policyUID, r.policyNamespace, r.policyName, r.direction, flow.srcPodNamespace,
    flow.srcPodName, flow.dstPodNamespace, flow.dstPodName, flow.dstPort, flow.protocol,
    if r.reason = "" then none else some r.reason, r.verdict⟩

/-- The rows that one audited event leads to, with the evaluator reachable. -/
def evaluateAndPersist (api : Apimachinery) (lookup : Lookup) (s : Store)
    (traffic : PodTraffic) : List AuditVerdictInsert :=
  match buildFlowForTraffic traffic with
  | none => []
  | some flow =>
      ((handleEvaluate api lookup flow.received s).results.filter fun r =>
        isPersistableVerdict r.verdict).map (auditVerdict flow)

/-- A row of the table `pod_details`. -/
structure PodDetail where
  podName : String
  podNamespace : Option String
  podIp : Option String
  isDead : Bool
  deriving DecidableEq

/-- The live pods that have the peer address of a row. -/
def peersOf (pods : List PodDetail) (traffic : PodTraffic) : List PodDetail :=
  pods.filter fun p => !p.isDead && sqlEq p.podIp traffic.trafficInOutIp

/-- The flow of a row with the identity of its peer filled in. -/
def identified (traffic : PodTraffic) (peer : PodDetail) (flow : AuditFlow) : AuditFlow :=
  match rowDirection traffic with
  | some .ingress =>
      { flow with srcPodNamespace := peer.podNamespace, srcPodName := some peer.podName }
  | some .egress =>
      { flow with dstPodNamespace := peer.podNamespace, dstPodName := some peer.podName }
  | _ => flow

section

variable (api : Apimachinery) (s : Store) (lookup : Lookup)

/-- Two flows get the same verdicts, apart from those of policies that do not
apply. -/
def SameVerdicts (flow flow' : Flow) : Prop :=
  ∀ key v, v ≠ Verdict.notApplicable →
    ((∃ r ∈ (handleEvaluate api lookup flow s).results, resultKey r = key ∧ r.verdict = v) ↔
      ∃ r ∈ (handleEvaluate api lookup flow' s).results, resultKey r = key ∧ r.verdict = v)

def oppositeDirection : Direction → Direction
  | .ingress => .egress
  | .egress => .ingress
  | d => d

/-- What rules allow without knowing the peer: an open peer list or a block with
its address, and for egress a port given by number. -/
def AddressAllowed (spec : NetworkPolicySpec) (flow : Flow) (d : Direction) : Prop :=
  Permits (fun entry => ∃ block ∈ entry.ipBlock, ∃ e ∈ otherEnd flow d, BlockHolds block e.ip)
    (fun entry => PortAdmits lookup flow entry ∧
      (d = .egress → ∀ name, entry.port ≠ some (.str name)))
    (rulesFor spec d)

/-- The identity of the peer does not matter to one policy: what its rules allow
they allow by address, and it does not protect the peer itself. -/
structure Indifferent (spec : NetworkPolicySpec) (home : String)
    (applies : Flow → Direction → Prop) (flow : Flow) (d : Direction) : Prop where
  own : Restricts spec.policyTypes spec.egress d → applies flow d →
    Allowed api lookup home spec flow d → AddressAllowed lookup spec flow d
  opposite : Restricts spec.policyTypes spec.egress (oppositeDirection d) →
    ¬ applies flow (oppositeDirection d)

/-- The identity of the peer does not matter to any stored policy. -/
def PeerNotNeeded (flow : Flow) (d : Direction) : Prop :=
  (∀ p ∈ s.policies, Indifferent api lookup p.spec p.ns (Applies api lookup p) flow d) ∧
    ∀ p ∈ s.clusterPolicies, Indifferent api lookup p.spec.toNetworkPolicySpec
      (subjectNamespace flow d) (AppliesCluster api lookup p) flow d

end

/-- The flow without the name of the end that a policy of this direction sees as
the peer. -/
def anonymous (flow : Flow) : Direction → Flow
  | .ingress => { flow with srcPodNamespace := "", srcPodName := "" }
  | .egress => { flow with dstPodNamespace := "", dstPodName := "" }
  | .other _ => flow

section

variable {api : Apimachinery} {s : Store} {lookup : Lookup}

theorem received_eq_anonymous {traffic : PodTraffic} {d : Direction}
    (hd : rowDirection traffic = some d) {flow : AuditFlow}
    (hflow : buildFlowForTraffic traffic = some flow) (peer : PodDetail) :
    flow.received = anonymous (identified traffic peer flow).received d := by
  cases d with
  | ingress =>
      simp only [buildFlowForTraffic, hd, Option.some.injEq] at hflow
      subst hflow
      simp [identified, hd, AuditFlow.received, anonymous]
  | egress =>
      simp only [buildFlowForTraffic, hd, Option.some.injEq] at hflow
      subst hflow
      simp [identified, hd, AuditFlow.received, anonymous]
  | other name => simp [buildFlowForTraffic, hd] at hflow

theorem known_of_rowDirection {traffic : PodTraffic} {d : Direction}
    (hd : rowDirection traffic = some d) : d = .ingress ∨ d = .egress := by
  rw [rowDirection] at hd
  split at hd
  · exact Or.inl (Option.some.inj hd).symm
  · split at hd
    · exact Or.inr (Option.some.inj hd).symm
    · exact absurd hd (by simp)

theorem subjectEnd_anonymous (flow : Flow) (d : Direction) :
    subjectEnd (anonymous flow d) d = subjectEnd flow d := by
  cases d <;> rfl

theorem subjectNamespace_anonymous (flow : Flow) (d : Direction) :
    subjectNamespace (anonymous flow d) d = subjectNamespace flow d := by
  cases d <;> rfl

theorem applies_anonymous (p : AuditNetworkPolicy) (flow : Flow) (d : Direction) :
    Applies api lookup p (anonymous flow d) d ↔ Applies api lookup p flow d := by
  rw [Applies, Applies, subjectEnd_anonymous]

theorem appliesCluster_anonymous (p : AuditClusterNetworkPolicy) (flow : Flow) (d : Direction) :
    AppliesCluster api lookup p (anonymous flow d) d ↔ AppliesCluster api lookup p flow d := by
  rw [AppliesCluster, AppliesCluster, subjectEnd_anonymous]

/-- Rules that allow the bare address allow the identified peer. -/
theorem allowed_of_addressAllowed {home : String} {spec : NetworkPolicySpec} {flow : Flow}
    {d : Direction} (h : AddressAllowed lookup spec flow d) :
    Allowed api lookup home spec flow d := by
  apply Permits.mono _ _ h
  · intro entry hcase
    obtain ⟨block, hblock, e, he, hholds⟩ := hcase
    refine ⟨e, he, ?_⟩
    rw [Option.mem_def] at hblock
    simpa only [PeerAdmits, hblock] using hholds
  · exact fun entry hport => hport.1

variable (hanonymous : ∀ name, lookup.getPod "" name = none)
include hanonymous

theorem unnamed_peer (ip : String) (home : String) (entry : NetworkPolicyPeer) :
    PeerAdmits api lookup home ⟨"", "", ip⟩ entry ↔
      ∃ block ∈ entry.ipBlock, BlockHolds block ip := by
  cases hblock : entry.ipBlock with
  | none => simp [PeerAdmits, hblock, podAt, hanonymous]
  | some block => simp [PeerAdmits, hblock]

/-- Without its name the peer is admitted by address only. -/
theorem allowed_anonymous_iff (home : String) (spec : NetworkPolicySpec) (flow : Flow)
    (d : Direction) (hd : d = .ingress ∨ d = .egress) :
    Allowed api lookup home spec (anonymous flow d) d ↔ AddressAllowed lookup spec flow d := by
  apply permits_congr
  · intro entry
    rcases hd with rfl | rfl
    · simp [otherEnd, source, anonymous, unnamed_peer hanonymous]
    · simp [otherEnd, destination, anonymous, unnamed_peer hanonymous]
  · intro entry
    rcases hd with rfl | rfl
    · have hsame : PortAdmits lookup (anonymous flow .ingress) entry ↔
          PortAdmits lookup flow entry := Iff.rfl
      simp [hsame]
    · cases hport : entry.port with
      | none => simp [PortAdmits, hport, anonymous]
      | some port =>
          cases port with
          | int v => simp [PortAdmits, hport, anonymous]
          | str name =>
              simp [PortAdmits, hport, anonymous, podAt, destination, hanonymous]

theorem not_applies_opposite (p : AuditNetworkPolicy) (flow : Flow) (d : Direction)
    (hd : d = .ingress ∨ d = .egress) :
    ¬ Applies api lookup p (anonymous flow d) (oppositeDirection d) := by
  rcases hd with rfl | rfl <;>
    simp [Applies, oppositeDirection, subjectEnd, source, destination, anonymous, podAt, hanonymous]

theorem not_appliesCluster_opposite (p : AuditClusterNetworkPolicy) (flow : Flow) (d : Direction)
    (hd : d = .ingress ∨ d = .egress) :
    ¬ AppliesCluster api lookup p (anonymous flow d) (oppositeDirection d) := by
  rcases hd with rfl | rfl <;>
    simp [AppliesCluster, oppositeDirection, subjectEnd, source, destination, anonymous, podAt,
      hanonymous]

/-- One policy of either kind gives the same verdicts exactly when the identity of
the peer does not matter to it. -/
theorem sameVerdicts_iff_indifferent (home : Flow → Direction → String)
    (verdict : Flow → Direction → Verdict) {spec : NetworkPolicySpec}
    {applies : Flow → Direction → Prop}
    (hdecides : ∀ flow e, Decides (verdict flow e) (applies flow e)
      (Allowed api lookup (home flow e) spec flow e))
    {flow : Flow} {d : Direction} (hd : d = .ingress ∨ d = .egress)
    (hhome : home (anonymous flow d) d = home flow d)
    (hsame : applies (anonymous flow d) d ↔ applies flow d)
    (hopposite : ¬ applies (anonymous flow d) (oppositeDirection d))
    (hother : ∀ flow name, ¬ applies flow (.other name)) :
    (∀ e, Restricts spec.policyTypes spec.egress e →
      verdict (anonymous flow d) e = verdict flow e) ↔
      Indifferent api lookup spec (home flow d) applies flow d := by
  have hown : verdict (anonymous flow d) d = verdict flow d ↔
      (applies flow d → (AddressAllowed lookup spec flow d ↔
        Allowed api lookup (home flow d) spec flow d)) := by
    rw [(hdecides _ d).eq_iff (hdecides _ d) hsame, hhome,
      allowed_anonymous_iff hanonymous _ spec flow d hd]
  have hopp : verdict (anonymous flow d) (oppositeDirection d) =
      verdict flow (oppositeDirection d) ↔ ¬ applies flow (oppositeDirection d) := by
    rw [(hdecides _ _).notApplicable.mpr hopposite, ← (hdecides flow _).notApplicable]
    exact eq_comm
  constructor
  · intro h
    refine ⟨fun hr ha hallowed => ?_, fun hr => hopp.mp (h _ hr)⟩
    exact (hown.mp (h d hr) ha).mpr hallowed
  · intro h e hr
    have hcases : e = d ∨ e = oppositeDirection d ∨ ∃ name, e = .other name := by
      rcases hd with rfl | rfl <;> cases e <;> simp [oppositeDirection]
    rcases hcases with rfl | rfl | ⟨name, rfl⟩
    · exact hown.mpr fun ha => ⟨allowed_of_addressAllowed, h.own hr ha⟩
    · exact hopp.mpr (h.opposite hr)
    · rw [(hdecides _ _).notApplicable.mpr (hother _ name),
        (hdecides _ _).notApplicable.mpr (hother _ name)]

end

section

variable {api : Apimachinery} {s : Store} {lookup : Lookup}

theorem verdict_eq_of_forall {v v' : Verdict}
    (h : ∀ w, w ≠ Verdict.notApplicable → (v = w ↔ v' = w)) : v = v' := by
  by_cases hv : v = .notApplicable
  · by_contra hne
    have hv' : v' ≠ .notApplicable := fun hc => hne (hv.trans hc.symm)
    exact hne ((h v' hv').mpr rfl)
  · exact ((h v hv).mp rfl).symm

variable (hlookup : lookup.Sound) (hanonymous : ∀ name, lookup.getPod "" name = none)
include hlookup hanonymous

/-- The counted results of the handler are those of all stored policies. -/
theorem mem_results_iff (flow : Flow) (key : String × String × Direction) (v : Verdict)
    (hv : v ≠ .notApplicable) :
    (∃ r ∈ (handleEvaluate api lookup flow s).results, resultKey r = key ∧ r.verdict = v) ↔
      (∃ p ∈ s.policies, ∃ e ∈ effectivePolicyTypes p.spec, (p.ns, p.name, e) = key ∧
        (matchDirection api flow p lookup e).verdict = v) ∨
      ∃ p ∈ s.clusterPolicies, ∃ e ∈ effectivePolicyTypesCluster p.spec, ("", p.name, e) = key ∧
        (matchClusterDirection api flow p lookup e).verdict = v := by
  have hscan (r : Result) (hr : r.verdict = v) :
      r ∈ (handleEvaluate api lookup flow s).results ↔ r ∈ fullScan api lookup flow s := by
    have hc : isCounted r = true := by simp [isCounted, hr, hv]
    have hmem := @mem_counted_iff api lookup flow hlookup hanonymous s r
    simp only [List.mem_filter, hc, and_true] at hmem
    exact hmem
  constructor
  · intro h
    obtain ⟨r, hr, hkey, hrv⟩ := h
    rw [hscan r hrv, fullScan, evaluateAll, List.mem_append, List.mem_flatMap,
      List.mem_flatMap] at hr
    rcases hr with ⟨p, hp, hr⟩ | ⟨p, hp, hr⟩
    · obtain ⟨e, he, rfl⟩ := List.mem_map.mp hr
      exact Or.inl ⟨p, hp, e, he, (resultKey_matchDirection p e).symm.trans hkey, hrv⟩
    · obtain ⟨e, he, rfl⟩ := List.mem_map.mp hr
      exact Or.inr ⟨p, hp, e, he, (resultKey_matchClusterDirection p e).symm.trans hkey, hrv⟩
  · intro h
    rcases h with ⟨p, hp, e, he, hkey, hrv⟩ | ⟨p, hp, e, he, hkey, hrv⟩
    · refine ⟨_, (hscan _ hrv).mpr ?_, (resultKey_matchDirection p e).trans hkey, hrv⟩
      exact List.mem_append_left _ (List.mem_flatMap.mpr ⟨p, hp, List.mem_map_of_mem he⟩)
    · refine ⟨_, (hscan _ hrv).mpr ?_, (resultKey_matchClusterDirection p e).trans hkey, hrv⟩
      exact List.mem_append_right _ (List.mem_flatMap.mpr ⟨p, hp, List.mem_map_of_mem he⟩)

/-- The results under the key of a policy are those of its own evaluation: cluster
policies have no namespace. -/
theorem result_of_policy_iff (hns : ∀ p ∈ s.policies, p.ns ≠ "") (flow : Flow)
    {p : AuditNetworkPolicy} (hp : p ∈ s.policies) {e : Direction}
    (he : e ∈ effectivePolicyTypes p.spec) {v : Verdict} (hv : v ≠ .notApplicable) :
    (∃ r ∈ (handleEvaluate api lookup flow s).results,
      resultKey r = (p.ns, p.name, e) ∧ r.verdict = v) ↔
      (matchDirection api flow p lookup e).verdict = v := by
  rw [mem_results_iff hlookup hanonymous flow _ v hv]
  constructor
  · intro hcase
    rcases hcase with ⟨p', hp', e', -, hkey, hrv⟩ | ⟨p', -, e', -, hkey, -⟩
    · simp only [Prod.mk.injEq] at hkey
      obtain ⟨hkns, hkname, rfl⟩ := hkey
      have hsame : p' = p := List.inj_on_of_nodup_map s.nodup_policyKeys hp' hp
        (Prod.ext hkns hkname)
      rwa [← hsame]
    · exact absurd (Prod.mk.inj hkey).1.symm (hns p hp)
  · exact fun hrv => Or.inl ⟨p, hp, e, he, rfl, hrv⟩

theorem result_of_clusterPolicy_iff (hns : ∀ p ∈ s.policies, p.ns ≠ "") (flow : Flow)
    {p : AuditClusterNetworkPolicy} (hp : p ∈ s.clusterPolicies) {e : Direction}
    (he : e ∈ effectivePolicyTypesCluster p.spec) {v : Verdict} (hv : v ≠ .notApplicable) :
    (∃ r ∈ (handleEvaluate api lookup flow s).results,
      resultKey r = ("", p.name, e) ∧ r.verdict = v) ↔
      (matchClusterDirection api flow p lookup e).verdict = v := by
  rw [mem_results_iff hlookup hanonymous flow _ v hv]
  constructor
  · intro hcase
    rcases hcase with ⟨p', hp', e', -, hkey, -⟩ | ⟨p', hp', e', -, hkey, hrv⟩
    · exact absurd (Prod.mk.inj hkey).1 (hns p' hp')
    · simp only [Prod.mk.injEq, true_and] at hkey
      obtain ⟨hkname, rfl⟩ := hkey
      have hsame : p' = p := List.inj_on_of_nodup_map s.clusterNames hp' hp hkname
      rwa [← hsame]
  · exact fun hrv => Or.inr ⟨p, hp, e, he, rfl, hrv⟩

/-- Verdicts are the same for the store when they are for each of its policies. -/
theorem sameVerdicts_iff (hns : ∀ p ∈ s.policies, p.ns ≠ "") (flow flow' : Flow) :
    SameVerdicts api s lookup flow flow' ↔
      (∀ p ∈ s.policies, ∀ e ∈ effectivePolicyTypes p.spec,
        (matchDirection api flow p lookup e).verdict =
          (matchDirection api flow' p lookup e).verdict) ∧
      ∀ p ∈ s.clusterPolicies, ∀ e ∈ effectivePolicyTypesCluster p.spec,
        (matchClusterDirection api flow p lookup e).verdict =
          (matchClusterDirection api flow' p lookup e).verdict := by
  constructor
  · intro h
    constructor
    · intro p hp e he
      apply verdict_eq_of_forall
      intro w hw
      rw [← result_of_policy_iff hlookup hanonymous hns flow hp he hw,
        ← result_of_policy_iff hlookup hanonymous hns flow' hp he hw]
      exact h _ w hw
    · intro p hp e he
      apply verdict_eq_of_forall
      intro w hw
      rw [← result_of_clusterPolicy_iff hlookup hanonymous hns flow hp he hw,
        ← result_of_clusterPolicy_iff hlookup hanonymous hns flow' hp he hw]
      exact h _ w hw
  · intro hcase key v hv
    obtain ⟨hpolicies, hclusters⟩ := hcase
    rw [mem_results_iff hlookup hanonymous flow key v hv,
      mem_results_iff hlookup hanonymous flow' key v hv]
    constructor
    · intro hcase
      rcases hcase with ⟨p, hp, e, he, hkey, hrv⟩ | ⟨p, hp, e, he, hkey, hrv⟩
      · exact Or.inl ⟨p, hp, e, he, hkey, (hpolicies p hp e he).symm.trans hrv⟩
      · exact Or.inr ⟨p, hp, e, he, hkey, (hclusters p hp e he).symm.trans hrv⟩
    · intro hcase
      rcases hcase with ⟨p, hp, e, he, hkey, hrv⟩ | ⟨p, hp, e, he, hkey, hrv⟩
      · exact Or.inl ⟨p, hp, e, he, hkey, (hpolicies p hp e he).trans hrv⟩
      · exact Or.inr ⟨p, hp, e, he, hkey, (hclusters p hp e he).trans hrv⟩

end

/-- Naming the live pod behind the peer address of a row leaves the verdicts as
they are exactly when no stored policy needs its identity. -/
theorem audit_sees_peer_iff (api : Apimachinery) (hapi : api.Documented) (s : Store)
    (hns : ∀ p ∈ s.policies, p.ns ≠ "") (lookup : Lookup) (hlookup : lookup.Sound)
    (hanonymous : ∀ name, lookup.getPod "" name = none) (traffic : PodTraffic) (d : Direction)
    (hd : rowDirection traffic = some d) (pods : List PodDetail) :
    ∃ flow, buildFlowForTraffic traffic = some flow ∧
      ∀ peer ∈ peersOf pods traffic,
        (SameVerdicts api s lookup flow.received (identified traffic peer flow).received ↔
          PeerNotNeeded api s lookup (identified traffic peer flow).received d) := by
  have hknown := known_of_rowDirection hd
  obtain ⟨flow, hflow⟩ : ∃ flow, buildFlowForTraffic traffic = some flow := by
    rcases hknown with rfl | rfl <;> simp [buildFlowForTraffic, hd]
  refine ⟨flow, hflow, fun peer _ => ?_⟩
  rw [received_eq_anonymous hd hflow peer, sameVerdicts_iff hlookup hanonymous hns, PeerNotNeeded]
  generalize (identified traffic peer flow).received = named
  apply and_congr
  · apply forall₂_congr
    intro p _
    rw [← sameVerdicts_iff_indifferent hanonymous (fun _ _ => p.ns)
      (fun f e => (matchDirection api f p lookup e).verdict)
      (fun f e => matchDirection_decides hapi f p lookup hlookup e) hknown rfl
      (applies_anonymous p named d) (not_applies_opposite hanonymous p named d hknown)
      (fun f name => by simp [Applies, subjectEnd])]
    simp only [effectivePolicyTypes, mem_effectiveTypes]
  · apply forall₂_congr
    intro p _
    rw [← sameVerdicts_iff_indifferent hanonymous subjectNamespace
      (fun f e => (matchClusterDirection api f p lookup e).verdict)
      (fun f e => matchClusterDirection_decides hapi f p lookup e) hknown
      (subjectNamespace_anonymous named d) (appliesCluster_anonymous p named d)
      (not_appliesCluster_opposite hanonymous p named d hknown)
      (fun f name => by simp [AppliesCluster, subjectEnd])]
    simp only [effectivePolicyTypesCluster, mem_effectiveTypes]

/-! The web frontend seen from the api: a row by address, and the pod behind it. -/

def webRow : PodTraffic :=
  ⟨"c3", some "api-0", some "shop", some "10.0.0.8", some "8080", some "TCP", some "INGRESS",
    some "10.0.0.7", some "0", some "ALLOW"⟩

def webDetail : PodDetail := ⟨"web-0", some "shop", some "10.0.0.7", false⟩

def webRowFlow : AuditFlow :=
  ⟨none, none, some "shop", some "api-0", some "10.0.0.7", some "10.0.0.8", 8080, "TCP"⟩

theorem webRow_sees_peer_iff : ∃ flow, buildFlowForTraffic webRow = some flow ∧
    ∀ peer ∈ peersOf [webDetail] webRow,
      (SameVerdicts reference shopStore shop flow.received
        (identified webRow peer flow).received ↔
        PeerNotNeeded reference shopStore shop (identified webRow peer flow).received .ingress) :=
  audit_sees_peer_iff reference reference_documented shopStore (by decide) shop
    (Lookup.ofLists_sound _ _) (fun _ => rfl) webRow .ingress (by decide) [webDetail]

/-- The policy admits the frontend by its labels, the audit reports a denial. -/
theorem webRow_wouldDeny :
    buildFlowForTraffic webRow = some webRowFlow ∧ peersOf [webDetail] webRow = [webDetail] ∧
      (handleEvaluate reference shop webRowFlow.received shopStore).recorded.map Record.wouldDeny =
        [true] ∧
      (handleEvaluate reference shop (identified webRow webDetail webRowFlow).received
        shopStore).recorded.map Record.wouldDeny = [false] ∧
      ¬ SameVerdicts reference shopStore shop webRowFlow.received
        (identified webRow webDetail webRowFlow).received := by
  refine ⟨by decide, by decide, by decide, by decide, ?_⟩
  intro h
  have hdenied := (h ("shop", "api", .ingress) .wouldDeny (by decide)).mp
  revert hdenied
  decide

end KGuardian.BrokerAudit
