import KGuardian.Matcher

/-!
What a NetworkPolicy means, stated without the matcher's control flow: who is
protected, what a rule admits and which verdict follows. The matcher is then
shown to decide exactly this, one function at a time.
-/
namespace KGuardian.PolicySemantics

open AllowLists NetAddr Selectors Matcher

/-- One end of a flow. -/
structure Endpoint where
  ns : String
  name : String
  ip : String
  deriving DecidableEq

def source (flow : Flow) : Endpoint := ⟨flow.srcPodNamespace, flow.srcPodName, flow.srcIP⟩

def destination (flow : Flow) : Endpoint := ⟨flow.dstPodNamespace, flow.dstPodName, flow.dstIP⟩

/-- The end that a policy of this direction protects. -/
def subjectEnd (flow : Flow) : Direction → Option Endpoint
  | .ingress => some (destination flow)
  | .egress => some (source flow)
  | .other _ => none

def otherEnd (flow : Flow) : Direction → Option Endpoint
  | .ingress => some (source flow)
  | .egress => some (destination flow)
  | .other _ => none

def podAt (lookup : Lookup) (e : Endpoint) : Option Pod := lookup.getPod e.ns e.name

/-- The directions a spec restricts. Without policyTypes these are ingress, and
egress when there is an egress rule. -/
def Restricts (policyTypes : List PolicyType) (egress : List PolicyRule) (d : Direction) : Prop :=
  d ∈ policyTypes ∨ policyTypes = [] ∧ (d = .ingress ∨ d = .egress ∧ egress ≠ [])

def rulesFor (spec : NetworkPolicySpec) : Direction → List PolicyRule
  | .ingress => spec.ingress
  | .egress => spec.egress
  | .other _ => []

/-- An except block that is not well formed covers nothing. -/
def BlockHolds (block : IPBlock) (ip : String) : Prop :=
  ∃ addr, parseIP ip = some addr ∧ CIDRCovers block.cidr addr ∧
    ∀ ex ∈ block.excepts, ¬ CIDRCovers ex addr

section

variable (api : Apimachinery) (lookup : Lookup)

/-- The selector part of a peer: a known pod in the home namespace, or in a
known namespace that the namespaceSelector admits. -/
structure SelectorsAdmit (homeNs : String) (entry : NetworkPolicyPeer) (pod : Pod) : Prop where
  home : entry.namespaceSelector = none → pod.ns = homeNs
  namespaces : ∀ sel ∈ entry.namespaceSelector,
    ∃ lbls ∈ lookup.getNamespaceLabels pod.ns, api.Admits sel lbls
  pods : ∀ sel ∈ entry.podSelector, api.Admits sel pod.labels

/-- A peer is either an address block or a pair of selectors. -/
def PeerAdmits (homeNs : String) (e : Endpoint) (entry : NetworkPolicyPeer) : Prop :=
  match entry.ipBlock with
  | some block => BlockHolds block e.ip
  | none => ∃ pod ∈ podAt lookup e, SelectorsAdmit api lookup homeNs entry pod

/-- The port of some container carries the name, the protocol and the number. -/
def NamedPort (name proto : String) (observed : ℤ) (pod : Pod) : Prop :=
  name ≠ "" ∧ ∃ c ∈ pod.containers, ∃ cp ∈ c.ports, cp.name = name ∧
    (if cp.protocol = "" then "TCP" else cp.protocol) = proto ∧ cp.containerPort = observed

def PortAdmits (flow : Flow) (entry : NetworkPolicyPort) : Prop :=
  entry.protocol.getD "TCP" = flow.protocol ∧
    match entry.port with
    | none => True
    | some (.int port) =>
        match entry.endPort with
        | some endPort => port ≤ flow.dstPort ∧ flow.dstPort ≤ endPort
        | none => flow.dstPort = port
    | some (.str name) =>
        ∃ pod ∈ podAt lookup (destination flow), NamedPort name flow.protocol flow.dstPort pod

def Allowed (homeNs : String) (spec : NetworkPolicySpec) (flow : Flow) (d : Direction) : Prop :=
  Permits (fun entry => ∃ e ∈ otherEnd flow d, PeerAdmits api lookup homeNs e entry)
    (PortAdmits lookup flow) (rulesFor spec d)

/-- The policy protects the subject: a known pod of its namespace that its
podSelector admits. -/
def Applies (policy : AuditNetworkPolicy) (flow : Flow) (d : Direction) : Prop :=
  ∃ e ∈ subjectEnd flow d, ∃ pod ∈ podAt lookup e,
    pod.ns = policy.ns ∧ api.Admits policy.spec.podSelector pod.labels

/-- A cluster policy protects pods by the labels of their namespace. -/
def AppliesCluster (policy : AuditClusterNetworkPolicy) (flow : Flow) (d : Direction) : Prop :=
  ∃ e ∈ subjectEnd flow d, ∃ pod ∈ podAt lookup e,
    (∀ sel ∈ policy.spec.namespaceSelector,
      ∃ lbls ∈ lookup.getNamespaceLabels pod.ns, api.Admits sel lbls) ∧
      api.Admits policy.spec.podSelector pod.labels

end

/-- The verdict that follows from whether the policy applies to the flow and
whether its rules allow it. -/
structure Decides (v : Verdict) (applies allowed : Prop) : Prop where
  notApplicable : v = .notApplicable ↔ ¬ applies
  allow : v = .allow ↔ applies ∧ allowed
  wouldDeny : v = .wouldDeny ↔ applies ∧ ¬ allowed

theorem Decides.eq_iff {v v' : Verdict} {applies allowed applies' allowed' : Prop}
    (h : Decides v applies allowed) (h' : Decides v' applies' allowed')
    (happlies : applies ↔ applies') : v = v' ↔ (applies' → (allowed ↔ allowed')) := by
  by_cases ha : applies'
  · have hv := h.allow
    have hv' := h'.allow
    have hw := h.wouldDeny
    have hw' := h'.wouldDeny
    simp only [happlies, ha, true_and] at hv hv' hw hw'
    constructor
    · intro heq _
      rw [← hv, ← hv', heq]
    · intro hiff
      by_cases hb : allowed'
      · rw [hv.mpr ((hiff ha).mpr hb), hv'.mpr hb]
      · rw [hw.mpr fun hc => hb ((hiff ha).mp hc), hw'.mpr hb]
  · rw [h.notApplicable.mpr fun hc => ha (happlies.mp hc), h'.notApplicable.mpr ha]
    exact iff_of_true rfl fun hc => absurd hc ha

/-- The common shape of both matchers: no verdict without a subject that passes
the gate, and otherwise what the rules say. -/
def gatedVerdict (subject : Option Pod) (gate : Pod → Bool) (allowed : Bool) : Verdict :=
  if subject.any gate then (if allowed then .allow else .wouldDeny) else .notApplicable

theorem decides_gatedVerdict {subject : Option Pod} {gate : Pod → Bool} {rules : Bool}
    {applies allowed : Prop} (happlies : applies ↔ ∃ pod ∈ subject, gate pod = true)
    (hallowed : applies → (rules = true ↔ allowed)) :
    Decides (gatedVerdict subject gate rules) applies allowed := by
  have hgate : applies ↔ subject.any gate = true := by
    rw [happlies, Option.any_eq_true_iff_get]
    cases subject <;> simp
  cases hg : subject.any gate with
  | false =>
      have hnot : ¬ applies := by simp [hgate, hg]
      constructor <;> simp [gatedVerdict, hg, hnot]
  | true =>
      have hyes : applies := hgate.mpr hg
      cases rules with
      | false =>
          have hno : ¬ allowed := fun hc => Bool.false_ne_true ((hallowed hyes).mpr hc)
          constructor <;> simp [gatedVerdict, hg, hyes, hno]
      | true =>
          have hok : allowed := (hallowed hyes).mp rfl
          constructor <;> simp [gatedVerdict, hg, hyes, hok]

section Matching

variable {api : Apimachinery} (hapi : api.Documented)
include hapi

theorem selectorMatchesLabels_iff (sel : LabelSelector) (lbls : Labels) :
    selectorMatchesLabels api sel lbls = true ↔ api.Admits sel lbls := by
  by_cases hwf : api.WellFormed sel
  · obtain ⟨s, hs, hmatch⟩ := hapi.accepts sel hwf
    simp only [selectorMatchesLabels, hs, hmatch, Apimachinery.Admits, hwf, true_and]
  · obtain ⟨e, he⟩ := hapi.rejects sel hwf
    simp only [selectorMatchesLabels, he, Apimachinery.Admits, hwf, false_and,
      Bool.false_eq_true]

omit hapi in
theorem except_iff (exStr : String) (addr : IP) :
    (match parseCIDR exStr with
      | none => true
      | some ex => !ex.contains addr) = true ↔ ¬ CIDRCovers exStr addr := by
  rw [← contains_parseCIDR_iff]
  cases parseCIDR exStr with
  | none => simp
  | some ex => simp

omit hapi in
theorem ipBlockMatches_iff (ip : String) (block : IPBlock) :
    ipBlockMatches ip block = true ↔ BlockHolds block ip := by
  have hempty : parseIP "" = none := by decide
  by_cases hip : ip = ""
  · subst hip
    simp [ipBlockMatches, BlockHolds, hempty]
  cases haddr : parseIP ip with
  | none => simp [ipBlockMatches, BlockHolds, hip, haddr]
  | some addr =>
      have hcovers := contains_parseCIDR_iff block.cidr addr
      cases hallow : parseCIDR block.cidr with
      | none =>
          have hnot : ¬ CIDRCovers block.cidr addr := by
            rw [← hcovers, hallow]
            simp
          simp [ipBlockMatches, BlockHolds, hip, haddr, hallow, hnot]
      | some allow =>
          have hallows : allow.contains addr = true ↔ CIDRCovers block.cidr addr := by
            rw [← hcovers, hallow]
            simp
          simp only [ipBlockMatches, BlockHolds, hip, haddr, hallow, if_false,
            Option.some.injEq, exists_eq_left', ← hallows, ← except_iff]
          cases allow.contains addr with
          | true => exact List.all_eq_true.trans (and_iff_right rfl).symm
          | false => simp

omit hapi in
theorem subjectPod_eq (flow : Flow) (d : Direction) (lookup : Lookup) :
    subjectPod flow d lookup = (subjectEnd flow d).bind (podAt lookup) := by
  cases d <;> rfl

omit hapi in
theorem peerPod_eq (flow : Flow) (d : Direction) (lookup : Lookup) :
    peerPod flow d lookup = (otherEnd flow d).bind (podAt lookup) := by
  cases d <;> rfl

theorem namespaceGate_iff (lookup : Lookup) (ns : String) (sel : LabelSelector) :
    (match lookup.getNamespaceLabels ns with
      | none => false
      | some nsLabels => selectorMatchesLabels api sel nsLabels) = true ↔
      ∃ lbls ∈ lookup.getNamespaceLabels ns, api.Admits sel lbls := by
  cases lookup.getNamespaceLabels ns with
  | none => simp
  | some nsLabels => simp [selectorMatchesLabels_iff hapi]

theorem podSelector_iff (sel : Option LabelSelector) (lbls : Labels) :
    (match sel with
      | none => true
      | some sel => selectorMatchesLabels api sel lbls) = true ↔
      ∀ s ∈ sel, api.Admits s lbls := by
  cases sel with
  | none => simp
  | some s => simp [selectorMatchesLabels_iff hapi]

/-- The selector branch of `peerEntryMatches`, for a pod that was found. -/
theorem selectors_iff (lookup : Lookup) (home : String) (entry : NetworkPolicyPeer)
    (hblock : entry.ipBlock = none) (flow : Flow) (d : Direction)
    (hhome : subjectNamespace flow d = home) (pod : Pod) :
    peerEntryMatches api (some pod) flow d entry lookup = true ↔
      SelectorsAdmit api lookup home entry pod := by
  have hpods := podSelector_iff hapi entry.podSelector pod.labels
  cases hns : entry.namespaceSelector with
  | none =>
      have hstruct : SelectorsAdmit api lookup home entry pod ↔
          pod.ns = home ∧ ∀ s ∈ entry.podSelector, api.Admits s pod.labels :=
        ⟨fun h => ⟨h.home hns, h.pods⟩, fun h => ⟨fun _ => h.1, by simp [hns], h.2⟩⟩
      rw [hstruct, ← hpods]
      by_cases hsame : pod.ns = home
      · cases hsel : entry.podSelector <;>
          simp [peerEntryMatches, hblock, hns, hhome, hsame, hsel]
      · simp [peerEntryMatches, hblock, hns, hhome, hsame]
  | some sel =>
      have hgate := namespaceGate_iff hapi lookup pod.ns sel
      have hstruct : SelectorsAdmit api lookup home entry pod ↔
          (∃ lbls ∈ lookup.getNamespaceLabels pod.ns, api.Admits sel lbls) ∧
            ∀ s ∈ entry.podSelector, api.Admits s pod.labels :=
        ⟨fun h => ⟨h.namespaces sel hns, h.pods⟩,
          fun h => ⟨by simp [hns], by simpa [hns] using h.1, h.2⟩⟩
      rw [hstruct, ← hpods, ← hgate]
      simp only [peerEntryMatches, hblock, hns]
      cases lookup.getNamespaceLabels pod.ns with
      | none => simp
      | some nsLabels =>
          cases hm : selectorMatchesLabels api sel nsLabels with
          | true => cases entry.podSelector <;> simp [hm]
          | false => simp [hm]

theorem peerEntryMatches_iff (flow : Flow) (d : Direction) (entry : NetworkPolicyPeer)
    (lookup : Lookup) :
    peerEntryMatches api (peerPod flow d lookup) flow d entry lookup = true ↔
      ∃ e ∈ otherEnd flow d, PeerAdmits api lookup (subjectNamespace flow d) e entry := by
  rw [peerPod_eq]
  cases hblock : entry.ipBlock with
  | some block =>
      simp only [peerEntryMatches, hblock, ipBlockMatches_iff, PeerAdmits]
      cases d with
      | ingress => simp [otherEnd, peerIP, source]
      | egress => simp [otherEnd, peerIP, destination]
      | other name =>
          have hempty : parseIP "" = none := by decide
          simp [otherEnd, peerIP, BlockHolds, hempty]
  | none =>
      have hsel := selectors_iff hapi lookup (subjectNamespace flow d) entry hblock flow d rfl
      cases he : otherEnd flow d with
      | none => simp [peerEntryMatches, hblock]
      | some e =>
          simp only [PeerAdmits, hblock, Option.bind_some, Option.mem_def, Option.some.injEq,
            exists_eq_left']
          cases hpod : podAt lookup e with
          | none => simp [peerEntryMatches, hblock]
          | some pod => simp only [hsel, Option.some.injEq, exists_eq_left']

omit hapi in
theorem namedPortMatches_iff (name proto : String) (observed : ℤ) (pod : Option Pod) :
    namedPortMatches name proto observed pod = true ↔
      ∃ p ∈ pod, NamedPort name proto observed p := by
  cases pod with
  | none => simp [namedPortMatches]
  | some pod =>
      by_cases hname : name = ""
      · simp [namedPortMatches, NamedPort, hname]
      · simp [namedPortMatches, NamedPort, hname, and_assoc]

omit hapi in
theorem portEntryMatches_iff (flow : Flow) (entry : NetworkPolicyPort) (lookup : Lookup) :
    portEntryMatches flow entry (portTargetPod flow lookup) = true ↔
      PortAdmits lookup flow entry := by
  by_cases hproto : entry.protocol.getD "TCP" = flow.protocol
  · cases hport : entry.port with
    | none => simp [portEntryMatches, PortAdmits, hproto, hport]
    | some port =>
        cases port with
        | int v => cases hend : entry.endPort <;>
            simp [portEntryMatches, PortAdmits, hproto, hport, hend]
        | str name =>
            simp only [portEntryMatches, PortAdmits, hproto, hport, ne_eq, not_true_eq_false,
              if_false, namedPortMatches_iff, true_and]
            rfl
  · simp [portEntryMatches, PortAdmits, hproto]

theorem ruleMatches_iff (flow : Flow) (d : Direction) (rule : PolicyRule) (lookup : Lookup) :
    ruleMatches api flow d rule lookup = true ↔
      OpenOr (fun entry => ∃ e ∈ otherEnd flow d,
        PeerAdmits api lookup (subjectNamespace flow d) e entry) rule.peers ∧
      OpenOr (PortAdmits lookup flow) rule.ports := by
  simp only [ruleMatches, peerListMatches, portsMatch, Bool.and_eq_true, openOr_iff_any,
    openOr_congr (peerEntryMatches_iff hapi flow d · lookup),
    openOr_congr (portEntryMatches_iff flow · lookup)]

theorem any_ruleMatches_iff (flow : Flow) (d : Direction) (rules : List PolicyRule)
    (lookup : Lookup) :
    rules.any (fun rule => ruleMatches api flow d rule lookup) = true ↔
      Permits (fun entry => ∃ e ∈ otherEnd flow d,
        PeerAdmits api lookup (subjectNamespace flow d) e entry)
        (PortAdmits lookup flow) rules := by
  simp only [List.any_eq_true, ruleMatches_iff hapi, Permits]

/-- Default-deny is what an empty rule list says anyway. -/
theorem evaluateRuleLists_iff (flow : Flow) (spec : NetworkPolicySpec) (d : Direction)
    (lookup : Lookup) :
    (evaluateRuleLists api flow spec.ingress spec.egress d lookup).1 = true ↔
      Allowed api lookup (subjectNamespace flow d) spec flow d := by
  have hany := fun rules => any_ruleMatches_iff hapi flow d rules lookup
  cases d with
  | ingress =>
      rw [Allowed, rulesFor, ← hany]
      by_cases hnil : spec.ingress = []
      · simp [evaluateRuleLists, hnil]
      · simp only [evaluateRuleLists, hnil, if_false]
        split <;> simp_all
  | egress =>
      rw [Allowed, rulesFor, ← hany]
      by_cases hnil : spec.egress = []
      · simp [evaluateRuleLists, hnil]
      · simp only [evaluateRuleLists, hnil, if_false]
        split <;> simp_all
  | other name =>
      simp only [evaluateRuleLists, Allowed, rulesFor, not_permits_nil, Bool.false_eq_true]

omit hapi in
theorem subjectNamespace_of_mem (flow : Flow) (d : Direction) (lookup : Lookup)
    (hlookup : lookup.Sound) (e : Endpoint) (he : e ∈ subjectEnd flow d) (pod : Pod)
    (hpod : pod ∈ podAt lookup e) : subjectNamespace flow d = pod.ns := by
  have hns : pod.ns = e.ns := (hlookup e.ns e.name pod hpod).1
  rw [hns]
  cases d with
  | ingress => rw [← Option.some.inj he]; rfl
  | egress => rw [← Option.some.inj he]; rfl
  | other name => exact absurd he (by simp [subjectEnd])

omit hapi in
theorem verdict_matchDirection (flow : Flow) (policy : AuditNetworkPolicy) (lookup : Lookup)
    (d : Direction) :
    (matchDirection api flow policy lookup d).verdict =
      gatedVerdict (subjectPod flow d lookup)
        (fun pod => pod.ns = policy.ns &&
          selectorMatchesLabels api policy.spec.podSelector pod.labels)
        (evaluateRules api flow policy d lookup).1 := by
  cases hsubject : subjectPod flow d lookup with
  | none => simp [matchDirection, hsubject, gatedVerdict, AuditNetworkPolicy.result]
  | some pod =>
      by_cases hns : pod.ns = policy.ns
      · cases hm : selectorMatchesLabels api policy.spec.podSelector pod.labels with
        | false => simp [matchDirection, hsubject, gatedVerdict, hns, hm,
            AuditNetworkPolicy.result]
        | true =>
            rcases hrules : evaluateRules api flow policy d lookup with ⟨_ | _, reason⟩ <;>
              simp [matchDirection, hsubject, gatedVerdict, hns, hm, hrules,
                AuditNetworkPolicy.result]
      · simp [matchDirection, hsubject, gatedVerdict, hns, AuditNetworkPolicy.result]

theorem matchDirection_decides (flow : Flow) (policy : AuditNetworkPolicy) (lookup : Lookup)
    (hlookup : lookup.Sound) (d : Direction) :
    Decides (matchDirection api flow policy lookup d).verdict
      (Applies api lookup policy flow d) (Allowed api lookup policy.ns policy.spec flow d) := by
  rw [verdict_matchDirection]
  apply decides_gatedVerdict
  · rw [subjectPod_eq]
    cases he : subjectEnd flow d <;>
      simp [Applies, he, selectorMatchesLabels_iff hapi]
  · intro h
    obtain ⟨e, he, pod, hpod, hns, -⟩ := h
    have hrules := evaluateRuleLists_iff hapi flow policy.spec d lookup
    rwa [subjectNamespace_of_mem flow d lookup hlookup e he pod hpod, hns] at hrules

omit hapi in
theorem verdict_matchClusterDirection (flow : Flow) (policy : AuditClusterNetworkPolicy)
    (lookup : Lookup) (d : Direction) :
    (matchClusterDirection api flow policy lookup d).verdict =
      gatedVerdict (subjectPod flow d lookup)
        (fun pod => namespaceGateCluster api policy.spec pod lookup &&
          selectorMatchesLabels api policy.spec.podSelector pod.labels)
        (evaluateRulesCluster api flow policy d lookup).1 := by
  cases hsubject : subjectPod flow d lookup with
  | none => simp [matchClusterDirection, hsubject, gatedVerdict,
      AuditClusterNetworkPolicy.result]
  | some pod =>
      cases hns : namespaceGateCluster api policy.spec pod lookup with
      | false => simp [matchClusterDirection, hsubject, gatedVerdict, hns,
          AuditClusterNetworkPolicy.result]
      | true =>
          cases hm : selectorMatchesLabels api policy.spec.podSelector pod.labels with
          | false => simp [matchClusterDirection, hsubject, gatedVerdict, hns, hm,
              AuditClusterNetworkPolicy.result]
          | true =>
              rcases hrules : evaluateRulesCluster api flow policy d lookup with
                ⟨_ | _, reason⟩ <;>
              simp [matchClusterDirection, hsubject, gatedVerdict, hns, hm, hrules,
                AuditClusterNetworkPolicy.result]

theorem namespaceGateCluster_iff (spec : ClusterNetworkPolicySpec) (pod : Pod)
    (lookup : Lookup) :
    namespaceGateCluster api spec pod lookup = true ↔
      ∀ sel ∈ spec.namespaceSelector,
        ∃ lbls ∈ lookup.getNamespaceLabels pod.ns, api.Admits sel lbls := by
  cases hns : spec.namespaceSelector with
  | none => simp [namespaceGateCluster, hns]
  | some sel =>
      have hgate := namespaceGate_iff hapi lookup pod.ns sel
      simp only [namespaceGateCluster, hns, Option.mem_def, Option.some.injEq, forall_eq']
      exact hgate

theorem matchClusterDirection_decides (flow : Flow) (policy : AuditClusterNetworkPolicy)
    (lookup : Lookup) (d : Direction) :
    Decides (matchClusterDirection api flow policy lookup d).verdict
      (AppliesCluster api lookup policy flow d)
      (Allowed api lookup (subjectNamespace flow d) policy.spec.toNetworkPolicySpec flow d) := by
  rw [verdict_matchClusterDirection]
  apply decides_gatedVerdict
  · rw [subjectPod_eq]
    cases he : subjectEnd flow d with
    | none => simp [AppliesCluster, he]
    | some e =>
        simp only [AppliesCluster, he, Option.mem_def, Option.some.injEq, exists_eq_left',
          Option.bind_some, Bool.and_eq_true, namespaceGateCluster_iff hapi,
          selectorMatchesLabels_iff hapi]
  · intro _
    exact evaluateRuleLists_iff hapi flow policy.spec.toNetworkPolicySpec d lookup

end Matching

/-! The directions, listed once each. -/

theorem mem_dedupLoop (types : List PolicyType) (sawIngress sawEgress : Bool) (d : Direction) :
    d ∈ dedupLoop sawIngress sawEgress types ↔
      d ∈ types ∧ (d = .ingress → sawIngress = false) ∧ (d = .egress → sawEgress = false) := by
  induction types generalizing sawIngress sawEgress with
  | nil => simp [dedupLoop]
  | cons t rest ih =>
      cases t with
      | ingress =>
          cases sawIngress with
          | true => simp only [dedupLoop, if_true, ih, List.mem_cons]; grind
          | false =>
              simp only [dedupLoop, Bool.false_eq_true, if_false, List.mem_cons, ih]
              grind
      | egress =>
          cases sawEgress with
          | true => simp only [dedupLoop, if_true, ih, List.mem_cons]; grind
          | false =>
              simp only [dedupLoop, Bool.false_eq_true, if_false, List.mem_cons, ih]
              grind
      | other name => simp only [dedupLoop, List.mem_cons, ih]; grind

/-- The two types that name a direction. Others are never remembered by the loop
and can repeat. -/
def isKnown : PolicyType → Bool
  | .ingress | .egress => true
  | .other _ => false

theorem nodup_dedupLoop (types : List PolicyType) (sawIngress sawEgress : Bool) :
    ((dedupLoop sawIngress sawEgress types).filter isKnown).Nodup := by
  induction types generalizing sawIngress sawEgress with
  | nil => exact List.nodup_nil
  | cons t rest ih =>
      cases t with
      | ingress =>
          cases sawIngress with
          | true => exact ih true sawEgress
          | false =>
              refine List.nodup_cons.mpr ⟨?_, ih true sawEgress⟩
              simp [mem_dedupLoop]
      | egress =>
          cases sawEgress with
          | true => exact ih sawIngress true
          | false =>
              refine List.nodup_cons.mpr ⟨?_, ih sawIngress true⟩
              simp [mem_dedupLoop]
      | other name => exact ih sawIngress sawEgress

theorem nodup_dedupPolicyTypes (types : List PolicyType) :
    ((dedupPolicyTypes types).filter isKnown).Nodup := by
  rw [dedupPolicyTypes]
  split
  · rename_i hshort
    match types, hshort with
    | [], _ => exact List.nodup_nil
    | [t], _ => exact (List.nodup_singleton t).filter isKnown
  · exact nodup_dedupLoop types false false

theorem mem_dedupPolicyTypes (types : List PolicyType) (d : Direction) :
    d ∈ dedupPolicyTypes types ↔ d ∈ types := by
  rw [dedupPolicyTypes]
  split
  · rfl
  · simp [mem_dedupLoop]

theorem mem_effectiveTypes (policyTypes : List PolicyType) (egress : List PolicyRule)
    (d : Direction) : d ∈ effectiveTypes policyTypes egress ↔ Restricts policyTypes egress d := by
  by_cases hnil : policyTypes = []
  · by_cases hegress : egress = [] <;> simp [effectiveTypes, Restricts, hnil, hegress]
  · simp [effectiveTypes, Restricts, hnil, mem_dedupPolicyTypes]

theorem nodup_effectiveTypes (policyTypes : List PolicyType) (egress : List PolicyRule) :
    ((effectiveTypes policyTypes egress).filter isKnown).Nodup := by
  by_cases hnil : policyTypes = []
  · rw [effectiveTypes, if_neg (not_not.mpr hnil)]
    split <;> decide
  · simpa [effectiveTypes, hnil] using nodup_dedupPolicyTypes policyTypes

@[simp] theorem direction_matchDirection (api : Apimachinery) (flow : Flow)
    (policy : AuditNetworkPolicy) (lookup : Lookup) (d : Direction) :
    (matchDirection api flow policy lookup d).direction = d := by
  unfold matchDirection
  repeat' split
  all_goals rfl

@[simp] theorem direction_matchClusterDirection (api : Apimachinery) (flow : Flow)
    (policy : AuditClusterNetworkPolicy) (lookup : Lookup) (d : Direction) :
    (matchClusterDirection api flow policy lookup d).direction = d := by
  unfold matchClusterDirection
  repeat' split
  all_goals rfl

theorem directions_matchPolicy (api : Apimachinery) (flow : Flow) (policy : AuditNetworkPolicy)
    (lookup : Lookup) :
    (matchPolicy api flow policy lookup).map Result.direction =
      effectivePolicyTypes policy.spec := by
  simp [matchPolicy, Function.comp_def]

/-- The verdict for one direction. -/
def verdictIn (d : Direction) (results : List Result) : Verdict :=
  ((results.find? fun r => r.direction = d).map Result.verdict).getD .notApplicable

theorem verdictIn_matchPolicy (api : Apimachinery) (flow : Flow) (policy : AuditNetworkPolicy)
    (lookup : Lookup) (d : Direction) (hd : d ∈ effectivePolicyTypes policy.spec) :
    verdictIn d (matchPolicy api flow policy lookup) =
      (matchDirection api flow policy lookup d).verdict := by
  have hcomp : ((fun r : Result => decide (r.direction = d)) ∘
      matchDirection api flow policy lookup) = fun t => decide (t = d) := by
    funext t
    simp
  have hsome : ((effectivePolicyTypes policy.spec).find? fun t => decide (t = d)).isSome = true :=
    List.find?_isSome.mpr ⟨d, hd, decide_eq_true rfl⟩
  obtain ⟨t, ht⟩ := Option.isSome_iff_exists.mp hsome
  have htd : t = d := by simpa using List.find?_some ht
  rw [verdictIn, matchPolicy, List.find?_map, hcomp, ht, htd, Option.map_some, Option.map_some,
    Option.getD_some]

theorem verdictIn_of_not_mem (api : Apimachinery) (flow : Flow) (policy : AuditNetworkPolicy)
    (lookup : Lookup) (d : Direction) (hd : d ∉ effectivePolicyTypes policy.spec) :
    verdictIn d (matchPolicy api flow policy lookup) = .notApplicable := by
  have hnone : (matchPolicy api flow policy lookup).find? (fun r => r.direction = d) = none := by
    rw [List.find?_eq_none]
    intro r hr hdirection
    refine hd ?_
    rw [← directions_matchPolicy api flow policy lookup]
    exact List.mem_map.mpr ⟨r, hr, of_decide_eq_true hdirection⟩
  rw [verdictIn, hnone]
  rfl

/-- The policy allows a flow in a direction that it restricts, when it protects
the subject and its rules permit the flow. -/
theorem verdictIn_eq_allow_iff {api : Apimachinery} (hapi : api.Documented) (flow : Flow)
    (policy : AuditNetworkPolicy) (lookup : Lookup) (hlookup : lookup.Sound) (d : Direction) :
    verdictIn d (matchPolicy api flow policy lookup) = .allow ↔
      Restricts policy.spec.policyTypes policy.spec.egress d ∧
        Applies api lookup policy flow d ∧ Allowed api lookup policy.ns policy.spec flow d := by
  by_cases hd : d ∈ effectivePolicyTypes policy.spec
  · rw [verdictIn_matchPolicy api flow policy lookup d hd,
      (matchDirection_decides hapi flow policy lookup hlookup d).allow]
    exact (and_iff_right ((mem_effectiveTypes _ _ _).mp hd)).symm
  · rw [verdictIn_of_not_mem api flow policy lookup d hd]
    exact iff_of_false (by simp) fun h => hd ((mem_effectiveTypes _ _ _).mpr h.1)

/-- It denies a flow when its rules do not permit it. -/
theorem verdictIn_eq_wouldDeny_iff {api : Apimachinery} (hapi : api.Documented) (flow : Flow)
    (policy : AuditNetworkPolicy) (lookup : Lookup) (hlookup : lookup.Sound) (d : Direction) :
    verdictIn d (matchPolicy api flow policy lookup) = .wouldDeny ↔
      Restricts policy.spec.policyTypes policy.spec.egress d ∧
        Applies api lookup policy flow d ∧ ¬ Allowed api lookup policy.ns policy.spec flow d := by
  by_cases hd : d ∈ effectivePolicyTypes policy.spec
  · rw [verdictIn_matchPolicy api flow policy lookup d hd,
      (matchDirection_decides hapi flow policy lookup hlookup d).wouldDeny]
    exact (and_iff_right ((mem_effectiveTypes _ _ _).mp hd)).symm
  · rw [verdictIn_of_not_mem api flow policy lookup d hd]
    exact iff_of_false (by simp) fun h => hd ((mem_effectiveTypes _ _ _).mpr h.1)

/-- The matcher gives one verdict for each direction that the policy restricts,
and it is the verdict that the policy means. -/
theorem matchPolicy_decides (api : Apimachinery) (hapi : api.Documented) (flow : Flow)
    (policy : AuditNetworkPolicy) (lookup : Lookup) (hlookup : lookup.Sound)
    (hknown : ∀ t ∈ policy.spec.policyTypes, t = .ingress ∨ t = .egress) :
    ((matchPolicy api flow policy lookup).map Result.direction).Nodup ∧
    (∀ d, d ∈ (matchPolicy api flow policy lookup).map Result.direction ↔
      Restricts policy.spec.policyTypes policy.spec.egress d) ∧
    ∀ r ∈ matchPolicy api flow policy lookup,
      Decides r.verdict (Applies api lookup policy flow r.direction)
        (Allowed api lookup policy.ns policy.spec flow r.direction) := by
  refine ⟨?_, ?_, ?_⟩
  · have hnodup := nodup_effectiveTypes policy.spec.policyTypes policy.spec.egress
    rw [List.filter_eq_self.mpr] at hnodup
    · rwa [directions_matchPolicy]
    · intro d hd
      rcases (mem_effectiveTypes _ _ _).mp hd with hlisted | ⟨-, rfl | ⟨rfl, -⟩⟩
      · rcases hknown d hlisted with rfl | rfl <;> rfl
      · rfl
      · rfl
  · intro d
    rw [directions_matchPolicy]
    exact mem_effectiveTypes policy.spec.policyTypes policy.spec.egress d
  · intro r hr
    obtain ⟨d, -, rfl⟩ := List.mem_map.mp hr
    rw [direction_matchDirection]
    exact matchDirection_decides hapi flow policy lookup hlookup d

/-! A shop in which the api admits the web frontend on its named port. -/

def webPod : Pod := ⟨"shop", "web-0", Labels.ofList [("app", "web")], []⟩

def apiPod : Pod :=
  ⟨"shop", "api-0", Labels.ofList [("app", "api")], [⟨[⟨"http", "TCP", 8080⟩]⟩]⟩

def shop : Lookup :=
  .ofLists [webPod, apiPod]
    [("shop", Labels.ofList [("kubernetes.io/metadata.name", "shop")])]

def selectApp (app : String) : LabelSelector := ofMatchLabels (Labels.ofList [("app", app)])

def apiPolicy : AuditNetworkPolicy :=
  ⟨"shop", "api", "7f1c", 1, selectApp "api", [.ingress],
    [⟨[⟨some (selectApp "web"), none, none⟩], [⟨none, some (.str "http"), none⟩]⟩], []⟩

def webToApi : Flow :=
  ⟨"shop", "web-0", "shop", "api-0", "10.0.0.7", "10.0.0.8", 8080, "TCP"⟩

theorem apiPolicy_allows_web :
    (matchPolicy reference webToApi apiPolicy shop).map
      (fun r => (r.direction, r.verdict)) = [(.ingress, .allow)] ∧
    ∀ r ∈ matchPolicy reference webToApi apiPolicy shop,
      Decides r.verdict (Applies reference shop apiPolicy webToApi r.direction)
        (Allowed reference shop "shop" apiPolicy.spec webToApi r.direction) :=
  ⟨by decide, (matchPolicy_decides reference reference_documented webToApi apiPolicy shop
    (Lookup.ofLists_sound _ _) (by decide)).2.2⟩

end KGuardian.PolicySemantics
