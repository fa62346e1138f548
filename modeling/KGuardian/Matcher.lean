import KGuardian.AllowLists
import KGuardian.NetAddr
import KGuardian.Selectors

/-!
The matcher of the evaluator (`pkg/matcher`): whether an observed flow would be
denied by an audit policy. Definitions follow the source function by function.
Timestamps are left out, since no verdict reads them.
-/
namespace KGuardian.Matcher

open AllowLists NetAddr Selectors

structure ContainerPort where
  name : String
  protocol : String
  containerPort : ℤ
  deriving DecidableEq

structure Container where
  ports : List ContainerPort
  deriving DecidableEq

/-- The fields of a pod that the matcher reads. -/
structure Pod where
  ns : String
  name : String
  labels : Labels
  containers : List Container
  deriving DecidableEq

structure IPBlock where
  cidr : String
  excepts : List String
  deriving DecidableEq

structure NetworkPolicyPeer where
  podSelector : Option LabelSelector
  namespaceSelector : Option LabelSelector
  ipBlock : Option IPBlock
  deriving DecidableEq

/-- The type `intstr.IntOrString`, by its `Type` field. -/
inductive IntOrString where
  | int (v : ℤ)
  | str (v : String)
  deriving DecidableEq

structure NetworkPolicyPort where
  protocol : Option String
  port : Option IntOrString
  endPort : Option ℤ
  deriving DecidableEq

/-- An ingress rule (`From`, `Ports`) or an egress rule (`To`, `Ports`). -/
abbrev PolicyRule := Rule NetworkPolicyPeer NetworkPolicyPort

inductive PolicyType where
  | ingress
  | egress
  | other (name : String)
  deriving DecidableEq, Repr

/-- The matcher converts a policy type to a direction without changing it. -/
abbrev Direction := PolicyType

structure NetworkPolicySpec where
  podSelector : LabelSelector
  policyTypes : List PolicyType
  ingress : List PolicyRule
  egress : List PolicyRule
  deriving DecidableEq

structure ClusterNetworkPolicySpec extends NetworkPolicySpec where
  namespaceSelector : Option LabelSelector
  deriving DecidableEq

structure AuditNetworkPolicy where
  ns : String
  name : String
  uid : String
  generation : ℤ
  spec : NetworkPolicySpec
  deriving DecidableEq

structure AuditClusterNetworkPolicy where
  name : String
  uid : String
  generation : ℤ
  spec : ClusterNetworkPolicySpec
  deriving DecidableEq

structure Flow where
  srcPodNamespace : String
  srcPodName : String
  dstPodNamespace : String
  dstPodName : String
  srcIP : String
  dstIP : String
  dstPort : ℤ
  protocol : String
  deriving DecidableEq

inductive Verdict where
  | notApplicable
  | allow
  | wouldDeny
  deriving DecidableEq, Repr

structure Result where
  policyNamespace : String
  policyName : String
  policyUID : String
  policyGeneration : ℤ
  direction : Direction
  verdict : Verdict
  reason : String
  deriving DecidableEq

/-- The reads of the informer caches. `none` is Go's `nil`: an unknown object. -/
structure Lookup where
  getPod : String → String → Option Pod
  getNamespaceLabels : String → Option Labels

/-- A pod is only found under its own namespace and name. -/
def Lookup.Sound (lookup : Lookup) : Prop :=
  ∀ ns name pod, lookup.getPod ns name = some pod → pod.ns = ns ∧ pod.name = name

/-- A lookup over listed pods and namespaces. -/
def Lookup.ofLists (pods : List Pod) (namespaces : List (String × Labels)) : Lookup where
  getPod ns name := pods.find? fun p => p.ns = ns ∧ p.name = name
  getNamespaceLabels name := (namespaces.find? fun e => e.1 = name).map Prod.snd

theorem Lookup.ofLists_sound (pods : List Pod) (namespaces : List (String × Labels)) :
    (Lookup.ofLists pods namespaces).Sound := by
  intro ns name pod hpod
  simpa using List.find?_some hpod

variable (api : Apimachinery)

/-- A selector that does not compile matches nothing. -/
def selectorMatchesLabels (sel : LabelSelector) (lbls : Labels) : Bool :=
  match api.labelSelectorAsSelector sel with
  | .error _ => false
  | .ok s => api.matchesLabels s lbls

def ipBlockMatches (ip : String) (block : IPBlock) : Bool :=
  if ip = "" then false
  else
    match parseIP ip with
    | none => false
    | some addr =>
        match parseCIDR block.cidr with
        | none => false
        | some allow =>
            if !allow.contains addr then false
            else block.excepts.all fun exStr =>
              match parseCIDR exStr with
              | none => true
              | some ex => !ex.contains addr

def peerIP (flow : Flow) : Direction → String
  | .ingress => flow.srcIP
  | .egress => flow.dstIP
  | .other _ => ""

def subjectPod (flow : Flow) (dir : Direction) (lookup : Lookup) : Option Pod :=
  match dir with
  | .ingress => lookup.getPod flow.dstPodNamespace flow.dstPodName
  | .egress => lookup.getPod flow.srcPodNamespace flow.srcPodName
  | .other _ => none

def peerPod (flow : Flow) (dir : Direction) (lookup : Lookup) : Option Pod :=
  match dir with
  | .ingress => lookup.getPod flow.srcPodNamespace flow.srcPodName
  | .egress => lookup.getPod flow.dstPodNamespace flow.dstPodName
  | .other _ => none

/-- Ports always describe the listener, so both directions read the
destination pod. -/
def portTargetPod (flow : Flow) (lookup : Lookup) : Option Pod :=
  lookup.getPod flow.dstPodNamespace flow.dstPodName

/-- The namespace that a peer without a namespaceSelector must share. -/
def subjectNamespace (flow : Flow) : Direction → String
  | .ingress => flow.dstPodNamespace
  | .egress => flow.srcPodNamespace
  | .other _ => ""

def peerEntryMatches (peer : Option Pod) (flow : Flow) (dir : Direction)
    (p : NetworkPolicyPeer) (lookup : Lookup) : Bool :=
  match p.ipBlock with
  | some block => ipBlockMatches (peerIP flow dir) block
  | none =>
      match peer with
      | none => false
      | some peer =>
          let namespaceGate :=
            match p.namespaceSelector with
            | some sel =>
                match lookup.getNamespaceLabels peer.ns with
                | none => false
                | some nsLabels => selectorMatchesLabels api sel nsLabels
            | none => peer.ns = subjectNamespace flow dir
          if !namespaceGate then false
          else
            match p.podSelector with
            | none => true
            | some sel => selectorMatchesLabels api sel peer.labels

def peerListMatches (flow : Flow) (dir : Direction) (peers : List NetworkPolicyPeer)
    (lookup : Lookup) : Bool :=
  peers.isEmpty ||
    peers.any fun p => peerEntryMatches api (peerPod flow dir lookup) flow dir p lookup

def namedPortMatches (name proto : String) (observed : ℤ) (pod : Option Pod) : Bool :=
  match pod with
  | none => false
  | some pod =>
      if name = "" then false
      else pod.containers.any fun c => c.ports.any fun cp =>
        cp.name = name && (if cp.protocol = "" then "TCP" else cp.protocol) = proto &&
          cp.containerPort = observed

def portEntryMatches (flow : Flow) (p : NetworkPolicyPort) (dstPod : Option Pod) : Bool :=
  let wantProto := p.protocol.getD "TCP"
  if wantProto ≠ flow.protocol then false
  else
    match p.port with
    | none => true
    | some (.int port) =>
        match p.endPort with
        | some endPort => port ≤ flow.dstPort && flow.dstPort ≤ endPort
        | none => flow.dstPort = port
    | some (.str name) => namedPortMatches name wantProto flow.dstPort dstPod

def portsMatch (flow : Flow) (ports : List NetworkPolicyPort) (dstPod : Option Pod) : Bool :=
  ports.isEmpty || ports.any fun p => portEntryMatches flow p dstPod

def ruleMatches (flow : Flow) (dir : Direction) (rule : PolicyRule) (lookup : Lookup) : Bool :=
  peerListMatches api flow dir rule.peers lookup &&
    portsMatch flow rule.ports (portTargetPod flow lookup)

/-- The common body of `evaluateRules` and `evaluateRulesCluster`, which read
the same two rule lists from different structs. -/
def evaluateRuleLists (flow : Flow) (ingress egress : List PolicyRule) (dir : Direction)
    (lookup : Lookup) : Bool × String :=
  match dir with
  | .ingress =>
      if ingress = [] then (false, "policy has no ingress rules — default-deny")
      else if ingress.any fun rule => ruleMatches api flow dir rule lookup then (true, "")
      else (false, "no ingress rule matched both peer and port")
  | .egress =>
      if egress = [] then (false, "policy has no egress rules — default-deny")
      else if egress.any fun rule => ruleMatches api flow dir rule lookup then (true, "")
      else (false, "no egress rule matched both peer and port")
  | .other _ => (false, "unknown direction")

def evaluateRules (flow : Flow) (policy : AuditNetworkPolicy) (dir : Direction)
    (lookup : Lookup) : Bool × String :=
  evaluateRuleLists api flow policy.spec.ingress policy.spec.egress dir lookup

def evaluateRulesCluster (flow : Flow) (policy : AuditClusterNetworkPolicy) (dir : Direction)
    (lookup : Lookup) : Bool × String :=
  evaluateRuleLists api flow policy.spec.ingress policy.spec.egress dir lookup

/-- The loop of `dedupPolicyTypes`. Only the two known types are remembered. -/
def dedupLoop (sawIngress sawEgress : Bool) : List PolicyType → List PolicyType
  | [] => []
  | .ingress :: rest =>
      if sawIngress then dedupLoop sawIngress sawEgress rest
      else .ingress :: dedupLoop true sawEgress rest
  | .egress :: rest =>
      if sawEgress then dedupLoop sawIngress sawEgress rest
      else .egress :: dedupLoop sawIngress true rest
  | .other name :: rest => .other name :: dedupLoop sawIngress sawEgress rest

def dedupPolicyTypes (types : List PolicyType) : List PolicyType :=
  if types.length ≤ 1 then types else dedupLoop false false types

/-- The common body of `effectivePolicyTypes` and `effectivePolicyTypesCluster`. -/
def effectiveTypes (policyTypes : List PolicyType) (egress : List PolicyRule) :
    List PolicyType :=
  if policyTypes ≠ [] then dedupPolicyTypes policyTypes
  else .ingress :: (if egress ≠ [] then [.egress] else [])

def effectivePolicyTypes (spec : NetworkPolicySpec) : List PolicyType :=
  effectiveTypes spec.policyTypes spec.egress

def effectivePolicyTypesCluster (spec : ClusterNetworkPolicySpec) : List PolicyType :=
  effectiveTypes spec.policyTypes spec.egress

def AuditNetworkPolicy.result (policy : AuditNetworkPolicy) (dir : Direction)
    (verdict : Verdict) (reason : String) : Result :=
  ⟨policy.ns, policy.name, policy.uid, policy.generation, dir, verdict, reason⟩

/-- A cluster policy has no namespace to report. -/
def AuditClusterNetworkPolicy.result (policy : AuditClusterNetworkPolicy) (dir : Direction)
    (verdict : Verdict) (reason : String) : Result :=
  ⟨"", policy.name, policy.uid, policy.generation, dir, verdict, reason⟩

/-- The body of the loop of `Match`, for one direction. -/
def matchDirection (flow : Flow) (policy : AuditNetworkPolicy) (lookup : Lookup)
    (dir : Direction) : Result :=
  match subjectPod flow dir lookup with
  | none => policy.result dir .notApplicable ""
  | some subject =>
      if subject.ns ≠ policy.ns then policy.result dir .notApplicable ""
      else if !selectorMatchesLabels api policy.spec.podSelector subject.labels then
        policy.result dir .notApplicable ""
      else
        match evaluateRules api flow policy dir lookup with
        | (true, _) => policy.result dir .allow ""
        | (false, reason) => policy.result dir .wouldDeny reason

/-- The function `Match`. -/
def matchPolicy (flow : Flow) (policy : AuditNetworkPolicy) (lookup : Lookup) : List Result :=
  (effectivePolicyTypes policy.spec).map (matchDirection api flow policy lookup)

/-- The namespace gate of a cluster policy. A selector needs known labels. -/
def namespaceGateCluster (spec : ClusterNetworkPolicySpec) (subject : Pod)
    (lookup : Lookup) : Bool :=
  match spec.namespaceSelector with
  | none => true
  | some sel =>
      match lookup.getNamespaceLabels subject.ns with
      | none => false
      | some nsLabels => selectorMatchesLabels api sel nsLabels

/-- The body of the loop of `MatchCluster`, for one direction. -/
def matchClusterDirection (flow : Flow) (policy : AuditClusterNetworkPolicy) (lookup : Lookup)
    (dir : Direction) : Result :=
  match subjectPod flow dir lookup with
  | none => policy.result dir .notApplicable ""
  | some subject =>
      if !namespaceGateCluster api policy.spec subject lookup then
        policy.result dir .notApplicable ""
      else if !selectorMatchesLabels api policy.spec.podSelector subject.labels then
        policy.result dir .notApplicable ""
      else
        match evaluateRulesCluster api flow policy dir lookup with
        | (true, _) => policy.result dir .allow ""
        | (false, reason) => policy.result dir .wouldDeny reason

def matchCluster (flow : Flow) (policy : AuditClusterNetworkPolicy) (lookup : Lookup) :
    List Result :=
  (effectivePolicyTypesCluster policy.spec).map (matchClusterDirection api flow policy lookup)

end KGuardian.Matcher
