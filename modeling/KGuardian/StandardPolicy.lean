import Mathlib
import KGuardian.DedupTable
import KGuardian.Grouping
import KGuardian.PolicySemantics

/-!
The advisor's generator of standard network policies (`pkg/network`): traffic
rows become rules by peer, and each rule a peer with its ports. The rules are
shown to hold exactly the peers and ports of the rows that survive.
-/
namespace KGuardian.StandardPolicy

open AllowLists NetAddr Selectors Matcher PolicySemantics DedupTable Grouping TextScan

/-- A traffic row as the broker serves it. The `src` fields are about the
protected pod and the `dst` fields about its peer, in both directions. -/
structure PodTraffic where
  srcPodPort : String
  trafficType : String
  dstIP : String
  dstPort : String
  protocol : String
  deriving DecidableEq

structure PodDetail where
  podIP : String
  name : String
  ns : String
  podLabels : Labels
  deriving DecidableEq

structure ServicePort where
  protocol : String
  port : ℤ
  targetPort : IntOrString
  deriving DecidableEq

/-- A service as the broker knows it. The generator reads no ports. -/
structure SvcDetail where
  svcName : String
  svcNamespace : String
  selector : Labels
  ports : List ServicePort
  deriving DecidableEq

/-- The broker's answers about an address: an error, nothing, or an object. -/
structure BrokerData where
  serviceByIP : String → Except String (Option SvcDetail)
  podByIP : String → Except String (Option PodDetail)

structure NetworkPolicyRule where
  peerIP : String
  ports : List NetworkPolicyPort
  deriving DecidableEq

/-- The parts of the generated object that identify and define it. -/
structure NetworkPolicy where
  name : String
  ns : String
  labels : Labels
  spec : NetworkPolicySpec

/-- The same policy under audit. -/
def NetworkPolicy.audited (p : NetworkPolicy) : AuditNetworkPolicy := ⟨p.ns, p.name, "", 0, p.spec⟩

def isIngressTraffic (traffic : PodTraffic) : Bool := equalFold traffic.trafficType "INGRESS"

def isEgressTraffic (traffic : PodTraffic) : Bool := equalFold traffic.trafficType "EGRESS"

def parsePort (portStr : String) : Option ℤ :=
  match parseSigned 64 portStr with
  | none => none
  | some portInt => if portInt ≤ 0 ∨ portInt > 65535 then none else some portInt

/-- An unknown protocol becomes TCP. -/
def protocolPtr (protocol : String) : String :=
  if protocol = "TCP" then "TCP"
  else if protocol = "UDP" then "UDP"
  else if protocol = "SCTP" then "SCTP"
  else "TCP"

/-- The method `IntOrString.String`. -/
def portString : IntOrString → String
  | .int v => toString v
  | .str s => s

def samePort (port : IntOrString) (protocol : String) (existing : NetworkPolicyPort) : Bool :=
  existing.port.any (fun p => portString p = portString port) && existing.protocol = some protocol

def mergeOrAppendRule (peer : String) (port : IntOrString) (protocolStr : String) :
    List NetworkPolicyRule → List NetworkPolicyRule
  | [] => [⟨peer, [⟨some (protocolPtr protocolStr), some port, none⟩]⟩]
  | r :: rest =>
      if r.peerIP = peer then
        if r.ports.any (samePort port (protocolPtr protocolStr)) then r :: rest
        else ⟨r.peerIP, r.ports ++ [⟨some (protocolPtr protocolStr), some port, none⟩]⟩ :: rest
      else r :: mergeOrAppendRule peer port protocolStr rest

/-- The rule lists after one row, for ingress and egress. -/
def addTraffic (podDetail : PodDetail) (rules : List NetworkPolicyRule × List NetworkPolicyRule)
    (traffic : PodTraffic) : List NetworkPolicyRule × List NetworkPolicyRule :=
  if isIngressTraffic traffic then
    if traffic.dstIP = "" then rules
    else if traffic.dstIP = podDetail.podIP then rules
    else
      match parsePort traffic.srcPodPort with
      | none => rules
      | some port =>
          (mergeOrAppendRule traffic.dstIP (.int port) traffic.protocol rules.1, rules.2)
  else if isEgressTraffic traffic then
    if traffic.dstIP = "" then rules
    else if traffic.dstIP = podDetail.podIP then rules
    else
      match parsePort traffic.dstPort with
      | none => rules
      | some port =>
          (rules.1, mergeOrAppendRule traffic.dstIP (.int port) traffic.protocol rules.2)
  else rules

def processTrafficRules (podTraffic : List PodTraffic) (podDetail : PodDetail) :
    List NetworkPolicyRule × List NetworkPolicyRule :=
  podTraffic.foldl (addTraffic podDetail) ([], [])

/-- What an address stands for: pods of a namespace by labels, or itself. -/
inductive ResolvedPeer where
  | pods (ns : String) (labels : Labels)
  | address (ip : String)

/-- The lookups of `createNetworkPolicyPeer`: a service with a selector, then a
pod with labels, then the address. -/
def resolvePeer (broker : BrokerData) (peerIP : String) : ResolvedPeer :=
  let podOrAddress :=
    match broker.podByIP peerIP with
    | .ok (some pod) =>
        if pod.podLabels.keys ≠ [] then .pods pod.ns pod.podLabels else .address peerIP
    | _ => .address peerIP
  match broker.serviceByIP peerIP with
  | .ok (some svc) =>
      if svc.selector.keys ≠ [] then .pods svc.svcNamespace svc.selector else podOrAddress
  | _ => podOrAddress

/-- A peer is always found, so the callers' checks for nil are left out. -/
def createNetworkPolicyPeer (broker : BrokerData) (peerIP : String) : NetworkPolicyPeer :=
  match resolvePeer broker peerIP with
  | .pods ns labels =>
      { podSelector := some (ofMatchLabels labels)
        namespaceSelector :=
          some (ofMatchLabels (Labels.ofList [("kubernetes.io/metadata.name", ns)]))
        ipBlock := none }
  | .address ip =>
      { podSelector := none, namespaceSelector := none, ipBlock := some ⟨ip ++ "/32", []⟩ }

def portKey (p : NetworkPolicyPort) : String :=
  (p.port.map portString).getD "" ++ "-" ++ p.protocol.getD ""

/-- The order of the ports in a rule: numbers before names, then by protocol. -/
def portLess (p q : NetworkPolicyPort) : Bool :=
  match p.port, q.port with
  | some (.int v), some (.int w) => if v ≠ w then v < w else p.protocol.getD "" < q.protocol.getD ""
  | some (.int _), some (.str _) => true
  | some (.str _), some (.int _) => false
  | some (.str s), some (.str t) => if s ≠ t then s < t else p.protocol.getD "" < q.protocol.getD ""
  | _, _ => false

def deduplicatePorts (ports : List NetworkPolicyPort) : List NetworkPolicyPort :=
  (newRows portKey (fun _ => false) []
    (ports.filter fun p => p.port.isSome && p.protocol.isSome)).insertionSort
      fun p q => portLess q p = false

def sortedKeys (m : AList fun _ : String => List NetworkPolicyPort) : List String :=
  m.keys.insertionSort (· ≤ ·)

/-- The two transforms of the source, which differ in the name of the peer
field. -/
def transformRules (broker : BrokerData) (rules : List NetworkPolicyRule) : List PolicyRule :=
  let peerRules := collect NetworkPolicyRule.peerIP NetworkPolicyRule.ports rules
  (sortedKeys peerRules).map fun peerIP =>
    ⟨[createNetworkPolicyPeer broker peerIP],
      deduplicatePorts ((peerRules.lookup peerIP).getD [])⟩

def transformToNetworkPolicyIngressRules := transformRules

def transformToNetworkPolicyEgressRules := transformRules

def getPolicyName (podName policyType : String) : String := podName ++ "-" ++ policyType

def createStandardLabels (podName resourceType : String) : Labels :=
  Labels.ofList [("app.kubernetes.io/name", podName), ("app.kubernetes.io/component", resourceType),
    ("app.kubernetes.io/part-of", "kguardian")]

def generateDefaultDenyPolicy (podDetail : PodDetail) : NetworkPolicy where
  name := getPolicyName podDetail.name "standard-policy-deny-all"
  ns := podDetail.ns
  labels := createStandardLabels podDetail.name "standard-policy-deny-all"
  spec := ⟨ofMatchLabels podDetail.podLabels, [.ingress, .egress], [], []⟩

/-- The method `Generate`. The pod name is only used in messages. -/
def generate (broker : BrokerData) (podName : String) (podTraffic : List PodTraffic)
    (podDetail : Option PodDetail) : Except String NetworkPolicy :=
  match podDetail with
  | none => .error ("pod detail is nil for pod " ++ podName)
  | some podDetail =>
      if podTraffic = [] then .ok (generateDefaultDenyPolicy podDetail)
      else
        let (ingressRules, egressRules) := processTrafficRules podTraffic podDetail
        let policyTypes : List PolicyType :=
          (if ingressRules = [] then [] else [.ingress]) ++
            if egressRules = [] then [] else [.egress]
        if policyTypes = [] then .ok (generateDefaultDenyPolicy podDetail)
        else .ok
          { name := getPolicyName podDetail.name "standard-policy"
            ns := podDetail.ns
            labels := createStandardLabels podDetail.name "standard-policy"
            spec :=
              { podSelector := ofMatchLabels podDetail.podLabels
                policyTypes
                ingress := if ingressRules = [] then []
                  else transformToNetworkPolicyIngressRules broker ingressRules
                egress := if egressRules = [] then []
                  else transformToNetworkPolicyEgressRules broker egressRules } }

/-! What an address is resolved to. -/

theorem resolvePeer_address (broker : BrokerData) (peerIP ip : String)
    (h : resolvePeer broker peerIP = .address ip) : ip = peerIP := by
  unfold resolvePeer at h
  grind

/-- A peer that is not an address is a service or a pod of the broker, with labels. -/
theorem resolvePeer_pods_cases {broker : BrokerData} {peerIP ns : String} {labels : Labels}
    (h : resolvePeer broker peerIP = .pods ns labels) :
    labels.keys ≠ [] ∧
      ((∃ svc, broker.serviceByIP peerIP = .ok (some svc) ∧ ns = svc.svcNamespace ∧
        labels = svc.selector) ∨
      ∃ pod, broker.podByIP peerIP = .ok (some pod) ∧ ns = pod.ns ∧ labels = pod.podLabels) := by
  unfold resolvePeer at h
  grind

theorem resolvePeer_labels (broker : BrokerData) (peerIP ns : String) (labels : Labels)
    (h : resolvePeer broker peerIP = .pods ns labels) : labels.keys ≠ [] :=
  (resolvePeer_pods_cases h).1

/-- Where no service answers, a labelled pod does, or the address stays. -/
theorem resolvePeer_cases (broker : BrokerData) (peerIP : String)
    (hservice : ∀ svc, broker.serviceByIP peerIP = .ok (some svc) → svc.selector.keys = []) :
    (∃ pod, broker.podByIP peerIP = .ok (some pod) ∧ pod.podLabels.keys ≠ [] ∧
      resolvePeer broker peerIP = .pods pod.ns pod.podLabels) ∨
    resolvePeer broker peerIP = .address peerIP := by
  unfold resolvePeer
  grind

/-! What the internal rules hold. -/

def rowDirection (row : PodTraffic) : Option Direction :=
  if isIngressTraffic row then some .ingress
  else if isEgressTraffic row then some .egress
  else none

/-- The port that matters: that of the pod for ingress, that of the peer for
egress. -/
def relevantPort (row : PodTraffic) : Direction → String
  | .ingress => row.srcPodPort
  | _ => row.dstPort

/-- The row makes it into the rules of a direction, with this port. -/
structure Survives (podDetail : PodDetail) (row : PodTraffic) (d : Direction) (port : ℤ) :
    Prop where
  direction : rowDirection row = some d
  peer : row.dstIP ≠ ""
  notSelf : row.dstIP ≠ podDetail.podIP
  port : parsePort (relevantPort row d) = some port

def plainPort (port : ℤ) (protocol : String) : NetworkPolicyPort :=
  ⟨some (protocolPtr protocol), some (.int port), none⟩

def Entry (rules : List NetworkPolicyRule) (peer : String) (p : NetworkPolicyPort) : Prop :=
  ∃ r ∈ rules, r.peerIP = peer ∧ p ∈ r.ports

/-- Every rule has ports, and they are numbers with a known protocol. -/
def Plain (rules : List NetworkPolicyRule) : Prop :=
  ∀ r ∈ rules, r.ports ≠ [] ∧ ∀ p ∈ r.ports, ∃ v protocol, p = plainPort v protocol

theorem samePort_plain (v w : ℤ) (protocol protocol' : String) :
    samePort (.int v) (protocolPtr protocol) (plainPort w protocol') = true ↔
      plainPort w protocol' = plainPort v protocol := by
  simp only [samePort, plainPort, portString, Option.any_some, Bool.and_eq_true, decide_eq_true_eq,
    NetworkPolicyPort.mk.injEq, Option.some.injEq, IntOrString.int.injEq, and_true]
  constructor
  · intro h
    obtain ⟨hport, hprotocol⟩ := h
    exact ⟨hprotocol, Int.repr_injective (of_decide_eq_true hport)⟩
  · intro h
    obtain ⟨hprotocol, rfl⟩ := h
    exact ⟨decide_eq_true rfl, hprotocol⟩

/-- The entry that a row adds. -/
theorem mem_append_plainPort (ports : List NetworkPolicyPort) (v : ℤ) (protocol : String)
    (p : NetworkPolicyPort) :
    p ∈ ports ++ [⟨some (protocolPtr protocol), some (.int v), none⟩] ↔
      p ∈ ports ∨ p = plainPort v protocol := by
  rw [List.mem_append, List.mem_singleton, plainPort]

theorem entry_cons (r : NetworkPolicyRule) (rest : List NetworkPolicyRule) (peer : String)
    (p : NetworkPolicyPort) :
    Entry (r :: rest) peer p ↔ (r.peerIP = peer ∧ p ∈ r.ports) ∨ Entry rest peer p := by
  simp only [Entry, List.exists_mem_cons_iff]

theorem entry_mergeOrAppendRule (rules : List NetworkPolicyRule) (hplain : Plain rules)
    (peer : String) (v : ℤ) (protocol : String) (a : String) (p : NetworkPolicyPort) :
    Entry (mergeOrAppendRule peer (.int v) protocol rules) a p ↔
      Entry rules a p ∨ (a = peer ∧ p = plainPort v protocol) := by
  induction rules with
  | nil =>
      simp [mergeOrAppendRule, Entry, plainPort, eq_comm (a := a)]
  | cons r rest ih =>
      have hih := ih fun r' h => hplain r' (List.mem_cons_of_mem _ h)
      by_cases hpeer : r.peerIP = peer
      · by_cases hsame : r.ports.any (samePort (.int v) (protocolPtr protocol)) = true
        · obtain ⟨q, hq, hqsame⟩ := List.any_eq_true.mp hsame
          obtain ⟨w, protocol', rfl⟩ := (hplain r List.mem_cons_self).2 q hq
          have heq := (samePort_plain v w protocol protocol').mp hqsame
          rw [mergeOrAppendRule, if_pos hpeer, if_pos hsame]
          refine (or_iff_left_of_imp ?_).symm
          intro hcase
          obtain ⟨rfl, rfl⟩ := hcase
          exact ⟨r, List.mem_cons_self, hpeer, heq ▸ hq⟩
        · rw [mergeOrAppendRule, if_pos hpeer, if_neg hsame, entry_cons, entry_cons]
          simp only [mem_append_plainPort, hpeer]
          constructor
          · intro hcase
            rcases hcase with ⟨ha, hp | hp⟩ | hrest
            · exact Or.inl (Or.inl ⟨ha, hp⟩)
            · exact Or.inr ⟨ha.symm, hp⟩
            · exact Or.inl (Or.inr hrest)
          · intro hcase
            rcases hcase with (⟨ha, hp⟩ | hrest) | ⟨ha, hp⟩
            · exact Or.inl ⟨ha, Or.inl hp⟩
            · exact Or.inr hrest
            · exact Or.inl ⟨ha.symm, Or.inr hp⟩
      · rw [mergeOrAppendRule, if_neg hpeer, entry_cons, entry_cons, hih, or_assoc]

theorem plain_mergeOrAppendRule (rules : List NetworkPolicyRule) (hplain : Plain rules)
    (peer : String) (v : ℤ) (protocol : String) :
    Plain (mergeOrAppendRule peer (.int v) protocol rules) := by
  induction rules with
  | nil =>
      intro r hr
      rw [mergeOrAppendRule, List.mem_singleton] at hr
      subst hr
      refine ⟨List.cons_ne_nil _ _, fun p hp => ⟨v, protocol, ?_⟩⟩
      exact List.mem_singleton.mp hp
  | cons r rest ih =>
      obtain ⟨hfirst, hrest⟩ := List.forall_mem_cons.mp hplain
      rw [mergeOrAppendRule]
      split
      · split
        · exact hplain
        · refine List.forall_mem_cons.mpr ⟨⟨by simp, fun p hp => ?_⟩, hrest⟩
          rcases List.mem_append.mp hp with hold | hnew
          · exact hfirst.2 p hold
          · exact ⟨v, protocol, List.mem_singleton.mp hnew⟩
      · exact List.forall_mem_cons.mpr ⟨hfirst, ih hrest⟩

/-- The rule list of a direction. -/
def side (rules : List NetworkPolicyRule × List NetworkPolicyRule) :
    Direction → List NetworkPolicyRule
  | .ingress => rules.1
  | .egress => rules.2
  | .other _ => []

/-- A row that survives is merged into its own direction; any other changes
nothing. -/
theorem addTraffic_cases (podDetail : PodDetail)
    (rules : List NetworkPolicyRule × List NetworkPolicyRule) (row : PodTraffic) :
    (addTraffic podDetail rules row = rules ∧ ∀ d v, ¬ Survives podDetail row d v) ∨
    ∃ d v, Survives podDetail row d v ∧
      side (addTraffic podDetail rules row) d =
        mergeOrAppendRule row.dstIP (.int v) row.protocol (side rules d) ∧
      ∀ d', d' ≠ d → side (addTraffic podDetail rules row) d' = side rules d' := by
  by_cases hin : isIngressTraffic row = true
  · have hdir : rowDirection row = some .ingress := by rw [rowDirection, if_pos hin]
    by_cases hempty : row.dstIP = ""
    · exact Or.inl ⟨by simp [addTraffic, hin, hempty], fun _ _ h => h.peer hempty⟩
    by_cases hself : row.dstIP = podDetail.podIP
    · exact Or.inl ⟨by simp [addTraffic, hin, hself], fun _ _ h => h.notSelf hself⟩
    cases hport : parsePort row.srcPodPort with
    | none =>
        refine Or.inl ⟨by simp [addTraffic, hin, hempty, hself, hport], fun d v h => ?_⟩
        obtain rfl := Option.some.inj (hdir.symm.trans h.direction)
        exact absurd (hport.symm.trans h.port) (by simp)
    | some v =>
        refine Or.inr ⟨.ingress, v, ⟨hdir, hempty, hself, hport⟩, ?_, fun d hd => ?_⟩
        · simp [addTraffic, hin, hempty, hself, hport, side]
        · cases d <;> simp_all [addTraffic, side]
  by_cases hout : isEgressTraffic row = true
  · have hdir : rowDirection row = some .egress := by
      rw [rowDirection, if_neg hin, if_pos hout]
    by_cases hempty : row.dstIP = ""
    · exact Or.inl ⟨by simp [addTraffic, hin, hout, hempty], fun _ _ h => h.peer hempty⟩
    by_cases hself : row.dstIP = podDetail.podIP
    · exact Or.inl ⟨by simp [addTraffic, hin, hout, hself], fun _ _ h => h.notSelf hself⟩
    cases hport : parsePort row.dstPort with
    | none =>
        refine Or.inl ⟨by simp [addTraffic, hin, hout, hempty, hself, hport], fun d v h => ?_⟩
        obtain rfl := Option.some.inj (hdir.symm.trans h.direction)
        exact absurd (hport.symm.trans h.port) (by simp)
    | some v =>
        refine Or.inr ⟨.egress, v, ⟨hdir, hempty, hself, hport⟩, ?_, fun d hd => ?_⟩
        · simp [addTraffic, hin, hout, hempty, hself, hport, side]
        · cases d <;> simp_all [addTraffic, side]
  · refine Or.inl ⟨by simp [addTraffic, hin, hout], fun d v h => ?_⟩
    have hdir : rowDirection row = none := by rw [rowDirection, if_neg hin, if_neg hout]
    exact absurd (hdir.symm.trans h.direction) (by simp)

theorem Survives.unique {podDetail : PodDetail} {row : PodTraffic} {d d' : Direction} {v v' : ℤ}
    (h : Survives podDetail row d v) (h' : Survives podDetail row d' v') : d' = d ∧ v' = v := by
  obtain rfl := Option.some.inj (h.direction.symm.trans h'.direction)
  exact ⟨rfl, Option.some.inj (h'.port.symm.trans h.port)⟩

/-- One row keeps the rules plain and adds its own entry. -/
theorem addTraffic_step (podDetail : PodDetail)
    (rules : List NetworkPolicyRule × List NetworkPolicyRule) (row : PodTraffic)
    (d : Direction) (hplain : Plain (side rules d)) :
    Plain (side (addTraffic podDetail rules row) d) ∧
    ∀ a p, Entry (side (addTraffic podDetail rules row) d) a p ↔
      Entry (side rules d) a p ∨
        ∃ v, Survives podDetail row d v ∧ a = row.dstIP ∧ p = plainPort v row.protocol := by
  rcases addTraffic_cases podDetail rules row with ⟨heq, hnone⟩ | ⟨d', v, hrow, heq, hother⟩
  · rw [heq]
    exact ⟨hplain, fun a p => by simp [hnone]⟩
  · by_cases hd : d = d'
    · subst hd
      rw [heq]
      refine ⟨plain_mergeOrAppendRule _ hplain _ _ _, fun a p => ?_⟩
      rw [entry_mergeOrAppendRule _ hplain]
      refine or_congr_right ⟨fun h => ⟨v, hrow, h⟩, ?_⟩
      intro hcase
      obtain ⟨v', h', h⟩ := hcase
      rwa [(hrow.unique h').2] at h
    · rw [hother d hd]
      refine ⟨hplain, fun a p => (or_iff_left ?_).symm⟩
      intro hcase
      obtain ⟨v', h', -⟩ := hcase
      exact hd (hrow.unique h').1

/-- The rules hold exactly the peers and ports of the rows that survive. -/
theorem processTrafficRules_entries (podTraffic : List PodTraffic) (podDetail : PodDetail)
    (d : Direction) :
    Plain (side (processTrafficRules podTraffic podDetail) d) ∧
    ∀ a p, Entry (side (processTrafficRules podTraffic podDetail) d) a p ↔
      ∃ row ∈ podTraffic, ∃ v, Survives podDetail row d v ∧ a = row.dstIP ∧
        p = plainPort v row.protocol := by
  have hloop (rules : List NetworkPolicyRule × List NetworkPolicyRule)
      (hplain : Plain (side rules d)) :
      Plain (side (podTraffic.foldl (addTraffic podDetail) rules) d) ∧
      ∀ a p, Entry (side (podTraffic.foldl (addTraffic podDetail) rules) d) a p ↔
        Entry (side rules d) a p ∨ ∃ row ∈ podTraffic, ∃ v, Survives podDetail row d v ∧
          a = row.dstIP ∧ p = plainPort v row.protocol := by
    induction podTraffic generalizing rules with
    | nil => exact ⟨hplain, fun a p => by simp⟩
    | cons row rest ih =>
        have hstep := addTraffic_step podDetail rules row d hplain
        obtain ⟨hrest, hentries⟩ := ih (addTraffic podDetail rules row) hstep.1
        refine ⟨hrest, fun a p => ?_⟩
        rw [List.foldl_cons, hentries, hstep.2, List.exists_mem_cons_iff, or_assoc]
  have hnil : side ([], []) d = [] := by cases d <;> rfl
  obtain ⟨hplain, hentries⟩ := hloop ([], []) (by simp [hnil, Plain])
  refine ⟨hplain, fun a p => (hentries a p).trans ?_⟩
  simp [hnil, Entry]

/-! Grouping by peer and removing duplicates keeps them. -/

theorem protocolPtr_cases (protocol : String) :
    protocolPtr protocol = "TCP" ∨ protocolPtr protocol = "UDP" ∨
      protocolPtr protocol = "SCTP" := by
  simp only [protocolPtr]
  grind

/-- The keys of plain ports tell them apart: the protocols end differently. -/
theorem portKey_plain_injective {v w : ℤ} {protocol protocol' : String}
    (h : portKey (plainPort v protocol) = portKey (plainPort w protocol')) :
    plainPort v protocol = plainPort w protocol' := by
  have hchars := congrArg (fun s => s.toList.reverse) h
  have hprotocol : protocolPtr protocol = protocolPtr protocol' := by
    rcases protocolPtr_cases protocol with hp | hp | hp <;>
    rcases protocolPtr_cases protocol' with hp' | hp' | hp' <;>
      simp [portKey, plainPort, hp, hp'] at hchars ⊢
  have hport : v = w := by
    apply Int.repr_injective
    simpa [portKey, plainPort, hprotocol, portString] using h
  rw [plainPort, plainPort, hport, hprotocol]

theorem mem_deduplicatePorts (ports : List NetworkPolicyPort)
    (hplain : ∀ p ∈ ports, ∃ v protocol, p = plainPort v protocol) (p : NetworkPolicyPort) :
    p ∈ deduplicatePorts ports ↔ p ∈ ports := by
  have hkept : (ports.filter fun p => p.port.isSome && p.protocol.isSome) = ports := by
    rw [List.filter_eq_self]
    intro p hp
    obtain ⟨v, protocol, rfl⟩ := hplain p hp
    rfl
  rw [deduplicatePorts, List.mem_insertionSort, hkept]
  refine ⟨fun hp => (mem_newRows hp).1, fun hp => ?_⟩
  have hkept' : portKey p ∉ ([] : List String) := List.not_mem_nil
  obtain ⟨q, hq, hkey⟩ := exists_newRows (fun _ => false) hp hkept' fun _ _ _ => rfl
  obtain ⟨v, protocol, rfl⟩ := hplain p hp
  obtain ⟨w, protocol', rfl⟩ := hplain q (mem_newRows hq).1
  rwa [← portKey_plain_injective hkey]

theorem permits_transformRules (broker : BrokerData) (rules : List NetworkPolicyRule)
    (hplain : Plain rules) (peer : NetworkPolicyPeer → Prop) (port : NetworkPolicyPort → Prop) :
    Permits peer port (transformRules broker rules) ↔
      ∃ a p, Entry rules a p ∧ peer (createNetworkPolicyPeer broker a) ∧ port p := by
  have hports (a : String) (p : NetworkPolicyPort) :
      p ∈ deduplicatePorts
        (((collect NetworkPolicyRule.peerIP NetworkPolicyRule.ports rules).lookup a).getD []) ↔
      Entry rules a p := by
    rw [mem_deduplicatePorts, mem_lookup_collect]
    · rfl
    · intro q hq
      obtain ⟨r, hr, -, hq⟩ := (mem_lookup_collect _ _ _ _ _).mp hq
      exact (hplain r hr).2 q hq
  have hkeys (a : String) :
      a ∈ sortedKeys (collect NetworkPolicyRule.peerIP NetworkPolicyRule.ports rules) ↔
        ∃ r ∈ rules, r.peerIP = a := by
    rw [sortedKeys, List.mem_insertionSort, mem_keys_collect]
  constructor
  · intro h
    obtain ⟨rule, hrule, hpeers, hopen⟩ := h
    obtain ⟨a, ha, rfl⟩ := List.mem_map.mp hrule
    obtain ⟨r, hr, rfl⟩ := (hkeys a).mp ha
    obtain ⟨q, hq⟩ := List.exists_mem_of_ne_nil _ (hplain r hr).1
    have hne := List.ne_nil_of_mem ((hports r.peerIP q).mpr ⟨r, hr, rfl, hq⟩)
    obtain ⟨p, hp, hport⟩ := (openOr_iff_of_ne_nil _ _ hne).mp hopen
    exact ⟨r.peerIP, p, (hports _ _).mp hp, (openOr_singleton _ _).mp hpeers, hport⟩
  · intro h
    obtain ⟨a, p, hentry, hpeer, hport⟩ := h
    have ha : ∃ r ∈ rules, r.peerIP = a := by
      obtain ⟨r, hr, hpeerIP, -⟩ := hentry
      exact ⟨r, hr, hpeerIP⟩
    exact ⟨_, List.mem_map.mpr ⟨a, (hkeys a).mpr ha, rfl⟩, (openOr_singleton _ _).mpr hpeer,
      Or.inr ⟨p, (hports a p).mpr hentry, hport⟩⟩

theorem permits_processed (broker : BrokerData) (podTraffic : List PodTraffic)
    (podDetail : PodDetail) (d : Direction) (peer : NetworkPolicyPeer → Prop)
    (port : NetworkPolicyPort → Prop) :
    Permits peer port (transformRules broker (side (processTrafficRules podTraffic podDetail) d)) ↔
      ∃ row ∈ podTraffic, ∃ v, Survives podDetail row d v ∧
        peer (createNetworkPolicyPeer broker row.dstIP) ∧ port (plainPort v row.protocol) := by
  obtain ⟨hplain, hentries⟩ := processTrafficRules_entries podTraffic podDetail d
  rw [permits_transformRules broker _ hplain]
  constructor
  · intro h
    obtain ⟨a, p, hentry, hpeer, hport⟩ := h
    obtain ⟨row, hrow, v, hsurvives, rfl, rfl⟩ := (hentries a p).mp hentry
    exact ⟨row, hrow, v, hsurvives, hpeer, hport⟩
  · intro h
    obtain ⟨row, hrow, v, hsurvives, hpeer, hport⟩ := h
    exact ⟨_, _, (hentries _ _).mpr ⟨row, hrow, v, hsurvives, rfl, rfl⟩, hpeer, hport⟩

theorem side_eq_nil_iff (podTraffic : List PodTraffic) (podDetail : PodDetail) (d : Direction) :
    side (processTrafficRules podTraffic podDetail) d = [] ↔
      ∀ row ∈ podTraffic, ∀ v, ¬ Survives podDetail row d v := by
  obtain ⟨hplain, hentries⟩ := processTrafficRules_entries podTraffic podDetail d
  constructor
  · intro hnil row hrow v hsurvives
    obtain ⟨r, hr, -⟩ := (hentries _ _).mpr ⟨row, hrow, v, hsurvives, rfl, rfl⟩
    rw [hnil] at hr
    exact List.not_mem_nil hr
  · intro hnone
    rw [List.eq_nil_iff_forall_not_mem]
    intro r hr
    obtain ⟨p, hp⟩ := List.exists_mem_of_ne_nil _ (hplain r hr).1
    obtain ⟨row, hrow, v, hsurvives, -⟩ := (hentries _ _).mp ⟨r, hr, rfl, hp⟩
    exact hnone row hrow v hsurvives

/-- The two outcomes of `generate`: a default-deny policy when no row survives,
and otherwise the rules of each direction that has any. -/
theorem generate_cases (broker : BrokerData) (podName : String) (podTraffic : List PodTraffic)
    (podDetail : PodDetail) :
    ∃ policy, generate broker podName podTraffic (some podDetail) = .ok policy ∧
      policy.ns = podDetail.ns ∧ policy.spec.podSelector = ofMatchLabels podDetail.podLabels ∧
      ((policy.spec.policyTypes = [.ingress, .egress] ∧ (∀ d, rulesFor policy.spec d = []) ∧
          ∀ d, side (processTrafficRules podTraffic podDetail) d = []) ∨
        policy.spec.policyTypes ≠ [] ∧
        ∀ d, (d ∈ policy.spec.policyTypes ↔
            side (processTrafficRules podTraffic podDetail) d ≠ []) ∧
          rulesFor policy.spec d =
            transformRules broker (side (processTrafficRules podTraffic podDetail) d)) := by
  have hdeny (d : Direction) : rulesFor (generateDefaultDenyPolicy podDetail).spec d = [] := by
    cases d <;> rfl
  have htransform : transformRules broker [] = [] := rfl
  by_cases htraffic : podTraffic = []
  · subst htraffic
    refine ⟨_, by rw [generate, if_pos rfl], rfl, rfl, Or.inl ⟨rfl, hdeny, fun d => ?_⟩⟩
    cases d <;> rfl
  rcases hrules : processTrafficRules podTraffic podDetail with ⟨ingressRules, egressRules⟩
  by_cases hin : ingressRules = []
  · by_cases hout : egressRules = []
    · refine ⟨_, by simp [generate, htraffic, hrules, hin, hout], rfl, rfl,
        Or.inl ⟨rfl, hdeny, fun d => ?_⟩⟩
      cases d <;> simp [side, hin, hout]
    · refine ⟨_, by simp [generate, htraffic, hrules, hin, hout]; rfl, rfl, rfl,
        Or.inr ⟨by simp, fun d => ?_⟩⟩
      cases d <;> simp [side, hin, hout, rulesFor, htransform,
        transformToNetworkPolicyEgressRules]
  · by_cases hout : egressRules = []
    · refine ⟨_, by simp [generate, htraffic, hrules, hin, hout]; rfl, rfl, rfl,
        Or.inr ⟨by simp, fun d => ?_⟩⟩
      cases d <;> simp [side, hin, hout, rulesFor, htransform,
        transformToNetworkPolicyIngressRules]
    · refine ⟨_, by simp [generate, htraffic, hrules, hin, hout]; rfl, rfl, rfl,
        Or.inr ⟨by simp, fun d => ?_⟩⟩
      cases d <;> simp [side, hin, hout, rulesFor, htransform,
        transformToNetworkPolicyIngressRules, transformToNetworkPolicyEgressRules]

/-- A direction in which some row survives is restricted, and in each direction
the rules permit what some surviving row has. -/
theorem generate_permits (broker : BrokerData) (podName : String) (podTraffic : List PodTraffic)
    (podDetail : PodDetail) :
    ∃ policy, generate broker podName podTraffic (some podDetail) = .ok policy ∧
      policy.ns = podDetail.ns ∧ policy.spec.podSelector = ofMatchLabels podDetail.podLabels ∧
      (∀ d, (∃ row ∈ podTraffic, ∃ v, Survives podDetail row d v) →
        d ∈ policy.spec.policyTypes) ∧
      ∀ d (peer : NetworkPolicyPeer → Prop) (port : NetworkPolicyPort → Prop),
        Permits peer port (rulesFor policy.spec d) ↔
          ∃ row ∈ podTraffic, ∃ v, Survives podDetail row d v ∧
            peer (createNetworkPolicyPeer broker row.dstIP) ∧ port (plainPort v row.protocol) := by
  obtain ⟨policy, hgen, hns, hselector, hcases⟩ :=
    generate_cases broker podName podTraffic podDetail
  refine ⟨policy, hgen, hns, hselector, ?_⟩
  rcases hcases with ⟨-, hrules, hnil⟩ | ⟨-, hrules⟩
  · have hnone (d : Direction) := (side_eq_nil_iff podTraffic podDetail d).mp (hnil d)
    constructor
    · intro d h
      obtain ⟨row, hrow, v, hsurvives⟩ := h
      exact absurd hsurvives (hnone d row hrow v)
    · intro d peer port
      rw [hrules, ← permits_processed, hnil]
      rfl
  · constructor
    · intro d h
      obtain ⟨row, hrow, v, hsurvives⟩ := h
      rw [(hrules d).1, ne_eq, side_eq_nil_iff]
      exact fun hnone => hnone row hrow v hsurvives
    · intro d peer port
      rw [(hrules d).2, permits_processed]

end KGuardian.StandardPolicy
