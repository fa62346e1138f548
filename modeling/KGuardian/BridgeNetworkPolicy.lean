import KGuardian.CiliumPolicy
import KGuardian.JsText

/-!
The policy generators of the assistant (`llm-bridge/src/tools/generators`), a
TypeScript port of the advisor's. The lists of a policy are given in full: an
empty one is omitted from the object. The rules are shown to be the sorted
groups of the rows that survive, in the order of the runtime's collation.
-/
namespace KGuardian.BridgeNetworkPolicy

open Selectors Matcher DedupTable SortedGroups PeerGroups JsText
open StandardPolicy (NetworkPolicy)
open CiliumPolicy (CiliumEndpointSelector CiliumPeerRule CiliumNetworkPolicy)

structure PeerIdentity where
  selector : Option Labels
  ns : Option String

/-- The identity of an address, if it has one. -/
abbrev PeerResolver := String → Option PeerIdentity

/-- A traffic row, whose fields may be missing or null. -/
structure TrafficRow where
  trafficType : Option String
  podPort : Option String
  trafficInOutIp : Option String
  trafficInOutPort : Option String
  ipProtocol : Option String
  deriving DecidableEq

structure PodInfo where
  name : String
  ns : String
  ip : String
  labels : Labels

structure Port where
  port : ℕ
  protocol : String
  deriving DecidableEq

structure Rule where
  peerIP : String
  ports : List Port
  deriving DecidableEq

def parsePort (p : String) : Option ℕ :=
  match (stringToNumber p).bind Numeral.toInteger with
  | none => none
  | some n => if n ≤ 0 ∨ n > 65535 then none else some n

def mergeOrAppend (peer : String) (port : ℕ) (protocol : String) : List Rule → List Rule
  | [] => [⟨peer, [⟨port, protocol⟩]⟩]
  | r :: rest =>
      if r.peerIP = peer then
        if r.ports.any fun p => p.port = port && p.protocol = protocol then r :: rest
        else ⟨r.peerIP, r.ports ++ [⟨port, protocol⟩]⟩ :: rest
      else r :: mergeOrAppend peer port protocol rest

variable (js : Runtime)

/-- The comparison by port and then by protocol. -/
def portLe (a b : Port) : Prop :=
  a.port < b.port ∨ a.port = b.port ∧ js.localeCompare a.protocol b.protocol ≤ 0

instance : DecidableRel (portLe js) := fun _ _ => inferInstanceAs (Decidable (_ ∨ _))

def portKey (p : Port) : String := toString p.port ++ "/" ++ p.protocol

def dedupePorts (ports : List Port) : List Port :=
  newRows portKey (fun _ => false) [] (ports.insertionSort (portLe js))

def standardLabels (pod resourceType : String) : Labels :=
  Labels.ofList [("app.kubernetes.io/name", pod), ("app.kubernetes.io/component", resourceType),
    ("app.kubernetes.io/part-of", "kguardian")]

/-- The rule lists after one row, for ingress and egress. -/
def addTraffic (pod : PodInfo) (rules : List Rule × List Rule) (t : TrafficRow) :
    List Rule × List Rule :=
  let peer := t.trafficInOutIp.getD ""
  if peer = "" ∨ peer = pod.ip then rules
  else
    let protocol := js.toUpperCase (t.ipProtocol.getD "TCP")
    let type := js.toUpperCase (t.trafficType.getD "")
    if type = "INGRESS" then
      match parsePort (t.podPort.getD "") with
      | none => rules
      | some port => (mergeOrAppend peer port protocol rules.1, rules.2)
    else if type = "EGRESS" then
      match parsePort (t.trafficInOutPort.getD "") with
      | none => rules
      | some port => (rules.1, mergeOrAppend peer port protocol rules.2)
    else rules

def processTrafficRules (traffic : List TrafficRow) (pod : PodInfo) : List Rule × List Rule :=
  traffic.foldl (addTraffic js pod) ([], [])

/-- The comparison of peers. -/
def peerLe (a b : String) : Prop := js.localeCompare a b ≤ 0

instance : DecidableRel (peerLe js) := fun a b =>
  inferInstanceAs (Decidable (js.localeCompare a b ≤ 0))

def sortedPeers (rules : List Rule) : List Rule :=
  rules.insertionSort fun a b => peerLe js a.peerIP b.peerIP

/-- The selector of an identity that has one, with its namespace. -/
def selected (id : Option PeerIdentity) : Option (Labels × String) :=
  match id with
  | some ⟨some selector, ns⟩ => if selector.keys ≠ [] then some (selector, ns.getD "") else none
  | _ => none

def standardPeer (ip : String) (resolve : PeerResolver) : NetworkPolicyPeer :=
  match selected (resolve ip) with
  | some (selector, ns) =>
      { podSelector := some (ofMatchLabels selector)
        namespaceSelector :=
          some (ofMatchLabels (Labels.ofList [("kubernetes.io/metadata.name", ns)]))
        ipBlock := none }
  | none => { podSelector := none, namespaceSelector := none, ipBlock := some ⟨ip ++ "/32", []⟩ }

def standardPort (p : Port) : NetworkPolicyPort := ⟨some p.protocol, some (.int p.port), none⟩

def standardRules (rules : List Rule) (resolve : PeerResolver) : List PolicyRule :=
  (sortedPeers js rules).map fun r =>
    ⟨[standardPeer r.peerIP resolve], (dedupePorts js r.ports).map standardPort⟩

def generateNetworkPolicy (pod : PodInfo) (traffic : List TrafficRow) (resolve : PeerResolver) :
    NetworkPolicy :=
  let (ingress, egress) := processTrafficRules js traffic pod
  if ingress = [] ∧ egress = [] then
    { name := pod.name ++ "-standard-policy-deny-all"
      ns := pod.ns
      labels := standardLabels pod.name "standard-policy-deny-all"
      spec := ⟨ofMatchLabels pod.labels, [.ingress, .egress], [], []⟩ }
  else
    { name := pod.name ++ "-standard-policy"
      ns := pod.ns
      labels := standardLabels pod.name "standard-policy"
      spec :=
        { podSelector := ofMatchLabels pod.labels
          policyTypes := (if ingress = [] then [] else [.ingress]) ++
            if egress = [] then [] else [.egress]
          ingress := if ingress = [] then [] else standardRules js ingress resolve
          egress := if egress = [] then [] else standardRules js egress resolve } }

def k8sPrefixed (labels : Labels) : CiliumEndpointSelector :=
  ⟨Labels.ofList (labels.entries.map fun e => ("k8s:" ++ e.1, e.2))⟩

/-- The endpoints of a peer, or else its block of addresses. One of them is
always found, so the caller's check for neither is left out. -/
def ciliumPeer (ip : String) (resolve : PeerResolver) :
    List CiliumEndpointSelector × List String :=
  match selected (resolve ip) with
  | some (selector, _) => ([k8sPrefixed selector], [])
  | none => ([], [ip ++ "/32"])

def ciliumPort (p : Port) : CiliumPolicy.CiliumPortProtocol := ⟨toString p.port, p.protocol⟩

def ciliumRules (rules : List Rule) (resolve : PeerResolver) : List CiliumPeerRule :=
  (sortedPeers js rules).map fun r =>
    ⟨(ciliumPeer r.peerIP resolve).1, (ciliumPeer r.peerIP resolve).2,
      [⟨(dedupePorts js r.ports).map ciliumPort⟩]⟩

def generateCiliumPolicy (pod : PodInfo) (traffic : List TrafficRow) (resolve : PeerResolver) :
    CiliumNetworkPolicy :=
  let (ingress, egress) := processTrafficRules js traffic pod
  let endpointSelector := k8sPrefixed pod.labels
  if ingress = [] ∧ egress = [] then
    { name := pod.name ++ "-cilium-policy-deny-all"
      ns := pod.ns
      labels := standardLabels pod.name "cilium-policy-deny-all"
      spec := ⟨endpointSelector, "Default-deny Cilium network policy for pod " ++ pod.name, [], [],
        some ⟨some true, some true⟩⟩ }
  else
    { name := pod.name ++ "-cilium-policy"
      ns := pod.ns
      labels := standardLabels pod.name "cilium-policy"
      spec :=
        { endpointSelector
          description := "Cilium network policy for pod " ++ pod.name ++ " generated by kguardian"
          ingress := if ingress = [] then [] else ciliumRules js ingress resolve
          egress := if egress = [] then [] else ciliumRules js egress resolve
          enableDefaultDeny := none } }

/-! What a row brings to the rules of a direction. -/

def rowDirection (t : TrafficRow) : Option Direction :=
  if js.toUpperCase (t.trafficType.getD "") = "INGRESS" then some .ingress
  else if js.toUpperCase (t.trafficType.getD "") = "EGRESS" then some .egress
  else none

/-- The port that matters: that of the pod for ingress, that of the peer for
egress. -/
def relevantPort (t : TrafficRow) : Direction → String
  | .ingress => t.podPort.getD ""
  | _ => t.trafficInOutPort.getD ""

/-- The peer and the port of a row, if it makes it into the rules of the
direction. -/
def entry (pod : PodInfo) (d : Direction) (t : TrafficRow) : Option (String × Port) :=
  let peer := t.trafficInOutIp.getD ""
  if peer = "" ∨ peer = pod.ip then none
  else if rowDirection js t = some d then
    (parsePort (relevantPort t d)).map fun port =>
      (peer, ⟨port, js.toUpperCase (t.ipProtocol.getD "TCP")⟩)
  else none

/-- The entries of a direction, in the order of the rows. -/
def entries (pod : PodInfo) (d : Direction) (traffic : List TrafficRow) : List (String × Port) :=
  traffic.filterMap (entry js pod d)

/-- The rule list of a direction. -/
def side (rules : List Rule × List Rule) : Direction → List Rule
  | .ingress => rules.1
  | .egress => rules.2
  | .other _ => []

def group (r : Rule) : String × List Port := (r.peerIP, r.ports)

theorem group_mergeOrAppend (peer : String) (port : ℕ) (protocol : String) (rules : List Rule) :
    (mergeOrAppend peer port protocol rules).map group =
      merge peer ⟨port, protocol⟩ (rules.map group) := by
  induction rules with
  | nil => rfl
  | cons r rest ih =>
      have hmem : (r.ports.any fun p => p.port = port && p.protocol = protocol) = true ↔
          (⟨port, protocol⟩ : Port) ∈ (group r).2 := by
        simp only [List.any_eq_true, Bool.and_eq_true, decide_eq_true_eq]
        constructor
        · intro h
          obtain ⟨p, hp, rfl, rfl⟩ := h
          exact hp
        · intro h
          exact ⟨_, h, rfl, rfl⟩
      rw [mergeOrAppend, List.map_cons, merge]
      by_cases hpeer : r.peerIP = peer
      · rw [if_pos hpeer, if_pos (show (group r).1 = peer from hpeer)]
        by_cases hport : (⟨port, protocol⟩ : Port) ∈ (group r).2
        · rw [if_pos (hmem.mpr hport), if_pos hport, List.map_cons]
        · rw [if_neg (mt hmem.mp hport), if_neg hport]
          rfl
      · rw [if_neg hpeer, if_neg (show ¬ (group r).1 = peer from hpeer), List.map_cons, ih]

/-- A row changes the rules of a direction by its entry there. -/
theorem addTraffic_step (pod : PodInfo) (rules : List Rule × List Rule) (t : TrafficRow)
    (d : Direction) :
    (side (addTraffic js pod rules t) d).map group =
      (entry js pod d t).elim ((side rules d).map group) fun e =>
        merge e.1 e.2 ((side rules d).map group) := by
  by_cases hskip : t.trafficInOutIp.getD "" = "" ∨ t.trafficInOutIp.getD "" = pod.ip
  · simp only [addTraffic, entry, if_pos hskip, Option.elim_none]
  by_cases hin : js.toUpperCase (t.trafficType.getD "") = "INGRESS"
  · cases hport : parsePort (t.podPort.getD "") <;> cases d <;>
      simp [addTraffic, entry, rowDirection, relevantPort, side, group_mergeOrAppend, hskip, hin,
        hport]
  by_cases hout : js.toUpperCase (t.trafficType.getD "") = "EGRESS"
  · cases hport : parsePort (t.trafficInOutPort.getD "") <;> cases d <;>
      simp [addTraffic, entry, rowDirection, relevantPort, side, group_mergeOrAppend, hskip, hout,
        hport]
  · simp [addTraffic, entry, rowDirection, hskip, hin, hout]

/-- The rules of a direction are its entries, merged. -/
theorem processTrafficRules_groups (traffic : List TrafficRow) (pod : PodInfo) (d : Direction) :
    (side (processTrafficRules js traffic pod) d).map group =
      mergeAll (entries js pod d traffic) := by
  induction traffic using List.reverseRecOn with
  | nil => cases d <;> rfl
  | append_singleton traffic t ih =>
      rw [processTrafficRules, List.foldl_concat, ← processTrafficRules, addTraffic_step, ih,
        entries, entries, List.filterMap_append]
      cases hentry : entry js pod d t with
      | none => simp [hentry]
      | some e => simp [hentry, mergeAll]

/-! Removing duplicate ports keeps them, and the groups are sorted. -/

theorem slash_not_in_port (n : ℕ) : ∀ c ∈ (toString n).toList, (c ≠ '/' : Bool) = true := by
  intro c hc
  rw [Nat.toString_eq_ofList_toDigits, String.toList_ofList] at hc
  have hdigit := Nat.isDigit_of_mem_toDigits (by decide) (by decide) hc
  rw [decide_eq_true_eq]
  intro heq
  rw [heq] at hdigit
  exact absurd hdigit (by decide)

/-- The port ends at the first slash of the key. -/
theorem portKey_injective : Function.Injective portKey := by
  intro p q h
  have hchars := congrArg String.toList h
  simp only [portKey, String.toList_append, List.append_assoc] at hchars
  have hfront := congrArg (List.takeWhile fun c => (c ≠ '/' : Bool)) hchars
  rw [List.takeWhile_append_of_pos (slash_not_in_port p.port),
    List.takeWhile_append_of_pos (slash_not_in_port q.port)] at hfront
  have hport : (toString p.port).toList = (toString q.port).toList := by simpa using hfront
  rw [hport] at hchars
  have hprotocol : p.protocol = q.protocol := String.toList_injective (by simpa using hchars)
  have hnumber : p.port = q.port := by
    rw [Nat.toString_eq_ofList_toDigits, Nat.toString_eq_ofList_toDigits, String.toList_ofList,
      String.toList_ofList] at hport
    simpa using congrArg (fun ds => Nat.ofDigitChars 10 ds 0) hport
  cases p
  cases q
  rw [Port.mk.injEq]
  exact ⟨hnumber, hprotocol⟩

theorem mem_dedupePorts (ports : List Port) (p : Port) : p ∈ dedupePorts js ports ↔ p ∈ ports := by
  rw [dedupePorts]
  constructor
  · intro hp
    exact (List.mem_insertionSort _).mp (mem_newRows hp).1
  · intro hp
    have hnew : portKey p ∉ ([] : List String) := List.not_mem_nil
    obtain ⟨q, hq, hkey⟩ := exists_newRows (fun _ => false)
      ((List.mem_insertionSort (portLe js)).mpr hp) hnew fun _ _ _ => rfl
    rwa [← portKey_injective hkey]

theorem nodup_dedupePorts (ports : List Port) : (dedupePorts js ports).Nodup :=
  (nodup_newRows _ _ _).of_map

/-- What the rules are made of: each peer with its ports. -/
def sortedGroups (rules : List Rule) : List (String × List Port) :=
  (sortedPeers js rules).map fun r => (r.peerIP, dedupePorts js r.ports)

/-- The groups of the rows, by direction. -/
def trafficGroups (traffic : List TrafficRow) (pod : PodInfo) (d : Direction) :
    List (String × List Port) :=
  sortedGroups js (side (processTrafficRules js traffic pod) d)

theorem trafficGroups_eq {traffic : List TrafficRow} {pod : PodInfo} {ingress egress : List Rule}
    (h : processTrafficRules js traffic pod = (ingress, egress)) :
    trafficGroups js traffic pod .ingress = sortedGroups js ingress ∧
      trafficGroups js traffic pod .egress = sortedGroups js egress := by
  rw [trafficGroups, trafficGroups, h]
  exact ⟨rfl, rfl⟩

theorem standardRules_eq_map (rules : List Rule) (resolve : PeerResolver) :
    standardRules js rules resolve =
      (sortedGroups js rules).map fun g => ⟨[standardPeer g.1 resolve], g.2.map standardPort⟩ := by
  rw [standardRules, sortedGroups, List.map_map]
  rfl

theorem ciliumRules_eq_map (rules : List Rule) (resolve : PeerResolver) :
    ciliumRules js rules resolve = (sortedGroups js rules).map fun g =>
      ⟨(ciliumPeer g.1 resolve).1, (ciliumPeer g.1 resolve).2, [⟨g.2.map ciliumPort⟩]⟩ := by
  rw [ciliumRules, sortedGroups, List.map_map]
  rfl

theorem keys_trafficGroups (traffic : List TrafficRow) (pod : PodInfo) (d : Direction) :
    (trafficGroups js traffic pod d).map Prod.fst =
      ((entries js pod d traffic).map Prod.fst).eraseDups.insertionSort (peerLe js) := by
  rw [← keys_mergeAll, ← processTrafficRules_groups, List.map_map, trafficGroups, sortedGroups,
    List.map_map, sortedPeers]
  exact List.map_insertionSort _ _ _ _ fun _ _ _ _ => Iff.rfl

theorem inGroup_trafficGroups (traffic : List TrafficRow) (pod : PodInfo) (d : Direction)
    (a : String) (p : Port) :
    InGroup (trafficGroups js traffic pod d) a p ↔ (a, p) ∈ entries js pod d traffic := by
  rw [← inGroup_mergeAll, ← processTrafficRules_groups]
  constructor
  · intro h
    obtain ⟨g, hg, rfl, hp⟩ := h
    obtain ⟨r, hr, rfl⟩ := List.mem_map.mp hg
    exact ⟨group r, List.mem_map_of_mem ((List.mem_insertionSort _).mp hr), rfl,
      (mem_dedupePorts js _ p).mp hp⟩
  · intro h
    obtain ⟨g, hg, rfl, hp⟩ := h
    obtain ⟨r, hr, rfl⟩ := List.mem_map.mp hg
    exact ⟨_, List.mem_map_of_mem ((List.mem_insertionSort _).mpr hr), rfl,
      (mem_dedupePorts js _ p).mpr hp⟩

theorem sortedGroups_eq_nil_iff (rules : List Rule) : sortedGroups js rules = [] ↔ rules = [] := by
  rw [sortedGroups, List.map_eq_nil_iff, sortedPeers, ← List.length_eq_zero_iff,
    List.length_insertionSort, List.length_eq_zero_iff]

/-- The standard policy of a pod, from the groups of its rows. -/
theorem generateNetworkPolicy_eq (pod : PodInfo) (traffic : List TrafficRow)
    (resolve : PeerResolver) :
    (generateNetworkPolicy js pod traffic resolve).ns = pod.ns ∧
      (generateNetworkPolicy js pod traffic resolve).spec =
        standardSpec (ofMatchLabels pod.labels) (trafficGroups js traffic pod) fun g =>
          ⟨[standardPeer g.1 resolve], g.2.map standardPort⟩ := by
  rcases hrules : processTrafficRules js traffic pod with ⟨ingress, egress⟩
  obtain ⟨hin, hout⟩ := trafficGroups_eq js hrules
  have hempty := ite_nil_eq (fun rules => standardRules js rules resolve) rfl
  simp only [generateNetworkPolicy, hrules, standardSpec, hin, hout, sortedGroups_eq_nil_iff,
    hempty, ← standardRules_eq_map]
  split
  · rename_i hnil
    rw [hnil.1, hnil.2]
    exact ⟨rfl, rfl⟩
  · exact ⟨rfl, rfl⟩

/-- The Cilium policy of a pod, from the groups of its rows. -/
theorem generateCiliumPolicy_eq (pod : PodInfo) (traffic : List TrafficRow)
    (resolve : PeerResolver) :
    (generateCiliumPolicy js pod traffic resolve).ns = pod.ns ∧
      (generateCiliumPolicy js pod traffic resolve).spec =
        CiliumPolicy.ciliumSpec (k8sPrefixed pod.labels) pod.name (trafficGroups js traffic pod)
          fun g => ⟨(ciliumPeer g.1 resolve).1, (ciliumPeer g.1 resolve).2,
            [⟨g.2.map ciliumPort⟩]⟩ := by
  rcases hrules : processTrafficRules js traffic pod with ⟨ingress, egress⟩
  obtain ⟨hin, hout⟩ := trafficGroups_eq js hrules
  have hempty := ite_nil_eq (fun rules => ciliumRules js rules resolve) rfl
  simp only [generateCiliumPolicy, hrules, CiliumPolicy.ciliumSpec, hin, hout,
    sortedGroups_eq_nil_iff, hempty, ← ciliumRules_eq_map]
  split
  · exact ⟨rfl, rfl⟩
  · exact ⟨rfl, rfl⟩

variable {js} (hjs : js.Documented)
include hjs

theorem total_peerLe : Std.Total (peerLe js) := ⟨hjs.total⟩

theorem trans_peerLe : IsTrans String (peerLe js) := ⟨hjs.trans⟩

theorem total_portLe : Std.Total (portLe js) := by
  refine ⟨fun a b => ?_⟩
  rcases lt_trichotomy a.port b.port with hlt | heq | hgt
  · exact Or.inl (Or.inl hlt)
  · rcases hjs.total a.protocol b.protocol with hle | hge
    · exact Or.inl (Or.inr ⟨heq, hle⟩)
    · exact Or.inr (Or.inr ⟨heq.symm, hge⟩)
  · exact Or.inr (Or.inl hgt)

theorem trans_portLe : IsTrans Port (portLe js) := by
  refine ⟨fun a b c hab hbc => ?_⟩
  rcases hab with hlt | ⟨heq, hle⟩
  · rcases hbc with hlt' | ⟨heq', -⟩
    · exact Or.inl (hlt.trans hlt')
    · exact Or.inl (heq' ▸ hlt)
  · rcases hbc with hlt' | ⟨heq', hle'⟩
    · exact Or.inl (heq ▸ hlt')
    · exact Or.inr ⟨heq.trans heq', hjs.trans _ _ _ hle hle'⟩

/-- Ports with printable protocols that come before each other are the same. -/
theorem portLe_antisymm {p q : Port} (hp : p.protocol.toList.all isPrintable = true)
    (hq : q.protocol.toList.all isPrintable = true) (hle : portLe js p q) (hge : portLe js q p) :
    p = q := by
  obtain ⟨hport, hpq, hqp⟩ : p.port = q.port ∧
      js.localeCompare p.protocol q.protocol ≤ 0 ∧ js.localeCompare q.protocol p.protocol ≤ 0 := by
    rcases hle with hlt | ⟨heq, hle⟩
    · rcases hge with hlt' | ⟨heq', -⟩
      · omega
      · omega
    · rcases hge with hlt' | ⟨-, hge⟩
      · omega
      · exact ⟨heq, hle, hge⟩
  have hprotocol := hjs.printable _ _ hp hq hpq hqp
  cases p
  cases q
  rw [Port.mk.injEq]
  exact ⟨hport, hprotocol⟩

theorem sorted_dedupePorts (ports : List Port) : (dedupePorts js ports).Pairwise (portLe js) := by
  have := total_portLe hjs
  have := trans_portLe hjs
  exact (List.pairwise_insertionSort (portLe js) ports).sublist (newRows_sublist _ _ _)

theorem sorted_trafficGroups (traffic : List TrafficRow) (pod : PodInfo) (d : Direction) :
    Sorted (peerLe js) (portLe js) (trafficGroups js traffic pod d) where
  keys := by
    have := total_peerLe hjs
    have := trans_peerLe hjs
    rw [keys_trafficGroups]
    exact List.pairwise_insertionSort _ _
  keysNodup := by
    rw [keys_trafficGroups]
    exact ((List.perm_insertionSort _ _).nodup_iff).mpr (nodup_eraseDups _)
  values g hg := by
    obtain ⟨r, -, rfl⟩ := List.mem_map.mp hg
    exact sorted_dedupePorts hjs r.ports
  valuesNodup g hg := by
    obtain ⟨r, -, rfl⟩ := List.mem_map.mp hg
    exact nodup_dedupePorts js r.ports
  nonempty g hg := by
    obtain ⟨r, hr, rfl⟩ := List.mem_map.mp hg
    have hmerged : group r ∈ mergeAll (entries js pod d traffic) := by
      rw [← processTrafficRules_groups]
      exact List.mem_map_of_mem ((List.mem_insertionSort _).mp hr)
    obtain ⟨p, hp⟩ := List.exists_mem_of_ne_nil _ (mergeAll_values _ _ hmerged).1
    exact List.ne_nil_of_mem ((mem_dedupePorts js _ p).mpr hp)

end KGuardian.BridgeNetworkPolicy
