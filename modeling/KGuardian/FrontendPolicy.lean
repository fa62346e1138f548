import KGuardian.BridgeNetworkPolicy
import KGuardian.KeyedTables

/-!
The generator of standard network policies in the frontend
(`frontend/src/utils/networkPolicyGenerator.ts` and `trafficIdentity.ts`). Peers are
keyed by the name of a service or a pod, and their labels are looked up by that
name. The rules are shown to hold the peers and ports of the rows, each with the
peer of the first row of its key.
-/
namespace KGuardian.FrontendPolicy

open AllowLists JsText KeyedTables Matcher Selectors SortedGroups
open BridgeNetworkPolicy (TrafficRow)

/-! The broker as the frontend reads it. -/

/-- A row of `pod_details`, with the labels of the object in it. -/
structure PodInfo where
  podName : String
  podIp : String
  podNamespace : Option String
  labels : Option Labels
  podIdentity : Option String
  workloadSelectorLabels : Option Labels

/-- A row of `svc_details`, with the selector of the object in it. -/
structure ServiceInfo where
  svcIp : String
  svcName : Option String
  svcNamespace : Option String
  selector : Option Labels

/-- The tables by their primary keys. -/
structure Broker where
  pods : Table PodInfo.podName
  services : Table ServiceInfo.svcIp

def getServiceByIP (broker : Broker) (ip : String) : Option ServiceInfo := broker.services.lookup ip

/-- The first of the rows with the address. -/
def getPodDetailsByIP (broker : Broker) (ip : String) : Option PodInfo :=
  broker.pods.rows.find? fun row => row.podIp = ip

def getPodDetailsByName (broker : Broker) (name : String) : Option PodInfo :=
  broker.pods.lookup name

/-! Identities. -/

/-- What is left of a text after `|| undefined`. -/
def present (s : Option String) : Option String := s.filter fun s => s ≠ ""

/-- Labels of which there is at least one. -/
def presentLabels (labels : Option Labels) : Option Labels := labels.filter fun l => l.keys ≠ []

inductive TrafficIdentity where
  | service (svcName : String) (svcNamespace : Option String) (svcSelector : Option Labels)
  | pod (podName : String) (podNamespace : Option String) (podLabels : Option Labels)
  | external

/-- A service with a name, then a pod, then nothing that is known. -/
def resolveTrafficIdentity (broker : Broker) (ip : String) : TrafficIdentity :=
  if ip = "" then .external
  else
    let service := (getServiceByIP broker ip).bind fun info =>
      (present info.svcName).map fun name =>
        .service name (present info.svcNamespace) (presentLabels info.selector)
    let pod := (getPodDetailsByIP broker ip).bind fun info =>
      (present (some info.podName)).map fun name =>
        .pod name (present info.podNamespace)
          ((presentLabels info.workloadSelectorLabels).or info.labels)
    (service.or pod).getD .external

def uniqueIPs (traffic : List TrafficRow) : List String :=
  (traffic.filterMap fun t => present t.trafficInOutIp).eraseDups

/-- The first service at another address that selects a pod with these labels. -/
def selectingService (identities : List (String × TrafficIdentity)) (ip podNamespace : String)
    (podLabels : Labels) : Option TrafficIdentity :=
  identities.findSome? fun e =>
    match e.2 with
    | .service name ns (some selector) =>
        if e.1 ≠ ip ∧ ns = some podNamespace ∧
            ∀ l ∈ selector.entries, podLabels.lookup l.1 = some l.2 then
          some (.service name ns (some selector))
        else none
    | _ => none

/-- A pod that a service among the identities selects is taken for the service. -/
def redirect (identities : List (String × TrafficIdentity)) (ip : String) :
    List (String × TrafficIdentity) :=
  match identities.lookup ip with
  | some (.pod _ (some podNamespace) (some podLabels)) =>
      match selectingService identities ip podNamespace podLabels with
      | some service => identities.map fun e => if e.1 = ip then (ip, service) else e
      | none => identities
  | _ => identities

def identityMap (broker : Broker) (traffic : List TrafficRow) : List (String × TrafficIdentity) :=
  (uniqueIPs traffic).foldl redirect
    ((uniqueIPs traffic).map fun ip => (ip, resolveTrafficIdentity broker ip))

/-! Peers and their ports. -/

structure PeerInfo where
  ip : String
  identity : TrafficIdentity

/-- A peer under its key, with ports such as `TCP:80`. -/
structure PeerPorts where
  key : String
  peer : PeerInfo
  ports : List String

def peerKey (peer : PeerInfo) : String :=
  match peer.identity with
  | .service name ns _ => "svc-" ++ ns.getD "default" ++ "-" ++ name
  | .pod name ns _ => "pod-" ++ ns.getD "default" ++ "-" ++ name
  | .external => "ip-" ++ peer.ip

/-- The first peer of a key stays. -/
def addPort (peer : PeerInfo) (port : String) : List PeerPorts → List PeerPorts
  | [] => [⟨peerKey peer, peer, [port]⟩]
  | e :: rest =>
      if e.key = peerKey peer then
        ⟨e.key, e.peer, if port ∈ e.ports then e.ports else e.ports ++ [port]⟩ :: rest
      else e :: addPort peer port rest

section

variable (lower : LowerCase) (identities : List (String × TrafficIdentity))

/-- The maps for ingress and egress after one row. -/
def addTraffic (maps : List PeerPorts × List PeerPorts) (t : TrafficRow) :
    List PeerPorts × List PeerPorts :=
  let protocol := (present t.ipProtocol).getD "TCP"
  match present t.trafficInOutIp with
  | none => maps
  | some remoteIP =>
      let peer : PeerInfo := ⟨remoteIP, (identities.lookup remoteIP).getD .external⟩
      let trafficType := t.trafficType.map lower.toLowerCase
      if trafficType = some "ingress" then
        (addPort peer (protocol ++ ":" ++ (present t.podPort).getD "80") maps.1, maps.2)
      else if trafficType = some "egress" then
        (maps.1, addPort peer (protocol ++ ":" ++ (present t.trafficInOutPort).getD "80") maps.2)
      else maps

def peerMaps (traffic : List TrafficRow) : List PeerPorts × List PeerPorts :=
  traffic.foldl (addTraffic lower identities) ([], [])

end

/-! The policy. -/

/-- The labels of a workload, or else those of the pod. -/
def labelsOf (info : PodInfo) : Option Labels :=
  (presentLabels info.workloadSelectorLabels).or (presentLabels info.labels)

def getLabelsForPod (broker : Broker) (podName : String) : Option Labels :=
  (getPodDetailsByName broker podName).bind labelsOf

def appLabel (name : String) : Labels := Labels.ofList [("app", name)]

/-- The branches for services and pods, which read the same of the two. -/
def selectorPeer (broker : Broker) (pod : PodInfo) (name : String) (ns : Option String) :
    NetworkPolicyPeer where
  podSelector := some (ofMatchLabels ((getLabelsForPod broker name).getD (appLabel name)))
  namespaceSelector := (ns.filter fun ns => some ns ≠ pod.podNamespace).map fun ns =>
    ofMatchLabels (Labels.ofList [("kubernetes.io/metadata.name", ns)])
  ipBlock := none

def createPeer (broker : Broker) (pod : PodInfo) (peer : PeerInfo) : NetworkPolicyPeer :=
  match peer.identity with
  | .service name ns _ => selectorPeer broker pod name ns
  | .pod name ns _ => selectorPeer broker pod name ns
  | .external =>
      { podSelector := none, namespaceSelector := none, ipBlock := some ⟨peer.ip ++ "/32", []⟩ }

/-- The parts before and after the colon, as a port of the policy. A port that is
zero or no number stays a text. -/
def policyPort (js : Runtime) (portStr : String) : NetworkPolicyPort :=
  let parts := (portStr.toList.splitOn ':').map String.ofList
  let port := parts.getD 1 ""
  ⟨some (js.toUpperCase (parts.getD 0 "")),
    some (((parseInt port).filter fun v => v ≠ 0).elim (.str port) .int), none⟩

def policyRule (js : Runtime) (broker : Broker) (pod : PodInfo) (e : PeerPorts) : PolicyRule :=
  ⟨[createPeer broker pod e.peer], e.ports.map (policyPort js)⟩

def targetPodLabels (pod : PodInfo) : Labels := (labelsOf pod).getD (appLabel pod.podName)

/-- The name and the parts that define the policy. The ids of rules are left out. -/
structure NetworkPolicy where
  name : String
  ns : String
  spec : NetworkPolicySpec

def NetworkPolicy.audited (p : NetworkPolicy) : AuditNetworkPolicy := ⟨p.ns, p.name, "", 0, p.spec⟩

def generateNetworkPolicy (js : Runtime) (lower : LowerCase) (broker : Broker) (pod : PodInfo)
    (traffic : List TrafficRow) : NetworkPolicy :=
  let (ingressMap, egressMap) := peerMaps lower (identityMap broker traffic) traffic
  { name := (present pod.podIdentity).getD pod.podName ++ "-policy"
    ns := (present pod.podNamespace).getD "default"
    spec :=
      { podSelector := ofMatchLabels (targetPodLabels pod)
        policyTypes := (if ingressMap = [] then [] else [.ingress]) ++
          if egressMap = [] then [] else [.egress]
        ingress := ingressMap.map (policyRule js broker pod)
        egress := egressMap.map (policyRule js broker pod) } }

/-! What a row brings to the map of a direction. -/

/-- The map of a direction. -/
def side (maps : List PeerPorts × List PeerPorts) : Direction → List PeerPorts
  | .ingress => maps.1
  | .egress => maps.2
  | .other _ => []

def rowDirection (lower : LowerCase) (t : TrafficRow) : Option Direction :=
  if t.trafficType.map lower.toLowerCase = some "ingress" then some .ingress
  else if t.trafficType.map lower.toLowerCase = some "egress" then some .egress
  else none

/-- The port that matters: that of the pod for ingress, that of the peer for
egress. -/
def relevantPort (t : TrafficRow) : Direction → String
  | .ingress => (present t.podPort).getD "80"
  | _ => (present t.trafficInOutPort).getD "80"

section

variable (lower : LowerCase) (identities : List (String × TrafficIdentity))

def peerOf (remoteIP : String) : PeerInfo :=
  ⟨remoteIP, (identities.lookup remoteIP).getD .external⟩

def entry (d : Direction) (t : TrafficRow) : Option (PeerInfo × String) :=
  (present t.trafficInOutIp).bind fun remoteIP =>
    if rowDirection lower t = some d then
      some (peerOf identities remoteIP,
        (present t.ipProtocol).getD "TCP" ++ ":" ++ relevantPort t d)
    else none

/-- The entries of a direction, in the order of the rows. -/
def entries (d : Direction) (traffic : List TrafficRow) : List (PeerInfo × String) :=
  traffic.filterMap (entry lower identities d)

theorem addTraffic_step (maps : List PeerPorts × List PeerPorts) (t : TrafficRow)
    (d : Direction) :
    side (addTraffic lower identities maps t) d =
      (entry lower identities d t).elim (side maps d) fun e => addPort e.1 e.2 (side maps d) := by
  cases hpeer : present t.trafficInOutIp with
  | none => simp [addTraffic, entry, hpeer]
  | some remoteIP =>
      by_cases hin : t.trafficType.map lower.toLowerCase = some "ingress"
      · cases d <;> simp [addTraffic, entry, rowDirection, relevantPort, peerOf, side, hpeer, hin]
      by_cases hout : t.trafficType.map lower.toLowerCase = some "egress"
      · cases d <;> simp [addTraffic, entry, rowDirection, relevantPort, peerOf, side, hpeer, hout]
      · simp [addTraffic, entry, rowDirection, hpeer, hin, hout]

end

def collected (entries : List (PeerInfo × String)) : List PeerPorts :=
  entries.foldl (fun peers e => addPort e.1 e.2 peers) []

/-- The map of a direction is made of its entries. -/
theorem side_peerMaps (lower : LowerCase) (identities : List (String × TrafficIdentity))
    (traffic : List TrafficRow) (d : Direction) :
    side (peerMaps lower identities traffic) d =
      collected (entries lower identities d traffic) := by
  induction traffic using List.reverseRecOn with
  | nil => cases d <;> rfl
  | append_singleton traffic t ih =>
      rw [peerMaps, List.foldl_concat, ← peerMaps, addTraffic_step, ih, entries, entries,
        List.filterMap_append]
      cases hentry : entry lower identities d t with
      | none => simp [hentry]
      | some e => simp [hentry, collected]

/-! The peers and ports of a map. -/

def group (e : PeerPorts) : String × List String := (e.key, e.ports)

def firstPeer (entries : List (PeerInfo × String)) (key : String) : Option PeerInfo :=
  (entries.find? fun e => peerKey e.1 = key).map Prod.fst

theorem group_addPort (peer : PeerInfo) (port : String) (peers : List PeerPorts) :
    (addPort peer port peers).map group = merge (peerKey peer) port (peers.map group) := by
  induction peers with
  | nil => rfl
  | cons e rest ih =>
      rw [addPort, List.map_cons, merge]
      by_cases hkey : e.key = peerKey peer
      · rw [if_pos hkey, if_pos (show (group e).1 = peerKey peer from hkey)]
        by_cases hport : port ∈ e.ports
        · rw [if_pos hport, if_pos (show port ∈ (group e).2 from hport)]
          rfl
        · rw [if_neg hport, if_neg (show port ∉ (group e).2 from hport)]
          rfl
      · rw [if_neg hkey, if_neg (show ¬ (group e).1 = peerKey peer from hkey), List.map_cons, ih]

theorem group_collected (entries : List (PeerInfo × String)) :
    (collected entries).map group = mergeAll (entries.map fun e => (peerKey e.1, e.2)) := by
  induction entries using List.reverseRecOn with
  | nil => rfl
  | append_singleton entries e ih =>
      rw [collected, List.foldl_concat, ← collected, group_addPort, ih, List.map_append, mergeAll,
        mergeAll, List.map_singleton, List.foldl_concat]

theorem exists_key_iff (entries : List (PeerInfo × String)) (key : String) :
    (∃ e ∈ collected entries, e.key = key) ↔ ∃ e ∈ entries, peerKey e.1 = key := by
  have hkeys := congrArg (List.map Prod.fst) (group_collected entries)
  rw [keys_mergeAll, List.map_map, List.map_map] at hkeys
  have hmem : key ∈ (collected entries).map (Prod.fst ∘ group) ↔
      key ∈ entries.map fun e => peerKey e.1 := by
    rw [hkeys, List.mem_eraseDups]
    rfl
  rwa [List.mem_map, List.mem_map] at hmem

theorem collected_eq_nil_iff (entries : List (PeerInfo × String)) :
    collected entries = [] ↔ entries = [] := by
  constructor
  · intro hnil
    rw [List.eq_nil_iff_forall_not_mem]
    intro e he
    obtain ⟨e', he', -⟩ := (exists_key_iff entries (peerKey e.1)).mpr ⟨e, he, rfl⟩
    exact absurd (hnil ▸ he') List.not_mem_nil
  · rintro rfl
    rfl

/-- A peer keeps its place, or is new under its key. -/
theorem mem_addPort {peer : PeerInfo} {port : String} {peers : List PeerPorts} {e : PeerPorts}
    (h : e ∈ addPort peer port peers) :
    (∃ old ∈ peers, e.key = old.key ∧ e.peer = old.peer) ∨
      e.key = peerKey peer ∧ e.peer = peer ∧ ∀ old ∈ peers, old.key ≠ peerKey peer := by
  induction peers with
  | nil =>
      obtain rfl := List.mem_singleton.mp h
      exact .inr ⟨rfl, rfl, fun _ hold => absurd hold List.not_mem_nil⟩
  | cons first rest ih =>
      rw [addPort] at h
      split at h
      · rcases List.mem_cons.mp h with rfl | hrest
        · exact .inl ⟨first, List.mem_cons_self, rfl, rfl⟩
        · exact .inl ⟨e, List.mem_cons_of_mem _ hrest, rfl, rfl⟩
      · rename_i hkey
        rcases List.mem_cons.mp h with rfl | hrest
        · exact .inl ⟨e, List.mem_cons_self, rfl, rfl⟩
        · rcases ih hrest with ⟨old, hold, hsame⟩ | ⟨hnew, hpeer, hnone⟩
          · exact .inl ⟨old, List.mem_cons_of_mem _ hold, hsame⟩
          · exact .inr ⟨hnew, hpeer, List.forall_mem_cons.mpr ⟨hkey, hnone⟩⟩

/-- The first entry of a key gives its peer. -/
theorem firstPeer_of_mem {entries : List (PeerInfo × String)} {e : PeerPorts}
    (h : e ∈ collected entries) : firstPeer entries e.key = some e.peer := by
  induction entries using List.reverseRecOn generalizing e with
  | nil => exact absurd h List.not_mem_nil
  | append_singleton entries new ih =>
      rw [collected, List.foldl_concat, ← collected] at h
      rw [firstPeer, List.find?_append]
      rcases mem_addPort h with ⟨old, hold, hkey, hpeer⟩ | ⟨hkey, hpeer, hnone⟩
      · obtain ⟨first, hfirst, hinfo⟩ := Option.map_eq_some_iff.mp (ih hold)
        rw [hkey, hfirst, hpeer, ← hinfo]
        rfl
      · have habsent : entries.find? (fun e => peerKey e.1 = peerKey new.1) = none := by
          rw [List.find?_eq_none]
          intro old hold hsame
          obtain ⟨e', he', hkey'⟩ :=
            (exists_key_iff entries _).mpr ⟨old, hold, of_decide_eq_true hsame⟩
          exact hnone e' he' hkey'
        rw [hkey, habsent, hpeer]
        simp

/-- A port is admitted for the first peer of each key that has it. -/
theorem permits_collected (js : Runtime) (broker : Broker) (pod : PodInfo)
    (entries : List (PeerInfo × String)) (peer : NetworkPolicyPeer → Prop)
    (port : NetworkPolicyPort → Prop) :
    Permits peer port ((collected entries).map (policyRule js broker pod)) ↔
      ∃ e ∈ entries, port (policyPort js e.2) ∧
        ∃ first ∈ firstPeer entries (peerKey e.1), peer (createPeer broker pod first) := by
  have hgroup (key portStr : String) :
      (∃ e ∈ collected entries, e.key = key ∧ portStr ∈ e.ports) ↔
        ∃ e ∈ entries, peerKey e.1 = key ∧ e.2 = portStr := by
    have hin := inGroup_mergeAll (entries.map fun e => (peerKey e.1, e.2)) key portStr
    rw [← group_collected, InGroup, List.mem_map] at hin
    simpa [group] using hin
  have hports : ∀ e ∈ collected entries, e.ports ≠ [] := by
    intro e he
    have hvalues := mergeAll_values (entries.map fun e => (peerKey e.1, e.2)) (group e)
    rw [← group_collected] at hvalues
    exact (hvalues (List.mem_map_of_mem he)).1
  constructor
  · rintro ⟨rule, hrule, hpeer, hport⟩
    obtain ⟨e, he, rfl⟩ := List.mem_map.mp hrule
    rw [openOr_iff_of_ne_nil _ _ (by simpa [policyRule] using hports e he)] at hport
    obtain ⟨p, hp, hportAdmits⟩ := hport
    obtain ⟨portStr, hportStr, rfl⟩ := List.mem_map.mp hp
    obtain ⟨row, hrow, hkey, rfl⟩ := (hgroup e.key portStr).mp ⟨e, he, rfl, hportStr⟩
    exact ⟨row, hrow, hportAdmits, e.peer, hkey ▸ firstPeer_of_mem he,
      (openOr_singleton _ _).mp hpeer⟩
  · rintro ⟨row, hrow, hport, first, hfirst, hpeer⟩
    obtain ⟨e, he, hkey, hportStr⟩ := (hgroup _ _).mpr ⟨row, hrow, rfl, rfl⟩
    have hsame := firstPeer_of_mem he
    rw [hkey, hfirst] at hsame
    obtain rfl := Option.some.inj hsame
    exact ⟨_, List.mem_map_of_mem he, (openOr_singleton _ _).mpr hpeer,
      .inr ⟨_, List.mem_map_of_mem hportStr, hport⟩⟩

/-! The policy by direction. -/

theorem rulesFor_generate (js : Runtime) (lower : LowerCase) (broker : Broker) (pod : PodInfo)
    (traffic : List TrafficRow) (d : Direction) :
    PolicySemantics.rulesFor (generateNetworkPolicy js lower broker pod traffic).spec d =
      (side (peerMaps lower (identityMap broker traffic) traffic) d).map
        (policyRule js broker pod) := by
  cases d <;> rfl

theorem mem_policyTypes_iff (js : Runtime) (lower : LowerCase) (broker : Broker) (pod : PodInfo)
    (traffic : List TrafficRow) (d : Direction) :
    d ∈ (generateNetworkPolicy js lower broker pod traffic).spec.policyTypes ↔
      side (peerMaps lower (identityMap broker traffic) traffic) d ≠ [] := by
  rcases hmaps : peerMaps lower (identityMap broker traffic) traffic with ⟨ingressMap, egressMap⟩
  by_cases hin : ingressMap = [] <;> by_cases hout : egressMap = [] <;> cases d <;>
    simp [generateNetworkPolicy, hmaps, side, hin, hout]

end KGuardian.FrontendPolicy
