import KGuardian.DroppedTraffic

/-!
Which pod a generated policy is for. The advisor's service and the assistant's
tool take a pod name, read the rows of that name, and find the pod's details
under the address in the first row. The policy is for the pod that was asked for
only if these details are its own and the rows of its name are too.
-/
namespace KGuardian.PolicyTargets

open Selectors Matcher SortedGroups JsText
open BrokerTraffic (PodTraffic Table)
open PodTrafficReads (podTrafficByName)
open DroppedTraffic (servedRow)
open StandardPolicy (BrokerData PodDetail SvcDetail ServicePort createNetworkPolicyPeer)
open BridgeNetworkPolicy (PeerResolver PeerIdentity TrafficRow PodInfo Port entry)
open GeneratorAgreement (advisorRow advisorPod advisorEntry mem_advisorEntries standardEntry)

/-! What the broker answers. -/

/-- A row of `pod_details`, with the labels of the stored manifest if it has any. -/
structure DetailRow where
  podName : String
  podIp : String
  podNamespace : Option String
  labels : Option Labels

/-- A row of `svc_details`, with the selector and the ports of the stored spec. -/
structure ServiceRow where
  svcIp : String
  svcName : Option String
  svcNamespace : Option String
  selector : Option Labels
  ports : List ServicePort

/-- The tables that policies are made from, in the order in which they are read. -/
structure BrokerState where
  traffic : Table
  details : List DetailRow
  services : List ServiceRow

inductive Request where
  | podTraffic (name : String)
  | podByIP (ip : String)
  | serviceByIP (ip : String)
  deriving DecidableEq

/-- No route has an empty last segment. -/
def getPodTrafficName (state : BrokerState) (name : String) : Option (List PodTraffic) :=
  if name = "" then none else some (podTrafficByName state.traffic name)

def getPodByIp (state : BrokerState) (ip : String) : Option DetailRow :=
  if ip = "" then none else state.details.find? fun row => row.podIp = ip

def getSvcByIp (state : BrokerState) (ip : String) : Option ServiceRow :=
  if ip = "" then none else state.services.find? fun row => row.svcIp = ip

/-- A request fails when the broker cannot be reached, is too slow or answers
with too much. -/
abbrev Failures := Request → Option String

/-! The advisor. -/

def advisorDetail (row : DetailRow) : PodDetail :=
  ⟨row.podIp, row.podName, row.podNamespace.getD "", row.labels.getD ∅⟩

def advisorService (row : ServiceRow) : SvcDetail :=
  ⟨row.svcName.getD "", row.svcNamespace.getD "", row.selector.getD ∅, row.ports⟩

def getPodTraffic (state : BrokerState) (failure : Failures) (podName : String) :
    Except String (List PodTraffic) :=
  match failure (.podTraffic podName) with
  | some e => .error e
  | none =>
      match getPodTrafficName state podName with
      | none => .error "GetPodTraffic: received non-OK HTTP status code: 404"
      | some rows =>
          if rows = [] then .error "GetPodTraffic: No pod traffic found in database" else .ok rows

/-- Any other status than OK counts as not found. -/
def advisorBroker (state : BrokerState) (failure : Failures) : BrokerData where
  podByIP ip :=
    match failure (.podByIP ip) with
    | some e => .error e
    | none => .ok ((getPodByIp state ip).map advisorDetail)
  serviceByIP ip :=
    match failure (.serviceByIP ip) with
    | some e => .error e
    | none => .ok ((getSvcByIp state ip).map advisorService)

/-- The source address of the first row, or else its peer. -/
def lookupIP : List PodTraffic → String
  | [] => ""
  | row :: _ => if row.podIp.getD "" ≠ "" then row.podIp.getD "" else row.trafficInOutIp.getD ""

/-- The method `GeneratePolicy` for the generator that it selects. -/
def generatePolicy {Policy : Type}
    (generate : BrokerData → String → List StandardPolicy.PodTraffic → Option PodDetail →
      Except String Policy)
    (state : BrokerState) (failure : Failures) (podName : String) : Except String Policy :=
  match getPodTraffic state failure podName with
  | .error e => .error e
  | .ok podTraffic =>
      if podTraffic = [] then .error ("no traffic data found for pod " ++ podName)
      else if lookupIP podTraffic = "" then
        .error ("could not determine IP for pod spec lookup for pod " ++ podName)
      else
        match (advisorBroker state failure).podByIP (lookupIP podTraffic) with
        | .error e => .error e
        | .ok none =>
            .error ("pod details not found using IP " ++ lookupIP podTraffic ++ " for pod " ++
              podName)
        | .ok (some podDetail) =>
            generate (advisorBroker state failure) podName
              ((podTraffic.map servedRow).map advisorRow) (some podDetail)

/-! The assistant. -/

/-- A GET throws unless it is answered with a body. Dot segments are taken out
of the address before it is sent. -/
def brokerGetJSON {α : Type} (failure : Failures) (request : Request) (segment : String)
    (answer : Option α) : Except String α :=
  match failure request with
  | some e => .error e
  | none =>
      if segment = "." ∨ segment = ".." then .error "broker returned 404"
      else
        match answer with
        | none => .error "broker returned 404"
        | some body => .ok body

def brokerPeerResolver (state : BrokerState) (failure : Failures) : PeerResolver := fun ip =>
  let podOrNull :=
    match brokerGetJSON failure (.podByIP ip) ip (getPodByIp state ip) with
    | .error _ => none
    | .ok pod =>
        if (pod.labels.getD ∅).keys ≠ [] then some ⟨pod.labels, pod.podNamespace⟩ else none
  match brokerGetJSON failure (.serviceByIP ip) ip (getSvcByIp state ip) with
  | .error _ => podOrNull
  | .ok svc =>
      if (svc.selector.getD ∅).keys ≠ [] then some ⟨svc.selector, svc.svcNamespace⟩ else podOrNull

def podInfo (row : DetailRow) : PodInfo :=
  ⟨row.podName, row.podNamespace.getD "", row.podIp, row.labels.getD ∅⟩

/-- The handler `generate_network_policy` for the policy type that it selects. -/
def handleGenerateNetworkPolicy {Policy : Type}
    (generate : PodInfo → List TrafficRow → PeerResolver → Policy) (state : BrokerState)
    (failure : Failures) (podName : String) : Except String Policy :=
  match brokerGetJSON failure (.podTraffic podName) podName
      (getPodTrafficName state podName) with
  | .error e => .error e
  | .ok [] => .error ("no traffic data found for pod " ++ podName)
  | .ok (first :: rest) =>
      let podIP := first.podIp.getD ""
      match brokerGetJSON failure (.podByIP podIP) podIP (getPodByIp state podIP) with
      | .error e => .error e
      | .ok detail =>
          .ok (generate (podInfo detail) ((first :: rest).map servedRow)
            (brokerPeerResolver state failure))

/-! What it means to be for a pod. -/

structure RequestedPod where
  ns : String
  name : String
  labels : Labels

/-- A row that the pod itself is named in. -/
def Own (pod : RequestedPod) (row : PodTraffic) : Prop :=
  row.podName = some pod.name ∧ row.podNamespace = some pod.ns

/-- The same labels, in any order. -/
def SameLabels (l l' : Labels) : Prop := ∀ k, l.lookup k = l'.lookup k

/-- Every label of the first is one of the second. -/
def Carries (l l' : Labels) : Prop := ∀ k v, l.lookup k = some v → l'.lookup k = some v

def Shares (l l' : Labels) : Prop := ∃ k v, l.lookup k = some v ∧ l'.lookup k = some v

/-- The namespace and the selector of a policy are those of the pod, no pod
without a label of it is selected, and all that the rules list is read from a row
of the pod. -/
structure Targets {κ π : Type} (pod : RequestedPod) (ns : String) (sameSelector : Prop)
    (selects : Labels → Prop) (lists own : Direction → κ → π → Prop) : Prop where
  home : ns = pod.ns
  selector : sameSelector
  narrow : ∀ lbls, selects lbls → Shares pod.labels lbls
  rules : ∀ d peer port, lists d peer port → own d peer port

/-- A rule of a standard policy lists the port for the peer. -/
def StandardLists (rules : List PolicyRule) (peer : NetworkPolicyPeer) (port : NetworkPolicyPort) :
    Prop := ∃ rule ∈ rules, rule.peers = [peer] ∧ port ∈ rule.ports

/-- A rule of a Cilium policy lists the port for the endpoints or addresses. -/
def CiliumLists (rules : List CiliumPolicy.CiliumPeerRule)
    (peer : List CiliumPolicy.CiliumEndpointSelector × List String)
    (port : CiliumPolicy.CiliumPortProtocol) : Prop :=
  ∃ rule ∈ rules, (rule.endpoints, rule.cidr) = peer ∧ ∃ entry ∈ rule.toPorts, port ∈ entry.ports

/-- What the pod's own rows bring to the rules. -/
def OwnRules {κ π : Type} (state : BrokerState) (pod : RequestedPod)
    (reads : Direction → TrafficRow → Option (String × π)) (peerOf : String → κ) (d : Direction)
    (peer : κ) (port : π) : Prop :=
  ∃ row ∈ podTrafficByName state.traffic pod.name, Own pod row ∧
    ∃ ip, reads d (servedRow row) = some (ip, port) ∧ peerOf ip = peer

def StandardTargets (state : BrokerState) (pod : RequestedPod)
    (reads : Direction → TrafficRow → Option (String × NetworkPolicyPort))
    (peerOf : String → NetworkPolicyPeer) (policy : StandardPolicy.NetworkPolicy) : Prop :=
  Targets pod policy.ns (SameLabels policy.spec.podSelector.matchLabels pod.labels)
    policy.spec.podSelector.Selects
    (fun d => StandardLists (PolicySemantics.rulesFor policy.spec d))
    (OwnRules state pod reads peerOf)

/-- The labels of a pod as Cilium has them. -/
def ciliumLabels (labels : Labels) : Labels :=
  (CiliumPolicy.createEndpointSelector labels).matchLabels

def CiliumTargets (state : BrokerState) (pod : RequestedPod)
    (reads : Direction → TrafficRow → Option (String × CiliumPolicy.CiliumPortProtocol))
    (peerOf : String → List CiliumPolicy.CiliumEndpointSelector × List String)
    (policy : CiliumPolicy.CiliumNetworkPolicy) : Prop :=
  Targets pod policy.ns
    (SameLabels policy.spec.endpointSelector.matchLabels (ciliumLabels pod.labels))
    (fun lbls => Carries policy.spec.endpointSelector.matchLabels (ciliumLabels lbls))
    (fun d => CiliumLists (CiliumPolicy.rulesFor policy.spec d))
    (OwnRules state pod reads peerOf)

/-! What a generator reads from a row, whatever the address of the pod. -/

/-- No address is left out as the pod's own. -/
def anyPod : PodInfo := ⟨"", "", "", ∅⟩

theorem notSelf_iff {π : Type} {peer own : String} {read : Option (String × π)}
    (hpeer : ∀ e, read = some e → e.1 = peer) (e : String × π) :
    (if peer = "" ∨ peer = own then none else read) = some e ↔
      (if peer = "" ∨ peer = "" then none else read) = some e ∧ e.1 ≠ own := by
  by_cases hempty : peer = ""
  · simp [hempty]
  by_cases hself : peer = own
  · rw [if_pos (Or.inr hself), if_neg (by simp [hempty])]
    constructor
    · intro h
      cases h
    · intro h
      exact absurd ((hpeer e h.1).trans hself) h.2
  · rw [if_neg (by simp [hempty, hself]), if_neg (by simp [hempty])]
    constructor
    · intro h
      refine ⟨h, ?_⟩
      rw [hpeer e h]
      exact hself
    · exact And.left

theorem advisorEntry_eq_some_iff (pod : PodInfo) (d : Direction) (t : TrafficRow)
    (e : String × NetworkPolicyPort) :
    advisorEntry pod d t = some e ↔ advisorEntry anyPod d t = some e ∧ e.1 ≠ pod.ip := by
  refine notSelf_iff (fun e h => ?_) e
  split at h
  · obtain ⟨v, -, rfl⟩ := Option.map_eq_some_iff.mp h
    rfl
  · cases h

theorem entry_eq_some_iff (js : Runtime) (pod : PodInfo) (d : Direction) (t : TrafficRow)
    (e : String × Port) :
    entry js pod d t = some e ↔ entry js anyPod d t = some e ∧ e.1 ≠ pod.ip := by
  refine notSelf_iff (fun e h => ?_) e
  split at h
  · obtain ⟨v, -, rfl⟩ := Option.map_eq_some_iff.mp h
    rfl
  · cases h

/-! Which pods a label map selects. -/

theorem selects_iff_carries (labels lbls : Labels) :
    (ofMatchLabels labels).Selects lbls ↔ Carries labels lbls := by
  constructor
  · intro h k v hv
    exact h.1 ⟨k, v⟩ (AList.mem_lookup_iff.mp hv)
  · intro h
    refine ⟨fun e he => ?_, fun r hr => absurd hr List.not_mem_nil⟩
    exact h e.1 e.2 (AList.mem_lookup_iff.mpr he)

/-- A label is found under its prefixed key. -/
theorem lookup_prefixed (entries : List (Sigma fun _ : String => String)) (k : String) :
    (Labels.ofList (entries.map fun e => ("k8s:" ++ e.1, e.2))).lookup ("k8s:" ++ k) =
      entries.dlookup k := by
  induction entries with
  | nil => rfl
  | cons e rest ih =>
      rw [List.map_cons, Labels.ofList, List.foldr_cons, ← Labels.ofList]
      by_cases hk : e.1 = k
      · subst hk
        rw [AList.lookup_insert, List.dlookup_cons_eq]
      · have hne : "k8s:" ++ k ≠ "k8s:" ++ e.1 := by
          intro h
          exact hk ((String.append_right_inj _).mp h).symm
        rw [AList.lookup_insert_ne hne, ih, List.dlookup_cons_ne _ _ (Ne.symm hk)]

theorem lookup_ciliumLabels (labels : Labels) (k : String) :
    (ciliumLabels labels).lookup ("k8s:" ++ k) = labels.lookup k := by
  rw [ciliumLabels, CiliumPolicy.createEndpointSelector_eq, lookup_prefixed]
  rfl

/-- All keys have the prefix. -/
theorem prefixed_of_lookup (entries : List (Sigma fun _ : String => String)) {k v : String}
    (h : (Labels.ofList (entries.map fun e => ("k8s:" ++ e.1, e.2))).lookup k = some v) :
    ∃ k', k = "k8s:" ++ k' := by
  induction entries with
  | nil => cases h
  | cons e rest ih =>
      rw [List.map_cons, Labels.ofList, List.foldr_cons, ← Labels.ofList] at h
      by_cases hk : k = "k8s:" ++ e.1
      · exact ⟨e.1, hk⟩
      · rw [AList.lookup_insert_ne hk] at h
        exact ih h

theorem carries_ciliumLabels_iff (labels lbls : Labels) :
    Carries (ciliumLabels labels) (ciliumLabels lbls) ↔ Carries labels lbls := by
  constructor
  · intro h k v hv
    rw [← lookup_ciliumLabels] at hv ⊢
    exact h _ v hv
  · intro h k v hv
    have hkey : ∃ k', k = "k8s:" ++ k' := by
      rw [ciliumLabels, CiliumPolicy.createEndpointSelector_eq] at hv
      exact prefixed_of_lookup _ hv
    obtain ⟨k', rfl⟩ := hkey
    rw [lookup_ciliumLabels] at hv ⊢
    exact h k' v hv

theorem sameLabels_iff_carries (labels lbls : Labels) :
    SameLabels labels lbls ↔ Carries labels lbls ∧ Carries lbls labels := by
  constructor
  · intro h
    exact ⟨fun k v hv => (h k).symm.trans hv, fun k v hv => (h k).trans hv⟩
  · intro h k
    exact Option.ext fun v => ⟨h.1 k v, h.2 k v⟩

theorem sameLabels_ciliumLabels_iff (labels lbls : Labels) :
    SameLabels (ciliumLabels labels) (ciliumLabels lbls) ↔ SameLabels labels lbls := by
  rw [sameLabels_iff_carries, sameLabels_iff_carries, carries_ciliumLabels_iff,
    carries_ciliumLabels_iff]

theorem exists_lookup_iff (labels : Labels) :
    (∃ k v, labels.lookup k = some v) ↔ labels.keys ≠ [] := by
  constructor
  · intro h hnil
    obtain ⟨k, v, hv⟩ := h
    have hmem : k ∈ labels.keys := AList.mem_keys.mp (AList.lookup_isSome.mp (by rw [hv]; rfl))
    rw [hnil] at hmem
    exact List.not_mem_nil hmem
  · intro h
    obtain ⟨k, hk⟩ := List.exists_mem_of_ne_nil _ h
    exact ⟨k, Option.isSome_iff_exists.mp (AList.lookup_isSome.mpr (AList.mem_keys.mpr hk))⟩

/-- Only pods with a shared label are selected exactly when there is a label: the
empty selector selects every pod. -/
theorem narrow_iff {labels own : Labels} (hsame : SameLabels labels own) :
    (∀ lbls, Carries labels lbls → Shares own lbls) ↔ own.keys ≠ [] := by
  rw [← exists_lookup_iff]
  constructor
  · intro h
    obtain ⟨k, v, hv, -⟩ := h labels fun _ _ hv => hv
    exact ⟨k, v, hv⟩
  · intro h lbls hcarries
    obtain ⟨k, v, hv⟩ := h
    exact ⟨k, v, hv, hcarries k v ((hsame k).trans hv)⟩

/-! When a policy is for the pod: the details that were found must be its own, and
so must the rows. -/

/-- The details that the advisor makes a policy from. -/
structure AdvisorFinds (state : BrokerState) (failure : Failures) (podName : String)
    (detail : DetailRow) : Prop where
  name : podName ≠ ""
  traffic : failure (.podTraffic podName) = none
  rows : podTrafficByName state.traffic podName ≠ []
  ip : lookupIP (podTrafficByName state.traffic podName) ≠ ""
  details : failure (.podByIP (lookupIP (podTrafficByName state.traffic podName))) = none
  found : getPodByIp state (lookupIP (podTrafficByName state.traffic podName)) = some detail

/-- The details that the assistant makes a policy from. -/
structure BridgeFinds (state : BrokerState) (failure : Failures) (podName : String)
    (first : PodTraffic) (detail : DetailRow) : Prop where
  name : podName ≠ "" ∧ podName ≠ "." ∧ podName ≠ ".."
  traffic : failure (.podTraffic podName) = none
  rows : (podTrafficByName state.traffic podName).head? = some first
  ip : first.podIp.getD "" ≠ "." ∧ first.podIp.getD "" ≠ ".."
  details : failure (.podByIP (first.podIp.getD "")) = none
  found : getPodByIp state (first.podIp.getD "") = some detail

/-- The details have the namespace and the labels of the pod, which has a label,
and each row of its name says no more than a row of its own. -/
structure Suited {κ π : Type} (state : BrokerState) (pod : RequestedPod) (detail : DetailRow)
    (reads : Direction → TrafficRow → Option (String × π)) (peerOf : String → κ) : Prop where
  home : detail.podNamespace.getD "" = pod.ns
  labels : SameLabels (detail.labels.getD ∅) pod.labels
  labelled : pod.labels.keys ≠ []
  rows : ∀ row ∈ podTrafficByName state.traffic pod.name, ∀ d ip port,
    reads d (servedRow row) = some (ip, port) → ip ≠ detail.podIp →
      OwnRules state pod reads peerOf d (peerOf ip) port

/-- What the rows of the name bring to the rules. -/
def NameRules {κ π : Type} (state : BrokerState) (pod : RequestedPod) (podIp : String)
    (reads : Direction → TrafficRow → Option (String × π)) (peerOf : String → κ) (d : Direction)
    (peer : κ) (port : π) : Prop :=
  ∃ row ∈ podTrafficByName state.traffic pod.name, ∃ ip,
    reads d (servedRow row) = some (ip, port) ∧ ip ≠ podIp ∧ peerOf ip = peer

theorem targets_iff_suited {κ π : Type} (state : BrokerState) (pod : RequestedPod)
    (detail : DetailRow) (reads : Direction → TrafficRow → Option (String × π))
    (peerOf : String → κ) {ns : String} {sameSelector : Prop} {selects : Labels → Prop}
    {lists : Direction → κ → π → Prop} (hns : ns = detail.podNamespace.getD "")
    (hsame : sameSelector ↔ SameLabels (detail.labels.getD ∅) pod.labels)
    (hselects : ∀ lbls, selects lbls ↔ Carries (detail.labels.getD ∅) lbls)
    (hlists : ∀ d peer port, lists d peer port ↔
      NameRules state pod detail.podIp reads peerOf d peer port) :
    Targets pod ns sameSelector selects lists (OwnRules state pod reads peerOf) ↔
      Suited state pod detail reads peerOf := by
  constructor
  · intro h
    have hlabels := hsame.mp h.selector
    refine ⟨hns.symm.trans h.home, hlabels, ?_, ?_⟩
    · refine (narrow_iff hlabels).mp fun lbls hcarries => ?_
      exact h.narrow lbls ((hselects lbls).mpr hcarries)
    · intro row hrow d ip port hread hip
      exact h.rules d _ port ((hlists d _ port).mpr ⟨row, hrow, ip, hread, hip, rfl⟩)
  · intro h
    refine ⟨hns.trans h.home, hsame.mpr h.labels, ?_, ?_⟩
    · intro lbls hselect
      exact (narrow_iff h.labels).mpr h.labelled lbls ((hselects lbls).mp hselect)
    · intro d peer port hlist
      obtain ⟨row, hrow, ip, hread, hip, rfl⟩ := (hlists d peer port).mp hlist
      exact h.rows row hrow d ip port hread hip

/-! The rules of a policy list what is in its groups. -/

section Lists

variable {β : Type}

theorem standardLists_iff (groups : List (String × List β)) (rule : String × List β → PolicyRule)
    (peerOf : String → NetworkPolicyPeer) (portOf : β → NetworkPolicyPort)
    (hrule : ∀ g, rule g = ⟨[peerOf g.1], g.2.map portOf⟩) (peer : NetworkPolicyPeer)
    (port : NetworkPolicyPort) :
    StandardLists (groups.map rule) peer port ↔
      ∃ ip p, InGroup groups ip p ∧ peerOf ip = peer ∧ portOf p = port := by
  constructor
  · intro h
    obtain ⟨r, hr, hpeers, hport⟩ := h
    obtain ⟨g, hg, rfl⟩ := List.mem_map.mp hr
    rw [hrule] at hpeers hport
    obtain ⟨p, hp, rfl⟩ := List.mem_map.mp hport
    exact ⟨g.1, p, ⟨g, hg, rfl, hp⟩, (List.cons.inj hpeers).1, rfl⟩
  · intro h
    obtain ⟨ip, p, ⟨g, hg, rfl, hp⟩, rfl, rfl⟩ := h
    refine ⟨rule g, List.mem_map_of_mem hg, ?_, ?_⟩
    · rw [hrule]
    · rw [hrule]
      exact List.mem_map_of_mem hp

theorem ciliumLists_iff (groups : List (String × List β))
    (rule : String × List β → CiliumPolicy.CiliumPeerRule)
    (peerOf : String → List CiliumPolicy.CiliumEndpointSelector × List String)
    (portOf : β → CiliumPolicy.CiliumPortProtocol)
    (hpeer : ∀ g, ((rule g).endpoints, (rule g).cidr) = peerOf g.1)
    (hports : ∀ g port, (∃ entry ∈ (rule g).toPorts, port ∈ entry.ports) ↔ port ∈ g.2.map portOf)
    (peer : List CiliumPolicy.CiliumEndpointSelector × List String)
    (port : CiliumPolicy.CiliumPortProtocol) :
    CiliumLists (groups.map rule) peer port ↔
      ∃ ip p, InGroup groups ip p ∧ peerOf ip = peer ∧ portOf p = port := by
  constructor
  · intro h
    obtain ⟨r, hr, hpeers, hport⟩ := h
    obtain ⟨g, hg, rfl⟩ := List.mem_map.mp hr
    obtain ⟨p, hp, rfl⟩ := List.mem_map.mp ((hports g port).mp hport)
    exact ⟨g.1, p, ⟨g, hg, rfl, hp⟩, (hpeer g).symm.trans hpeers, rfl⟩
  · intro h
    obtain ⟨ip, p, ⟨g, hg, rfl, hp⟩, rfl, rfl⟩ := h
    exact ⟨rule g, List.mem_map_of_mem hg, hpeer g, (hports g _).mpr (List.mem_map_of_mem hp)⟩

/-- Ports are read as the policy has them. -/
def portsAs {π : Type} (portOf : β → π) (reads : Direction → TrafficRow → Option (String × β))
    (d : Direction) (t : TrafficRow) : Option (String × π) :=
  (reads d t).map fun e => (e.1, portOf e.2)

/-- The groups of the rows of a name, as rules. -/
theorem nameRules_iff {κ π : Type} (state : BrokerState) (pod : RequestedPod) (podIp : String)
    (peerOf : String → κ) (portOf : β → π) (d : Direction)
    (reads : Direction → TrafficRow → Option (String × β)) (groups : List (String × List β))
    (hgroups : ∀ ip p, InGroup groups ip p ↔
      ∃ row ∈ podTrafficByName state.traffic pod.name,
        reads d (servedRow row) = some (ip, p) ∧ ip ≠ podIp) (peer : κ) (port : π) :
    (∃ ip p, InGroup groups ip p ∧ peerOf ip = peer ∧ portOf p = port) ↔
      NameRules state pod podIp (portsAs portOf reads) peerOf d peer port := by
  constructor
  · intro h
    obtain ⟨ip, p, hgroup, rfl, rfl⟩ := h
    obtain ⟨row, hrow, hread, hip⟩ := (hgroups ip p).mp hgroup
    exact ⟨row, hrow, ip, by rw [portsAs, hread]; rfl, hip, rfl⟩
  · intro h
    obtain ⟨row, hrow, ip, hread, hip, rfl⟩ := h
    obtain ⟨⟨ip', p⟩, hread', heq⟩ := Option.map_eq_some_iff.mp hread
    obtain ⟨rfl, rfl⟩ := Prod.ext_iff.mp heq
    exact ⟨ip', p, (hgroups ip' p).mpr ⟨row, hrow, hread', hip⟩, rfl, rfl⟩

end Lists

/-! Each generator on the details that were found. -/

section Generators

variable (state : BrokerState) (failure : Failures) (pod : RequestedPod) (detail : DetailRow)
  (js : Runtime)

/-- The rows of the requested name. -/
def servedRows (state : BrokerState) (podName : String) : List TrafficRow :=
  (podTrafficByName state.traffic podName).map servedRow

def advisorCiliumReads :
    Direction → TrafficRow → Option (String × CiliumPolicy.CiliumPortProtocol) :=
  portsAs CiliumPolicy.ciliumPort (advisorEntry anyPod)

def bridgeStandardReads : Direction → TrafficRow → Option (String × NetworkPolicyPort) :=
  portsAs BridgeNetworkPolicy.standardPort (entry js anyPod)

def bridgeCiliumReads :
    Direction → TrafficRow → Option (String × CiliumPolicy.CiliumPortProtocol) :=
  portsAs BridgeNetworkPolicy.ciliumPort (entry js anyPod)

theorem inGroup_advisor (d : Direction) (ip : String) (p : NetworkPolicyPort) :
    InGroup (PeerGroups.trafficGroups ((servedRows state pod.name).map advisorRow)
        (advisorDetail detail) d) ip p ↔
      ∃ row ∈ podTrafficByName state.traffic pod.name,
        advisorEntry anyPod d (servedRow row) = some (ip, p) ∧ ip ≠ detail.podIp := by
  rw [show advisorDetail detail = advisorPod (podInfo detail) from rfl, ← mem_advisorEntries,
    servedRows, List.mem_filterMap]
  simp only [List.mem_map, exists_exists_and_eq_and, advisorEntry_eq_some_iff (podInfo detail)]
  rfl

theorem inGroup_bridge (d : Direction) (ip : String) (p : Port) :
    InGroup (BridgeNetworkPolicy.trafficGroups js (servedRows state pod.name) (podInfo detail) d)
        ip p ↔
      ∃ row ∈ podTrafficByName state.traffic pod.name,
        entry js anyPod d (servedRow row) = some (ip, p) ∧ ip ≠ detail.podIp := by
  rw [BridgeNetworkPolicy.inGroup_trafficGroups, BridgeNetworkPolicy.entries, servedRows,
    List.mem_filterMap]
  simp only [List.mem_map, exists_exists_and_eq_and, entry_eq_some_iff js (podInfo detail)]
  rfl

theorem advisorStandard_targets_iff {policy : StandardPolicy.NetworkPolicy}
    (h : StandardPolicy.generate (advisorBroker state failure) pod.name
      ((servedRows state pod.name).map advisorRow) (some (advisorDetail detail)) = .ok policy) :
    StandardTargets state pod (advisorEntry anyPod)
        (createNetworkPolicyPeer (advisorBroker state failure)) policy ↔
      Suited state pod detail (advisorEntry anyPod)
        (createNetworkPolicyPeer (advisorBroker state failure)) := by
  obtain ⟨policy', hgen, hns, hspec⟩ := PeerGroups.generate_eq (advisorBroker state failure)
    pod.name ((servedRows state pod.name).map advisorRow) (advisorDetail detail)
  obtain rfl := Except.ok.inj (h.symm.trans hgen)
  have hreads : portsAs id (advisorEntry anyPod) = advisorEntry anyPod := by
    funext d t
    exact Option.map_id'
  rw [StandardTargets, hspec]
  refine targets_iff_suited state pod detail _ _ hns Iff.rfl (selects_iff_carries _) ?_
  intro d peer port
  rw [PeerGroups.rulesFor_standardSpec _ _ _ _ fun _ => rfl,
    standardLists_iff _ _ (createNetworkPolicyPeer (advisorBroker state failure)) id
      (fun g => by rw [List.map_id]),
    nameRules_iff state pod detail.podIp _ _ d _ _ (inGroup_advisor state pod detail d), hreads]

theorem advisorCilium_targets_iff {policy : CiliumPolicy.CiliumNetworkPolicy}
    (h : CiliumPolicy.generate (advisorBroker state failure) pod.name
      ((servedRows state pod.name).map advisorRow) (some (advisorDetail detail)) = .ok policy) :
    CiliumTargets state pod advisorCiliumReads
        (CiliumPolicy.resolvePeerForCilium (advisorBroker state failure)) policy ↔
      Suited state pod detail advisorCiliumReads
        (CiliumPolicy.resolvePeerForCilium (advisorBroker state failure)) := by
  obtain ⟨policy', hgen, hns, hspec⟩ := CiliumPolicy.generate_eq (advisorBroker state failure)
    pod.name ((servedRows state pod.name).map advisorRow) (advisorDetail detail)
  obtain rfl := Except.ok.inj (h.symm.trans hgen)
  have hselector : policy.spec.endpointSelector.matchLabels =
      ciliumLabels (detail.labels.getD ∅) := by
    rw [hspec, CiliumPolicy.endpointSelector_ciliumSpec]
    rfl
  rw [CiliumTargets, hselector]
  refine targets_iff_suited state pod detail _ _ hns (sameLabels_ciliumLabels_iff _ _)
    (carries_ciliumLabels_iff _) ?_
  intro d peer port
  rw [hspec, CiliumPolicy.rulesFor_ciliumSpec _ _ _ _ _ fun _ => rfl,
    ciliumLists_iff _ _ (CiliumPolicy.resolvePeerForCilium (advisorBroker state failure))
      CiliumPolicy.ciliumPort (fun g => rfl)
      (fun g port => by simp [CiliumPolicy.peerRule, eq_comm]),
    nameRules_iff state pod detail.podIp _ _ d _ _ (inGroup_advisor state pod detail d)]
  rfl

theorem bridgeStandard_targets_iff :
    StandardTargets state pod (bridgeStandardReads js)
        (fun ip => BridgeNetworkPolicy.standardPeer ip (brokerPeerResolver state failure))
        (BridgeNetworkPolicy.generateNetworkPolicy js (podInfo detail) (servedRows state pod.name)
          (brokerPeerResolver state failure)) ↔
      Suited state pod detail (bridgeStandardReads js)
        fun ip => BridgeNetworkPolicy.standardPeer ip (brokerPeerResolver state failure) := by
  obtain ⟨hns, hspec⟩ := BridgeNetworkPolicy.generateNetworkPolicy_eq js (podInfo detail)
    (servedRows state pod.name) (brokerPeerResolver state failure)
  rw [StandardTargets, hspec]
  refine targets_iff_suited state pod detail _ _ hns Iff.rfl (selects_iff_carries _) ?_
  intro d peer port
  rw [PeerGroups.rulesFor_standardSpec _ _ _ _ fun _ => rfl,
    standardLists_iff _ _
      (fun ip => BridgeNetworkPolicy.standardPeer ip (brokerPeerResolver state failure))
      BridgeNetworkPolicy.standardPort (fun g => rfl),
    nameRules_iff state pod detail.podIp _ _ d _ _ (inGroup_bridge state pod detail js d)]
  rfl

theorem bridgeCilium_targets_iff :
    CiliumTargets state pod (bridgeCiliumReads js)
        (fun ip => BridgeNetworkPolicy.ciliumPeer ip (brokerPeerResolver state failure))
        (BridgeNetworkPolicy.generateCiliumPolicy js (podInfo detail) (servedRows state pod.name)
          (brokerPeerResolver state failure)) ↔
      Suited state pod detail (bridgeCiliumReads js)
        fun ip => BridgeNetworkPolicy.ciliumPeer ip (brokerPeerResolver state failure) := by
  obtain ⟨hns, hspec⟩ := BridgeNetworkPolicy.generateCiliumPolicy_eq js (podInfo detail)
    (servedRows state pod.name) (brokerPeerResolver state failure)
  have hselector : (BridgeNetworkPolicy.generateCiliumPolicy js (podInfo detail)
      (servedRows state pod.name)
      (brokerPeerResolver state failure)).spec.endpointSelector.matchLabels =
        ciliumLabels (detail.labels.getD ∅) := by
    rw [hspec, CiliumPolicy.endpointSelector_ciliumSpec, ciliumLabels,
      CiliumPolicy.createEndpointSelector_eq]
    rfl
  rw [CiliumTargets, hselector]
  refine targets_iff_suited state pod detail _ _ hns (sameLabels_ciliumLabels_iff _ _)
    (carries_ciliumLabels_iff _) ?_
  intro d peer port
  rw [hspec, CiliumPolicy.rulesFor_ciliumSpec _ _ _ _ _ fun _ => rfl,
    ciliumLists_iff _ _
      (fun ip => BridgeNetworkPolicy.ciliumPeer ip (brokerPeerResolver state failure))
      BridgeNetworkPolicy.ciliumPort (fun g => rfl) (fun g port => by simp),
    nameRules_iff state pod detail.podIp _ _ d _ _ (inGroup_bridge state pod detail js d)]
  rfl

end Generators

section Requests

variable {Policy : Type} (state : BrokerState) (failure : Failures) (podName : String)

theorem getPodTraffic_eq_ok_iff (rows : List PodTraffic) :
    getPodTraffic state failure podName = .ok rows ↔
      podName ≠ "" ∧ failure (.podTraffic podName) = none ∧
        podTrafficByName state.traffic podName = rows ∧ rows ≠ [] := by
  rw [getPodTraffic]
  cases failure (.podTraffic podName) with
  | some e => simp
  | none =>
      by_cases hname : podName = ""
      · simp [getPodTrafficName, hname]
      · simp only [getPodTrafficName, if_neg hname]
        constructor
        · intro h
          split at h
          · cases h
          · rename_i hrows
            obtain rfl := Except.ok.inj h
            exact ⟨hname, trivial, rfl, hrows⟩
        · intro h
          obtain ⟨-, -, rfl, hrows⟩ := h
          exact if_neg hrows

theorem podByIP_eq_ok_some_iff (ip : String) (podDetail : PodDetail) :
    (advisorBroker state failure).podByIP ip = .ok (some podDetail) ↔
      failure (.podByIP ip) = none ∧
        ∃ detail, getPodByIp state ip = some detail ∧ advisorDetail detail = podDetail := by
  simp only [advisorBroker]
  cases failure (.podByIP ip) <;> simp [Option.map_eq_some_iff]

theorem generatePolicy_eq_ok_iff
    (generate : BrokerData → String → List StandardPolicy.PodTraffic → Option PodDetail →
      Except String Policy) (policy : Policy) :
    generatePolicy generate state failure podName = .ok policy ↔
      ∃ detail, AdvisorFinds state failure podName detail ∧
        generate (advisorBroker state failure) podName ((servedRows state podName).map advisorRow)
          (some (advisorDetail detail)) = .ok policy := by
  rw [generatePolicy]
  constructor
  · intro h
    split at h
    · cases h
    rename_i rows hrows
    obtain ⟨hname, htraffic, rfl, hnil⟩ := (getPodTraffic_eq_ok_iff _ _ _ _).mp hrows
    rw [if_neg hnil] at h
    split at h
    · cases h
    rename_i hip
    split at h
    · cases h
    · cases h
    · rename_i podDetail hdetail
      obtain ⟨hfail, detail, hfound, rfl⟩ := (podByIP_eq_ok_some_iff _ _ _ _).mp hdetail
      exact ⟨detail, ⟨hname, htraffic, hnil, hip, hfail, hfound⟩, h⟩
  · intro h
    obtain ⟨detail, hfinds, hgen⟩ := h
    have hrows := (getPodTraffic_eq_ok_iff state failure podName _).mpr
      ⟨hfinds.name, hfinds.traffic, rfl, hfinds.rows⟩
    have hdetail := (podByIP_eq_ok_some_iff state failure
      (lookupIP (podTrafficByName state.traffic podName)) _).mpr
      ⟨hfinds.details, detail, hfinds.found, rfl⟩
    simp only [hrows, if_neg hfinds.rows, if_neg hfinds.ip, hdetail]
    exact hgen

theorem brokerGetJSON_eq_ok_iff {α : Type} (request : Request) (segment : String)
    (answer : Option α) (body : α) :
    brokerGetJSON failure request segment answer = .ok body ↔
      failure request = none ∧ (segment ≠ "." ∧ segment ≠ "..") ∧ answer = some body := by
  cases hfail : failure request with
  | some e => simp [brokerGetJSON, hfail]
  | none =>
      by_cases hsegment : segment = "." ∨ segment = ".."
      · simp only [brokerGetJSON, hfail, if_pos hsegment]
        rcases hsegment with h | h <;> simp [h]
      · cases answer <;> simp_all [brokerGetJSON]

theorem handleGenerateNetworkPolicy_eq_ok_iff
    (generate : PodInfo → List TrafficRow → PeerResolver → Policy) (policy : Policy) :
    handleGenerateNetworkPolicy generate state failure podName = .ok policy ↔
      ∃ first detail, BridgeFinds state failure podName first detail ∧
        generate (podInfo detail) (servedRows state podName) (brokerPeerResolver state failure) =
          policy := by
  rw [handleGenerateNetworkPolicy]
  constructor
  · intro h
    split at h
    · cases h
    · cases h
    · rename_i first rest hrows
      obtain ⟨htraffic, hdots, hanswer⟩ := (brokerGetJSON_eq_ok_iff _ _ _ _ _).mp hrows
      rw [getPodTrafficName] at hanswer
      split at hanswer
      · cases hanswer
      rename_i hname
      have hrows' := Option.some.inj hanswer
      simp only at h
      split at h
      · cases h
      · rename_i detail hdetail
        obtain ⟨hfail, hipDots, hfound⟩ := (brokerGetJSON_eq_ok_iff _ _ _ _ _).mp hdetail
        refine ⟨first, detail, ⟨⟨hname, hdots⟩, htraffic, by rw [hrows']; rfl, hipDots, hfail,
          hfound⟩, ?_⟩
        rw [servedRows, hrows']
        exact Except.ok.inj h
  · intro h
    obtain ⟨first, detail, hfinds, rfl⟩ := h
    obtain ⟨rest, hrest⟩ := List.head?_eq_some_iff.mp hfinds.rows
    have hrows : brokerGetJSON failure (.podTraffic podName) podName
        (getPodTrafficName state podName) = .ok (first :: rest) := by
      refine (brokerGetJSON_eq_ok_iff _ _ _ _ _).mpr ⟨hfinds.traffic, hfinds.name.2, ?_⟩
      rw [getPodTrafficName, if_neg hfinds.name.1, hrest]
    have hdetail := (brokerGetJSON_eq_ok_iff failure (.podByIP (first.podIp.getD ""))
      (first.podIp.getD "") (getPodByIp state (first.podIp.getD "")) detail).mpr
      ⟨hfinds.details, hfinds.ip, hfinds.found⟩
    simp only [hrows, hdetail, servedRows, hrest]

/-- What holds of every policy of the advisor, as a condition on the details. -/
theorem forall_generatePolicy_iff
    {generate : BrokerData → String → List StandardPolicy.PodTraffic → Option PodDetail →
      Except String Policy} {Holds : Policy → Prop} {Suits : DetailRow → Prop}
    (htotal : ∀ podDetail, ∃ policy, generate (advisorBroker state failure) podName
      ((servedRows state podName).map advisorRow) (some podDetail) = .ok policy)
    (hiff : ∀ detail policy, generate (advisorBroker state failure) podName
      ((servedRows state podName).map advisorRow) (some (advisorDetail detail)) = .ok policy →
        (Holds policy ↔ Suits detail)) :
    (∀ policy, generatePolicy generate state failure podName = .ok policy → Holds policy) ↔
      ∀ detail, AdvisorFinds state failure podName detail → Suits detail := by
  simp only [generatePolicy_eq_ok_iff]
  constructor
  · intro h detail hfinds
    obtain ⟨policy, hgen⟩ := htotal (advisorDetail detail)
    exact (hiff detail policy hgen).mp (h policy ⟨detail, hfinds, hgen⟩)
  · intro h policy hpolicy
    obtain ⟨detail, hfinds, hgen⟩ := hpolicy
    exact (hiff detail policy hgen).mpr (h detail hfinds)

theorem forall_handleGenerateNetworkPolicy_iff
    {generate : PodInfo → List TrafficRow → PeerResolver → Policy} {Holds : Policy → Prop}
    {Suits : DetailRow → Prop}
    (hiff : ∀ detail, Holds (generate (podInfo detail) (servedRows state podName)
      (brokerPeerResolver state failure)) ↔ Suits detail) :
    (∀ policy, handleGenerateNetworkPolicy generate state failure podName = .ok policy →
        Holds policy) ↔
      ∀ first detail, BridgeFinds state failure podName first detail → Suits detail := by
  simp only [handleGenerateNetworkPolicy_eq_ok_iff]
  constructor
  · intro h first detail hfinds
    exact (hiff detail).mp (h _ ⟨first, detail, hfinds, rfl⟩)
  · intro h policy hpolicy
    obtain ⟨first, detail, hfinds, rfl⟩ := hpolicy
    exact (hiff detail).mpr (h first detail hfinds)

end Requests

/-- For every state of the broker and every pod, a policy that is generated is
for the pod exactly when the details that are found and the rows of the name
suit it. -/
theorem generated_targets_iff (js : Runtime) (state : BrokerState) (failure : Failures)
    (pod : RequestedPod) :
    ((∀ policy, generatePolicy StandardPolicy.generate state failure pod.name = .ok policy →
        StandardTargets state pod (advisorEntry anyPod)
          (createNetworkPolicyPeer (advisorBroker state failure)) policy) ↔
      ∀ detail, AdvisorFinds state failure pod.name detail →
        Suited state pod detail (advisorEntry anyPod)
          (createNetworkPolicyPeer (advisorBroker state failure))) ∧
    ((∀ policy, generatePolicy CiliumPolicy.generate state failure pod.name = .ok policy →
        CiliumTargets state pod advisorCiliumReads
          (CiliumPolicy.resolvePeerForCilium (advisorBroker state failure)) policy) ↔
      ∀ detail, AdvisorFinds state failure pod.name detail →
        Suited state pod detail advisorCiliumReads
          (CiliumPolicy.resolvePeerForCilium (advisorBroker state failure))) ∧
    ((∀ policy, handleGenerateNetworkPolicy (BridgeNetworkPolicy.generateNetworkPolicy js) state
          failure pod.name = .ok policy →
        StandardTargets state pod (bridgeStandardReads js)
          (fun ip => BridgeNetworkPolicy.standardPeer ip (brokerPeerResolver state failure))
          policy) ↔
      ∀ first detail, BridgeFinds state failure pod.name first detail →
        Suited state pod detail (bridgeStandardReads js)
          fun ip => BridgeNetworkPolicy.standardPeer ip (brokerPeerResolver state failure)) ∧
    ((∀ policy, handleGenerateNetworkPolicy (BridgeNetworkPolicy.generateCiliumPolicy js) state
          failure pod.name = .ok policy →
        CiliumTargets state pod (bridgeCiliumReads js)
          (fun ip => BridgeNetworkPolicy.ciliumPeer ip (brokerPeerResolver state failure))
          policy) ↔
      ∀ first detail, BridgeFinds state failure pod.name first detail →
        Suited state pod detail (bridgeCiliumReads js)
          fun ip => BridgeNetworkPolicy.ciliumPeer ip (brokerPeerResolver state failure)) := by
  refine ⟨?_, ?_, ?_, ?_⟩
  · refine forall_generatePolicy_iff state failure pod.name (fun podDetail => ?_)
      fun detail policy hgen => advisorStandard_targets_iff state failure pod detail hgen
    exact (PeerGroups.generate_eq _ _ _ podDetail).imp fun _ h => h.1
  · refine forall_generatePolicy_iff state failure pod.name (fun podDetail => ?_)
      fun detail policy hgen => advisorCilium_targets_iff state failure pod detail hgen
    exact (CiliumPolicy.generate_eq _ _ _ podDetail).imp fun _ h => h.1
  · exact forall_handleGenerateNetworkPolicy_iff state failure pod.name fun detail =>
      bridgeStandard_targets_iff state failure pod detail js
  · exact forall_handleGenerateNetworkPolicy_iff state failure pod.name fun detail =>
      bridgeCilium_targets_iff state failure pod detail js

/-! An address that goes to another pod, and a name in two namespaces. -/

def webPod : RequestedPod := ⟨"shop", "web-0", Labels.ofList [("app", "web")]⟩

/-- A request to the web pod when it had its former address. -/
def formerRequest : PodTraffic :=
  ⟨"r1", some "web-0", some "shop", some "10.0.0.7", some "8080", some "TCP", some "INGRESS",
    some "10.0.0.9", some "0", some "ALLOW"⟩

/-- A request to the pod of the same name in the namespace of the tests. -/
def namesakeRequest : PodTraffic :=
  ⟨"r2", some "web-0", some "test", some "10.0.0.20", some "9090", some "TCP", some "INGRESS",
    some "10.0.0.9", some "0", some "ALLOW"⟩

/-- The former address of the web pod is now that of the database. -/
def reusedAddress : BrokerState where
  traffic := [formerRequest, namesakeRequest]
  details :=
    [⟨"db-0", "10.0.0.7", some "prod", some (Labels.ofList [("app", "db")])⟩,
      ⟨"web-0", "10.0.0.12", some "shop", some (Labels.ofList [("app", "web")])⟩]
  services := []

/-- The policy for the web pod opens the database to what its namesake served. -/
theorem reusedAddress_targets_database :
    (generatePolicy StandardPolicy.generate reusedAddress (fun _ => none) "web-0").map
        (fun p => (p.ns, p.spec.podSelector.matchLabels.entries,
          p.spec.ingress.map AllowLists.Rule.ports)) =
      .ok ("prod", [⟨"app", "db"⟩],
        [[StandardPolicy.plainPort 8080 "TCP", StandardPolicy.plainPort 9090 "TCP"]]) ∧
    (handleGenerateNetworkPolicy (BridgeNetworkPolicy.generateCiliumPolicy asciiRuntime)
        reusedAddress (fun _ => none) "web-0").map
        (fun p => (p.ns, p.spec.endpointSelector.matchLabels.entries)) =
      .ok ("prod", [⟨"k8s:app", "db"⟩]) ∧
    (¬ ∀ policy, generatePolicy StandardPolicy.generate reusedAddress (fun _ => none) "web-0" =
        .ok policy →
      StandardTargets reusedAddress webPod (advisorEntry anyPod)
        (createNetworkPolicyPeer (advisorBroker reusedAddress fun _ => none)) policy) ∧
    ¬ ∀ policy, handleGenerateNetworkPolicy
        (BridgeNetworkPolicy.generateCiliumPolicy asciiRuntime) reusedAddress (fun _ => none)
        "web-0" = .ok policy →
      CiliumTargets reusedAddress webPod (bridgeCiliumReads asciiRuntime)
        (fun ip => BridgeNetworkPolicy.ciliumPeer ip
          (brokerPeerResolver reusedAddress fun _ => none)) policy := by
  refine ⟨rfl, rfl, fun h => ?_, fun h => ?_⟩
  · exact absurd (h _ rfl).home (by decide)
  · exact absurd (h _ rfl).home (by decide)

end KGuardian.PolicyTargets
