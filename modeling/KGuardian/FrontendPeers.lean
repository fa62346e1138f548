import KGuardian.FrontendPolicy
import KGuardian.GeneratorAgreement
import KGuardian.PeerInclusion

/-!
The peers that the frontend's generator of standard policies and the advisor's take
rows for, over the same broker. Each of them allows what stands for one of its own.
-/
namespace KGuardian.FrontendPeers

open AllowLists Matcher ObservedTraffic PeerInclusion PolicySemantics Selectors
open BridgeNetworkPolicy (TrafficRow)
open FrontendPolicy
open GeneratorAgreement (PlainPort WellFormed advisorRow)
open JsText (LowerCase Runtime)
open NetAddr (parseAddr)
open StandardPolicy (BrokerData PodDetail ResolvedPeer SvcDetail Survives plainPort resolvePeer
  resolvePeer_address resolvePeer_labels)

/-! The advisor on the same broker. -/

def advisorDetail (info : PodInfo) : PodDetail :=
  ⟨info.podIp, info.podName, info.podNamespace.getD "", info.labels.getD ∅⟩

def advisorService (info : ServiceInfo) : SvcDetail :=
  ⟨info.svcName.getD "", info.svcNamespace.getD "", info.selector.getD ∅, []⟩

def brokerData (broker : Broker) : BrokerData where
  serviceByIP ip := .ok ((getServiceByIP broker ip).map advisorService)
  podByIP ip := .ok ((getPodDetailsByIP broker ip).map advisorDetail)

/-! What the rows and the broker say. -/

def direction (t : TrafficRow) : Option Direction := StandardPolicy.rowDirection (advisorRow t)

def peerIP (t : TrafficRow) : String := t.trafficInOutIp.getD ""

/-- The row is of the direction, with this port and protocol. -/
structure Carries (t : TrafficRow) (d : Direction) (port : ℤ) (protocol : String) : Prop where
  direction : direction t = some d
  port : StandardPolicy.parsePort (StandardPolicy.relevantPort (advisorRow t) d) = some port
  protocol : t.ipProtocol = some protocol

/-- The peers that the advisor takes such rows for. -/
def AdvisorPeer (broker : Broker) (pod : PodInfo) (traffic : List TrafficRow) (d : Direction)
    (port : ℤ) (protocol : String) (peer : ResolvedPeer) : Prop :=
  ∃ t ∈ traffic, Carries t d port protocol ∧ peerIP t ≠ pod.podIp ∧
    peer = resolvePeer (brokerData broker) (peerIP t)

/-- What the frontend knows the peer of a row as. -/
def knownAs (broker : Broker) (traffic : List TrafficRow) (t : TrafficRow) : PeerInfo :=
  peerOf (identityMap broker traffic) (peerIP t)

/-- The row that stands for those of its direction and key. -/
def firstRow (broker : Broker) (traffic : List TrafficRow) (d : Direction) (t : TrafficRow) :
    Option TrafficRow :=
  traffic.find? fun t' => direction t' = some d ∧
    peerKey (knownAs broker traffic t') = peerKey (knownAs broker traffic t)

/-- Services and pods by the labels of the pod of their name, in their namespace or
else that of the protected pod. -/
def resolved (broker : Broker) (ns : String) (peer : PeerInfo) : ResolvedPeer :=
  match peer.identity with
  | .service name svcNs _ =>
      .pods (svcNs.getD ns) ((getLabelsForPod broker name).getD (appLabel name))
  | .pod name podNs _ => .pods (podNs.getD ns) ((getLabelsForPod broker name).getD (appLabel name))
  | .external => .address peer.ip

/-- The peers that the frontend takes such rows for. -/
def FrontendPeer (broker : Broker) (ns : String) (traffic : List TrafficRow) (d : Direction)
    (port : ℤ) (protocol : String) (peer : ResolvedPeer) : Prop :=
  ∃ t ∈ traffic, Carries t d port protocol ∧ ∃ first ∈ firstRow broker traffic d t,
    peer = resolved broker ns (knownAs broker traffic first)

/-! Rows as the controller reports them. -/

theorem splitPort {protocol port : String} (hprotocol : ':' ∉ protocol.toList)
    (hport : ':' ∉ port.toList) :
    (protocol ++ ":" ++ port).toList.splitOn ':' = [protocol.toList, port.toList] := by
  have hintercalate : (protocol ++ ":" ++ port).toList =
      [':'].intercalate [protocol.toList, port.toList] := by
    simp [List.intercalate]
  rw [hintercalate, List.splitOn_intercalate _ (by simp [hprotocol, hport]) (by simp)]

/-- What both generators read from a row. -/
structure Reads (js : Runtime) (lower : LowerCase) (t : TrafficRow) (d : Direction) (n : ℕ)
    (protocol : String) : Prop where
  known : d = .ingress ∨ d = .egress
  direction : direction t = some d
  rowDirection : rowDirection lower t = some d
  port : StandardPolicy.parsePort (StandardPolicy.relevantPort (advisorRow t) d) = some (n : ℤ)
  positive : 1 ≤ n
  ipProtocol : t.ipProtocol = some protocol
  protocolPtr : StandardPolicy.protocolPtr protocol = protocol
  peer : present t.trafficInOutIp = some (peerIP t)
  address : ∃ a, parseAddr (peerIP t).toList = some (.v4 a)
  policyPort : policyPort js ((present t.ipProtocol).getD "TCP" ++ ":" ++ relevantPort t d) =
    plainPort n protocol

section

variable {js : Runtime} (hjs : js.Documented) (lower : LowerCase)

include hjs in
theorem policyPort_plain {protocol port : String} (hprotocol : protocol = "TCP" ∨ protocol = "UDP")
    {n : ℕ} (hport : TextScan.parseDigits port.toList = some n) (hpos : 1 ≤ n) :
    policyPort js (protocol ++ ":" ++ port) = plainPort n protocol := by
  have hdigits := (JsText.all_isDigit_of_parseDigits hport).2
  have hcolon : ':' ∉ port.toList := fun h => absurd (hdigits _ h) (by decide)
  have hcolon' : ':' ∉ protocol.toList := by rcases hprotocol with rfl | rfl <;> decide
  have hupper : js.toUpperCase protocol = protocol :=
    GeneratorAgreement.toUpperCase_known hjs protocol
      (by rcases hprotocol with rfl | rfl <;> decide)
  have hknown : StandardPolicy.protocolPtr protocol = protocol :=
    protocolPtr_known protocol (by rcases hprotocol with rfl | rfl <;> decide)
  have hvalue : (some (n : ℤ)).filter (fun v => v ≠ 0) = some (n : ℤ) := by
    rw [Option.filter_some, if_pos (decide_eq_true (by omega))]
  simp only [policyPort, splitPort hcolon' hcolon, List.map_cons, List.map_nil,
    List.getD_cons_zero, List.getD_cons_succ, String.ofList_toList, hupper,
    JsText.parseInt_digits hport, hvalue, Option.elim_some, plainPort, hknown]

theorem rowDirection_known {t : TrafficRow} (h : WellFormed t) :
    (t.trafficType = some "INGRESS" ∧ direction t = some .ingress ∧
      rowDirection lower t = some .ingress) ∨
    (t.trafficType = some "EGRESS" ∧ direction t = some .egress ∧
      rowDirection lower t = some .egress) := by
  have hlower (s : String) (hs : s = "INGRESS" ∨ s = "EGRESS") :
      lower.toLowerCase s = String.ofList (s.toList.map Char.toLower) :=
    lower.ascii s (by rcases hs with rfl | rfl <;> simp)
  rcases h.direction with htype | htype
  · refine .inl ⟨htype, ?_, ?_⟩
    · simp only [direction, StandardPolicy.rowDirection, StandardPolicy.isIngressTraffic,
        advisorRow, htype]
      rfl
    · rw [rowDirection, htype, Option.map_some, hlower _ (.inl rfl)]
      rfl
  · refine .inr ⟨htype, ?_, ?_⟩
    · simp only [direction, StandardPolicy.rowDirection, StandardPolicy.isIngressTraffic,
        StandardPolicy.isEgressTraffic, advisorRow, htype]
      rfl
    · rw [rowDirection, htype, Option.map_some, hlower _ (.inr rfl)]
      rfl

/-- A port of the controller is present, and both halves read it. -/
theorem port_of_plain {port : Option String} (h : PlainPort (port.getD "")) :
    ∃ n : ℕ, 1 ≤ n ∧ StandardPolicy.parsePort (port.getD "") = some (n : ℤ) ∧
      TextScan.parseDigits ((present port).getD "80").toList = some n := by
  obtain ⟨n, hdigits, hpos, hlt⟩ := h
  refine ⟨n, hpos, GeneratorAgreement.parsePort_digits hdigits hpos hlt, ?_⟩
  cases port with
  | none => exact absurd hdigits (by simp [TextScan.parseDigits])
  | some s =>
      have hne : s ≠ "" := fun heq => by simp [heq, TextScan.parseDigits] at hdigits
      rwa [present, Option.filter_some, if_pos (decide_eq_true hne)]

include hjs in
theorem reads_of_wellFormed {t : TrafficRow} (h : WellFormed t) :
    ∃ d n protocol, Reads js lower t d n protocol := by
  obtain ⟨ip, a, hip, ha⟩ := h.peer
  have hpeer : present t.trafficInOutIp = some (peerIP t) := by
    have hne : ip ≠ "" := by
      rintro rfl
      have hempty : parseAddr "".toList = none := by decide
      exact absurd (hempty.symm.trans ha) (by simp)
    rw [present, peerIP, hip, Option.filter_some, if_pos (decide_eq_true hne), Option.getD_some]
  have haddress : ∃ a, parseAddr (peerIP t).toList = some (.v4 a) := by
    rw [peerIP, hip]
    exact ⟨a, ha⟩
  obtain ⟨protocol, hprotocol, hknown⟩ :
      ∃ protocol, t.ipProtocol = some protocol ∧ (protocol = "TCP" ∨ protocol = "UDP") := by
    rcases h.protocol with hp | hp
    · exact ⟨_, hp, .inl rfl⟩
    · exact ⟨_, hp, .inr rfl⟩
  have hptr : StandardPolicy.protocolPtr protocol = protocol :=
    protocolPtr_known protocol (by rcases hknown with rfl | rfl <;> decide)
  have htext : (present t.ipProtocol).getD "TCP" = protocol := by
    rcases hknown with rfl | rfl <;> rw [hprotocol] <;> rfl
  rcases rowDirection_known lower h with ⟨htype, hd, hrow⟩ | ⟨htype, hd, hrow⟩
  · obtain ⟨n, hpos, hport, hdigits⟩ := port_of_plain (h.ingressPort htype)
    refine ⟨.ingress, n, protocol, .inl rfl, hd, hrow, hport, hpos, hprotocol, hptr, hpeer,
      haddress, ?_⟩
    rw [htext]
    exact policyPort_plain hjs hknown hdigits hpos
  · obtain ⟨n, hpos, hport, hdigits⟩ := port_of_plain (h.egressPort htype)
    refine ⟨.egress, n, protocol, .inr rfl, hd, hrow, hport, hpos, hprotocol, hptr, hpeer,
      haddress, ?_⟩
    rw [htext]
    exact policyPort_plain hjs hknown hdigits hpos

end

/-! What each generator makes of the rows. -/

section

variable {js : Runtime} {lower : LowerCase} {t : TrafficRow} {d : Direction} {n : ℕ}
  {protocol : String} (h : Reads js lower t d n protocol)
include h

theorem Reads.carries_iff (d' : Direction) (port : ℤ) (protocol' : String) :
    Carries t d' port protocol' ↔ d' = d ∧ port = n ∧ protocol' = protocol := by
  constructor
  · rintro ⟨hd, hport, hprotocol⟩
    obtain rfl := Option.some.inj (h.direction.symm.trans hd)
    exact ⟨rfl, Option.some.inj (hport.symm.trans h.port),
      Option.some.inj (hprotocol.symm.trans h.ipProtocol)⟩
  · rintro ⟨rfl, rfl, rfl⟩
    exact ⟨h.direction, h.port, h.ipProtocol⟩

theorem Reads.peerIP_ne : peerIP t ≠ "" := by
  have hfilter := h.peer
  rw [present, Option.filter_eq_some_iff] at hfilter
  exact of_decide_eq_true hfilter.2

theorem Reads.survives_iff (detail : PodDetail) (d' : Direction) (port : ℤ) :
    Survives detail (advisorRow t) d' port ↔ d' = d ∧ port = n ∧ peerIP t ≠ detail.podIP := by
  constructor
  · rintro ⟨hd, -, hself, hport⟩
    obtain rfl := Option.some.inj (h.direction.symm.trans hd)
    exact ⟨rfl, Option.some.inj (hport.symm.trans h.port), hself⟩
  · rintro ⟨rfl, rfl, hself⟩
    exact ⟨h.direction, h.peerIP_ne, hself, h.port⟩

theorem Reads.entry_eq (identities : List (String × TrafficIdentity)) (d' : Direction) :
    entry lower identities d' t =
      if d' = d then
        some (peerOf identities (peerIP t),
          (present t.ipProtocol).getD "TCP" ++ ":" ++ relevantPort t d)
      else none := by
  rw [entry, h.peer, Option.bind_some, h.rowDirection]
  by_cases hd : d' = d
  · rw [if_pos hd, if_pos (by rw [hd]), hd]
  · rw [if_neg hd, if_neg fun hsame => hd (Option.some.inj hsame).symm]

end

theorem labels_ne_nil (broker : Broker) (name : String) :
    ((getLabelsForPod broker name).getD (appLabel name)).keys ≠ [] := by
  cases hlabels : getLabelsForPod broker name with
  | none => exact List.cons_ne_nil _ _
  | some labels =>
      obtain ⟨info, -, hinfo⟩ := Option.bind_eq_some_iff.mp hlabels
      have hpresent (l : Option Labels) (hl : presentLabels l = some labels) : labels.keys ≠ [] :=
        of_decide_eq_true (Option.filter_eq_some_iff.mp hl).2
      rcases Option.or_eq_some_iff.mp hinfo with hown | ⟨-, hown⟩
      · exact hpresent _ hown
      · exact hpresent _ hown

theorem peerAdmits_createPeer_iff {api : Apimachinery} {lookup : Lookup}
    (hcluster : ClusterObjects api lookup) (broker : Broker) {pod : PodInfo} {ns : String}
    (hns : pod.podNamespace = some ns) (peer : PeerInfo) (e : Endpoint) :
    PeerAdmits api lookup ns e (createPeer broker pod peer) ↔
      Covers lookup e (resolved broker ns peer) := by
  have hselector (name : String) (peerNs : Option String) :
      PeerAdmits api lookup ns e (selectorPeer broker pod name peerNs) ↔
        Covers lookup e (.pods (peerNs.getD ns)
          ((getLabelsForPod broker name).getD (appLabel name))) := by
    refine peerAdmits_selectors_iff hcluster ?_ (labels_ne_nil broker name) e
    cases peerNs with
    | none => exact .inr ⟨rfl, rfl⟩
    | some peerNs =>
        by_cases hsame : some peerNs = pod.podNamespace
        · refine .inr ⟨?_, Option.some.inj (hns.symm.trans hsame.symm)⟩
          rw [Option.filter_some, if_neg (by simpa using hsame), Option.map_none]
        · refine .inl ?_
          rw [Option.filter_some, if_pos (decide_eq_true hsame), Option.map_some]
          rfl
  rcases peer with ⟨ip, _ | _ | _⟩
  · exact hselector _ _
  · exact hselector _ _
  · exact Iff.rfl

section

variable {js : Runtime} {lower : LowerCase} {traffic : List TrafficRow}
  (hreads : ∀ t ∈ traffic, ∃ d n protocol, Reads js lower t d n protocol)
include hreads

omit hreads in
theorem firstRow_spec {broker : Broker} {d : Direction} {t first : TrafficRow}
    (h : firstRow broker traffic d t = some first) :
    first ∈ traffic ∧ direction first = some d := by
  rw [firstRow] at h
  have hfound := List.find?_some h
  exact ⟨List.mem_of_find?_eq_some h, (of_decide_eq_true hfound).1⟩

theorem firstPeer_eq (broker : Broker) (d : Direction) (t : TrafficRow) :
    firstPeer (entries lower (identityMap broker traffic) d traffic)
        (peerKey (knownAs broker traffic t)) =
      (firstRow broker traffic d t).map (knownAs broker traffic) := by
  have hfind : (traffic.find? fun t' =>
        (entry lower (identityMap broker traffic) d t').any fun e =>
          peerKey e.1 = peerKey (knownAs broker traffic t)) = firstRow broker traffic d t := by
    refine List.find?_congr fun t' ht' => ?_
    obtain ⟨d', n, protocol, hread⟩ := hreads t' ht'
    rw [hread.entry_eq, hread.direction]
    by_cases hd : d = d'
    · simp [hd, knownAs]
      rfl
    · simp [hd, Ne.symm hd]
  rw [firstPeer, entries, List.find?_filterMap, hfind]
  cases hfirst : firstRow broker traffic d t with
  | none => rfl
  | some first =>
      obtain ⟨hmem, hd⟩ := firstRow_spec hfirst
      obtain ⟨d', n, protocol, hread⟩ := hreads first hmem
      rw [Option.bind_some, hread.entry_eq,
        if_pos (Option.some.inj (hd.symm.trans hread.direction))]
      rfl

theorem proper_of_frontendPeer {broker : Broker} {ns : String} {d : Direction} {port : ℤ}
    {protocol : String} {peer : ResolvedPeer}
    (h : FrontendPeer broker ns traffic d port protocol peer) : Proper peer := by
  obtain ⟨t, -, -, first, hfirst, rfl⟩ := h
  obtain ⟨d', n, protocol', hread⟩ := hreads first (firstRow_spec hfirst).1
  have haddress := hread.address
  rw [resolved, knownAs, peerOf]
  cases ((identityMap broker traffic).lookup (peerIP first)).getD .external with
  | service name svcNs selector => exact labels_ne_nil broker name
  | pod name podNs labels => exact labels_ne_nil broker name
  | external => exact haddress

theorem proper_of_advisorPeer {broker : Broker} {pod : PodInfo} {d : Direction} {port : ℤ}
    {protocol : String} {peer : ResolvedPeer}
    (h : AdvisorPeer broker pod traffic d port protocol peer) : Proper peer := by
  obtain ⟨t, ht, -, -, rfl⟩ := h
  obtain ⟨d', n, protocol', hread⟩ := hreads t ht
  cases hpeer : resolvePeer (brokerData broker) (peerIP t) with
  | pods ns labels => exact resolvePeer_labels _ _ _ _ hpeer
  | address ip =>
      rw [resolvePeer_address _ _ _ hpeer]
      exact hread.address

/-- The frontend's rules allow what stands for one of its peers. -/
theorem frontend_allowed_iff {api : Apimachinery} {lookup : Lookup}
    (hcluster : ClusterObjects api lookup) (broker : Broker) {pod : PodInfo} {ns : String}
    (hns : pod.podNamespace = some ns) (flow : Flow) (d : Direction) :
    Permits (fun entry => ∃ e ∈ otherEnd flow d, PeerAdmits api lookup ns e entry)
        (PortAdmits lookup flow)
        ((side (peerMaps lower (identityMap broker traffic) traffic) d).map
          (policyRule js broker pod)) ↔
      Meets lookup flow d (FrontendPeer broker ns traffic d flow.dstPort flow.protocol) := by
  rw [side_peerMaps, permits_collected]
  constructor
  · rintro ⟨row, hrow, hport, first, hfirst, e, he, hpeer⟩
    obtain ⟨t, ht, hentry⟩ := List.mem_filterMap.mp hrow
    obtain ⟨d', n, protocol, hread⟩ := hreads t ht
    rw [hread.entry_eq] at hentry
    split at hentry
    · rename_i hd
      obtain rfl := Option.some.inj hentry
      rw [hread.policyPort, portAdmits_plainPort_iff, hread.protocolPtr] at hport
      rw [Option.mem_def, ← knownAs, firstPeer_eq hreads] at hfirst
      obtain ⟨t', ht', rfl⟩ := Option.map_eq_some_iff.mp hfirst
      exact ⟨e, he, _, ⟨t, ht, (hread.carries_iff _ _ _).mpr ⟨hd, hport.2, hport.1⟩, t', ht', rfl⟩,
        (peerAdmits_createPeer_iff hcluster broker hns _ e).mp hpeer⟩
    · cases hentry
  · rintro ⟨e, he, peer, ⟨t, ht, hcarries, first, hfirst, rfl⟩, hcovers⟩
    obtain ⟨d', n, protocol, hread⟩ := hreads t ht
    obtain ⟨hd, hport, hprotocol⟩ := (hread.carries_iff _ _ _).mp hcarries
    refine ⟨_, List.mem_filterMap.mpr ⟨t, ht, (hread.entry_eq _ _).trans (if_pos hd)⟩, ?_, ?_⟩
    · rw [hread.policyPort, portAdmits_plainPort_iff, hread.protocolPtr]
      exact ⟨hprotocol, hport⟩
    · refine ⟨knownAs broker traffic first, ?_, e, he,
        (peerAdmits_createPeer_iff hcluster broker hns _ e).mpr hcovers⟩
      rw [Option.mem_def, ← knownAs, firstPeer_eq hreads, hfirst, Option.map_some]

/-- The advisor's rules support what stands for one of its peers. -/
theorem advisor_supported_iff (broker : Broker) (pod : PodInfo) (lookup : Lookup) (flow : Flow)
    (d : Direction) :
    Supported (brokerData broker) lookup (traffic.map advisorRow) (advisorDetail pod) flow d ↔
      Meets lookup flow d (AdvisorPeer broker pod traffic d flow.dstPort flow.protocol) := by
  constructor
  · rintro ⟨row, hrow, hsurvives, hprotocol, e, he, hcovers⟩
    obtain ⟨t, ht, rfl⟩ := List.mem_map.mp hrow
    obtain ⟨d', n, protocol, hread⟩ := hreads t ht
    obtain ⟨hd, hport, hself⟩ := (hread.survives_iff _ _ _).mp hsurvives
    have hsame : flow.protocol = protocol := by
      rw [hprotocol, advisorRow, hread.ipProtocol, Option.getD_some, hread.protocolPtr]
    exact ⟨e, he, _, ⟨t, ht, (hread.carries_iff _ _ _).mpr ⟨hd, hport, hsame⟩, hself, rfl⟩, hcovers⟩
  · rintro ⟨e, he, peer, ⟨t, ht, hcarries, hself, rfl⟩, hcovers⟩
    obtain ⟨d', n, protocol, hread⟩ := hreads t ht
    obtain ⟨hd, hport, hprotocol⟩ := (hread.carries_iff _ _ _).mp hcarries
    refine ⟨_, List.mem_map_of_mem ht, (hread.survives_iff _ _ _).mpr ⟨hd, hport, hself⟩, ?_, e, he,
      hcovers⟩
    rw [hprotocol, advisorRow, hread.ipProtocol, Option.getD_some, hread.protocolPtr]

end

end KGuardian.FrontendPeers
