import KGuardian.BrokerAudit
import KGuardian.NetworkProbe

/-!
The controller between the probes and the broker (`controller/src/network.rs`):
an event becomes a traffic row unless the traffic cache has its key, and rows
are posted in batches.
-/
namespace KGuardian.NetworkEvents

open NetworkProbe BrokerTraffic BrokerAudit Matcher

/-- The status of the pod that an event belongs to. -/
structure PodInfo where
  podName : String
  podNamespace : Option String
  podIp : String
  deriving DecidableEq

structure TrafficKey where
  podName : String
  podIp : String
  podPort : String
  trafficInOutIp : String
  trafficInOutPort : String
  trafficType : String
  ipProtocol : String
  decision : String
  deriving DecidableEq

/-- The method `u32::from_be` on a little-endian host. -/
def fromBe (x : BitVec 32) : BitVec 32 :=
  x.extractLsb' 0 8 ++ x.extractLsb' 8 8 ++ x.extractLsb' 16 8 ++ x.extractLsb' 24 8

/-- The text of an IPv4 address. -/
def ipv4String (x : BitVec 32) : String :=
  toString (x.extractLsb' 24 8).toNat ++ "." ++ toString (x.extractLsb' 16 8).toNat ++ "." ++
    toString (x.extractLsb' 8 8).toNat ++ "." ++ toString (x.extractLsb' 0 8).toNat

/-- The traffic type, the protocol, the port of the pod and the port of the peer
for each kind of event. No kind stands for inbound UDP. -/
def eventKind (data : NetworkEventData) : Option (String × String × ℕ × ℕ) :=
  if data.kind = 2 then some ("INGRESS", "TCP", data.sport.toNat, 0)
  else if data.kind = 1 then some ("EGRESS", "TCP", 0, data.dport.toNat)
  else if data.kind = 3 then some ("EGRESS", "UDP", 0, data.dport.toNat)
  else none

/-- The cache key of an event, for events that are not dropped at once. -/
def cacheKey (data : NetworkEventData) (podData : PodInfo) : Option TrafficKey :=
  match eventKind data with
  | none => none
  | some (trafficType, protocol, podPort, trafficInOutPort) =>
      let trafficInOutIp := ipv4String (fromBe data.daddr)
      if podData.podIp = trafficInOutIp then none
      else some ⟨podData.podName, podData.podIp, toString podPort, trafficInOutIp,
        toString trafficInOutPort, trafficType, protocol, "ALLOW"⟩

/-- The row with the fields of the key. -/
def trafficRow (key : TrafficKey) (podNamespace : Option String) (uuid : String) : PodTraffic where
  uuid
  podName := some key.podName
  podNamespace
  podIp := some key.podIp
  podPort := some key.podPort
  ipProtocol := some key.ipProtocol
  trafficType := some key.trafficType
  trafficInOutIp := some key.trafficInOutIp
  trafficInOutPort := some key.trafficInOutPort
  decision := some key.decision

/-- The cache afterwards, and the row if the event is not a duplicate. -/
def buildTrafficEvent (cache : List TrafficKey) (data : NetworkEventData) (podData : PodInfo)
    (uuid : String) : List TrafficKey × Option PodTraffic :=
  match cacheKey data podData with
  | none => (cache, none)
  | some key =>
      if cache.contains key then (cache, none)
      else (key :: cache, some (trafficRow key podData.podNamespace uuid))

/-- A connection that a network policy dropped, without the fields that only the
log shows. -/
structure PolicyDropEvent where
  inum : BitVec 64
  daddr : BitVec 32
  dport : BitVec 16
  protocol : BitVec 8
  deriving DecidableEq

def protoToString (proto : BitVec 8) : String :=
  if proto = 6 then "TCP"
  else if proto = 17 then "UDP"
  else if proto = 1 then "ICMP"
  else if proto = 58 then "ICMPv6"
  else "UNKNOWN(" ++ toString proto.toNat ++ ")"

def dropKey (data : PolicyDropEvent) (podData : PodInfo) : Option TrafficKey :=
  let dIpStr := ipv4String (fromBe data.daddr)
  if podData.podIp = dIpStr then none
  else some ⟨podData.podName, podData.podIp, toString 0, dIpStr, toString data.dport.toNat,
    "EGRESS", protoToString data.protocol, "DROP"⟩

/-- Drops go through the same cache as traffic. -/
def buildPolicyDropEvent (cache : List TrafficKey) (data : PolicyDropEvent) (podData : PodInfo)
    (uuid : String) : List TrafficKey × Option PodTraffic :=
  match dropKey data podData with
  | none => (cache, none)
  | some key =>
      if cache.contains key then (cache, none)
      else (key :: cache, some (trafficRow key podData.podNamespace uuid))

def maxPendingEvents : ℕ := 1000

/-- Drops the oldest entries. -/
def capBatch (batch : List PodTraffic) (max : ℕ) : List PodTraffic :=
  batch.drop (batch.length - max)

/-- The pending batch after a post, which keeps it when the post fails. -/
def flushNetworkBatch (batch : List PodTraffic) (posted : Bool) : List PodTraffic :=
  if posted then [] else capBatch batch maxPendingEvents

theorem complete_trafficRow (key : TrafficKey) (podNamespace : Option String) (uuid : String) :
    Complete (trafficRow key podNamespace uuid) := by
  simp [Complete, trafficRow]

/-- A row has the fields of the key of its event. -/
theorem exists_key_of_build {cache : List TrafficKey} {e : NetworkEventData} {podData : PodInfo}
    {uuid : String} {row : PodTraffic} (h : (buildTrafficEvent cache e podData uuid).2 = some row) :
    ∃ key, cacheKey e podData = some key ∧ row = trafficRow key podData.podNamespace uuid := by
  unfold buildTrafficEvent at h
  split at h
  · cases h
  · rename_i key hkey
    split at h
    · cases h
    · exact ⟨key, hkey, (Option.some.inj h).symm⟩

/-- Egress rows come from the kinds that the probes report as egress. -/
theorem trafficType_cacheKey {data : NetworkEventData} {podData : PodInfo} {key : TrafficKey}
    (h : cacheKey data podData = some key) :
    (key.trafficType = "EGRESS" ↔ data.kind = 1 ∨ data.kind = 3) ∧
      (key.trafficType = "INGRESS" ↔ data.kind = 2) := by
  unfold cacheKey eventKind at h
  grind

theorem trafficType_cases {data : NetworkEventData} {podData : PodInfo} {key : TrafficKey}
    (h : cacheKey data podData = some key) :
    key.trafficType = "INGRESS" ∨ key.trafficType = "EGRESS" := by
  unfold cacheKey eventKind at h
  grind

/-- Every row of the controller names a direction, so the audit builds a flow. -/
theorem rowDirection_trafficRow {data : NetworkEventData} {podData : PodInfo} {key : TrafficKey}
    (h : cacheKey data podData = some key) (podNamespace : Option String) (uuid : String) :
    rowDirection (trafficRow key podNamespace uuid) =
      some (if data.kind = 2 then .ingress else .egress) := by
  obtain ⟨hegress, hingress⟩ := trafficType_cacheKey h
  rcases trafficType_cases h with htype | htype
  · rw [if_pos (hingress.mp htype)]
    simp only [rowDirection, normalisedType, trafficRow, htype]
    decide
  · have hkind : data.kind ≠ 2 := by
      rcases hegress.mp htype with hk | hk <;> simp [hk]
    rw [if_neg hkind]
    simp only [rowDirection, normalisedType, trafficRow, htype]
    decide

theorem buildFlow_trafficRow {data : NetworkEventData} {podData : PodInfo} {key : TrafficKey}
    (h : cacheKey data podData = some key) (podNamespace : Option String) (uuid : String) :
    ∃ flow, buildFlowForTraffic (trafficRow key podNamespace uuid) = some flow := by
  have hd := rowDirection_trafficRow h podNamespace uuid
  split at hd <;> simp [buildFlowForTraffic, hd]

end KGuardian.NetworkEvents
