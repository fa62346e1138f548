import KGuardian.GeneratorAgreement
import KGuardian.NetworkEvents
import KGuardian.PodTrafficReads

/-!
Dropped connections in generated policies. The controller reports them as rows
with the decision `DROP`, the broker serves them with the others, and no
generator reads the decision: such a row counts unless another row says the same.
-/
namespace KGuardian.DroppedTraffic

open Matcher SortedGroups JsText
open NetworkProbe (NetworkEventData)
open NetworkEvents (TrafficKey PolicyDropEvent ipv4String fromBe protoToString trafficRow
  buildTrafficEvent buildPolicyDropEvent)
open BrokerTraffic (PodTraffic)
open IngestRuns (processAll)
open PodTrafficReads (podTrafficByName)
open StandardPolicy (BrokerData createNetworkPolicyPeer plainPort)
open BridgeNetworkPolicy (PeerResolver TrafficRow PodInfo Port entries entry)
open GeneratorAgreement (advisorRow advisorPod advisorEntry mem_advisorEntries)

/-- A stored row as the broker serves it. -/
def servedRow (row : PodTraffic) : TrafficRow :=
  ⟨row.trafficType, row.podPort, row.trafficInOutIp, row.trafficInOutPort, row.ipProtocol⟩

def dropped (row : PodTraffic) : Bool := row.decision = some "DROP"

/-- The rows without the dropped connections. -/
def withoutDrops (rows : List PodTraffic) : List PodTraffic := rows.filter fun row => !dropped row

section Removal

variable (pod : PodInfo) {traffic kept : List TrafficRow} (hkept : kept ⊆ traffic) (d : Direction)

/-- Every peer and port that is read for the direction is read from a kept row. -/
def StillRead {ε : Type*} (read : TrafficRow → Option ε) (traffic kept : List TrafficRow) : Prop :=
  ∀ t ∈ traffic, ∀ e, read t = some e → ∃ t' ∈ kept, read t' = some e

theorem stillRead_iff {ε : Type*} (read : TrafficRow → Option ε) (traffic kept : List TrafficRow) :
    StillRead read traffic kept ↔
      ∀ e, e ∈ traffic.filterMap read → e ∈ kept.filterMap read := by
  simp only [StillRead, List.mem_filterMap]
  exact ⟨fun h e ⟨t, ht, hread⟩ => h t ht e hread, fun h t ht e hread => h e ⟨t, ht, hread⟩⟩

include hkept

theorem filterMap_subset {ε : Type*} (read : TrafficRow → Option ε) :
    kept.filterMap read ⊆ traffic.filterMap read := by
  intro e he
  obtain ⟨t, ht, hread⟩ := List.mem_filterMap.mp he
  exact List.mem_filterMap.mpr ⟨t, hkept ht, hread⟩

/-- What the advisor builds from the groups of a direction. -/
theorem advisor_map_eq_iff {γ : Type*} (f : String × List NetworkPolicyPort → γ)
    (hf : ∀ k l l', (∀ p ∈ l, ∃ v protocol, p = plainPort v protocol) →
      (∀ p ∈ l', ∃ v protocol, p = plainPort v protocol) → f (k, l) = f (k, l') → l = l') :
    (PeerGroups.trafficGroups (traffic.map advisorRow) (advisorPod pod) d).map f =
        (PeerGroups.trafficGroups (kept.map advisorRow) (advisorPod pod) d).map f ↔
      StillRead (advisorEntry pod d) traffic kept := by
  have hplain (rows : List TrafficRow) :=
    PeerGroups.plain_trafficGroups (rows.map advisorRow) (advisorPod pod) d
  have hsubset (k : String) (p : NetworkPolicyPort) :
      InGroup (PeerGroups.trafficGroups (kept.map advisorRow) (advisorPod pod) d) k p →
        InGroup (PeerGroups.trafficGroups (traffic.map advisorRow) (advisorPod pod) d) k p := by
    rw [← mem_advisorEntries, ← mem_advisorEntries]
    exact fun h => filterMap_subset hkept _ h
  rw [(PeerGroups.sorted_trafficGroups _ _ _).map_eq_iff_of_subset
    (PeerGroups.sorted_trafficGroups _ _ _) (fun a _ b _ => le_antisymm)
    (fun g hg p hp q hq => PeerGroups.portLe_antisymm (hplain traffic g hg) hp hq) hsubset f,
    stillRead_iff]
  · simp only [← mem_advisorEntries, Prod.forall]
  · intro g hg g' hg' hkey heq
    obtain ⟨k, l⟩ := g
    obtain ⟨k', l'⟩ := g'
    obtain rfl : k = k' := hkey
    exact hf k l l' (hplain traffic _ hg) (hplain kept _ hg') heq

/-- What the assistant builds from the groups of a direction, when its collation
tells the peers and the protocols apart. -/
theorem bridge_map_eq_iff {js : Runtime} (hjs : js.Documented)
    (hpeers : ∀ e ∈ entries js pod d traffic, e.1.toList.all isPrintable = true)
    (hprotocols : ∀ e ∈ entries js pod d traffic, e.2.protocol.toList.all isPrintable = true)
    {γ : Type*} (f : String × List Port → γ)
    (hf : ∀ k l l', f (k, l) = f (k, l') → l = l') :
    (BridgeNetworkPolicy.trafficGroups js traffic pod d).map f =
        (BridgeNetworkPolicy.trafficGroups js kept pod d).map f ↔
      StillRead (entry js pod d) traffic kept := by
  have hsorted := BridgeNetworkPolicy.sorted_trafficGroups hjs traffic pod d
  have hread {g : String × List Port} (hg : g ∈ BridgeNetworkPolicy.trafficGroups js traffic pod d)
      {p : Port} (hp : p ∈ g.2) : (g.1, p) ∈ entries js pod d traffic :=
    (BridgeNetworkPolicy.inGroup_trafficGroups js traffic pod d g.1 p).mp ⟨g, hg, rfl, hp⟩
  have hsubset (k : String) (p : Port) :
      InGroup (BridgeNetworkPolicy.trafficGroups js kept pod d) k p →
        InGroup (BridgeNetworkPolicy.trafficGroups js traffic pod d) k p := by
    rw [BridgeNetworkPolicy.inGroup_trafficGroups, BridgeNetworkPolicy.inGroup_trafficGroups]
    exact fun h => filterMap_subset hkept _ h
  have hkeys : ∀ k ∈ (BridgeNetworkPolicy.trafficGroups js traffic pod d).map Prod.fst,
      ∀ k' ∈ (BridgeNetworkPolicy.trafficGroups js traffic pod d).map Prod.fst,
        BridgeNetworkPolicy.peerLe js k k' → BridgeNetworkPolicy.peerLe js k' k → k = k' := by
    intro k hk k' hk' hle hge
    obtain ⟨p, hp⟩ := (hsorted.mem_keys_iff k).mp hk
    obtain ⟨p', hp'⟩ := (hsorted.mem_keys_iff k').mp hk'
    rw [BridgeNetworkPolicy.inGroup_trafficGroups] at hp hp'
    exact hjs.printable k k' (hpeers _ hp) (hpeers _ hp') hle hge
  have hvalues : ∀ g ∈ BridgeNetworkPolicy.trafficGroups js traffic pod d, ∀ p ∈ g.2, ∀ q ∈ g.2,
      BridgeNetworkPolicy.portLe js p q → BridgeNetworkPolicy.portLe js q p → p = q := by
    intro g hg p hp q hq
    exact BridgeNetworkPolicy.portLe_antisymm hjs (hprotocols _ (hread hg hp))
      (hprotocols _ (hread hg hq))
  rw [hsorted.map_eq_iff_of_subset (BridgeNetworkPolicy.sorted_trafficGroups hjs kept pod d)
    hkeys hvalues hsubset f, stillRead_iff]
  · simp only [BridgeNetworkPolicy.inGroup_trafficGroups, entries, Prod.forall]
  · intro g hg g' hg' hkey heq
    obtain ⟨k, l⟩ := g
    obtain ⟨k', l'⟩ := g'
    obtain rfl : k = k' := hkey
    exact hf k l l' heq

end Removal

/-! What the controller reports is printable ASCII. -/

/-- An event of a pod that a controller makes a row of. -/
inductive ControllerEvent where
  | traffic (data : NetworkEventData) (podData : NetworkEvents.PodInfo) (uuid : String)
  | drop (data : PolicyDropEvent) (podData : NetworkEvents.PodInfo) (uuid : String)

def buildRow (cache : List TrafficKey) : ControllerEvent → Option PodTraffic
  | .traffic data podData uuid => (buildTrafficEvent cache data podData uuid).2
  | .drop data podData uuid => (buildPolicyDropEvent cache data podData uuid).2

/-- Some controller made the row, whatever its cache held. -/
def FromController (row : PodTraffic) : Prop := ∃ cache event, buildRow cache event = some row

theorem isPrintable_of_isDigit {c : Char} (h : c.isDigit = true) : isPrintable c = true := by
  simp only [Char.isDigit, isPrintable, Bool.and_eq_true, decide_eq_true_eq, Char.le_def,
    UInt32.le_iff_toNat_le, ge_iff_le] at h ⊢
  simp at h ⊢
  omega

theorem printable_toString (n : ℕ) : (toString n).toList.all isPrintable = true := by
  rw [Nat.toString_eq_ofList_toDigits, String.toList_ofList, List.all_eq_true]
  exact fun c hc => isPrintable_of_isDigit (Nat.isDigit_of_mem_toDigits (by decide) (by decide) hc)

theorem printable_ipv4String (x : BitVec 32) : (ipv4String x).toList.all isPrintable = true := by
  have hdot : ".".toList.all isPrintable = true := by decide
  simp only [ipv4String, String.toList_append, List.all_append, printable_toString, hdot,
    Bool.and_true]

theorem printable_protoToString (proto : BitVec 8) :
    (protoToString proto).toList.all isPrintable = true := by
  have hopen : "UNKNOWN(".toList.all isPrintable = true := by decide
  have hclose : ")".toList.all isPrintable = true := by decide
  rw [protoToString]
  split
  · decide
  split
  · decide
  split
  · decide
  split
  · decide
  · simp only [String.toList_append, List.all_append, printable_toString, hopen, hclose,
      Bool.and_true]

theorem isPrintable_toUpper {c : Char} (h : isPrintable c = true) :
    isPrintable c.toUpper = true := by
  rw [Char.toUpper]
  split
  · rename_i hlower
    simp only [isPrintable, Bool.and_eq_true, decide_eq_true_eq, Char.le_def,
      UInt32.le_iff_toNat_le] at hlower ⊢
    simp at hlower ⊢
    omega
  · exact h

/-- The peer is an IPv4 address and the protocol a name or a number. -/
theorem printable_of_fromController {row : PodTraffic} (h : FromController row) :
    ∃ ip protocol, row.trafficInOutIp = some ip ∧ ip.toList.all isPrintable = true ∧
      row.ipProtocol = some protocol ∧ protocol.toList.all isPrintable = true := by
  have hrow {cache : List TrafficKey} {key : TrafficKey} {ns : Option String} {uuid : String}
      (hmade : (if cache.contains key then (cache, none)
        else (key :: cache, some (trafficRow key ns uuid))).2 = some row) :
      row = trafficRow key ns uuid := by
    split at hmade
    · cases hmade
    · exact (Option.some.inj hmade).symm
  obtain ⟨cache, event, hbuild⟩ := h
  cases event with
  | traffic data podData uuid =>
      simp only [buildRow, buildTrafficEvent] at hbuild
      cases hkey : NetworkEvents.cacheKey data podData with
      | none => simp [hkey] at hbuild
      | some key =>
          rw [hkey] at hbuild
          have hfields : key.trafficInOutIp = ipv4String (fromBe data.daddr) ∧
              (key.ipProtocol = "TCP" ∨ key.ipProtocol = "UDP") := by
            unfold NetworkEvents.cacheKey NetworkEvents.eventKind at hkey
            grind
          refine ⟨_, _, by rw [hrow hbuild]; rfl, ?_, by rw [hrow hbuild]; rfl, ?_⟩
          · rw [hfields.1]
            exact printable_ipv4String _
          · rcases hfields.2 with hp | hp <;> rw [hp] <;> decide
  | drop data podData uuid =>
      simp only [buildRow, buildPolicyDropEvent] at hbuild
      cases hkey : NetworkEvents.dropKey data podData with
      | none => simp [hkey] at hbuild
      | some key =>
          rw [hkey] at hbuild
          have hfields : key.trafficInOutIp = ipv4String (fromBe data.daddr) ∧
              key.ipProtocol = protoToString data.protocol := by
            unfold NetworkEvents.dropKey at hkey
            grind
          refine ⟨_, _, by rw [hrow hbuild]; rfl, ?_, by rw [hrow hbuild]; rfl, ?_⟩
          · rw [hfields.1]
            exact printable_ipv4String _
          · rw [hfields.2]
            exact printable_protoToString _

theorem printable_entries {js : Runtime} (hjs : js.Documented) {rows : List PodTraffic}
    (hrows : ∀ row ∈ rows, FromController row) (pod : PodInfo) (d : Direction) :
    ∀ e ∈ entries js pod d (rows.map servedRow),
      e.1.toList.all isPrintable = true ∧ e.2.protocol.toList.all isPrintable = true := by
  intro e he
  obtain ⟨t, ht, hentry⟩ := List.mem_filterMap.mp he
  obtain ⟨row, hrow, rfl⟩ := List.mem_map.mp ht
  obtain ⟨ip, protocol, hip, hprintIp, hproto, hprintProto⟩ :=
    printable_of_fromController (hrows row hrow)
  have hfields : e.1 = ip ∧ e.2.protocol = js.toUpperCase protocol := by
    simp only [entry, servedRow, hip, hproto, Option.getD_some] at hentry
    split at hentry
    · cases hentry
    · split at hentry
      · obtain ⟨n, -, rfl⟩ := Option.map_eq_some_iff.mp hentry
        exact ⟨rfl, rfl⟩
      · cases hentry
  rw [List.all_eq_true] at hprintProto
  rw [hfields.1, hfields.2, hjs.upperAscii protocol fun c hc => ?_]
  · refine ⟨hprintIp, ?_⟩
    rw [String.toList_ofList, List.all_map, List.all_eq_true]
    exact fun c hc => isPrintable_toUpper (hprintProto c hc)
  · have hc := hprintProto c hc
    simp only [isPrintable, Bool.and_eq_true, decide_eq_true_eq, Char.le_def,
      UInt32.le_iff_toNat_le] at hc
    simp at hc
    exact lt_of_le_of_lt hc.2 (by decide)

/-! The rules of the four generated policies. -/

section Rules

variable (pod : PodInfo) (rows : List PodTraffic) (d : Direction)

def advisorStandardRules (broker : BrokerData) : Except String (List PolicyRule) :=
  (StandardPolicy.generate broker pod.name ((rows.map servedRow).map advisorRow)
    (some (advisorPod pod))).map fun p => PolicySemantics.rulesFor p.spec d

def advisorCiliumRules (broker : BrokerData) : Except String (List CiliumPolicy.CiliumPeerRule) :=
  (CiliumPolicy.generate broker pod.name ((rows.map servedRow).map advisorRow)
    (some (advisorPod pod))).map fun p => CiliumPolicy.rulesFor p.spec d

def bridgeStandardRules (js : Runtime) (resolve : PeerResolver) : List PolicyRule :=
  PolicySemantics.rulesFor
    (BridgeNetworkPolicy.generateNetworkPolicy js pod (rows.map servedRow) resolve).spec d

def bridgeCiliumRules (js : Runtime) (resolve : PeerResolver) :
    List CiliumPolicy.CiliumPeerRule :=
  CiliumPolicy.rulesFor
    (BridgeNetworkPolicy.generateCiliumPolicy js pod (rows.map servedRow) resolve).spec d

/-- Each dropped connection that a generator reads from a row is read from a row
with another decision too. -/
def DropsSeenOtherwise {ε : Type*} (read : TrafficRow → Option ε) : Prop :=
  ∀ row ∈ rows, dropped row = true → ∀ e, read (servedRow row) = some e →
    ∃ row' ∈ rows, dropped row' = false ∧ read (servedRow row') = some e

theorem stillRead_withoutDrops {ε : Type*} (read : TrafficRow → Option ε) :
    StillRead read (rows.map servedRow) ((withoutDrops rows).map servedRow) ↔
      DropsSeenOtherwise rows read := by
  constructor
  · intro h row hrow _ e hread
    obtain ⟨t, ht, hread'⟩ := h _ (List.mem_map_of_mem hrow) e hread
    obtain ⟨row', hrow', rfl⟩ := List.mem_map.mp ht
    obtain ⟨hmem, hkept⟩ := List.mem_filter.mp hrow'
    exact ⟨row', hmem, by simpa using hkept, hread'⟩
  · intro h t ht e hread
    obtain ⟨row, hrow, rfl⟩ := List.mem_map.mp ht
    cases hdrop : dropped row with
    | true =>
        obtain ⟨row', hrow', hkept, hread'⟩ := h row hrow hdrop e hread
        exact ⟨_, List.mem_map_of_mem (List.mem_filter.mpr ⟨hrow', by simp [hkept]⟩), hread'⟩
    | false =>
        exact ⟨_, List.mem_map_of_mem (List.mem_filter.mpr ⟨hrow, by simp [hdrop]⟩), hread⟩

theorem withoutDrops_subset : (withoutDrops rows).map servedRow ⊆ rows.map servedRow :=
  (List.filter_sublist.map servedRow).subset

theorem advisorStandardRules_eq (broker : BrokerData) :
    advisorStandardRules pod rows d broker =
      .ok ((PeerGroups.trafficGroups ((rows.map servedRow).map advisorRow) (advisorPod pod) d).map
        fun g => ⟨[createNetworkPolicyPeer broker g.1], g.2⟩) := by
  obtain ⟨policy, hgen, -, hspec⟩ := PeerGroups.generate_eq broker pod.name
    ((rows.map servedRow).map advisorRow) (advisorPod pod)
  rw [advisorStandardRules, hgen, Except.map, hspec, PeerGroups.rulesFor_standardSpec]
  exact fun _ => rfl

theorem advisorCiliumRules_eq (broker : BrokerData) :
    advisorCiliumRules pod rows d broker =
      .ok ((PeerGroups.trafficGroups ((rows.map servedRow).map advisorRow) (advisorPod pod) d).map
        fun g => CiliumPolicy.peerRule broker g.1
          (g.2.map fun p => ⟨[CiliumPolicy.ciliumPort p]⟩)) := by
  obtain ⟨policy, hgen, -, hspec⟩ := CiliumPolicy.generate_eq broker pod.name
    ((rows.map servedRow).map advisorRow) (advisorPod pod)
  rw [advisorCiliumRules, hgen, Except.map, hspec, CiliumPolicy.rulesFor_ciliumSpec]
  exact fun _ => rfl

theorem advisorStandardRules_unchanged_iff (broker : BrokerData) :
    advisorStandardRules pod rows d broker =
        advisorStandardRules pod (withoutDrops rows) d broker ↔
      DropsSeenOtherwise rows (advisorEntry pod d) := by
  rw [advisorStandardRules_eq, advisorStandardRules_eq, Except.ok.injEq,
    advisor_map_eq_iff pod (withoutDrops_subset rows) d, stillRead_withoutDrops]
  intro k l l' _ _ heq
  exact congrArg AllowLists.Rule.ports heq

theorem advisorCiliumRules_unchanged_iff (broker : BrokerData) :
    advisorCiliumRules pod rows d broker =
        advisorCiliumRules pod (withoutDrops rows) d broker ↔
      DropsSeenOtherwise rows (advisorEntry pod d) := by
  rw [advisorCiliumRules_eq, advisorCiliumRules_eq, Except.ok.injEq,
    advisor_map_eq_iff pod (withoutDrops_subset rows) d, stillRead_withoutDrops]
  intro k l l' hl hl' heq
  refine eq_of_map_eq ?_ (congrArg CiliumPolicy.CiliumPeerRule.toPorts heq)
  intro p hp q hq hpq
  obtain ⟨v, protocol, rfl⟩ := hl p hp
  obtain ⟨w, protocol', rfl⟩ := hl' q hq
  simp only [CiliumPolicy.ciliumPort, plainPort, StandardPolicy.portString, Option.map_some,
    Option.getD_some, CiliumPolicy.CiliumPortRule.mk.injEq, List.cons.injEq, and_true,
    CiliumPolicy.CiliumPortProtocol.mk.injEq] at hpq
  rw [plainPort, plainPort, Int.repr_injective hpq.1, hpq.2]

theorem bridgeStandardRules_unchanged_iff {js : Runtime} (hjs : js.Documented)
    (hrows : ∀ row ∈ rows, FromController row) (resolve : PeerResolver) :
    bridgeStandardRules pod rows d js resolve =
        bridgeStandardRules pod (withoutDrops rows) d js resolve ↔
      DropsSeenOtherwise rows (entry js pod d) := by
  have hprintable := printable_entries hjs hrows pod d
  rw [bridgeStandardRules, bridgeStandardRules,
    (BridgeNetworkPolicy.generateNetworkPolicy_eq js pod _ resolve).2,
    (BridgeNetworkPolicy.generateNetworkPolicy_eq js pod _ resolve).2,
    PeerGroups.rulesFor_standardSpec _ _ _ _ fun _ => rfl,
    PeerGroups.rulesFor_standardSpec _ _ _ _ fun _ => rfl,
    bridge_map_eq_iff pod (withoutDrops_subset rows) d hjs (fun e he => (hprintable e he).1)
      (fun e he => (hprintable e he).2), stillRead_withoutDrops]
  intro k l l' heq
  exact List.map_injective_iff.mpr GeneratorAgreement.standardPort_injective
    (congrArg AllowLists.Rule.ports heq)

theorem bridgeCiliumPort_injective : Function.Injective BridgeNetworkPolicy.ciliumPort := by
  intro p q h
  cases p
  cases q
  simp only [BridgeNetworkPolicy.ciliumPort, CiliumPolicy.CiliumPortProtocol.mk.injEq] at h
  rw [BridgeNetworkPolicy.Port.mk.injEq]
  exact ⟨Nat.repr_injective h.1, h.2⟩

theorem bridgeCiliumRules_unchanged_iff {js : Runtime} (hjs : js.Documented)
    (hrows : ∀ row ∈ rows, FromController row) (resolve : PeerResolver) :
    bridgeCiliumRules pod rows d js resolve =
        bridgeCiliumRules pod (withoutDrops rows) d js resolve ↔
      DropsSeenOtherwise rows (entry js pod d) := by
  have hprintable := printable_entries hjs hrows pod d
  rw [bridgeCiliumRules, bridgeCiliumRules,
    (BridgeNetworkPolicy.generateCiliumPolicy_eq js pod _ resolve).2,
    (BridgeNetworkPolicy.generateCiliumPolicy_eq js pod _ resolve).2,
    CiliumPolicy.rulesFor_ciliumSpec _ _ _ _ _ fun _ => rfl,
    CiliumPolicy.rulesFor_ciliumSpec _ _ _ _ _ fun _ => rfl,
    bridge_map_eq_iff pod (withoutDrops_subset rows) d hjs (fun e he => (hprintable e he).1)
      (fun e he => (hprintable e he).2), stillRead_withoutDrops]
  intro k l l' heq
  have hports := congrArg CiliumPolicy.CiliumPeerRule.toPorts heq
  simp only [List.cons.injEq, CiliumPolicy.CiliumPortRule.mk.injEq, and_true] at hports
  exact List.map_injective_iff.mpr bridgeCiliumPort_injective hports

end Rules

/-- The stored rows of controller events, as any pod name reads them. -/
theorem fromController_served {batches : List (List PodTraffic)}
    (hbatches : ∀ batch ∈ batches, ∀ row ∈ batch, FromController row) {name : String}
    {served : List PodTraffic}
    (hserved : served.Perm (podTrafficByName (processAll batches).table name)) :
    ∀ row ∈ served, FromController row := by
  intro row hrow
  have hstored := (PodTrafficReads.mem_podTrafficByName _ _ _).mp (hserved.mem_iff.mp hrow)
  obtain ⟨batch, hbatch, hmem⟩ :=
    List.mem_flatten.mp (PodTrafficReads.table_subset_posted batches hstored.1)
  exact hbatches batch hbatch row hmem

/-- For every run of the broker on controller events, the rules of a generated
policy stay the same without the dropped connections exactly when each of these
is read from a row with another decision too. -/
theorem rules_unchanged_iff {js : Runtime} (hjs : js.Documented)
    (batches : List (List PodTraffic))
    (hbatches : ∀ batch ∈ batches, ∀ row ∈ batch, FromController row) (name : String)
    (served : List PodTraffic)
    (hserved : served.Perm (podTrafficByName (processAll batches).table name))
    (pod : PodInfo) (broker : BrokerData) (resolve : PeerResolver) :
    ((∀ d, advisorStandardRules pod served d broker =
        advisorStandardRules pod (withoutDrops served) d broker) ↔
      ∀ d, DropsSeenOtherwise served (advisorEntry pod d)) ∧
    ((∀ d, advisorCiliumRules pod served d broker =
        advisorCiliumRules pod (withoutDrops served) d broker) ↔
      ∀ d, DropsSeenOtherwise served (advisorEntry pod d)) ∧
    ((∀ d, bridgeStandardRules pod served d js resolve =
        bridgeStandardRules pod (withoutDrops served) d js resolve) ↔
      ∀ d, DropsSeenOtherwise served (entry js pod d)) ∧
    ((∀ d, bridgeCiliumRules pod served d js resolve =
        bridgeCiliumRules pod (withoutDrops served) d js resolve) ↔
      ∀ d, DropsSeenOtherwise served (entry js pod d)) := by
  have hrows := fromController_served hbatches hserved
  exact ⟨forall_congr' fun d => advisorStandardRules_unchanged_iff pod served d broker,
    forall_congr' fun d => advisorCiliumRules_unchanged_iff pod served d broker,
    forall_congr' fun d => bridgeStandardRules_unchanged_iff pod served d hjs hrows resolve,
    forall_congr' fun d => bridgeCiliumRules_unchanged_iff pod served d hjs hrows resolve⟩

def webStatus : NetworkEvents.PodInfo := ⟨"web-0", some "shop", "10.0.0.7"⟩

/-- The web pod calls the api, and a policy drops the call. -/
def droppedCall : PodTraffic :=
  ⟨"d1", some "web-0", some "shop", some "10.0.0.7", some "0", some "TCP", some "EGRESS",
    some "10.0.0.8", some "8080", some "DROP"⟩

def allowedCall : PodTraffic := { droppedCall with uuid := "a1", decision := some "ALLOW" }

theorem fromController_droppedCall : FromController droppedCall :=
  ⟨[], .drop ⟨7, 0x0800000A#32, 8080#16, 6#8⟩ webStatus "d1", by decide⟩

theorem fromController_allowedCall : FromController allowedCall :=
  ⟨[], .traffic ⟨7, 0x0700000A#32, 40112#16, 0x0800000A#32, 8080#16, 1⟩ webStatus "a1", by decide⟩

/-- The call is dropped first and allowed later on. -/
theorem allowedLater_unchanged :
    (∀ d, advisorStandardRules GeneratorAgreement.webPod [droppedCall, allowedCall] d
        GeneratorAgreement.unresolvedBroker =
      advisorStandardRules GeneratorAgreement.webPod (withoutDrops [droppedCall, allowedCall]) d
        GeneratorAgreement.unresolvedBroker) ∧
    ∀ d, bridgeCiliumRules GeneratorAgreement.webPod [droppedCall, allowedCall] d asciiRuntime
        (fun _ => none) =
      bridgeCiliumRules GeneratorAgreement.webPod (withoutDrops [droppedCall, allowedCall]) d
        asciiRuntime fun _ => none := by
  have hseen {ε : Type} (read : TrafficRow → Option ε) :
      DropsSeenOtherwise [droppedCall, allowedCall] read := by
    intro row hrow hdrop e hread
    rcases List.mem_pair.mp hrow with rfl | rfl
    · exact ⟨allowedCall, by decide, by decide, hread⟩
    · exact absurd hdrop (by decide)
  obtain ⟨hstandard, -, -, hcilium⟩ := rules_unchanged_iff asciiRuntime_documented
    [[droppedCall], [allowedCall]]
    (by simp [fromController_droppedCall, fromController_allowedCall]) "web-0"
    [droppedCall, allowedCall]
    (by rw [show podTrafficByName (processAll [[droppedCall], [allowedCall]]).table "web-0" =
      [droppedCall, allowedCall] by decide]) GeneratorAgreement.webPod
    GeneratorAgreement.unresolvedBroker fun _ => none
  exact ⟨hstandard.mpr fun _ => hseen _, hcilium.mpr fun _ => hseen _⟩

/-- A call that was only ever dropped is allowed by every generated policy. -/
theorem droppedCall_allowed :
    FromController droppedCall ∧
    podTrafficByName (processAll [[droppedCall]]).table "web-0" = [droppedCall] ∧
    (advisorStandardRules GeneratorAgreement.webPod [droppedCall] .egress
        GeneratorAgreement.unresolvedBroker =
      .ok [⟨[⟨none, none, some ⟨"10.0.0.8/32", []⟩⟩], [plainPort 8080 "TCP"]⟩]) ∧
    (bridgeCiliumRules GeneratorAgreement.webPod [droppedCall] .egress asciiRuntime
        (fun _ => none) =
      [⟨[], ["10.0.0.8/32"], [⟨[⟨"8080", "TCP"⟩]⟩]⟩]) ∧
    ¬ (∀ d, advisorStandardRules GeneratorAgreement.webPod [droppedCall] d
        GeneratorAgreement.unresolvedBroker =
      advisorStandardRules GeneratorAgreement.webPod (withoutDrops [droppedCall]) d
        GeneratorAgreement.unresolvedBroker) ∧
    ¬ ∀ d, bridgeCiliumRules GeneratorAgreement.webPod [droppedCall] d asciiRuntime
        (fun _ => none) =
      bridgeCiliumRules GeneratorAgreement.webPod (withoutDrops [droppedCall]) d
        asciiRuntime fun _ => none := by
  have hadvisor : advisorStandardRules GeneratorAgreement.webPod (withoutDrops [droppedCall])
      .egress GeneratorAgreement.unresolvedBroker = .ok [] := rfl
  have hbridge : bridgeCiliumRules GeneratorAgreement.webPod (withoutDrops [droppedCall]) .egress
      asciiRuntime (fun _ => none) = [] := rfl
  refine ⟨fromController_droppedCall, by decide, rfl, rfl, fun h => ?_, fun h => ?_⟩
  · have hrules := (h .egress).trans hadvisor
    exact absurd (Except.ok.inj hrules) (List.cons_ne_nil _ _)
  · have hrules := (h .egress).trans hbridge
    exact absurd hrules (List.cons_ne_nil _ _)

end KGuardian.DroppedTraffic
