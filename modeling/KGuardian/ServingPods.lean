import KGuardian.CiliumPolicy
import KGuardian.NetworkEvents
import KGuardian.PolicyTargets

/-!
What serving a client adds: the rows that the controller makes of accepted connections
(`controller/src/network.rs`), and the policies that the advisor makes with them.
-/
namespace KGuardian.ServingPods

open NetworkProbe NetworkEvents Matcher PeerGroups
open StandardPolicy (BrokerData PodDetail Survives)
open BrokerTraffic (PodTraffic)
open DroppedTraffic (servedRow)
open GeneratorAgreement (advisorRow)

/-- The controller makes the row of an event of an accepted connection, with any cache. -/
def FromServing (s : ProbeState) (steps : List ProbeStep) (row : PodTraffic) : Prop :=
  ∃ x ∈ run s steps, isPassive x.2.1 = true ∧ ∃ e ∈ x.2.2, ∃ cache podData uuid,
    (buildTrafficEvent cache e podData uuid).2 = some row

section Rows

variable {s : ProbeState} {steps : List ProbeStep}

/-- An outgoing event gives an outgoing row, for a pod with another address. -/
theorem exists_egressRow {e : NetworkEventData} (h : e.kind = 1 ∨ e.kind = 3) :
    ∃ podData row, (buildTrafficEvent [] e podData "").2 = some row ∧
      row.trafficType = some "EGRESS" := by
  have hpeer : "" ≠ ipv4String (fromBe e.daddr) := by
    intro hempty
    have hlength := congrArg String.length hempty
    simp only [ipv4String, String.length_append] at hlength
    have hdot : ".".length = 1 ∧ "".length = 0 := ⟨rfl, rfl⟩
    omega
  have hkey : ∃ key, cacheKey e ⟨"", none, ""⟩ = some key := by
    obtain hkind | hkind := h
    · simp [cacheKey, eventKind, hkind, hpeer]
    · simp [cacheKey, eventKind, hkind, hpeer]
  obtain ⟨key, hkey⟩ := hkey
  refine ⟨⟨"", none, ""⟩, trafficRow key none "", ?_, ?_⟩
  · simp [buildTrafficEvent, hkey]
  · exact congrArg some ((trafficType_cacheKey hkey).1.mpr h)

/-- Accepted connections leave no outgoing row exactly when none is taken for that of a client. -/
theorem noEgressRow_iff : (∀ row, FromServing s steps row → row.trafficType ≠ some "EGRESS") ↔
    ∀ x ∈ run s steps, ¬ TakenForClient x.1 x.2.1 := by
  constructor
  · intro h x hx
    refine (event_egress_iff hx).mp fun hpassive e he => not_or.mp fun hkind => ?_
    obtain ⟨podData, row, hrow, htype⟩ := exists_egressRow hkind
    exact h row ⟨x, hx, hpassive, e, he, [], podData, "", hrow⟩ htype
  · intro h row hserving htype
    obtain ⟨x, hx, hpassive, e, he, cache, podData, uuid, hrow⟩ := hserving
    obtain ⟨key, hkey, rfl⟩ := exists_key_of_build hrow
    have hkind := (trafficType_cacheKey hkey).1.mp (Option.some.inj htype)
    exact not_or.mpr ((event_egress_iff hx).mpr (h x hx) hpassive e he) hkind

theorem ingressRow (hprobe : ∀ x ∈ run s steps, ¬ TakenForClient x.1 x.2.1) {row : PodTraffic}
    (h : FromServing s steps row) : row.trafficType = some "INGRESS" := by
  have hnot := noEgressRow_iff.mpr hprobe row h
  obtain ⟨x, -, -, e, -, cache, podData, uuid, hrow⟩ := h
  obtain ⟨key, hkey, rfl⟩ := exists_key_of_build hrow
  obtain hin | hout := trafficType_cases hkey
  · exact congrArg some hin
  · exact absurd (congrArg some hout) hnot

end Rows

/-- The rows as the advisor reads them. -/
def advisorRows (rows : List PodTraffic) : List StandardPolicy.PodTraffic :=
  (rows.map servedRow).map advisorRow

section Policies

variable {s : ProbeState} {steps : List ProbeStep} {rows : List PodTraffic}
  {served : PodTraffic → Bool}

theorem egressGroups_without_serving (hprobe : ∀ x ∈ run s steps, ¬ TakenForClient x.1 x.2.1)
    (hserved : ∀ row ∈ rows, served row = true → FromServing s steps row) (podDetail : PodDetail) :
    trafficGroups (advisorRows rows) podDetail .egress =
      trafficGroups (advisorRows (rows.filter fun row => !served row)) podDetail .egress := by
  apply trafficGroups_congr_of
  intro row v hsurvives
  simp only [advisorRows, List.map_map, List.mem_map, List.mem_filter]
  constructor
  · intro hrow
    obtain ⟨row, hmem, rfl⟩ := hrow
    refine ⟨row, ⟨hmem, ?_⟩, rfl⟩
    by_contra hnot
    have hin := ingressRow hprobe (hserved row hmem (by simpa using hnot))
    have hdirection : StandardPolicy.rowDirection (advisorRow (servedRow row)) = some .ingress := by
      simp [StandardPolicy.rowDirection, StandardPolicy.isIngressTraffic, advisorRow, servedRow,
        hin]
    exact absurd (hsurvives.direction.symm.trans hdirection) (by decide)
  · intro hrow
    obtain ⟨row, ⟨hmem, -⟩, rfl⟩ := hrow
    exact ⟨row, hmem, rfl⟩

/-- While no accepted connection is taken for that of a client, what a pod serves adds nothing to
what its policies let it call. -/
theorem egress_without_serving (hprobe : ∀ x ∈ run s steps, ¬ TakenForClient x.1 x.2.1)
    (hserved : ∀ row ∈ rows, served row = true → FromServing s steps row) (broker : BrokerData)
    (podName : String) (podDetail : PodDetail) :
    let others := rows.filter fun row => !served row
    (∃ policy without,
      StandardPolicy.generate broker podName (advisorRows rows) (some podDetail) = .ok policy ∧
      StandardPolicy.generate broker podName (advisorRows others) (some podDetail) = .ok without ∧
      policy.spec.egress = without.spec.egress) ∧
    ∃ policy without,
      CiliumPolicy.generate broker podName (advisorRows rows) (some podDetail) = .ok policy ∧
      CiliumPolicy.generate broker podName (advisorRows others) (some podDetail) = .ok without ∧
      policy.spec.egress = without.spec.egress := by
  have hgroups := egressGroups_without_serving hprobe hserved podDetail
  refine ⟨⟨_, _, generate_eq_policyOf .., generate_eq_policyOf .., ?_⟩,
    ⟨_, _, CiliumPolicy.generate_eq_policyOf .., CiliumPolicy.generate_eq_policyOf .., ?_⟩⟩
  · exact congrArg (List.map _) hgroups
  · rw [CiliumPolicy.policyOf, CiliumPolicy.policyOf]
    dsimp only
    rw [(CiliumPolicy.rules_ciliumSpec ..).2, (CiliumPolicy.rules_ciliumSpec ..).2, hgroups]

end Policies

end KGuardian.ServingPods
