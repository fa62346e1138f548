import KGuardian.ObservedTraffic

/-!
Service traffic after address translation. A row is observed at the cluster IP
and the service port, but the network enforces the policy on the connection to
a pod behind the service, on the target port. The generator translates the
address and keeps the port.
-/
namespace KGuardian.ServiceTranslation

open Selectors Matcher PolicySemantics StandardPolicy ObservedTraffic

/-- The port of a pod that a service port leads to: the target port, where zero
stands for the service port itself and a name for a container port. -/
def targetPortOn (pod : Pod) (sp : ServicePort) : Option ℤ :=
  match sp.targetPort with
  | .int v => some (if v = 0 then sp.port else v)
  | .str name =>
      ((pod.containers.flatMap Container.ports).find? fun cp =>
        cp.name = name && (if cp.protocol = "" then "TCP" else cp.protocol) = sp.protocol).map
          ContainerPort.containerPort

/-- A known pod behind the service. -/
structure Behind (lookup : Lookup) (svc : SvcDetail) (pod : Pod) : Prop where
  known : lookup.getPod pod.ns pod.name = some pod
  ns : pod.ns = svc.svcNamespace
  carries : ∀ l ∈ svc.selector.entries, pod.labels.lookup l.1 = some l.2

/-- An egress row to the cluster IP of a service with a selector, and to one of
its ports. -/
structure ServiceRow (broker : BrokerData) (podDetail : PodDetail) (row : PodTraffic)
    (svc : SvcDetail) (sp : ServicePort) : Prop where
  service : broker.serviceByIP row.dstIP = .ok (some svc)
  selector : svc.selector.keys ≠ []
  port : sp ∈ svc.ports
  protocol : row.protocol = sp.protocol
  known : sp.protocol ∈ ["TCP", "UDP", "SCTP"]
  survives : Survives podDetail row .egress sp.port

/-- The connection as it is enforced, from the protected pod to a pod behind the
service. -/
def translatedFlow (podDetail : PodDetail) (pod : Pod) (podIP protocol : String) (target : ℤ) :
    Flow :=
  ⟨podDetail.ns, podDetail.name, pod.ns, pod.name, podDetail.podIP, podIP, target, protocol⟩

theorem covers_service {api : Apimachinery} {broker : BrokerData} {lookup : Lookup}
    (hcluster : ClusterObjects api lookup) {podDetail : PodDetail} {row : PodTraffic}
    {svc : SvcDetail} {sp : ServicePort} (h : ServiceRow broker podDetail row svc sp)
    {pod : Pod} (hbehind : Behind lookup svc pod) (podIP : String) :
    Covers lookup ⟨pod.ns, pod.name, podIP⟩ (resolvePeer broker row.dstIP) := by
  have heq : resolvePeer broker row.dstIP = .pods svc.svcNamespace svc.selector := by
    simp only [resolvePeer, h.service, if_pos h.selector]
  obtain ⟨-, hnamed⟩ := hcluster.named _ _ _ hbehind.known
  rw [heq]
  exact ⟨h.selector, pod, hbehind.known, hbehind.ns ▸ hnamed, hbehind.carries⟩

/-- Service traffic survives translation exactly when the target port is the
service port, or when other rows support the connection on the target port. -/
theorem generate_admits_translated_iff (api : Apimachinery) (hapi : api.Documented)
    (broker : BrokerData) (lookup : Lookup) (hcluster : ClusterObjects api lookup)
    (podName : String) (podTraffic : List PodTraffic) (podDetail : PodDetail)
    (subject : Pod) (hsubject : lookup.getPod podDetail.ns podDetail.name = some subject)
    (hlabels : subject.labels = podDetail.podLabels)
    (row : PodTraffic) (hrow : row ∈ podTraffic) (svc : SvcDetail) (sp : ServicePort)
    (hservice : ServiceRow broker podDetail row svc sp)
    (pod : Pod) (hbehind : Behind lookup svc pod) (podIP : String) (target : ℤ)
    (htarget : targetPortOn pod sp = some target) :
    ∃ policy, generate broker podName podTraffic (some podDetail) = .ok policy ∧
      (verdictIn .egress (matchPolicy api (translatedFlow podDetail pod podIP sp.protocol target)
          policy.audited lookup) = .allow ↔
        target = sp.port ∨
        ∃ other ∈ podTraffic, Survives podDetail other .egress target ∧
          protocolPtr other.protocol = sp.protocol ∧
          Covers lookup ⟨pod.ns, pod.name, podIP⟩ (resolvePeer broker other.dstIP)) := by
  obtain ⟨policy, hgen, hiff⟩ :=
    generate_allow_iff hapi hcluster broker podName podTraffic podDetail subject hsubject hlabels
  refine ⟨policy, hgen, (hiff _ .egress rfl).trans ?_⟩
  constructor
  · intro h
    obtain ⟨other, hother, hsurvives', hprotocol', e, he, hcovers⟩ := h
    cases he
    exact Or.inr ⟨other, hother, hsurvives', hprotocol'.symm, hcovers⟩
  · intro h
    rcases h with rfl | ⟨other, hother, hsurvives', hprotocol', hcovers⟩
    · refine ⟨row, hrow, hservice.survives, ?_, _, rfl, ?_⟩
      · rw [hservice.protocol, protocolPtr_known _ hservice.known]
        rfl
      · exact covers_service hcluster hservice hbehind podIP
    · exact ⟨other, hother, hsurvives', hprotocol'.symm, _, rfl, hcovers⟩

/-! The frontend of the shop calls the api through a service that leads to the
named port of the pod. -/

def apiPort : ServicePort := ⟨"TCP", 80, .str "http"⟩

def apiService : SvcDetail := ⟨"api", "shop", apiPod.labels, [apiPort]⟩

def serviceBroker : BrokerData where
  serviceByIP ip := .ok (if ip = "10.96.0.20" then some apiService else none)
  podByIP _ := .error "no pod"

def webDetail : PodDetail := ⟨"10.0.0.7", "web-0", "shop", webPod.labels⟩

def toService : PodTraffic := ⟨"40112", "EGRESS", "10.96.0.20", "80", "TCP"⟩

theorem toService_serviceRow : ServiceRow serviceBroker webDetail toService apiService apiPort where
  service := rfl
  selector := by decide
  port := by decide
  protocol := rfl
  known := by decide
  survives := ⟨by decide, by decide, by decide, by decide⟩

theorem apiPod_behind : Behind shop apiService apiPod where
  known := rfl
  ns := rfl
  carries _ hl := AList.mem_lookup_iff.mpr hl

theorem toService_admits_iff :
    ∃ policy, generate serviceBroker "web-0" [toService] (some webDetail) = .ok policy ∧
      (verdictIn .egress (matchPolicy reference
          (translatedFlow webDetail apiPod "10.0.0.8" "TCP" 8080) policy.audited shop) = .allow ↔
        (8080 : ℤ) = 80 ∨
        ∃ other ∈ [toService], Survives webDetail other .egress 8080 ∧
          protocolPtr other.protocol = "TCP" ∧
          Covers shop ⟨"shop", "api-0", "10.0.0.8"⟩ (resolvePeer serviceBroker other.dstIP)) :=
  generate_admits_translated_iff reference reference_documented serviceBroker shop
    shop_clusterObjects "web-0" [toService] webDetail webPod rfl rfl toService (by decide)
    apiService apiPort toService_serviceRow apiPod apiPod_behind "10.0.0.8" 8080 rfl

/-- The row is kept, and its peer becomes the pods behind the service, but the
connection to such a pod would be denied. -/
theorem toService_wouldDeny :
    ServiceRow serviceBroker webDetail toService apiService apiPort ∧
      Behind shop apiService apiPod ∧ targetPortOn apiPod apiPort = some 8080 ∧
      ∃ policy, generate serviceBroker "web-0" [toService] (some webDetail) = .ok policy ∧
        verdictIn .egress (matchPolicy reference
          (translatedFlow webDetail apiPod "10.0.0.8" "TCP" 8080) policy.audited shop) =
            .wouldDeny :=
  ⟨toService_serviceRow, apiPod_behind, rfl, _, rfl, by decide⟩

end KGuardian.ServiceTranslation
