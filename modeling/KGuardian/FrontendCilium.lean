import KGuardian.FrontendPolicy

/-!
The generator of Cilium policies in the frontend (`frontend/src/utils/ciliumPolicyGenerator.ts`,
with the types of `types/ciliumPolicy.ts`). It groups the traffic by the same lines as the
generator of standard policies, and makes one rule of each entry.
-/
namespace KGuardian.FrontendCilium

open FrontendPolicy JsText Selectors
open BridgeNetworkPolicy (TrafficRow)

/-! The types. An optional field that is missing is `none`, and a selector is its labels. -/

structure PortProtocol where
  port : String
  protocol : String
  deriving DecidableEq

/-- The rules for ingress and for egress, which differ in the names of two fields. -/
structure CiliumRule where
  id : String
  endpoints : Option (List Labels)
  cidr : Option (List String)
  toPorts : Option (List (List PortProtocol))
  deriving DecidableEq

structure DefaultDenyConfig where
  ingress : Bool
  egress : Bool
  deriving DecidableEq

structure CiliumNetworkPolicy where
  apiVersion : String
  kind : String
  name : String
  ns : String
  endpointSelector : Labels
  ingress : Option (List CiliumRule)
  egress : Option (List CiliumRule)
  defaultDeny : DefaultDenyConfig
  deriving DecidableEq

/-! The generator. -/

/-- The selector or the address range of a peer. -/
def resolvePeerLabels (broker : Broker) (peer : PeerInfo) : Labels ⊕ String :=
  match peer.identity with
  | .service name _ _ => .inl ((getLabelsForPod broker name).getD (appLabel name))
  | .pod name _ _ => .inl ((getLabelsForPod broker name).getD (appLabel name))
  | .external => .inr (peer.ip ++ "/32")

/-- The parts before and after the colon. -/
def parsePort (js : Runtime) (portStr : String) : PortProtocol :=
  let parts := (portStr.toList.splitOn ':').map String.ofList
  ⟨parts.getD 1 "", js.toUpperCase (parts.getD 0 "")⟩

def parsePorts (js : Runtime) (ports : List String) : List (List PortProtocol) :=
  if ports.isEmpty then [] else [ports.map (parsePort js)]

def ciliumRule (js : Runtime) (broker : Broker) (id : String) (e : PeerPorts) : CiliumRule :=
  let toPorts := some (parsePorts js e.ports)
  match resolvePeerLabels broker e.peer with
  | .inl selector => ⟨id, some [selector], none, toPorts⟩
  | .inr cidr => ⟨id, none, some [cidr], toPorts⟩

/-- The ids of the rules are arbitrary. -/
def generateCiliumNetworkPolicy (js : Runtime) (lower : LowerCase) (ids : ℕ → String × String)
    (broker : Broker) (pod : PodInfo) (traffic : List TrafficRow) : CiliumNetworkPolicy :=
  let (ingressMap, egressMap) := peerMaps lower (identityMap broker traffic) traffic
  let ingressRules := ingressMap.mapIdx fun i e => ciliumRule js broker (ids i).1 e
  let egressRules := egressMap.mapIdx fun i e => ciliumRule js broker (ids i).2 e
  { apiVersion := "cilium.io/v2"
    kind := "CiliumNetworkPolicy"
    name := (present pod.podIdentity).getD pod.podName ++ "-cilium-policy"
    ns := (present pod.podNamespace).getD "default"
    endpointSelector := targetPodLabels pod
    ingress := if ingressRules.isEmpty then none else some ingressRules
    egress := if egressRules.isEmpty then none else some egressRules
    defaultDeny := ⟨!ingressRules.isEmpty, !egressRules.isEmpty⟩ }

def CiliumNetworkPolicy.rules (policy : CiliumNetworkPolicy) : Matcher.Direction → List CiliumRule
  | .ingress => policy.ingress.getD []
  | .egress => policy.egress.getD []
  | .other _ => []

/-- Each entry of a map has one rule, in the order of the map. -/
theorem rules_generate (js : Runtime) (lower : LowerCase) (ids : ℕ → String × String)
    (broker : Broker) (pod : PodInfo) (traffic : List TrafficRow) (d : Matcher.Direction) :
    ∃ id : ℕ → String, (generateCiliumNetworkPolicy js lower ids broker pod traffic).rules d =
      (side (peerMaps lower (identityMap broker traffic) traffic) d).mapIdx fun i e =>
        ciliumRule js broker (id i) e := by
  have hgetD (rules : List CiliumRule) :
      (if rules.isEmpty then none else some rules).getD [] = rules := by
    cases rules <;> rfl
  cases d with
  | ingress => exact ⟨fun i => (ids i).1, hgetD _⟩
  | egress => exact ⟨fun i => (ids i).2, hgetD _⟩
  | other name => exact ⟨fun _ => "", rfl⟩

end KGuardian.FrontendCilium
