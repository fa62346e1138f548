import KGuardian.GoJson
import KGuardian.Matcher

/-!
Typed audit policies from the untyped objects that the API server sends
(`unstructuredToPolicy`, `unstructuredToClusterPolicy`). One decoder per type,
with the field names of the Kubernetes API. Object metadata is read elsewhere
and comes decoded.
-/
namespace KGuardian.PolicyDecode

open AllowLists Selectors Matcher GoJson

/-- An object of the dynamic client. `spec` is absent or any JSON. -/
structure Unstructured where
  ns : String
  name : String
  uid : String
  generation : ℤ
  labels : Labels
  annotations : Labels
  spec : Option Json

def readOperator : SelectorOp → Json → Option SelectorOp
  | old, .null => some old
  | _, .str s => some (.ofString s)
  | _, _ => none

def decodeOperator : Decoder SelectorOp := decodeEach (.ofString "") readOperator

def decodeRequirement : Decoder LabelSelectorRequirement :=
  decodeStruct fun objects => do
    let key ← decodeField decodeString "key" objects
    let operator ← decodeField decodeOperator "operator" objects
    let values ← decodeField (decodeSlice decodeString) "values" objects
    return ⟨key, operator, values⟩

def decodeSelector : Decoder LabelSelector :=
  decodeStruct fun objects => do
    let matchLabels ← decodeField decodeMap "matchLabels" objects
    let matchExpressions ← decodeField (decodeSlice decodeRequirement) "matchExpressions" objects
    return ⟨matchLabels, matchExpressions⟩

-- The second array is decoded into the requirement that the first one left.
example : decodeSelector [.obj
    [("matchExpressions", .arr [.obj [("key", .str "team"), ("operator", .str "In"),
      ("values", .arr [.str "payments", .str "web"])]]),
    ("matchexpressions", .arr [.obj [("operator", .str "Exists")]])]] =
      some ⟨∅, [⟨"team", .ofString "Exists", ["payments", "web"]⟩]⟩ := rfl

def decodeIPBlock : Decoder IPBlock :=
  decodeStruct fun objects => do
    let cidr ← decodeField decodeString "cidr" objects
    let excepts ← decodeField (decodeSlice decodeString) "except" objects
    return ⟨cidr, excepts⟩

def decodePeer : Decoder NetworkPolicyPeer :=
  decodeStruct fun objects => do
    let podSelector ← decodeField (decodePtr decodeSelector) "podSelector" objects
    let namespaceSelector ← decodeField (decodePtr decodeSelector) "namespaceSelector" objects
    let ipBlock ← decodeField (decodePtr decodeIPBlock) "ipBlock" objects
    return ⟨podSelector, namespaceSelector, ipBlock⟩

/-- The type has its own unmarshaler: a string is a name, the rest an int32. -/
def readIntOrString : IntOrString → Json → Option IntOrString
  | _, .str s => some (.str s)
  | _, .null => some (.int 0)
  | _, j => (readInt32 0 j).map .int

def decodeIntOrString : Decoder IntOrString := decodeEach (.int 0) readIntOrString

def decodePort : Decoder NetworkPolicyPort :=
  decodeStruct fun objects => do
    let protocol ← decodeField (decodePtr decodeString) "protocol" objects
    let port ← decodeField (decodePtr decodeIntOrString) "port" objects
    let endPort ← decodeField (decodePtr decodeInt32) "endPort" objects
    return ⟨protocol, port, endPort⟩

/-- Ingress and egress rules differ in the name of their peer field. -/
def decodeRule (peerField : String) : Decoder PolicyRule :=
  decodeStruct fun objects => do
    let ports ← decodeField (decodeSlice decodePort) "ports" objects
    let peers ← decodeField (decodeSlice decodePeer) peerField objects
    return ⟨peers, ports⟩

def PolicyType.ofString (s : String) : PolicyType :=
  if s = "Ingress" then .ingress else if s = "Egress" then .egress else .other s

def readPolicyType : PolicyType → Json → Option PolicyType
  | old, .null => some old
  | _, .str s => some (PolicyType.ofString s)
  | _, _ => none

def decodePolicyType : Decoder PolicyType := decodeEach (.other "") readPolicyType

/-- The fields of `networkingv1.NetworkPolicySpec`. -/
def decodeSpecFields (objects : List Fields) : Option NetworkPolicySpec := do
  let podSelector ← decodeField decodeSelector "podSelector" objects
  let ingress ← decodeField (decodeSlice (decodeRule "from")) "ingress" objects
  let egress ← decodeField (decodeSlice (decodeRule "to")) "egress" objects
  let policyTypes ← decodeField (decodeSlice decodePolicyType) "policyTypes" objects
  return ⟨podSelector, policyTypes, ingress, egress⟩

def decodeNamespaceSelector (objects : List Fields) : Option (Option LabelSelector) :=
  decodeField (decodePtr decodeSelector) "namespaceSelector" objects

def decodeSpec : Decoder NetworkPolicySpec := decodeStruct decodeSpecFields

def decodeClusterSpec : Decoder ClusterNetworkPolicySpec :=
  decodeStruct fun objects => do
    let spec ← decodeSpecFields objects
    let namespaceSelector ← decodeNamespaceSelector objects
    return { toNetworkPolicySpec := spec, namespaceSelector }

def unstructuredToPolicy (u : Unstructured) : Option AuditNetworkPolicy :=
  (decodeSpec [u.spec.getD .null]).map fun spec =>
    ⟨u.ns, u.name, u.uid, u.generation, spec⟩

def unstructuredToClusterPolicy (u : Unstructured) : Option AuditClusterNetworkPolicy :=
  (decodeClusterSpec [u.spec.getD .null]).map fun spec =>
    ⟨u.name, u.uid, u.generation, spec⟩

end KGuardian.PolicyDecode
