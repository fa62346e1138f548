import KGuardian.FrontendPolicy
import KGuardian.Runs

/-!
The editor of standard network policies in the frontend
(`frontend/src/hooks/policyEditor/useNetworkPolicyEditor.ts`): the policy it holds and
its operations, one definition for each handler. Removing an entry of a rule narrows the
policy as long as another entry stays, since an empty list restricts nothing.
-/
namespace KGuardian.PolicyEditor

open AllowLists JsText Matcher PolicySemantics Runs Selectors

/-! The types of `types/networkPolicy.ts`. An optional field that is missing is `none`. -/

structure Port where
  protocol : String
  port : IntOrString
  deriving DecidableEq

structure IpBlock where
  cidr : String
  except : Option (List String)
  deriving DecidableEq

/-- Each selector is its `matchLabels`. -/
structure Peer where
  podSelector : Option Labels
  namespaceSelector : Option Labels
  ipBlock : Option IpBlock
  deriving DecidableEq

structure Rule where
  id : String
  peers : List Peer
  ports : List Port
  deriving DecidableEq

structure NetworkPolicy where
  apiVersion : String
  kind : String
  name : String
  ns : String
  podSelector : Labels
  policyTypes : List PolicyType
  ingress : Option (List Rule)
  egress : Option (List Rule)
  deriving DecidableEq

inductive RuleType where
  | ingress
  | egress
  deriving DecidableEq

inductive SelectorType where
  | podSelector
  | namespaceSelector

inductive PeerType where
  | external
  | inNamespace
  | inCluster

/-! The handlers. -/

/-- A list of rules that is missing stays missing. -/
def NetworkPolicy.onRules (policy : NetworkPolicy) (f : List Rule → List Rule) :
    RuleType → NetworkPolicy
  | .ingress => { policy with ingress := policy.ingress.map f }
  | .egress => { policy with egress := policy.egress.map f }

/-- The shape of the handlers that change one rule. All rules with the id are changed. -/
def NetworkPolicy.onRule (policy : NetworkPolicy) (ruleId : String) (f : Rule → Rule)
    (type : RuleType) : NetworkPolicy :=
  policy.onRules (fun rules => rules.map fun rule => if rule.id = ruleId then f rule else rule)
    type

def mapAt {α : Type} (index : ℕ) (f : α → α) (l : List α) : List α :=
  l.mapIdx fun i a => if i = index then f a else a

def onPeer (policy : NetworkPolicy) (ruleId : String) (peerIndex : ℕ) (f : Peer → Peer)
    (type : RuleType) : NetworkPolicy :=
  policy.onRule ruleId (fun rule => { rule with peers := mapAt peerIndex f rule.peers }) type

def withType (types : List PolicyType) (type : PolicyType) : List PolicyType :=
  if types.contains type then types else types ++ [type]

def addIngressRule (policy : NetworkPolicy) (now : ℕ) : NetworkPolicy :=
  { policy with
    ingress := some (policy.ingress.getD [] ++ [⟨"ingress-" ++ toString now, [], []⟩])
    policyTypes := withType policy.policyTypes .ingress }

def addEgressRule (policy : NetworkPolicy) (now : ℕ) : NetworkPolicy :=
  { policy with
    egress := some (policy.egress.getD [] ++ [⟨"egress-" ++ toString now, [], []⟩])
    policyTypes := withType policy.policyTypes .egress }

def removeIngressRule (policy : NetworkPolicy) (ruleId : String) : NetworkPolicy :=
  policy.onRules (fun rules => rules.filter fun r => r.id ≠ ruleId) .ingress

def removeEgressRule (policy : NetworkPolicy) (ruleId : String) : NetworkPolicy :=
  policy.onRules (fun rules => rules.filter fun r => r.id ≠ ruleId) .egress

def addPortToRule (policy : NetworkPolicy) (ruleId : String) (type : RuleType) :
    NetworkPolicy :=
  policy.onRule ruleId (fun rule => { rule with ports := rule.ports ++ [⟨"TCP", .int 80⟩] })
    type

def removePortFromRule (policy : NetworkPolicy) (ruleId : String) (portIndex : ℕ)
    (type : RuleType) : NetworkPolicy :=
  policy.onRule ruleId (fun rule => { rule with ports := rule.ports.eraseIdx portIndex }) type

def removePeerFromRule (policy : NetworkPolicy) (ruleId : String) (peerIndex : ℕ)
    (type : RuleType) : NetworkPolicy :=
  policy.onRule ruleId (fun rule => { rule with peers := rule.peers.eraseIdx peerIndex }) type

def updatePeerCIDR (policy : NetworkPolicy) (ruleId : String) (peerIndex : ℕ) (cidr : String)
    (type : RuleType) : NetworkPolicy :=
  onPeer policy ruleId peerIndex
    (fun peer => { peer with ipBlock := peer.ipBlock.map fun block => { block with cidr } })
    type

/-- The field of a port that `updatePort` sets, with its value. -/
inductive PortField where
  | protocol (value : String)
  | port (value : IntOrString)

def PortField.set (port : Port) : PortField → Port
  | .protocol value => { port with protocol := value }
  | .port value => { port with port := value }

def updatePort (policy : NetworkPolicy) (ruleId : String) (portIndex : ℕ) (field : PortField)
    (type : RuleType) : NetworkPolicy :=
  policy.onRule ruleId
    (fun rule => { rule with ports := mapAt portIndex (fun port => field.set port) rule.ports })
    type

def anyAddress : Peer := ⟨none, none, some ⟨"0.0.0.0/0", none⟩⟩

def addPeerToRule (policy : NetworkPolicy) (ruleId : String) (type : RuleType) :
    NetworkPolicy :=
  policy.onRule ruleId (fun rule => { rule with peers := rule.peers ++ [anyAddress] }) type

def newPeer : PeerType → Peer
  | .external => anyAddress
  | .inNamespace => ⟨some ∅, none, none⟩
  | .inCluster => ⟨none, some ∅, none⟩

def changePeerType (policy : NetworkPolicy) (ruleId : String) (peerIndex : ℕ)
    (peerType : PeerType) (type : RuleType) : NetworkPolicy :=
  onPeer policy ruleId peerIndex (fun _ => newPeer peerType) type

/-- A label that is there keeps its place. -/
def setLabel (labels : Labels) (key value : String) : Labels :=
  if labels.keys.contains key then labels.replace key value
  else Labels.ofList (labels.entries.map (fun e => (e.1, e.2)) ++ [(key, value)])

def Peer.selector (peer : Peer) : SelectorType → Option Labels
  | .podSelector => peer.podSelector
  | .namespaceSelector => peer.namespaceSelector

def Peer.withSelector (peer : Peer) (labels : Option Labels) : SelectorType → Peer
  | .podSelector => { peer with podSelector := labels }
  | .namespaceSelector => { peer with namespaceSelector := labels }

/-- A selector that is missing stays missing. -/
def updatePeerLabel (policy : NetworkPolicy) (ruleId : String) (peerIndex : ℕ)
    (selectorType : SelectorType) (labelKey labelValue : String) (type : RuleType) :
    NetworkPolicy :=
  onPeer policy ruleId peerIndex
    (fun peer => peer.withSelector
      ((peer.selector selectorType).map fun labels => setLabel labels labelKey labelValue)
      selectorType) type

def addLabelToPeer (policy : NetworkPolicy) (ruleId : String) (peerIndex : ℕ)
    (selectorType : SelectorType) (key value : String) (type : RuleType) : NetworkPolicy :=
  if trimSpace key.toList = [] then policy
  else
    onPeer policy ruleId peerIndex
      (fun peer => peer.withSelector
        (some (setLabel ((peer.selector selectorType).getD ∅) key value)) selectorType) type

/-- A selector without labels is dropped. -/
def removeLabelFromPeer (policy : NetworkPolicy) (ruleId : String) (peerIndex : ℕ)
    (selectorType : SelectorType) (labelKey : String) (type : RuleType) : NetworkPolicy :=
  onPeer policy ruleId peerIndex
    (fun peer => peer.withSelector
      ((peer.selector selectorType).bind fun labels =>
        if (labels.erase labelKey).keys = [] then none else some (labels.erase labelKey))
      selectorType) type

def togglePodSelector (policy : NetworkPolicy) (ruleId : String) (peerIndex : ℕ)
    (type : RuleType) : NetworkPolicy :=
  onPeer policy ruleId peerIndex
    (fun peer => { peer with
      podSelector := if peer.podSelector.isSome then none else some ∅ }) type

/-! Runs of the editor. -/

/-- The removal of a rule, or of an entry of the rules with an id. -/
inductive Removal where
  | rule (ruleId : String) (type : RuleType)
  | port (ruleId : String) (portIndex : ℕ) (type : RuleType)
  | peer (ruleId : String) (peerIndex : ℕ) (type : RuleType)

def Removal.apply (policy : NetworkPolicy) : Removal → NetworkPolicy
  | .rule ruleId .ingress => removeIngressRule policy ruleId
  | .rule ruleId .egress => removeEgressRule policy ruleId
  | .port ruleId portIndex type => removePortFromRule policy ruleId portIndex type
  | .peer ruleId peerIndex type => removePeerFromRule policy ruleId peerIndex type

/-- The handlers of the editor, and the fields for the name and the namespace. -/
inductive Edit where
  | addRule (now : ℕ) (type : RuleType)
  | remove (removal : Removal)
  | addPort (ruleId : String) (type : RuleType)
  | updatePeerCIDR (ruleId : String) (peerIndex : ℕ) (cidr : String) (type : RuleType)
  | updatePort (ruleId : String) (portIndex : ℕ) (field : PortField) (type : RuleType)
  | addPeer (ruleId : String) (type : RuleType)
  | changePeerType (ruleId : String) (peerIndex : ℕ) (peerType : PeerType) (type : RuleType)
  | updatePeerLabel (ruleId : String) (peerIndex : ℕ) (selectorType : SelectorType)
      (labelKey labelValue : String) (type : RuleType)
  | addLabel (ruleId : String) (peerIndex : ℕ) (selectorType : SelectorType)
      (key value : String) (type : RuleType)
  | removeLabel (ruleId : String) (peerIndex : ℕ) (selectorType : SelectorType)
      (labelKey : String) (type : RuleType)
  | togglePodSelector (ruleId : String) (peerIndex : ℕ) (type : RuleType)
  | setName (name : String)
  | setNamespace (ns : String)

def Edit.apply (policy : NetworkPolicy) : Edit → NetworkPolicy
  | .addRule now .ingress => addIngressRule policy now
  | .addRule now .egress => addEgressRule policy now
  | .remove removal => removal.apply policy
  | .addPort ruleId type => addPortToRule policy ruleId type
  | .updatePeerCIDR ruleId peerIndex cidr type =>
      PolicyEditor.updatePeerCIDR policy ruleId peerIndex cidr type
  | .updatePort ruleId portIndex field type =>
      PolicyEditor.updatePort policy ruleId portIndex field type
  | .addPeer ruleId type => addPeerToRule policy ruleId type
  | .changePeerType ruleId peerIndex peerType type =>
      PolicyEditor.changePeerType policy ruleId peerIndex peerType type
  | .updatePeerLabel ruleId peerIndex selectorType labelKey labelValue type =>
      PolicyEditor.updatePeerLabel policy ruleId peerIndex selectorType labelKey labelValue type
  | .addLabel ruleId peerIndex selectorType key value type =>
      addLabelToPeer policy ruleId peerIndex selectorType key value type
  | .removeLabel ruleId peerIndex selectorType labelKey type =>
      removeLabelFromPeer policy ruleId peerIndex selectorType labelKey type
  | .togglePodSelector ruleId peerIndex type =>
      PolicyEditor.togglePodSelector policy ruleId peerIndex type
  | .setName name => { policy with name }
  | .setNamespace ns => { policy with ns }

/-! What a policy of the editor means. -/

def Port.meaning (port : Port) : NetworkPolicyPort := ⟨some port.protocol, some port.port, none⟩

def Peer.meaning (peer : Peer) : NetworkPolicyPeer where
  podSelector := peer.podSelector.map ofMatchLabels
  namespaceSelector := peer.namespaceSelector.map ofMatchLabels
  ipBlock := peer.ipBlock.map fun block => ⟨block.cidr, block.except.getD []⟩

def Rule.meaning (rule : Rule) : PolicyRule :=
  ⟨rule.peers.map Peer.meaning, rule.ports.map Port.meaning⟩

def NetworkPolicy.rules (policy : NetworkPolicy) : RuleType → List Rule
  | .ingress => policy.ingress.getD []
  | .egress => policy.egress.getD []

def NetworkPolicy.spec (policy : NetworkPolicy) : NetworkPolicySpec where
  podSelector := ofMatchLabels policy.podSelector
  policyTypes := policy.policyTypes
  ingress := (policy.rules .ingress).map Rule.meaning
  egress := (policy.rules .egress).map Rule.meaning

def NetworkPolicy.audited (policy : NetworkPolicy) : AuditNetworkPolicy :=
  ⟨policy.ns, policy.name, "", 0, policy.spec⟩

/-- The generator hands this policy to the editor. The ids of its rules are arbitrary. -/
def Generated (policy : NetworkPolicy) : Prop :=
  ∃ js lower broker pod traffic, policy.audited =
    (FrontendPolicy.generateNetworkPolicy js lower broker pod traffic).audited

/-- The matcher does not deny the flow in this direction. -/
def Admits (api : Apimachinery) (lookup : Lookup) (policy : NetworkPolicy) (flow : Flow)
    (d : Direction) : Prop :=
  verdictIn d (matchPolicy api flow policy.audited lookup) ≠ .wouldDeny

/-- Whatever the first policy admits, the second one admits. -/
def Narrows (policy' policy : NetworkPolicy) : Prop :=
  ∀ api lookup flow d, Admits api lookup policy' flow d → Admits api lookup policy flow d

/-- The removal does not take the last port or the last peer of a rule. -/
def Keeps (policy : NetworkPolicy) : Removal → Prop
  | .rule _ _ => True
  | .port ruleId portIndex type =>
      ∀ rule ∈ policy.rules type, rule.id = ruleId → rule.ports.length = 1 → portIndex ≠ 0
  | .peer ruleId peerIndex type =>
      ∀ rule ∈ policy.rules type, rule.id = ruleId → rule.peers.length = 1 → peerIndex ≠ 0

/-- Removals from this policy on. -/
def removing (policy : NetworkPolicy) : Machine NetworkPolicy Removal where
  init := policy
  step policy removal := some (removal.apply policy)

/-! The verdict of a policy is decided by its types, its subject and its rules. -/

section

variable (api : Apimachinery) (lookup : Lookup)

theorem evaluateRuleLists_permits_iff (flow : Flow) (spec : NetworkPolicySpec) (d : Direction) :
    (evaluateRuleLists api flow spec.ingress spec.egress d lookup).1 = true ↔
      Permits (fun p => peerEntryMatches api (peerPod flow d lookup) flow d p lookup = true)
        (fun p => portEntryMatches flow p (portTargetPod flow lookup) = true)
        (rulesFor spec d) := by
  have hany (rules : List PolicyRule) :
      rules.any (fun rule => ruleMatches api flow d rule lookup) = true ↔
        Permits (fun p => peerEntryMatches api (peerPod flow d lookup) flow d p lookup = true)
          (fun p => portEntryMatches flow p (portTargetPod flow lookup) = true) rules := by
    simp only [List.any_eq_true, ruleMatches, peerListMatches, portsMatch, Bool.and_eq_true,
      openOr_iff_any, Permits]
  cases d with
  | ingress =>
      rw [rulesFor, ← hany]
      by_cases hnil : spec.ingress = []
      · simp [evaluateRuleLists, hnil]
      · simp only [evaluateRuleLists, hnil, if_false]
        split <;> simp_all
  | egress =>
      rw [rulesFor, ← hany]
      by_cases hnil : spec.egress = []
      · simp [evaluateRuleLists, hnil]
      · simp only [evaluateRuleLists, hnil, if_false]
        split <;> simp_all
  | other name =>
      simp only [evaluateRuleLists, rulesFor, not_permits_nil, Bool.false_eq_true]

theorem gatedVerdict_ne_wouldDeny_iff (subject : Option Pod) (gate : Pod → Bool)
    (allowed : Bool) : gatedVerdict subject gate allowed ≠ .wouldDeny ↔
      ∀ pod, subject = some pod → gate pod = true → allowed = true := by
  unfold gatedVerdict
  cases subject with
  | none => simp
  | some pod =>
      cases hg : gate pod <;> cases allowed <;> simp [hg]

theorem admits_iff (policy : NetworkPolicy) (flow : Flow) (d : Direction) :
    Admits api lookup policy flow d ↔
      (d ∈ effectivePolicyTypes policy.spec → ∀ pod, subjectPod flow d lookup = some pod →
        pod.ns = policy.ns →
        selectorMatchesLabels api (ofMatchLabels policy.podSelector) pod.labels = true →
        Permits (fun p => peerEntryMatches api (peerPod flow d lookup) flow d p lookup = true)
          (fun p => portEntryMatches flow p (portTargetPod flow lookup) = true)
          (rulesFor policy.spec d)) := by
  unfold Admits
  by_cases hd : d ∈ effectivePolicyTypes policy.spec
  · rw [verdictIn_matchPolicy api flow policy.audited lookup d hd, verdict_matchDirection,
      ← evaluateRuleLists_permits_iff]
    rw [gatedVerdict_ne_wouldDeny_iff]
    constructor
    · intro h _ pod hpod hns hlabels
      refine h pod hpod ?_
      rw [Bool.and_eq_true]
      exact ⟨decide_eq_true hns, hlabels⟩
    · intro h pod hpod hgate
      rw [Bool.and_eq_true] at hgate
      exact h hd pod hpod (of_decide_eq_true hgate.1) hgate.2
  · rw [verdictIn_of_not_mem api flow policy.audited lookup d hd]
    exact iff_of_true (by simp) fun h => absurd h hd

end

/-! A policy whose rules are narrower narrows. -/

theorem meaning_narrower {rule rule' : Rule} (hpeers : rule'.peers ⊆ rule.peers)
    (hports : rule'.ports ⊆ rule.ports) (hpeersKept : rule'.peers = [] → rule.peers = [])
    (hportsKept : rule'.ports = [] → rule.ports = []) :
    rule'.meaning.Narrower rule.meaning where
  peers := List.map_subset _ hpeers
  ports := List.map_subset _ hports
  peersKept h := by
    simp only [Rule.meaning, List.map_eq_nil_iff] at h ⊢
    exact hpeersKept h
  portsKept h := by
    simp only [Rule.meaning, List.map_eq_nil_iff] at h ⊢
    exact hportsKept h

/-- What the second policy keeps of the first one for every flow that it admits to stay
admitted. -/
structure Within (policy' policy : NetworkPolicy) : Prop where
  ns : policy'.ns = policy.ns
  podSelector : policy'.podSelector = policy.podSelector
  types : effectivePolicyTypes policy'.spec = effectivePolicyTypes policy.spec
  rules : ∀ type, ∀ rule' ∈ policy'.rules type, ∃ rule ∈ policy.rules type,
    rule'.meaning.Narrower rule.meaning

theorem Within.refl (policy : NetworkPolicy) : Within policy policy :=
  ⟨rfl, rfl, rfl, fun _ rule hrule => ⟨rule, hrule, AllowLists.Rule.Narrower.refl _⟩⟩

theorem narrows_of_within {policy' policy : NetworkPolicy} (h : Within policy' policy) :
    Narrows policy' policy := by
  intro api lookup flow d hadmits
  rw [admits_iff] at hadmits ⊢
  intro hd pod hpod hns hlabels
  rw [← h.types] at hd
  rw [← h.ns] at hns
  rw [← h.podSelector] at hlabels
  refine (hadmits hd pod hpod hns hlabels).of_narrower ?_
  intro r' hr'
  cases d with
  | ingress =>
      obtain ⟨rule', hrule', rfl⟩ := List.mem_map.mp hr'
      obtain ⟨rule, hrule, hnarrower⟩ := h.rules .ingress rule' hrule'
      exact ⟨rule.meaning, List.mem_map_of_mem hrule, hnarrower⟩
  | egress =>
      obtain ⟨rule', hrule', rfl⟩ := List.mem_map.mp hr'
      obtain ⟨rule, hrule, hnarrower⟩ := h.rules .egress rule' hrule'
      exact ⟨rule.meaning, List.mem_map_of_mem hrule, hnarrower⟩
  | other name => exact absurd hr' List.not_mem_nil

theorem Narrows.trans {a b c : NetworkPolicy} (hab : Narrows a b) (hbc : Narrows b c) :
    Narrows a c :=
  fun api lookup flow d h => hbc api lookup flow d (hab api lookup flow d h)

/-! The types of a policy in the editor. -/

/-- Where there is an egress rule, the types are given. Without types, an egress rule would
stand for one. -/
def Typed (policy : NetworkPolicy) : Prop :=
  policy.rules .egress ≠ [] → policy.policyTypes ≠ []

theorem onRules_fields (policy : NetworkPolicy) (f : List Rule → List Rule) (type : RuleType) :
    (policy.onRules f type).ns = policy.ns ∧
      (policy.onRules f type).podSelector = policy.podSelector ∧
      (policy.onRules f type).policyTypes = policy.policyTypes := by
  cases type <;> exact ⟨rfl, rfl, rfl⟩

theorem rules_onRules (policy : NetworkPolicy) (f : List Rule → List Rule) (hf : f [] = [])
    (type type' : RuleType) : (policy.onRules f type).rules type' =
      if type' = type then f (policy.rules type') else policy.rules type' := by
  cases type <;> cases type' <;> simp [NetworkPolicy.onRules, NetworkPolicy.rules]
  · cases policy.ingress <;> simp [hf]
  · cases policy.egress <;> simp [hf]

theorem typed_onRules {policy : NetworkPolicy} (h : Typed policy) {f : List Rule → List Rule}
    (hf : f [] = []) (type : RuleType) : Typed (policy.onRules f type) := by
  intro hne
  rw [(onRules_fields policy f type).2.2]
  refine h fun hnil => hne ?_
  rw [rules_onRules policy f hf]
  split
  · rw [hnil, hf]
  · exact hnil

theorem withType_ne_nil (types : List PolicyType) (type : PolicyType) :
    withType types type ≠ [] := by
  unfold withType
  split
  · rename_i hmem
    intro hnil
    simp [hnil] at hmem
  · simp

theorem typed_apply {policy : NetworkPolicy} (h : Typed policy) (edit : Edit) :
    Typed (edit.apply policy) := by
  have hmap (ruleId : String) (f : Rule → Rule) (type : RuleType) :
      Typed (policy.onRule ruleId f type) := typed_onRules h rfl type
  cases edit with
  | addRule now type => cases type <;> exact fun _ => withType_ne_nil _ _
  | remove removal =>
      cases removal with
      | rule ruleId type =>
          cases type <;> exact typed_onRules h rfl _
      | port ruleId portIndex type => exact hmap _ _ _
      | peer ruleId peerIndex type => exact hmap _ _ _
  | addLabel ruleId peerIndex selectorType key value type =>
      change Typed (addLabelToPeer policy ruleId peerIndex selectorType key value type)
      unfold addLabelToPeer
      split
      · exact h
      · exact hmap _ _ _
  | setName name => exact h
  | setNamespace ns => exact h
  | _ => exact hmap _ _ _

theorem typed_generated {policy : NetworkPolicy} (h : Generated policy) : Typed policy := by
  obtain ⟨js, lower, broker, pod, traffic, haudited⟩ := h
  have hspec := congrArg AuditNetworkPolicy.spec haudited
  have htypes := congrArg NetworkPolicySpec.policyTypes hspec
  have hegress := congrArg NetworkPolicySpec.egress hspec
  simp only [FrontendPolicy.NetworkPolicy.audited, FrontendPolicy.generateNetworkPolicy,
    NetworkPolicy.audited, NetworkPolicy.spec] at htypes hegress
  intro hne hnil
  rw [hnil] at htypes
  have hmap := (List.append_eq_nil_iff.mp htypes.symm).2
  split at hmap
  · rename_i hempty
    rw [hempty, List.map_nil, List.map_eq_nil_iff] at hegress
    exact hne hegress
  · cases hmap

theorem typed_edited {policy : NetworkPolicy} (h : Typed policy) (edits : List Edit) :
    Typed (edits.foldl Edit.apply policy) := by
  induction edits generalizing policy with
  | nil => exact h
  | cons edit rest ih => exact ih (typed_apply h edit)

/-! Removals. -/

theorem within_of_map {policy : NetworkPolicy} (h : Typed policy) {f : List Rule → List Rule}
    (hf : f [] = []) (type : RuleType)
    (hrules : ∀ rule' ∈ f (policy.rules type), ∃ rule ∈ policy.rules type,
      rule'.meaning.Narrower rule.meaning) : Within (policy.onRules f type) policy := by
  obtain ⟨hns, hselector, htypes⟩ := onRules_fields policy f type
  refine ⟨hns, hselector, ?_, ?_⟩
  · change effectiveTypes (policy.onRules f type).policyTypes
        (((policy.onRules f type).rules .egress).map Rule.meaning) =
      effectiveTypes policy.policyTypes ((policy.rules .egress).map Rule.meaning)
    rw [htypes]
    by_cases hnil : policy.policyTypes = []
    · have hegress : policy.rules .egress = [] := by
        by_contra hne
        exact h hne hnil
      rw [rules_onRules policy f hf, hegress, hf, ite_self]
    · simp [effectiveTypes, hnil]
  · intro type' rule' hrule'
    rw [rules_onRules policy f hf] at hrule'
    split at hrule'
    · rename_i heq
      subst heq
      exact hrules rule' hrule'
    · exact ⟨rule', hrule', AllowLists.Rule.Narrower.refl _⟩

theorem within_of_onRule {policy : NetworkPolicy} (h : Typed policy) (ruleId : String)
    {f : Rule → Rule} (type : RuleType)
    (hrule : ∀ rule ∈ policy.rules type, rule.id = ruleId →
      (f rule).meaning.Narrower rule.meaning) : Within (policy.onRule ruleId f type) policy := by
  refine within_of_map h rfl type fun rule' hrule' => ?_
  obtain ⟨rule, hmem, rfl⟩ := List.mem_map.mp hrule'
  refine ⟨rule, hmem, ?_⟩
  split
  · rename_i hid
    exact hrule rule hmem hid
  · exact AllowLists.Rule.Narrower.refl _

theorem eraseIdx_eq_nil {α : Type} {l : List α} {i : ℕ} (hkeep : l.length = 1 → i ≠ 0)
    (hnil : l.eraseIdx i = []) : l = [] := by
  rcases List.eraseIdx_eq_nil_iff.mp hnil with hl | ⟨hlen, hi⟩
  · exact hl
  · exact absurd hi (hkeep hlen)

/-- One removal that takes no last entry. -/
theorem within_of_removal {policy : NetworkPolicy} (h : Typed policy) (removal : Removal)
    (hkeeps : Keeps policy removal) : Within (removal.apply policy) policy := by
  cases removal with
  | rule ruleId type =>
      have hfilter (type : RuleType) :
          Within (policy.onRules (fun rules => rules.filter fun r => r.id ≠ ruleId) type)
            policy :=
        within_of_map h rfl type fun rule hrule =>
          ⟨rule, List.mem_of_mem_filter hrule, AllowLists.Rule.Narrower.refl _⟩
      cases type with
      | ingress => exact hfilter .ingress
      | egress => exact hfilter .egress
  | port ruleId portIndex type =>
      refine within_of_onRule h ruleId type fun rule hrule hid => ?_
      exact meaning_narrower (List.Subset.refl _) (List.eraseIdx_subset) id
        (eraseIdx_eq_nil (hkeeps rule hrule hid))
  | peer ruleId peerIndex type =>
      refine within_of_onRule h ruleId type fun rule hrule hid => ?_
      exact meaning_narrower (List.eraseIdx_subset) (List.Subset.refl _)
        (eraseIdx_eq_nil (hkeeps rule hrule hid)) id

theorem typed_removal {policy : NetworkPolicy} (h : Typed policy) (removal : Removal) :
    Typed (removal.apply policy) := typed_apply h (.remove removal)

/-- In a run of removals that never take the last port or the last peer of a rule, every
policy admits no more than the one that the run started from. -/
theorem removals_narrow (start : NetworkPolicy) (hstart : Generated start) (edits : List Edit)
    (removals : List Removal)
    (hkeeps : (removing (edits.foldl Edit.apply start)).EveryStep removals
      fun _ policy removal _ => Keeps policy removal) :
    (removing (edits.foldl Edit.apply start)).EveryState removals
      fun _ policy => Narrows policy (edits.foldl Edit.apply start) := by
  intro before after policy hremovals hrun
  have htyped : Typed (edits.foldl Edit.apply start) := typed_edited (typed_generated hstart) edits
  rw [hremovals] at hkeeps
  refine (Machine.invariant_of_everyStep
    (P := fun _ policy => Typed policy ∧ Narrows policy (edits.foldl Edit.apply start))
    ⟨htyped, narrows_of_within (Within.refl _)⟩ ?_ hrun hkeeps.of_append).2
  intro _ s removal s' _ hinv hstep hkeep
  obtain rfl := Option.some.inj hstep
  exact ⟨typed_removal hinv.1 removal,
    (narrows_of_within (within_of_removal hinv.1 removal hkeep)).trans hinv.2⟩

/-! The policy of a web pod that calls one address outside. -/

def webInfo : FrontendPolicy.PodInfo where
  podName := "web-0"
  podIp := "10.0.0.7"
  podNamespace := some "shop"
  labels := some (Labels.ofList [("app", "web")])
  podIdentity := some "web"
  workloadSelectorLabels := none

def webPolicy : NetworkPolicy where
  apiVersion := "networking.k8s.io/v1"
  kind := "NetworkPolicy"
  name := "web-policy"
  ns := "shop"
  podSelector := Labels.ofList [("app", "web")]
  policyTypes := [.egress]
  ingress := none
  egress := some [⟨"egress-1", [⟨none, none, some ⟨"203.0.113.9/32", none⟩⟩],
    [⟨"TCP", .int 443⟩]⟩]

theorem webPolicy_generated : Generated webPolicy := by
  refine ⟨asciiRuntime, asciiLowerCase, ⟨⟨[], List.nodup_nil⟩, ⟨[], List.nodup_nil⟩⟩, webInfo,
    [⟨some "EGRESS", some "40112", some "203.0.113.9", some "443", some "TCP"⟩], ?_⟩
  rfl

/-- A call of the web pod. -/
def call (ip : String) (port : ℤ) (protocol : String) : Flow :=
  ⟨"shop", "web-0", "", "", "10.0.0.7", ip, port, protocol⟩

def webCluster : Lookup := .ofLists [webPod] []

/-- Without its last port the rule opens all ports, and without its last peer all addresses. -/
theorem last_entry_widens :
    Generated webPolicy ∧
    ¬ (removing webPolicy).EveryState [.port "egress-1" 0 .egress]
      (fun _ policy => Narrows policy webPolicy) ∧
    ¬ (removing webPolicy).EveryState [.peer "egress-1" 0 .egress]
      fun _ policy => Narrows policy webPolicy := by
  refine ⟨webPolicy_generated, fun h => ?_, fun h => ?_⟩
  · have hnarrows := h [.port "egress-1" 0 .egress] [] _ rfl rfl
    exact hnarrows reference webCluster (call "203.0.113.9" 22 "TCP") .egress (by
      unfold Admits; decide) (by decide)
  · have hnarrows := h [.peer "egress-1" 0 .egress] [] _ rfl rfl
    exact hnarrows reference webCluster (call "198.51.100.1" 443 "TCP") .egress (by
      unfold Admits; decide) (by decide)

/-- A second port can go again. -/
theorem removals_narrow_second_port :
    Narrows (removePortFromRule (addPortToRule webPolicy "egress-1" .egress) "egress-1" 1 .egress)
      (addPortToRule webPolicy "egress-1" .egress) := by
  refine removals_narrow webPolicy webPolicy_generated [.addPort "egress-1" .egress]
    [.port "egress-1" 1 .egress] ?_ [.port "egress-1" 1 .egress] [] _ rfl rfl
  intro before removal after policy policy' hremovals hrun _
  obtain ⟨rfl, rfl, rfl⟩ : before = [] ∧ .port "egress-1" 1 .egress = removal ∧ [] = after := by
    cases before <;> simp_all
  intro rule _ _ _
  omega

end KGuardian.PolicyEditor
