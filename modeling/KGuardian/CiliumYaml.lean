import KGuardian.FrontendCilium
import KGuardian.WrittenManifests

/-!
The manifest of a Cilium policy (`ciliumPolicyToYAML` in
`frontend/src/utils/ciliumPolicyGenerator.ts`): its lines, the tree a reader makes of them,
and when the policy comes back from it.
-/
namespace KGuardian.CiliumYaml

open BlockYaml FrontendCilium ManifestText Selectors WrittenManifests

/-- The names of two fields of a rule, which depend on the direction. -/
structure Side where
  endpoints : String
  cidr : String
  endpoints_word : isWord endpoints.toList = true
  cidr_word : isWord cidr.toList = true
  distinct : endpoints ≠ cidr ∧ endpoints ≠ "toPorts" ∧ cidr ≠ "toPorts"

def fromSide : Side := ⟨"fromEndpoints", "fromCIDR", by decide, by decide, by decide⟩

def toSide : Side := ⟨"toEndpoints", "toCIDR", by decide, by decide, by decide⟩

/-! The lines. -/

def endpointLines (labels : Labels) : List (List Char) :=
  dashed 4 (field 0 "matchLabels".toList []) :: labelLines 8 labels

def cidrLines (cidr : String) : List (List Char) := [dashed 4 (quoteYamlValue cidr.toList)]

def portLines (pp : PortProtocol) : List (List Char) :=
  [dashed 6 (field 0 "port".toList (' ' :: between pp.port.toList)),
    field 8 "protocol".toList (' ' :: pp.protocol.toList)]

def portRuleLines (ports : List PortProtocol) : List (List Char) :=
  dashed 4 (field 0 "ports".toList []) :: ports.flatMap portLines

def ruleLines (side : Side) (rule : CiliumRule) : List (List Char) :=
  dash 2 :: (listLines 4 side.endpoints endpointLines (rule.endpoints.getD []) ++
    (listLines 4 side.cidr cidrLines (rule.cidr.getD []) ++
      listLines 4 "toPorts" portRuleLines (rule.toPorts.getD [])))

def boolText (b : Bool) : List Char := (toString b).toList

def defaultDenyLines (d : DefaultDenyConfig) : List (List Char) :=
  if d.ingress || d.egress then
    [field 2 "enableDefaultDeny".toList [],
      field 4 "ingress".toList (' ' :: boolText d.ingress),
      field 4 "egress".toList (' ' :: boolText d.egress)]
  else []

def specLines (p : CiliumNetworkPolicy) : List (List Char) :=
  selectorLines 2 "endpointSelector" p.endpointSelector ++
    (defaultDenyLines p.defaultDeny ++
      (listLines 2 "ingress" (ruleLines fromSide) (p.ingress.getD []) ++
        listLines 2 "egress" (ruleLines toSide) (p.egress.getD [])))

def policyLines (p : CiliumNetworkPolicy) : List (List Char) :=
  headLines p.apiVersion p.kind p.name p.ns ++ specLines p

def ciliumPolicyToYAML (p : CiliumNetworkPolicy) : List Char :=
  ['\n'].intercalate (policyLines p)

/-! What a consumer makes of the tree. -/

section Consumer

variable (lenient : Bool)

def portOf (v : Node) : Option PortProtocol :=
  (entriesOf lenient v).bind fun entries =>
    (required "port" textOf entries).bind fun port =>
      (required "protocol" textOf entries).map fun protocol => ⟨port, protocol⟩

def portRuleOf (v : Node) : Option (List PortProtocol) :=
  (entriesOf lenient v).bind (required "ports" (listOf lenient (portOf lenient)))

/-- The manifest has no ids for the rules. -/
def ruleOf (side : Side) (v : Node) : Option CiliumRule :=
  (entriesOf lenient v).bind fun entries =>
    (optionalList lenient side.endpoints (selectorOf lenient) entries).bind fun endpoints =>
      (optionalList lenient side.cidr textOf entries).bind fun cidr =>
        (optionalList lenient "toPorts" (portRuleOf lenient) entries).map fun toPorts =>
          ⟨"", endpoints, cidr, toPorts⟩

def defaultDenyOf (v : Node) : Option DefaultDenyConfig :=
  (entriesOf lenient v).bind fun entries =>
    (required "ingress" boolOf entries).bind fun ingress =>
      (required "egress" boolOf entries).map fun egress => ⟨ingress, egress⟩

/-- A consumer may take no default for two that are off. -/
def optionalDeny (entries : List (Scalar × Node)) : Option DefaultDenyConfig :=
  (optional "enableDefaultDeny" (defaultDenyOf lenient) entries).bind fun o =>
    if lenient then some (o.getD ⟨false, false⟩) else o

def policyOf (v : Node) : Option CiliumNetworkPolicy :=
  (headOf lenient v).bind fun head =>
    (required "endpointSelector" (selectorOf lenient) head.spec).bind fun endpointSelector =>
      (optionalDeny lenient head.spec).bind fun defaultDeny =>
        (optionalList lenient "ingress" (ruleOf lenient fromSide) head.spec).bind fun ingress =>
          (optionalList lenient "egress" (ruleOf lenient toSide) head.spec).map fun egress =>
            ⟨head.apiVersion, head.kind, head.name, head.ns, endpointSelector, ingress, egress,
              defaultDeny⟩

end Consumer

/-! What the manifest shows of a policy. -/

def shownRule (lenient : Bool) (rule : CiliumRule) : CiliumRule where
  id := ""
  endpoints := shownList lenient rule.endpoints
  cidr := shownList lenient rule.cidr
  toPorts := shownList lenient rule.toPorts

def shown (lenient : Bool) (p : CiliumNetworkPolicy) : CiliumNetworkPolicy :=
  { p with
    ingress := shownList lenient (p.ingress.map (List.map (shownRule lenient)))
    egress := shownList lenient (p.egress.map (List.map (shownRule lenient))) }

def portTexts (pp : PortProtocol) : List Text := [.inQuotes pp.port, .raw pp.protocol]

def portRuleTexts (ports : List PortProtocol) : List Text := ports.flatMap portTexts

def ruleTexts (rule : CiliumRule) : List Text :=
  (rule.endpoints.getD []).flatMap labelTexts ++
    ((rule.cidr.getD []).map Text.value ++ (rule.toPorts.getD []).flatMap portRuleTexts)

def policyTexts (p : CiliumNetworkPolicy) : List Text :=
  headTexts p.apiVersion p.kind p.name p.ns ++
    (labelTexts p.endpointSelector ++
      ((p.ingress.getD []).flatMap ruleTexts ++ (p.egress.getD []).flatMap ruleTexts))

/-! Where a consumer wants a collection, there is one. -/

structure RuleFilled (lenient : Bool) (rule : CiliumRule) : Prop where
  endpoints : (∀ labels ∈ rule.endpoints.getD [], Filled lenient labels.entries) ∧
    ListShown lenient rule.endpoints
  cidr : ListShown lenient rule.cidr
  toPorts : (∀ ports ∈ rule.toPorts.getD [], Filled lenient ports) ∧
    ListShown lenient rule.toPorts
  some : lenient = true ∨ rule.endpoints.getD [] ≠ [] ∨ rule.cidr.getD [] ≠ [] ∨
    rule.toPorts.getD [] ≠ []

structure PolicyFilled (lenient : Bool) (p : CiliumNetworkPolicy) : Prop where
  endpointSelector : Filled lenient p.endpointSelector.entries
  defaultDeny : lenient = true ∨ p.defaultDeny ≠ ⟨false, false⟩
  ingress : (∀ rule ∈ p.ingress.getD [], RuleFilled lenient rule) ∧ ListShown lenient p.ingress
  egress : (∀ rule ∈ p.egress.getD [], RuleFilled lenient rule) ∧ ListShown lenient p.egress

/-- Each text comes back, and so does each collection. -/
structure ComesBack (r : Resolution) (lenient : Bool) (p : CiliumNetworkPolicy) : Prop where
  texts : ∀ t ∈ policyTexts p, t.Ok r
  filled : PolicyFilled lenient p

/-! The tree. -/

section Tree

variable (r : Resolution)

def portNode (pp : PortProtocol) : Node :=
  .map [(key "port", .scalar (restOf r (' ' :: between pp.port.toList))),
    (key "protocol", .scalar (restOf r (' ' :: pp.protocol.toList)))]

def portRuleNode (ports : List PortProtocol) : Node :=
  .map [(key "ports", seqNode (ports.map (portNode r)))]

def ruleEntries (side : Side) (rule : CiliumRule) : List (Scalar × Node) :=
  listEntry side.endpoints (selectorNode r) (rule.endpoints.getD []) ++
    (listEntry side.cidr (textNode r) (rule.cidr.getD []) ++
      listEntry "toPorts" (portRuleNode r) (rule.toPorts.getD []))

def ruleNode (side : Side) (rule : CiliumRule) : Node := mapNode (ruleEntries r side rule)

def defaultDenyNode (d : DefaultDenyConfig) : Node :=
  .map [(key "ingress", .scalar (.bool d.ingress)), (key "egress", .scalar (.bool d.egress))]

def specEntries (p : CiliumNetworkPolicy) : List (Scalar × Node) :=
  (key "endpointSelector", selectorNode r p.endpointSelector) ::
    (entry "enableDefaultDeny" (if p.defaultDeny.ingress || p.defaultDeny.egress then
        some (defaultDenyNode p.defaultDeny) else none) ++
      (listEntry "ingress" (ruleNode r fromSide) (p.ingress.getD []) ++
        listEntry "egress" (ruleNode r toSide) (p.egress.getD [])))

def policyEntries (p : CiliumNetworkPolicy) : List (Scalar × Node) :=
  headEntries r p.apiVersion p.kind p.name p.ns (specEntries r p)

end Tree

variable {r : Resolution} {lenient : Bool}

/-! Ports. -/

theorem written_port {T : Text → Prop} {pp : PortProtocol} (h : ∀ t ∈ portTexts pp, T t) :
    ∀ line ∈ portLines pp, Written r T line := by
  obtain ⟨hport, hprotocol⟩ := List.forall_mem_cons.mp h
  refine List.forall_mem_cons.mpr ⟨?_, List.forall_mem_singleton.mpr ?_⟩
  · apply Written.dashed
    rw [indent_field]
    exact .inQuotes 8 (by decide) hport
  · exact .raw 8 (by decide) (List.forall_mem_singleton.mp hprotocol)

theorem reads_port (pp : PortProtocol) : ReadsItems r 6 (portLines pp) [portNode r pp] := by
  have hentries : ReadsAs r 8 [indent 8 ++ field 0 "port".toList (' ' :: between pp.port.toList),
      field 8 "protocol".toList (' ' :: pp.protocol.toList)]
      [(key "port", .scalar (restOf r (' ' :: between pp.port.toList))),
        (key "protocol", .scalar (restOf r (' ' :: pp.protocol.toList)))] := by
    rw [indent_field]
    exact (readsAs_field (by decide) rfl).append (readsAs_field (by decide) rfl)
  exact readsItems_dashed hentries

theorem all_port {P Q : List Char → Prop} {v : Node} (hv : v.All P Q) {pp : PortProtocol}
    (h : portOf lenient v = some pp) : ∀ t ∈ portTexts pp, t.Holds P Q := by
  obtain ⟨entries, hentries, h⟩ := Option.bind_eq_some_iff.mp h
  obtain ⟨port, hport, h⟩ := Option.bind_eq_some_iff.mp h
  obtain ⟨protocol, hprotocol, rfl⟩ := Option.map_eq_some_iff.mp h
  have hall := all_entriesOf hv hentries
  exact List.forall_mem_cons.mpr ⟨all_value hall hport,
    List.forall_mem_singleton.mpr (all_value hall hprotocol)⟩

theorem portOf_iff (pp : PortProtocol) :
    portOf lenient (portNode r pp) = some pp ↔ ∀ t ∈ portTexts pp, t.Comes r := by
  obtain ⟨port, protocol⟩ := pp
  have htexts : (∀ t ∈ portTexts ⟨port, protocol⟩, t.Comes r) ↔
      textOf (.scalar (restOf r (' ' :: between port.toList))) = some port ∧
        textOf (.scalar (restOf r (' ' :: protocol.toList))) = some protocol := by
    rw [textOf_restOf_iff, textOf_restOf_iff, portTexts, List.forall_mem_cons,
      List.forall_mem_singleton]
    rfl
  rw [htexts, portNode, portOf, entriesOf, Option.bind_some, required_cons_self,
    required_cons_ne (by decide), required_cons_self]
  simp only [Option.bind_eq_some_iff, Option.map_eq_some_iff, PortProtocol.mk.injEq]
  constructor
  · rintro ⟨a, ha, b, hb, rfl, rfl⟩
    exact ⟨ha, hb⟩
  · rintro ⟨ha, hb⟩
    exact ⟨_, ha, _, hb, rfl, rfl⟩

theorem written_portRule {T : Text → Prop} {ports : List PortProtocol}
    (h : ∀ t ∈ portRuleTexts ports, T t) : ∀ line ∈ portRuleLines ports, Written r T line := by
  rw [portRuleTexts, List.forall_mem_flatMap] at h
  refine List.forall_mem_cons.mpr ⟨?_, ?_⟩
  · apply Written.dashed
    rw [indent_field]
    exact .header 6 (by decide)
  · exact List.forall_mem_flatMap.mpr fun pp hpp => written_port (h pp hpp)

theorem reads_portRule (ports : List PortProtocol) :
    ReadsItems r 4 (portRuleLines ports) [portRuleNode r ports] := by
  have hentries : ReadsAs r 6 (field 6 "ports".toList [] :: ports.flatMap portLines)
      [(key "ports", seqNode (ports.map (portNode r)))] :=
    readsAs_seq (by decide) (readsItems_flatMap fun pp _ => reads_port pp)
  exact readsItems_dashed hentries

theorem all_portRule {P Q : List Char → Prop} {v : Node} (hv : v.All P Q)
    {ports : List PortProtocol} (h : portRuleOf lenient v = some ports) :
    ∀ t ∈ portRuleTexts ports, t.Holds P Q := by
  obtain ⟨entries, hentries, h⟩ := Option.bind_eq_some_iff.mp h
  obtain ⟨w, hw, hlist⟩ := all_required (all_entriesOf hv hentries) h
  refine List.forall_mem_flatMap.mpr fun pp hpp => ?_
  obtain ⟨u, hu, hport⟩ := all_listOf hw hlist pp hpp
  exact all_port hu hport

theorem portRuleOf_iff (ports : List PortProtocol) :
    portRuleOf lenient (portRuleNode r ports) = some ports ↔
      (∀ t ∈ portRuleTexts ports, t.Comes r) ∧ Filled lenient ports := by
  rw [portRuleNode, portRuleOf, entriesOf, Option.bind_some, required_cons_self,
    listOf_self_iff, portRuleTexts, List.forall_mem_flatMap]
  simp only [portOf_iff]

/-! Rules. -/

theorem written_endpoint {T : Text → Prop} {labels : Labels}
    (h : ∀ t ∈ labelTexts labels, T t) : ∀ line ∈ endpointLines labels, Written r T line := by
  refine List.forall_mem_cons.mpr ⟨?_, written_labels h 8⟩
  apply Written.dashed
  rw [indent_field]
  exact .header 6 (by decide)

theorem reads_endpoint {labels : Labels} (h : KeysOk r labels) :
    ReadsItems r 4 (endpointLines labels) [selectorNode r labels] := by
  have hentries : ReadsAs r 6 (field 6 "matchLabels".toList [] :: labelLines 8 labels)
      [(key "matchLabels", mapNode (labelEntries r labels))] :=
    readsAs_map (by decide) (readsAs_labels h)
  exact readsItems_dashed hentries

theorem written_rule {T : Text → Prop} {side : Side} {rule : CiliumRule}
    (h : ∀ t ∈ ruleTexts rule, T t) : ∀ line ∈ ruleLines side rule, Written r T line := by
  obtain ⟨hendpoints, h⟩ := List.forall_mem_append.mp h
  obtain ⟨hcidr, hports⟩ := List.forall_mem_append.mp h
  rw [List.forall_mem_flatMap] at hendpoints hports
  rw [List.forall_mem_map] at hcidr
  refine List.forall_mem_cons.mpr ⟨.dash 2, List.forall_mem_append.mpr
    ⟨written_list side.endpoints_word ?_, List.forall_mem_append.mpr
      ⟨written_list side.cidr_word ?_, written_list (by decide) ?_⟩⟩⟩
  · exact fun labels hlabels => written_endpoint (hendpoints labels hlabels)
  · exact fun cidr hmem => List.forall_mem_singleton.mpr (.dashed 4 (.quote 6 (hcidr cidr hmem)))
  · exact fun ports hmem => written_portRule (hports ports hmem)

theorem reads_rule {side : Side} {rule : CiliumRule}
    (h : ∀ t ∈ ruleTexts rule, t.Holds (fun _ => True) (Safe r)) :
    ReadsItems r 2 (ruleLines side rule) [ruleNode r side rule] := by
  obtain ⟨hendpoints, -⟩ := List.forall_mem_append.mp h
  rw [List.forall_mem_flatMap] at hendpoints
  apply readsItems_dash
  refine (readsAs_list side.endpoints_word fun labels hlabels => ?_).append
    ((readsAs_list side.cidr_word fun cidr _ => readsItems_quote _).append
      (readsAs_list (by decide) fun ports _ => reads_portRule ports))
  exact reads_endpoint (keysOk_of_texts (hendpoints labels hlabels))

theorem all_rule {P Q : List Char → Prop} {side : Side} {v : Node} (hv : v.All P Q)
    {rule : CiliumRule} (h : ruleOf lenient side v = some (shownRule lenient rule)) :
    ∀ t ∈ ruleTexts rule, t.Holds P Q := by
  obtain ⟨entries, hentries, h⟩ := Option.bind_eq_some_iff.mp h
  obtain ⟨endpoints, hendpoints, h⟩ := Option.bind_eq_some_iff.mp h
  obtain ⟨cidr, hcidr, h⟩ := Option.bind_eq_some_iff.mp h
  obtain ⟨toPorts, hports, h⟩ := Option.map_eq_some_iff.mp h
  obtain ⟨-, rfl, rfl, rfl⟩ := CiliumRule.mk.inj h
  have hall := all_entriesOf hv hentries
  refine List.forall_mem_append.mpr ⟨List.forall_mem_flatMap.mpr fun labels hlabels => ?_,
    List.forall_mem_append.mpr ⟨List.forall_mem_map.mpr fun s hs => ?_,
      List.forall_mem_flatMap.mpr fun ports hmem => ?_⟩⟩
  · obtain ⟨w, hw, hselector⟩ := all_optionalList_self hall hendpoints labels hlabels
    exact all_labelTexts (all_selectorOf hw hselector)
  · obtain ⟨w, hw, htext⟩ := all_optionalList_self hall hcidr s hs
    exact all_textOf hw htext
  · obtain ⟨w, hw, hrule⟩ := all_optionalList_self hall hports ports hmem
    exact all_portRule hw hrule

theorem ruleEntries_ne_nil_iff (side : Side) (rule : CiliumRule) :
    ruleEntries r side rule ≠ [] ↔ rule.endpoints.getD [] ≠ [] ∨ rule.cidr.getD [] ≠ [] ∨
      rule.toPorts.getD [] ≠ [] := by
  unfold ruleEntries listEntry entry
  cases rule.endpoints.getD [] <;> cases rule.cidr.getD [] <;>
    cases rule.toPorts.getD [] <;> simp

/-- The three lists of a rule, each on its own. -/
theorem ruleParts_iff (lenient : Bool) (side : Side) (rule : CiliumRule) :
    (optionalList lenient side.endpoints (selectorOf lenient) (ruleEntries r side rule) =
        some (shownList lenient rule.endpoints) ∧
      optionalList lenient side.cidr textOf (ruleEntries r side rule) =
        some (shownList lenient rule.cidr) ∧
      optionalList lenient "toPorts" (portRuleOf lenient) (ruleEntries r side rule) =
        some (shownList lenient rule.toPorts)) ↔
      (∀ t ∈ ruleTexts rule, t.Comes r) ∧
        ((∀ labels ∈ rule.endpoints.getD [], Filled lenient labels.entries) ∧
          ListShown lenient rule.endpoints) ∧
        ListShown lenient rule.cidr ∧
        (∀ ports ∈ rule.toPorts.getD [], Filled lenient ports) ∧
          ListShown lenient rule.toPorts := by
  obtain ⟨hcidr, hports, hports'⟩ := side.distinct
  have hfindEndpoints : find side.endpoints (ruleEntries r side rule) =
      if (rule.endpoints.getD []).isEmpty then none
      else some (seqNode ((rule.endpoints.getD []).map (selectorNode r))) :=
    find_entry _ (by rw [listEntry, find_entry_ne hcidr.symm, listEntry, find_last_ne hports.symm])
  have hfindCidr : find side.cidr (ruleEntries r side rule) =
      if (rule.cidr.getD []).isEmpty then none
      else some (seqNode ((rule.cidr.getD []).map (textNode r))) := by
    rw [ruleEntries, listEntry, find_entry_ne hcidr]
    exact find_entry _ (find_last_ne hports'.symm _)
  have hfindPorts : find "toPorts" (ruleEntries r side rule) =
      if (rule.toPorts.getD []).isEmpty then none
      else some (seqNode ((rule.toPorts.getD []).map (portRuleNode r))) := by
    rw [ruleEntries, listEntry, find_entry_ne hports, listEntry, find_entry_ne hports', listEntry,
      find_last]
  have htext : (∀ s ∈ rule.cidr.getD [], textOf (textNode r s) = some s) ↔
      ∀ t ∈ (rule.cidr.getD []).map Text.value, t.Comes r := by
    rw [List.forall_mem_map]
    simp only [textOf_textNode_iff]
  rw [optionalList_self_iff hfindEndpoints, optionalList_self_iff hfindCidr,
    optionalList_self_iff hfindPorts, list_iff (selectorOf_iff lenient), list_iff portRuleOf_iff,
    htext, ruleTexts, List.forall_mem_append, List.forall_mem_append]
  constructor
  · rintro ⟨⟨⟨he, hef⟩, hes⟩, ⟨hc, hcs⟩, ⟨hp, hpf⟩, hps⟩
    exact ⟨⟨he, hc, hp⟩, ⟨hef, hes⟩, hcs, hpf, hps⟩
  · rintro ⟨⟨he, hc, hp⟩, ⟨hef, hes⟩, hcs, hpf, hps⟩
    exact ⟨⟨⟨he, hef⟩, hes⟩, ⟨hc, hcs⟩, ⟨hp, hpf⟩, hps⟩

theorem ruleOf_iff (side : Side) (rule : CiliumRule) :
    ruleOf lenient side (ruleNode r side rule) = some (shownRule lenient rule) ↔
      (∀ t ∈ ruleTexts rule, t.Comes r) ∧ RuleFilled lenient rule := by
  have hparts := ruleParts_iff (r := r) lenient side rule
  have hnil := or_congr_right (a := lenient = true) (ruleEntries_ne_nil_iff (r := r) side rule)
  rw [ruleNode, ruleOf, entriesOf_mapNode]
  by_cases hsome : lenient = true ∨ ruleEntries r side rule ≠ []
  · rw [if_pos hsome, Option.bind_some]
    simp only [Option.bind_eq_some_iff, Option.map_eq_some_iff]
    constructor
    · rintro ⟨endpoints, hendpoints, cidr, hcidr, toPorts, hports, hrule⟩
      obtain ⟨-, rfl, rfl, rfl⟩ := CiliumRule.mk.inj hrule
      obtain ⟨htexts, he, hc, hp⟩ := hparts.mp ⟨hendpoints, hcidr, hports⟩
      exact ⟨htexts, he, hc, hp, hnil.mp hsome⟩
    · rintro ⟨htexts, hfilled⟩
      obtain ⟨hendpoints, hcidr, hports⟩ := hparts.mpr
        ⟨htexts, hfilled.endpoints, hfilled.cidr, hfilled.toPorts⟩
      exact ⟨_, hendpoints, _, hcidr, _, hports, rfl⟩
  · rw [if_neg hsome]
    constructor
    · intro h
      cases h
    · rintro ⟨-, hfilled⟩
      exact absurd (hnil.mpr hfilled.some) hsome

/-! The defaults. -/

theorem scalarOf_boolText (b : Bool) : scalarOf r (boolText b) = some (.bool b) := by
  have htrim : trim (boolText b) = boolText b := by cases b <;> rfl
  have hplain : (boolText b).any isSpecial = false := by cases b <;> decide
  rw [scalarOf_inert (inert_of_plain hplain), htrim]
  exact congrArg some (r.truth b)

theorem readable_boolText (b : Bool) : Readable (boolText b) := by
  have hall : (boolText b).all isReadable = true := by cases b <;> decide
  exact List.all_eq_true.mp hall

theorem readsAs_bool {c : ℕ} {name : String} (hname : isWord name.toList = true) (b : Bool) :
    ReadsAs r c [field c name.toList (' ' :: boolText b)] [(key name, .scalar (.bool b))] := by
  have hrest : restOf r (' ' :: boolText b) = .bool b := by
    rw [restOf, scalarOf_space, scalarOf_boolText, Option.getD_some]
  rw [← hrest]
  exact readsAs_field hname rfl

theorem written_defaultDeny {T : Text → Prop} (d : DefaultDenyConfig) :
    ∀ line ∈ defaultDenyLines d, Written r T line := by
  have hbool (name : String) (hname : isWord name.toList = true) (b : Bool) :
      Written r T (field 4 name.toList (' ' :: boolText b)) :=
    .fixed 4 hname (readable_boolText b) (scalarOf_boolText b)
  unfold defaultDenyLines
  split
  · refine List.forall_mem_cons.mpr ⟨.header 2 (by decide), List.forall_mem_cons.mpr
      ⟨hbool "ingress" (by decide) _, List.forall_mem_singleton.mpr
        (hbool "egress" (by decide) _)⟩⟩
  · exact fun line hline => absurd hline List.not_mem_nil

theorem reads_defaultDeny (d : DefaultDenyConfig) :
    ReadsAs r 2 (defaultDenyLines d) (entry "enableDefaultDeny"
      (if d.ingress || d.egress then some (defaultDenyNode d) else none)) := by
  unfold defaultDenyLines
  split
  · exact readsAs_map (by decide)
      ((readsAs_bool (by decide) d.ingress).append (readsAs_bool (by decide) d.egress))
  · exact .nil

theorem defaultDenyOf_node (d : DefaultDenyConfig) :
    defaultDenyOf lenient (defaultDenyNode d) = some d := by
  rw [defaultDenyNode, defaultDenyOf, entriesOf, Option.bind_some, required_cons_self,
    required_cons_ne (by decide), required_cons_self]
  rfl

theorem optionalDeny_iff (lenient : Bool) {d : DefaultDenyConfig} {entries : List (Scalar × Node)}
    (hfind : find "enableDefaultDeny" entries =
      if d.ingress || d.egress then some (defaultDenyNode d) else none) :
    optionalDeny lenient entries = some d ↔ lenient = true ∨ d ≠ ⟨false, false⟩ := by
  unfold optionalDeny ManifestText.optional
  rw [hfind]
  obtain ⟨ingress, egress⟩ := d
  cases ingress <;> cases egress <;> cases lenient <;> simp [defaultDenyOf_node]

/-! Policies. -/

theorem written_policy {T : Text → Prop} {p : CiliumNetworkPolicy}
    (h : ∀ t ∈ policyTexts p, T t) : ∀ line ∈ policyLines p, Written r T line := by
  obtain ⟨hhead, hspec⟩ := List.forall_mem_append.mp h
  obtain ⟨hselector, hrules⟩ := List.forall_mem_append.mp hspec
  obtain ⟨hingress, hegress⟩ := List.forall_mem_append.mp hrules
  rw [List.forall_mem_flatMap] at hingress hegress
  refine List.forall_mem_append.mpr ⟨written_head hhead, List.forall_mem_append.mpr
    ⟨written_selector hselector 2 (by decide), List.forall_mem_append.mpr
      ⟨written_defaultDeny p.defaultDeny, List.forall_mem_append.mpr
        ⟨written_list (by decide) ?_, written_list (by decide) ?_⟩⟩⟩⟩
  · exact fun rule hrule => written_rule (hingress rule hrule)
  · exact fun rule hrule => written_rule (hegress rule hrule)

theorem reads_policy {p : CiliumNetworkPolicy}
    (h : ∀ t ∈ policyTexts p, t.Holds (fun _ => True) (Safe r)) :
    ReadsAs r 0 (policyLines p) (policyEntries r p) := by
  obtain ⟨-, hspec⟩ := List.forall_mem_append.mp h
  obtain ⟨hselector, hrules⟩ := List.forall_mem_append.mp hspec
  obtain ⟨hingress, hegress⟩ := List.forall_mem_append.mp hrules
  rw [List.forall_mem_flatMap] at hingress hegress
  apply reads_head
  refine (readsAs_selector (by decide) (keysOk_of_texts hselector)).append
    ((reads_defaultDeny p.defaultDeny).append
      ((readsAs_list (by decide) fun rule hrule => ?_).append
        (readsAs_list (by decide) fun rule hrule => ?_)))
  · exact reads_rule (hingress rule hrule)
  · exact reads_rule (hegress rule hrule)

theorem all_rules {P Q : List Char → Prop} {name : String} {side : Side}
    {entries : List (Scalar × Node)} (hentries : ∀ e ∈ entries, e.1.Holds Q ∧ e.2.All P Q)
    {o : Option (List CiliumRule)}
    (h : optionalList lenient name (ruleOf lenient side) entries =
      some (shownList lenient (o.map (List.map (shownRule lenient))))) :
    ∀ t ∈ (o.getD []).flatMap ruleTexts, t.Holds P Q := by
  refine List.forall_mem_flatMap.mpr fun rule hrule => ?_
  obtain ⟨w, hw, hrule'⟩ := all_optionalList hentries h rule hrule
  exact all_rule hw hrule'

theorem all_policy {P Q : List Char → Prop} {v : Node} (hv : v.All P Q)
    {p : CiliumNetworkPolicy} (h : policyOf lenient v = some (shown lenient p)) :
    ∀ t ∈ policyTexts p, t.Holds P Q := by
  obtain ⟨head, hhead, h⟩ := Option.bind_eq_some_iff.mp h
  obtain ⟨selector, hselector, h⟩ := Option.bind_eq_some_iff.mp h
  obtain ⟨defaultDeny, hdeny, h⟩ := Option.bind_eq_some_iff.mp h
  obtain ⟨ingress, hingress, h⟩ := Option.bind_eq_some_iff.mp h
  obtain ⟨egress, hegress, h⟩ := Option.map_eq_some_iff.mp h
  obtain ⟨hapi, hkind, hname, hns, rfl, rfl, rfl, -⟩ := CiliumNetworkPolicy.mk.inj h
  obtain ⟨htexts, hall⟩ := all_head hv hhead
  rw [hapi, hkind, hname, hns] at htexts
  obtain ⟨u, hu, hlabels⟩ := all_required hall hselector
  exact List.forall_mem_append.mpr ⟨htexts, List.forall_mem_append.mpr
    ⟨all_labelTexts (all_selectorOf hu hlabels), List.forall_mem_append.mpr
      ⟨all_rules hall hingress, all_rules hall hegress⟩⟩⟩

theorem rules_iff (lenient : Bool) {name : String} {side : Side} {entries : List (Scalar × Node)}
    {o : Option (List CiliumRule)} (hfind : find name entries =
      if (o.getD []).isEmpty then none
      else some (seqNode ((o.getD []).map (ruleNode r side)))) :
    optionalList lenient name (ruleOf lenient side) entries =
        some (shownList lenient (o.map (List.map (shownRule lenient)))) ↔
      (∀ t ∈ (o.getD []).flatMap ruleTexts, t.Comes r) ∧
        (∀ rule ∈ o.getD [], RuleFilled lenient rule) ∧ ListShown lenient o := by
  rw [optionalList_iff hfind, list_iff fun rule => ruleOf_iff side rule, and_assoc]

theorem find_defaultDeny (p : CiliumNetworkPolicy) :
    find "enableDefaultDeny" (specEntries r p) =
      if p.defaultDeny.ingress || p.defaultDeny.egress then
        some (defaultDenyNode p.defaultDeny) else none := by
  rw [specEntries, find_cons_ne (by decide)]
  refine find_entry _ ?_
  rw [listEntry, find_entry_ne (by decide), listEntry, find_last_ne (by decide)]

theorem find_ingress (p : CiliumNetworkPolicy) :
    find "ingress" (specEntries r p) = if (p.ingress.getD []).isEmpty then none
      else some (seqNode ((p.ingress.getD []).map (ruleNode r fromSide))) := by
  rw [specEntries, find_cons_ne (by decide), find_entry_ne (by decide)]
  exact find_entry _ (find_last_ne (by decide) _)

theorem find_egress (p : CiliumNetworkPolicy) :
    find "egress" (specEntries r p) = if (p.egress.getD []).isEmpty then none
      else some (seqNode ((p.egress.getD []).map (ruleNode r toSide))) := by
  rw [specEntries, find_cons_ne (by decide), find_entry_ne (by decide), listEntry,
    find_entry_ne (by decide), listEntry, find_last]

theorem policyFilled_iff (p : CiliumNetworkPolicy) :
    PolicyFilled lenient p ↔ Filled lenient p.endpointSelector.entries ∧
      (lenient = true ∨ p.defaultDeny ≠ ⟨false, false⟩) ∧
      ((∀ rule ∈ p.ingress.getD [], RuleFilled lenient rule) ∧ ListShown lenient p.ingress) ∧
        (∀ rule ∈ p.egress.getD [], RuleFilled lenient rule) ∧ ListShown lenient p.egress :=
  ⟨fun h => ⟨h.endpointSelector, h.defaultDeny, h.ingress, h.egress⟩,
    fun h => ⟨h.1, h.2.1, h.2.2.1, h.2.2.2⟩⟩

theorem policyOf_iff (p : CiliumNetworkPolicy) :
    policyOf lenient (.map (policyEntries r p)) = some (shown lenient p) ↔
      (∀ t ∈ policyTexts p, t.Comes r) ∧ PolicyFilled lenient p := by
  have hdeny := optionalDeny_iff lenient (find_defaultDeny (r := r) p)
  have hingress := rules_iff lenient (find_ingress (r := r) p)
  have hegress := rules_iff lenient (find_egress (r := r) p)
  have hselector := selectorOf_iff (r := r) lenient p.endpointSelector
  have hendpoint : required "endpointSelector" (selectorOf lenient) (specEntries r p) =
      selectorOf lenient (selectorNode r p.endpointSelector) := required_cons_self _ _ _ _
  have hne : specEntries r p ≠ [] := List.cons_ne_nil _ _
  rw [policyFilled_iff, policyTexts, List.forall_mem_append, List.forall_mem_append,
    List.forall_mem_append, forall_headTexts_iff, policyOf, policyEntries]
  simp only [Option.bind_eq_some_iff, Option.map_eq_some_iff, headOf_iff hne]
  constructor
  · rintro ⟨head, ⟨hapi, hkind, hname, hns, hspec⟩, labels, hlabels, deny, hdeny', ingress, hin,
      egress, hout, hshown⟩
    obtain ⟨hapi', hkind', hname', hns', rfl, rfl, rfl, rfl⟩ :=
      CiliumNetworkPolicy.mk.inj hshown
    rw [hapi'] at hapi
    rw [hkind'] at hkind
    rw [hname'] at hname
    rw [hns'] at hns
    rw [hspec] at hlabels hin hout hdeny'
    rw [hendpoint] at hlabels
    obtain ⟨hinTexts, hinFilled⟩ := hingress.mp hin
    obtain ⟨houtTexts, houtFilled⟩ := hegress.mp hout
    obtain ⟨hlabelTexts, hfilled⟩ := hselector.mp hlabels
    exact ⟨⟨⟨hapi, hkind, hname, hns⟩, hlabelTexts, hinTexts, houtTexts⟩, hfilled,
      hdeny.mp hdeny', hinFilled, houtFilled⟩
  · rintro ⟨⟨⟨hapi, hkind, hname, hns⟩, hlabels, hin, hout⟩, hfilled, hoff, hinFilled,
      houtFilled⟩
    exact ⟨⟨_, _, _, _, _⟩, ⟨hapi, hkind, hname, hns, rfl⟩, _,
      hendpoint.trans (hselector.mpr ⟨hlabels, hfilled⟩), _, hdeny.mpr hoff, _,
      hingress.mpr ⟨hin, hinFilled⟩, _, hegress.mpr ⟨hout, houtFilled⟩, rfl⟩

/-- The policy comes back from its manifest exactly when each of its texts and each of its
collections does. -/
theorem read_ciliumPolicyToYAML_iff (p : CiliumNetworkPolicy) :
    (BlockYaml.read r (ciliumPolicyToYAML p)).bind (policyOf lenient) =
        some (shown lenient p) ↔ ComesBack r lenient p := by
  have hback : ComesBack r lenient p ↔
      (∀ t ∈ policyTexts p, t.Ok r) ∧ PolicyFilled lenient p :=
    ⟨fun h => ⟨h.texts, h.filled⟩, fun h => ⟨h.1, h.2⟩⟩
  rw [hback]
  apply read_join_iff
  · exact fun T h => written_policy h
  · exact fun h => reads_policy h
  · exact fun P Q v hv h => all_policy hv h
  · exact policyOf_iff p
  · exact List.cons_ne_nil _ _
  · exact List.cons_ne_nil _ _

end KGuardian.CiliumYaml
