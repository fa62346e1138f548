import KGuardian.PlainScalars
import KGuardian.PolicyEditor
import KGuardian.WrittenManifests

/-!
The manifest of a standard policy (`policyToYAML` in
`frontend/src/utils/networkPolicyGenerator.ts`): its lines, the tree a reader makes of them,
and when the policy comes back from it.
-/
namespace KGuardian.PolicyYaml

open BlockYaml ManifestText Matcher PolicyEditor Selectors WrittenManifests

/-- A policy that the generator or the editor makes. They push no other types. -/
structure ShownPolicy extends NetworkPolicy where
  typed : ∀ type ∈ policyTypes, type = .ingress ∨ type = .egress

/-! The lines. -/

def typeText : PolicyType → String
  | .ingress => "Ingress"
  | .egress => "Egress"
  | .other name => name

/-- A number is written in decimal, and a string as it is. -/
def portText : IntOrString → List Char
  | .int n => intText n
  | .str s => s.toList

def ipBlockLines (b : IpBlock) : List (List Char) :=
  field 6 "ipBlock".toList [] :: quotedField 8 "cidr" b.cidr ::
    b.except.elim [] fun except => field 8 "except".toList [] ::
      except.map fun e => dashed 8 (quoteYamlValue e.toList)

def peerLines (peer : Peer) : List (List Char) :=
  dash 4 :: (peer.ipBlock.elim [] ipBlockLines ++
    (peer.podSelector.elim [] (selectorLines 6 "podSelector") ++
      peer.namespaceSelector.elim [] (selectorLines 6 "namespaceSelector")))

def portLines (port : Port) : List (List Char) :=
  [dashed 4 (quotedField 0 "protocol" port.protocol),
    field 6 "port".toList (' ' :: portText port.port)]

/-- The peers are `from` or `to`. -/
def ruleLines (side : String) (rule : Rule) : List (List Char) :=
  dashed 2 (field 0 side.toList []) ::
    (rule.peers.flatMap peerLines ++ listLines 4 "ports" portLines rule.ports)

def specLines (p : NetworkPolicy) : List (List Char) :=
  selectorLines 2 "podSelector" p.podSelector ++
    (listLines 2 "policyTypes" (fun type => [dashed 2 (typeText type).toList]) p.policyTypes ++
      (listLines 2 "ingress" (ruleLines "from") (p.ingress.getD []) ++
        listLines 2 "egress" (ruleLines "to") (p.egress.getD [])))

def policyLines (p : NetworkPolicy) : List (List Char) :=
  headLines p.apiVersion p.kind p.name p.ns ++ specLines p

def policyToYAML (p : NetworkPolicy) : List Char := ['\n'].intercalate (policyLines p)

/-! What a consumer makes of the tree. A list that is missing is empty. -/

def typeOfText (s : String) : PolicyType :=
  if s = "Ingress" then .ingress else if s = "Egress" then .egress else .other s

def typeOf (v : Node) : Option PolicyType := (textOf v).map typeOfText

def intOrStringOf : Node → Option IntOrString
  | .scalar (.int n) => some (.int n)
  | .scalar (.str s) => some (.str (String.ofList s))
  | _ => none

section Consumer

variable (lenient : Bool)

def ipBlockOf (v : Node) : Option IpBlock :=
  (entriesOf lenient v).bind fun entries =>
    (required "cidr" textOf entries).bind fun cidr =>
      (optional "except" (listOf lenient textOf) entries).map fun except => ⟨cidr, except⟩

def peerOf (v : Node) : Option Peer :=
  (entriesOf lenient v).bind fun entries =>
    (optional "podSelector" (selectorOf lenient) entries).bind fun podSelector =>
      (optional "namespaceSelector" (selectorOf lenient) entries).bind fun namespaceSelector =>
        (optional "ipBlock" (ipBlockOf lenient) entries).map fun ipBlock =>
          ⟨podSelector, namespaceSelector, ipBlock⟩

def portOf (v : Node) : Option Port :=
  (entriesOf lenient v).bind fun entries =>
    (required "protocol" textOf entries).bind fun protocol =>
      (required "port" intOrStringOf entries).map fun port => ⟨protocol, port⟩

/-- The manifest has no ids for the rules. -/
def ruleOf (side : String) (v : Node) : Option Rule :=
  (entriesOf lenient v).bind fun entries =>
    (required side (listOf lenient (peerOf lenient)) entries).bind fun peers =>
      (listField lenient "ports" (portOf lenient) entries).map fun ports => ⟨"", peers, ports⟩

def policyOf (v : Node) : Option NetworkPolicy :=
  (headOf lenient v).bind fun head =>
    (required "podSelector" (selectorOf lenient) head.spec).bind fun podSelector =>
      (listField lenient "policyTypes" typeOf head.spec).bind fun policyTypes =>
        (optionalList lenient "ingress" (ruleOf lenient "from") head.spec).bind fun ingress =>
          (optionalList lenient "egress" (ruleOf lenient "to") head.spec).map fun egress =>
            ⟨head.apiVersion, head.kind, head.name, head.ns, podSelector, policyTypes, ingress,
              egress⟩

end Consumer

/-! What the manifest shows of a policy. -/

def shownRule (rule : Rule) : Rule := { rule with id := "" }

def shown (lenient : Bool) (p : NetworkPolicy) : NetworkPolicy :=
  { p with
    ingress := shownList lenient (p.ingress.map (List.map shownRule))
    egress := shownList lenient (p.egress.map (List.map shownRule)) }

def portTexts (port : Port) : List Text :=
  .value port.protocol :: match port.port with
    | .int _ => []
    | .str s => [.raw s]

def ipBlockTexts (b : IpBlock) : List Text :=
  .value b.cidr :: b.except.elim [] (List.map Text.value)

def peerTexts (peer : Peer) : List Text :=
  peer.ipBlock.elim [] ipBlockTexts ++
    (peer.podSelector.elim [] labelTexts ++ peer.namespaceSelector.elim [] labelTexts)

def ruleTexts (rule : Rule) : List Text :=
  rule.peers.flatMap peerTexts ++ rule.ports.flatMap portTexts

def policyTexts (p : NetworkPolicy) : List Text :=
  headTexts p.apiVersion p.kind p.name p.ns ++
    (labelTexts p.podSelector ++
      ((p.ingress.getD []).flatMap ruleTexts ++ (p.egress.getD []).flatMap ruleTexts))

/-! Where a consumer wants a collection, there is one. -/

def IpBlockFilled (lenient : Bool) (b : IpBlock) : Prop := ∀ l ∈ b.except, Filled lenient l

structure PeerFilled (lenient : Bool) (peer : Peer) : Prop where
  ipBlock : ∀ b ∈ peer.ipBlock, IpBlockFilled lenient b
  podSelector : ∀ l ∈ peer.podSelector, Filled lenient l.entries
  namespaceSelector : ∀ l ∈ peer.namespaceSelector, Filled lenient l.entries
  some : lenient = true ∨ peer ≠ ⟨none, none, none⟩

structure RuleFilled (lenient : Bool) (rule : Rule) : Prop where
  peers : ∀ peer ∈ rule.peers, PeerFilled lenient peer
  some : Filled lenient rule.peers

structure PolicyFilled (lenient : Bool) (p : NetworkPolicy) : Prop where
  podSelector : Filled lenient p.podSelector.entries
  ingress : (∀ rule ∈ p.ingress.getD [], RuleFilled lenient rule) ∧ ListShown lenient p.ingress
  egress : (∀ rule ∈ p.egress.getD [], RuleFilled lenient rule) ∧ ListShown lenient p.egress

/-- Each text comes back, and so does each collection. -/
structure ComesBack (r : Resolution) (lenient : Bool) (p : NetworkPolicy) : Prop where
  texts : ∀ t ∈ policyTexts p, t.Ok r
  filled : PolicyFilled lenient p

/-! The tree. -/

section Tree

variable (r : Resolution)

def ipBlockNode (b : IpBlock) : Node :=
  .map ((key "cidr", textNode r b.cidr) ::
    entry "except" (b.except.map fun except => seqNode (except.map (textNode r))))

def peerEntries (peer : Peer) : List (Scalar × Node) :=
  entry "ipBlock" (peer.ipBlock.map (ipBlockNode r)) ++
    (entry "podSelector" (peer.podSelector.map (selectorNode r)) ++
      entry "namespaceSelector" (peer.namespaceSelector.map (selectorNode r)))

def peerNode (peer : Peer) : Node := mapNode (peerEntries r peer)

def portNode (port : Port) : Node :=
  .map [(key "protocol", textNode r port.protocol),
    (key "port", .scalar (restOf r (' ' :: portText port.port)))]

def ruleNode (side : String) (rule : Rule) : Node :=
  .map ((key side, seqNode (rule.peers.map (peerNode r))) ::
    listEntry "ports" (portNode r) rule.ports)

def specEntries (p : NetworkPolicy) : List (Scalar × Node) :=
  (key "podSelector", selectorNode r p.podSelector) ::
    (listEntry "policyTypes" (fun type => textNode r (typeText type)) p.policyTypes ++
      (listEntry "ingress" (ruleNode r "from") (p.ingress.getD []) ++
        listEntry "egress" (ruleNode r "to") (p.egress.getD [])))

def policyEntries (p : NetworkPolicy) : List (Scalar × Node) :=
  headEntries r p.apiVersion p.kind p.name p.ns (specEntries r p)

end Tree

variable {r : Resolution} {lenient : Bool}

/-! Ports. -/

theorem written_port {T : Text → Prop} {port : Port} (h : ∀ t ∈ portTexts port, T t) :
    ∀ line ∈ portLines port, Written r T line := by
  obtain ⟨hprotocol, hport⟩ := List.forall_mem_cons.mp h
  refine List.forall_mem_cons.mpr ⟨?_, List.forall_mem_singleton.mpr ?_⟩
  · apply Written.dashed
    rw [quotedField, indent_field]
    exact .value 6 (by decide) hprotocol
  · cases hcase : port.port with
    | int n => exact .fixed 6 (by decide) (readable_intText n) (scalarOf_intText n)
    | str s =>
        rw [hcase] at hport
        exact .raw 6 (by decide) (List.forall_mem_singleton.mp hport)

theorem reads_port (port : Port) : ReadsItems r 4 (portLines port) [portNode r port] := by
  have hentries : ReadsAs r 6 [indent 6 ++ quotedField 0 "protocol" port.protocol,
      field 6 "port".toList (' ' :: portText port.port)]
      [(key "protocol", textNode r port.protocol),
        (key "port", .scalar (restOf r (' ' :: portText port.port)))] := by
    rw [quotedField, indent_field]
    exact (readsAs_value (by decide) _).append (readsAs_field (by decide) rfl)
  exact readsItems_dashed hentries

theorem intOrStringOf_str_iff {v : Node} {s : String} :
    intOrStringOf v = some (.str s) ↔ textOf v = some s := by
  cases v with
  | scalar value => cases value <;> simp [intOrStringOf, textOf]
  | seq items => simp [intOrStringOf, textOf]
  | map entries => simp [intOrStringOf, textOf]

theorem all_port {P Q : List Char → Prop} {v : Node} (hv : v.All P Q) {port : Port}
    (h : portOf lenient v = some port) : ∀ t ∈ portTexts port, t.Holds P Q := by
  obtain ⟨entries, hentries, h⟩ := Option.bind_eq_some_iff.mp h
  obtain ⟨protocol, hprotocol, h⟩ := Option.bind_eq_some_iff.mp h
  obtain ⟨number, hnumber, rfl⟩ := Option.map_eq_some_iff.mp h
  have hall := all_entriesOf hv hentries
  refine List.forall_mem_cons.mpr ⟨all_value hall hprotocol, ?_⟩
  obtain ⟨w, hw, hport⟩ := all_required hall hnumber
  cases number with
  | int n => exact fun t ht => absurd ht List.not_mem_nil
  | str s =>
      exact List.forall_mem_singleton.mpr (all_textOf hw (intOrStringOf_str_iff.mp hport))

theorem intOrStringOf_iff (port : IntOrString) :
    intOrStringOf (.scalar (restOf r (' ' :: portText port))) = some port ↔
      ∀ s, port = .str s → Text.Comes r (.raw s) := by
  cases port with
  | int n =>
      rw [restOf, scalarOf_space, portText, scalarOf_intText]
      exact iff_of_true rfl fun s hs => by cases hs
  | str s =>
      have hstr : (∀ t, IntOrString.str s = .str t → Text.Comes r (.raw t)) ↔
          Text.Comes r (.raw s) :=
        ⟨fun h => h s rfl, fun h t ht => IntOrString.str.inj ht ▸ h⟩
      rw [hstr, intOrStringOf_str_iff]
      exact textOf_restOf_iff

theorem portOf_iff (port : Port) :
    portOf lenient (portNode r port) = some port ↔ ∀ t ∈ portTexts port, t.Comes r := by
  have htexts : (∀ t ∈ portTexts port, t.Comes r) ↔ Text.Comes r (.value port.protocol) ∧
      ∀ s, port.port = .str s → Text.Comes r (.raw s) := by
    rw [portTexts, List.forall_mem_cons]
    cases port.port with
    | int n => simp
    | str s => simp
  rw [htexts, ← textOf_textNode_iff, ← intOrStringOf_iff, portNode, portOf, entriesOf,
    Option.bind_some, required, required, find_cons_self, find_cons_ne (by decide),
    find_cons_self, Option.bind_some, Option.bind_some]
  obtain ⟨protocol, number⟩ := port
  simp only [Option.bind_eq_some_iff, Option.map_eq_some_iff, Port.mk.injEq]
  constructor
  · rintro ⟨a, ha, b, hb, rfl, rfl⟩
    exact ⟨ha, hb⟩
  · rintro ⟨ha, hb⟩
    exact ⟨_, ha, _, hb, rfl, rfl⟩

/-! Address ranges. -/

theorem written_ipBlock {T : Text → Prop} {b : IpBlock} (h : ∀ t ∈ ipBlockTexts b, T t) :
    ∀ line ∈ ipBlockLines b, Written r T line := by
  obtain ⟨hcidr, hexcept⟩ := List.forall_mem_cons.mp h
  refine List.forall_mem_cons.mpr ⟨.header 6 (by decide), ?_⟩
  refine List.forall_mem_cons.mpr ⟨.value 8 (by decide) hcidr, ?_⟩
  apply written_option
  intro except he
  refine List.forall_mem_cons.mpr ⟨.header 8 (by decide), ?_⟩
  rw [he, Option.elim_some, List.forall_mem_map] at hexcept
  exact List.forall_mem_map.mpr fun e hmem => .dashed 8 (.quote 10 (hexcept e hmem))

theorem reads_ipBlock (b : IpBlock) :
    ReadsAs r 6 (ipBlockLines b) [(key "ipBlock", ipBlockNode r b)] := by
  have hcidr : ReadsAs r 8 [quotedField 8 "cidr" b.cidr] [(key "cidr", textNode r b.cidr)] :=
    readsAs_value (by decide) _
  have hlist (except : List String) : ReadsAs r 8 (field 8 "except".toList [] ::
      except.map fun e => dashed 8 (quoteYamlValue e.toList))
      [(key "except", seqNode (except.map (textNode r)))] :=
    readsAs_seq (by decide) (readsItems_lines fun e _ => readsItems_quote e.toList)
  have hexcept := readsAs_option (o := b.except) fun except _ => hlist except
  exact readsAs_map (by decide) (hcidr.append hexcept)

theorem all_ipBlock {P Q : List Char → Prop} {v : Node} (hv : v.All P Q) {b : IpBlock}
    (h : ipBlockOf lenient v = some b) : ∀ t ∈ ipBlockTexts b, t.Holds P Q := by
  obtain ⟨entries, hentries, h⟩ := Option.bind_eq_some_iff.mp h
  obtain ⟨cidr, hcidr, h⟩ := Option.bind_eq_some_iff.mp h
  obtain ⟨except, hexcept, rfl⟩ := Option.map_eq_some_iff.mp h
  have hall := all_entriesOf hv hentries
  refine List.forall_mem_cons.mpr ⟨all_value hall hcidr, ?_⟩
  cases except with
  | none => exact fun t ht => absurd ht List.not_mem_nil
  | some l =>
      obtain ⟨w, hw, hlist⟩ := all_optional hall hexcept l rfl
      exact all_listOf_text hw hlist

theorem ipBlockOf_iff (b : IpBlock) :
    ipBlockOf lenient (ipBlockNode r b) = some b ↔
      (∀ t ∈ ipBlockTexts b, t.Comes r) ∧ IpBlockFilled lenient b := by
  obtain ⟨cidr, except⟩ := b
  have hexcept : find "except" ((key "cidr", textNode r cidr) :: entry "except"
      (except.map fun l => seqNode (l.map (textNode r)))) =
      except.map fun l => seqNode (l.map (textNode r)) := by
    rw [find_cons_ne (by decide)]
    cases except <;> simp [entry, find]
  have hlists : (∀ l ∈ except, listOf lenient textOf (seqNode (l.map (textNode r))) = some l) ↔
      (∀ t ∈ except.elim [] (List.map Text.value), t.Comes r) ∧
        ∀ l ∈ except, Filled lenient l := option_iff listOf_text_iff
  rw [ipBlockNode, ipBlockOf, entriesOf, Option.bind_some, required, find_cons_self,
    Option.bind_some, ipBlockTexts, List.forall_mem_cons, ← textOf_textNode_iff, IpBlockFilled,
    and_assoc, ← hlists, ← optional_self_iff hexcept]
  simp only [Option.bind_eq_some_iff, Option.map_eq_some_iff, IpBlock.mk.injEq]
  constructor
  · rintro ⟨a, ha, o, ho, rfl, rfl⟩
    exact ⟨ha, ho⟩
  · rintro ⟨ha, ho⟩
    exact ⟨_, ha, _, ho, rfl, rfl⟩

/-! Peers. -/

theorem written_peer {T : Text → Prop} {peer : Peer} (h : ∀ t ∈ peerTexts peer, T t) :
    ∀ line ∈ peerLines peer, Written r T line := by
  obtain ⟨hblock, hselectors⟩ := List.forall_mem_append.mp h
  obtain ⟨hpod, hnamespace⟩ := List.forall_mem_append.mp hselectors
  refine List.forall_mem_cons.mpr ⟨.dash 4, List.forall_mem_append.mpr ⟨?_, ?_⟩⟩
  · apply written_option
    intro b hb
    rw [hb] at hblock
    exact written_ipBlock hblock
  · refine List.forall_mem_append.mpr ⟨written_option ?_, written_option ?_⟩
    · intro labels hlabels
      rw [hlabels] at hpod
      exact written_selector hpod 6 (by decide)
    · intro labels hlabels
      rw [hlabels] at hnamespace
      exact written_selector hnamespace 6 (by decide)

theorem reads_peer {peer : Peer}
    (h : ∀ t ∈ peerTexts peer, t.Holds (fun _ => True) (Safe r)) :
    ReadsItems r 4 (peerLines peer) [peerNode r peer] := by
  obtain ⟨-, hselectors⟩ := List.forall_mem_append.mp h
  obtain ⟨hpod, hnamespace⟩ := List.forall_mem_append.mp hselectors
  apply readsItems_dash
  refine (readsAs_option fun b _ => reads_ipBlock b).append
    ((readsAs_option fun labels hlabels => ?_).append
      (readsAs_option fun labels hlabels => ?_))
  · rw [hlabels] at hpod
    exact readsAs_selector (by decide) (keysOk_of_texts hpod)
  · rw [hlabels] at hnamespace
    exact readsAs_selector (by decide) (keysOk_of_texts hnamespace)

theorem all_peer {P Q : List Char → Prop} {v : Node} (hv : v.All P Q) {peer : Peer}
    (h : peerOf lenient v = some peer) : ∀ t ∈ peerTexts peer, t.Holds P Q := by
  obtain ⟨entries, hentries, h⟩ := Option.bind_eq_some_iff.mp h
  obtain ⟨podSelector, hpod, h⟩ := Option.bind_eq_some_iff.mp h
  obtain ⟨namespaceSelector, hnamespace, h⟩ := Option.bind_eq_some_iff.mp h
  obtain ⟨ipBlock, hblock, rfl⟩ := Option.map_eq_some_iff.mp h
  have hall := all_entriesOf hv hentries
  have hselector {name : String} {o : Option Labels}
      (ho : optional name (selectorOf lenient) entries = some o) :
      ∀ t ∈ o.elim [] labelTexts, t.Holds P Q := by
    cases o with
    | none => exact fun t ht => absurd ht List.not_mem_nil
    | some labels =>
        obtain ⟨w, hw, hlabels⟩ := all_optional hall ho labels rfl
        exact all_labelTexts (all_selectorOf hw hlabels)
  refine List.forall_mem_append.mpr ⟨?_, List.forall_mem_append.mpr
    ⟨hselector hpod, hselector hnamespace⟩⟩
  cases ipBlock with
  | none => exact fun t ht => absurd ht List.not_mem_nil
  | some b =>
      obtain ⟨w, hw, hb⟩ := all_optional hall hblock b rfl
      exact all_ipBlock hw hb

theorem peerEntries_ne_nil_iff (peer : Peer) :
    peerEntries r peer ≠ [] ↔ peer ≠ ⟨none, none, none⟩ := by
  obtain ⟨podSelector, namespaceSelector, ipBlock⟩ := peer
  unfold peerEntries entry
  cases podSelector <;> cases namespaceSelector <;> cases ipBlock <;> simp

/-- The three parts of a peer, each on its own. -/
theorem peerParts_iff (lenient : Bool) (peer : Peer) :
    (optional "podSelector" (selectorOf lenient) (peerEntries r peer) = some peer.podSelector ∧
      optional "namespaceSelector" (selectorOf lenient) (peerEntries r peer) =
        some peer.namespaceSelector ∧
      optional "ipBlock" (ipBlockOf lenient) (peerEntries r peer) = some peer.ipBlock) ↔
      (∀ t ∈ peerTexts peer, t.Comes r) ∧ (∀ b ∈ peer.ipBlock, IpBlockFilled lenient b) ∧
        (∀ l ∈ peer.podSelector, Filled lenient l.entries) ∧
          ∀ l ∈ peer.namespaceSelector, Filled lenient l.entries := by
  have hblock : find "ipBlock" (peerEntries r peer) = peer.ipBlock.map (ipBlockNode r) :=
    find_entry _ (by rw [find_entry_ne (by decide), find_last_ne (by decide)])
  have hpod : find "podSelector" (peerEntries r peer) =
      peer.podSelector.map (selectorNode r) := by
    rw [peerEntries, find_entry_ne (by decide), find_entry _ (find_last_ne (by decide) _)]
  have hnamespace : find "namespaceSelector" (peerEntries r peer) =
      peer.namespaceSelector.map (selectorNode r) := by
    rw [peerEntries, find_entry_ne (by decide), find_entry_ne (by decide), find_last]
  rw [optional_self_iff hpod, optional_self_iff hnamespace, optional_self_iff hblock,
    option_iff (selectorOf_iff lenient), option_iff (selectorOf_iff lenient),
    option_iff ipBlockOf_iff, peerTexts, List.forall_mem_append, List.forall_mem_append]
  constructor
  · rintro ⟨⟨hp, hpf⟩, ⟨hn, hnf⟩, hb, hbf⟩
    exact ⟨⟨hb, hp, hn⟩, hbf, hpf, hnf⟩
  · rintro ⟨⟨hb, hp, hn⟩, hbf, hpf, hnf⟩
    exact ⟨⟨hp, hpf⟩, ⟨hn, hnf⟩, hb, hbf⟩

theorem peerOf_iff (peer : Peer) :
    peerOf lenient (peerNode r peer) = some peer ↔
      (∀ t ∈ peerTexts peer, t.Comes r) ∧ PeerFilled lenient peer := by
  have hparts := peerParts_iff (r := r) lenient peer
  have hnil := or_congr_right (a := lenient = true) (peerEntries_ne_nil_iff (r := r) peer)
  rw [peerNode, peerOf, entriesOf_mapNode]
  by_cases hsome : lenient = true ∨ peerEntries r peer ≠ []
  · rw [if_pos hsome, Option.bind_some]
    simp only [Option.bind_eq_some_iff, Option.map_eq_some_iff]
    constructor
    · rintro ⟨pod, hpod, ns, hns, block, hblock, rfl⟩
      obtain ⟨htexts, hb, hp, hn⟩ := hparts.mp ⟨hpod, hns, hblock⟩
      exact ⟨htexts, hb, hp, hn, hnil.mp hsome⟩
    · rintro ⟨htexts, hfilled⟩
      obtain ⟨hpod, hns, hblock⟩ := hparts.mpr
        ⟨htexts, hfilled.ipBlock, hfilled.podSelector, hfilled.namespaceSelector⟩
      exact ⟨_, hpod, _, hns, _, hblock, rfl⟩
  · rw [if_neg hsome]
    constructor
    · intro h
      cases h
    · rintro ⟨-, hfilled⟩
      exact absurd (hnil.mpr hfilled.some) hsome

/-! Rules. -/

theorem written_rule {T : Text → Prop} {side : String} (hside : isWord side.toList = true)
    {rule : Rule} (h : ∀ t ∈ ruleTexts rule, T t) :
    ∀ line ∈ ruleLines side rule, Written r T line := by
  obtain ⟨hpeers, hports⟩ := List.forall_mem_append.mp h
  rw [List.forall_mem_flatMap] at hpeers hports
  refine List.forall_mem_cons.mpr ⟨?_, List.forall_mem_append.mpr ⟨?_, ?_⟩⟩
  · apply Written.dashed
    rw [indent_field]
    exact .header 4 hside
  · exact List.forall_mem_flatMap.mpr fun peer hpeer => written_peer (hpeers peer hpeer)
  · exact written_list (by decide) fun port hport => written_port (hports port hport)

theorem reads_rule {side : String} (hside : isWord side.toList = true) {rule : Rule}
    (h : ∀ t ∈ ruleTexts rule, t.Holds (fun _ => True) (Safe r)) :
    ReadsItems r 2 (ruleLines side rule) [ruleNode r side rule] := by
  obtain ⟨hpeers, -⟩ := List.forall_mem_append.mp h
  rw [List.forall_mem_flatMap] at hpeers
  have hfrom : ReadsAs r 4 (field 4 side.toList [] :: rule.peers.flatMap peerLines)
      [(key side, seqNode (rule.peers.map (peerNode r)))] :=
    readsAs_seq hside (readsItems_flatMap fun peer hpeer => reads_peer (hpeers peer hpeer))
  have hports : ReadsAs r 4 (listLines 4 "ports" portLines rule.ports)
      (listEntry "ports" (portNode r) rule.ports) :=
    readsAs_list (by decide) fun port _ => reads_port port
  exact readsItems_dashed (hfrom.append hports)

theorem all_rule {P Q : List Char → Prop} {side : String} {v : Node} (hv : v.All P Q)
    {rule : Rule} (h : ruleOf lenient side v = some rule) :
    ∀ t ∈ ruleTexts rule, t.Holds P Q := by
  obtain ⟨entries, hentries, h⟩ := Option.bind_eq_some_iff.mp h
  obtain ⟨peers, hpeers, h⟩ := Option.bind_eq_some_iff.mp h
  obtain ⟨ports, hports, rfl⟩ := Option.map_eq_some_iff.mp h
  have hall := all_entriesOf hv hentries
  refine List.forall_mem_append.mpr ⟨?_, ?_⟩
  · refine List.forall_mem_flatMap.mpr fun peer hpeer => ?_
    obtain ⟨w, hw, hlist⟩ := all_required hall hpeers
    obtain ⟨u, hu, hpeer'⟩ := all_listOf hw hlist peer hpeer
    exact all_peer hu hpeer'
  · refine List.forall_mem_flatMap.mpr fun port hport => ?_
    obtain ⟨w, hw, hport'⟩ := all_listField hall hports port hport
    exact all_port hw hport'

theorem ruleOf_iff {side : String} (hside : side ≠ "ports") (rule : Rule) :
    ruleOf lenient side (ruleNode r side rule) = some (shownRule rule) ↔
      (∀ t ∈ ruleTexts rule, t.Comes r) ∧ RuleFilled lenient rule := by
  obtain ⟨id, peers, ports⟩ := rule
  have hports : find "ports" ((key side, seqNode (peers.map (peerNode r))) ::
      listEntry "ports" (portNode r) ports) =
      if ports.isEmpty then none else some (seqNode (ports.map (portNode r))) := by
    rw [find_cons_ne hside, listEntry, find_last]
  have hport : (∀ port ∈ ports, portOf lenient (portNode r port) = some port) ↔
      ∀ t ∈ ports.flatMap portTexts, t.Comes r := by
    rw [List.forall_mem_flatMap]
    exact forall₂_congr fun port _ => portOf_iff port
  have hrule : RuleFilled lenient ⟨id, peers, ports⟩ ↔
      (∀ peer ∈ peers, PeerFilled lenient peer) ∧ Filled lenient peers :=
    ⟨fun h => ⟨h.peers, h.some⟩, fun h => ⟨h.1, h.2⟩⟩
  rw [ruleNode, ruleOf, entriesOf, Option.bind_some, required, find_cons_self,
    Option.bind_some, ruleTexts, List.forall_mem_append, hrule, ← hport,
    ← listField_self_iff hports]
  have hpeers := @listOf_self_iff _ lenient (peerOf lenient) (peerNode r) peers
  rw [list_iff peerOf_iff] at hpeers
  simp only [Option.bind_eq_some_iff, Option.map_eq_some_iff, shownRule, Rule.mk.injEq]
  constructor
  · rintro ⟨a, ha, b, hb, -, rfl, rfl⟩
    obtain ⟨⟨htexts, hfilled⟩, hsome⟩ := hpeers.mp ha
    exact ⟨⟨htexts, hb⟩, hfilled, hsome⟩
  · rintro ⟨⟨htexts, hb⟩, hfilled, hsome⟩
    exact ⟨_, hpeers.mpr ⟨⟨htexts, hfilled⟩, hsome⟩, _, hb, trivial, rfl, rfl⟩

/-! Policies. -/

theorem typeText_word {type : PolicyType} (h : type = .ingress ∨ type = .egress) :
    isWord (typeText type).toList = true ∧ typeOfText (typeText type) = type := by
  obtain rfl | rfl := h
  · exact ⟨by decide, by decide⟩
  · exact ⟨by decide, by decide⟩

theorem written_policy {T : Text → Prop} {p : ShownPolicy}
    (h : ∀ t ∈ policyTexts p.toNetworkPolicy, T t) :
    ∀ line ∈ policyLines p.toNetworkPolicy, Written r T line := by
  obtain ⟨hhead, hspec⟩ := List.forall_mem_append.mp h
  obtain ⟨hselector, hrules⟩ := List.forall_mem_append.mp hspec
  obtain ⟨hingress, hegress⟩ := List.forall_mem_append.mp hrules
  rw [List.forall_mem_flatMap] at hingress hegress
  refine List.forall_mem_append.mpr ⟨written_head hhead, List.forall_mem_append.mpr
    ⟨written_selector hselector 2 (by decide), List.forall_mem_append.mpr
      ⟨written_list (by decide) ?_, List.forall_mem_append.mpr
        ⟨written_list (by decide) ?_, written_list (by decide) ?_⟩⟩⟩⟩
  · intro type htype
    refine List.forall_mem_singleton.mpr (.dashed 2 (.word 4 ?_))
    exact (typeText_word (p.typed type htype)).1
  · exact fun rule hrule => written_rule (by decide) (hingress rule hrule)
  · exact fun rule hrule => written_rule (by decide) (hegress rule hrule)

theorem reads_policy {p : ShownPolicy}
    (h : ∀ t ∈ policyTexts p.toNetworkPolicy, t.Holds (fun _ => True) (Safe r)) :
    ReadsAs r 0 (policyLines p.toNetworkPolicy) (policyEntries r p.toNetworkPolicy) := by
  obtain ⟨-, hspec⟩ := List.forall_mem_append.mp h
  obtain ⟨hselector, hrules⟩ := List.forall_mem_append.mp hspec
  obtain ⟨hingress, hegress⟩ := List.forall_mem_append.mp hrules
  rw [List.forall_mem_flatMap] at hingress hegress
  apply reads_head
  refine (readsAs_selector (by decide) (keysOk_of_texts hselector)).append
    ((readsAs_list (by decide) fun type htype => ?_).append
      ((readsAs_list (by decide) fun rule hrule => ?_).append
        (readsAs_list (by decide) fun rule hrule => ?_)))
  · have hquote := readsItems_quote (r := r) (c := 2) (typeText type).toList
    rwa [quoteYamlValue_word (typeText_word (p.typed type htype)).1] at hquote
  · exact reads_rule (by decide) (hingress rule hrule)
  · exact reads_rule (by decide) (hegress rule hrule)

theorem all_rules {P Q : List Char → Prop} {name side : String}
    {entries : List (Scalar × Node)} (hentries : ∀ e ∈ entries, e.1.Holds Q ∧ e.2.All P Q)
    {o : Option (List Rule)} (h : optionalList lenient name (ruleOf lenient side) entries =
      some (shownList lenient (o.map (List.map shownRule)))) :
    ∀ t ∈ (o.getD []).flatMap ruleTexts, t.Holds P Q := by
  refine List.forall_mem_flatMap.mpr fun rule hrule => ?_
  obtain ⟨w, hw, hrule'⟩ := all_optionalList hentries h rule hrule
  have htexts := all_rule hw hrule'
  exact htexts

theorem all_policy {P Q : List Char → Prop} {v : Node} (hv : v.All P Q) {p : NetworkPolicy}
    (h : policyOf lenient v = some (shown lenient p)) : ∀ t ∈ policyTexts p, t.Holds P Q := by
  obtain ⟨head, hhead, h⟩ := Option.bind_eq_some_iff.mp h
  obtain ⟨podSelector, hselector, h⟩ := Option.bind_eq_some_iff.mp h
  obtain ⟨policyTypes, htypes, h⟩ := Option.bind_eq_some_iff.mp h
  obtain ⟨ingress, hingress, h⟩ := Option.bind_eq_some_iff.mp h
  obtain ⟨egress, hegress, h⟩ := Option.map_eq_some_iff.mp h
  obtain ⟨hapi, hkind, hname, hns, rfl, -, rfl, rfl⟩ := NetworkPolicy.mk.inj h
  obtain ⟨htexts, hall⟩ := all_head hv hhead
  rw [hapi, hkind, hname, hns] at htexts
  obtain ⟨u, hu, hlabels⟩ := all_required hall hselector
  exact List.forall_mem_append.mpr ⟨htexts, List.forall_mem_append.mpr
    ⟨all_labelTexts (all_selectorOf hu hlabels), List.forall_mem_append.mpr
      ⟨all_rules hall hingress, all_rules hall hegress⟩⟩⟩

theorem types_come (lenient : Bool) (p : ShownPolicy) {entries : List (Scalar × Node)}
    (hfind : find "policyTypes" entries = if p.policyTypes.isEmpty then none
      else some (seqNode (p.policyTypes.map fun type => textNode r (typeText type)))) :
    listField lenient "policyTypes" typeOf entries = some p.policyTypes := by
  rw [listField_self_iff hfind]
  intro type htype
  obtain ⟨hword, htext⟩ := typeText_word (p.typed type htype)
  rw [typeOf, textOf_textNode_iff.mpr (safe_of_isWord hword), Option.map_some, htext]

theorem rules_iff (lenient : Bool) {name side : String} (hside : side ≠ "ports")
    {entries : List (Scalar × Node)} {o : Option (List Rule)}
    (hfind : find name entries = if (o.getD []).isEmpty then none
      else some (seqNode ((o.getD []).map (ruleNode r side)))) :
    optionalList lenient name (ruleOf lenient side) entries =
        some (shownList lenient (o.map (List.map shownRule))) ↔
      (∀ t ∈ (o.getD []).flatMap ruleTexts, t.Comes r) ∧
        (∀ rule ∈ o.getD [], RuleFilled lenient rule) ∧ ListShown lenient o := by
  rw [optionalList_iff hfind, list_iff fun rule => ruleOf_iff hside rule, and_assoc]

theorem find_policyTypes (p : NetworkPolicy) :
    find "policyTypes" (specEntries r p) = if p.policyTypes.isEmpty then none
      else some (seqNode (p.policyTypes.map fun type => textNode r (typeText type))) := by
  rw [specEntries, find_cons_ne (by decide)]
  refine find_entry _ ?_
  rw [listEntry, find_entry_ne (by decide), listEntry, find_last_ne (by decide)]

theorem find_ingress (p : NetworkPolicy) :
    find "ingress" (specEntries r p) = if (p.ingress.getD []).isEmpty then none
      else some (seqNode ((p.ingress.getD []).map (ruleNode r "from"))) := by
  rw [specEntries, find_cons_ne (by decide), listEntry, find_entry_ne (by decide)]
  exact find_entry _ (find_last_ne (by decide) _)

theorem find_egress (p : NetworkPolicy) :
    find "egress" (specEntries r p) = if (p.egress.getD []).isEmpty then none
      else some (seqNode ((p.egress.getD []).map (ruleNode r "to"))) := by
  rw [specEntries, find_cons_ne (by decide), listEntry, find_entry_ne (by decide), listEntry,
    find_entry_ne (by decide), listEntry, find_last]

theorem policyFilled_iff (p : NetworkPolicy) :
    PolicyFilled lenient p ↔ Filled lenient p.podSelector.entries ∧
      ((∀ rule ∈ p.ingress.getD [], RuleFilled lenient rule) ∧ ListShown lenient p.ingress) ∧
        (∀ rule ∈ p.egress.getD [], RuleFilled lenient rule) ∧ ListShown lenient p.egress :=
  ⟨fun h => ⟨h.podSelector, h.ingress, h.egress⟩, fun h => ⟨h.1, h.2.1, h.2.2⟩⟩

theorem policyOf_iff (p : ShownPolicy) :
    policyOf lenient (.map (policyEntries r p.toNetworkPolicy)) =
        some (shown lenient p.toNetworkPolicy) ↔
      (∀ t ∈ policyTexts p.toNetworkPolicy, t.Comes r) ∧
        PolicyFilled lenient p.toNetworkPolicy := by
  have htypes := types_come lenient p (find_policyTypes (r := r) _)
  have hingress := rules_iff lenient (by decide)
    (find_ingress (r := r) p.toNetworkPolicy)
  have hegress := rules_iff lenient (by decide)
    (find_egress (r := r) p.toNetworkPolicy)
  have hselector := selectorOf_iff (r := r) lenient p.podSelector
  have hpod : required "podSelector" (selectorOf lenient) (specEntries r p.toNetworkPolicy) =
      selectorOf lenient (selectorNode r p.podSelector) := required_cons_self _ _ _ _
  rw [policyFilled_iff, policyTexts, List.forall_mem_append, List.forall_mem_append,
    List.forall_mem_append, forall_headTexts_iff, policyOf, policyEntries]
  have hne : specEntries r p.toNetworkPolicy ≠ [] := List.cons_ne_nil _ _
  simp only [Option.bind_eq_some_iff, Option.map_eq_some_iff, headOf_iff hne]
  constructor
  · rintro ⟨head, ⟨hapi, hkind, hname, hns, hspec⟩, labels, hlabels, types, -, ingress, hin, egress,
      hout, hshown⟩
    obtain ⟨hapi', hkind', hname', hns', rfl, -, rfl, rfl⟩ := NetworkPolicy.mk.inj hshown
    rw [hapi'] at hapi
    rw [hkind'] at hkind
    rw [hname'] at hname
    rw [hns'] at hns
    rw [hspec] at hlabels hin hout
    rw [hpod] at hlabels
    obtain ⟨hinTexts, hinFilled⟩ := hingress.mp hin
    obtain ⟨houtTexts, houtFilled⟩ := hegress.mp hout
    obtain ⟨hlabelTexts, hfilled⟩ := hselector.mp hlabels
    exact ⟨⟨⟨hapi, hkind, hname, hns⟩, hlabelTexts, hinTexts, houtTexts⟩, hfilled, hinFilled,
      houtFilled⟩
  · rintro ⟨⟨⟨hapi, hkind, hname, hns⟩, hlabels, hin, hout⟩, hfilled, hinFilled, houtFilled⟩
    exact ⟨⟨_, _, _, _, _⟩, ⟨hapi, hkind, hname, hns, rfl⟩, _,
      hpod.trans (hselector.mpr ⟨hlabels, hfilled⟩), _, htypes, _, hingress.mpr ⟨hin, hinFilled⟩,
      _, hegress.mpr ⟨hout, houtFilled⟩, rfl⟩

/-- The policy comes back from its manifest exactly when each of its texts and each of its
collections does. -/
theorem read_policyToYAML_iff (p : ShownPolicy) :
    (BlockYaml.read r (policyToYAML p.toNetworkPolicy)).bind (policyOf lenient) =
        some (shown lenient p.toNetworkPolicy) ↔ ComesBack r lenient p.toNetworkPolicy := by
  have hback : ComesBack r lenient p.toNetworkPolicy ↔
      (∀ t ∈ policyTexts p.toNetworkPolicy, t.Ok r) ∧ PolicyFilled lenient p.toNetworkPolicy :=
    ⟨fun h => ⟨h.texts, h.filled⟩, fun h => ⟨h.1, h.2⟩⟩
  rw [hback]
  apply read_join_iff
  · exact fun T h => written_policy h
  · exact fun h => reads_policy h
  · exact fun P Q v hv h => all_policy hv h
  · exact policyOf_iff p
  · exact List.cons_ne_nil _ _
  · exact List.cons_ne_nil _ _

end KGuardian.PolicyYaml
