import KGuardian.PolicyDecode
import KGuardian.PolicySemantics

/-!
The advisor's `promote-cluster` without `--target-namespace`
(`cmd/audit_cluster.go`): the namespaces a cluster audit policy selects, and one
namespaced policy for each. YAML output is taken as the object it prints.
-/
namespace KGuardian.PromoteCluster

open Selectors Matcher PolicySemantics TextScan GoJson PolicyDecode

structure Namespace where
  name : String
  labels : Labels

/-! What the CRD schema admits as `spec`. Fields it does not list are pruned;
inside selectors and rules everything is preserved. -/

def specKeys : List String :=
  ["namespaceSelector", "podSelector", "policyTypes", "ingress", "egress"]

def isObject (j : Json) : Bool := j.asObj.isSome

/-- A set of at most two of `Ingress` and `Egress`. -/
def policyTypesAdmitted (j : Json) : Bool :=
  match j.asArr with
  | none => false
  | some items => items.length ≤ 2 && (items.map Json.asStr).Nodup &&
      items.all fun t => t.asStr = some "Ingress" || t.asStr = some "Egress"

def rulesAdmitted (j : Json) : Bool :=
  match j.asArr with
  | none => false
  | some items => items.all isObject

def specAdmitted : Json → Bool
  | .obj fields =>
      (fields.map Prod.fst).Nodup && fields.all (fun e => specKeys.contains e.1) &&
        (fields.lookup "podSelector").any isObject &&
        (fields.lookup "namespaceSelector").all isObject &&
        (fields.lookup "policyTypes").all policyTypesAdmitted &&
        (fields.lookup "ingress").all rulesAdmitted && (fields.lookup "egress").all rulesAdmitted
  | _ => false

/-- One entry of `matchExpressions`, unless it is not an object. -/
def exprRequirement (raw : Json) : Option LabelSelectorRequirement :=
  raw.asObj.map fun expr =>
    ⟨((expr.lookup "key").bind Json.asStr).getD "",
      .ofString (((expr.lookup "operator").bind Json.asStr).getD ""),
      (((expr.lookup "values").bind Json.asArr).getD []).filterMap Json.asStr⟩

def stringEntries (ml : Fields) : Labels :=
  ml.foldl (fun m e => match e.2.asStr with
    | some s => m.insert e.1 s
    | none => m) ∅

def unstructuredToLabelSelector (inp : Fields) : LabelSelector :=
  ⟨stringEntries (((inp.lookup "matchLabels").bind Json.asObj).getD []),
    (((inp.lookup "matchExpressions").bind Json.asArr).getD []).filterMap exprRequirement⟩

/-- The helper `unstructured.NestedFieldCopy(obj, "spec", key)`. -/
def nestedSpecField (cluster : Unstructured) (key : String) : Except String (Option Json) :=
  match cluster.spec with
  | none | some .null => .ok none
  | some (.obj fields) => .ok (fields.lookup key)
  | some _ => .error "reading spec.namespaceSelector"

section

variable (api : Apimachinery)

/-- The namespace list call with the selector's string as label selector. -/
abbrev NamespaceList := Option api.Selector → List Namespace → List Namespace

/-- The API server leaves out only what the label selector does not match. -/
structure NamespaceList.Documented (list : NamespaceList api) : Prop where
  all : ∀ nss, list none nss = nss
  sublist : ∀ s nss, (list (some s) nss).Sublist nss
  complete : ∀ s nss, ∀ ns ∈ nss, api.matchesLabels s ns.labels = true → ns ∈ list (some s) nss

variable {api} (list : NamespaceList api) (nss : List Namespace)

def discoverNamespacesForClusterPolicy (cluster : Unstructured) :
    Except String (List String) :=
  match nestedSpecField cluster "namespaceSelector" with
  | .error e => .error e
  | .ok none | .ok (some .null) => .ok ((list none nss).map Namespace.name)
  | .ok (some (.obj nsSel)) =>
      match api.labelSelectorAsSelector (unstructuredToLabelSelector nsSel) with
      | .error e => .error ("compiling namespaceSelector: " ++ e)
      | .ok s => .ok (((list (some s) nss).filter fun item =>
          api.matchesLabels s item.labels).map Namespace.name)
  | .ok (some _) => .error "spec.namespaceSelector is not an object"

def cleanAnnotations (anns : Labels) : Labels :=
  anns.erase "kubectl.kubernetes.io/last-applied-configuration"

/-- The item built in the loop of `expandClusterPolicyToNamespaced`. -/
def expandedItem (cluster : Unstructured) (spec : Fields) (ns : String) : Unstructured where
  ns := ns
  name := cluster.name
  uid := ""
  generation := 0
  labels := cluster.labels
  annotations := cleanAnnotations cluster.annotations
  spec := some (.obj (deleteKey spec "namespaceSelector"))

def expandClusterPolicyToNamespaced (cluster : Unstructured) (namespaces : List String) :
    Except String (List Unstructured) :=
  match cluster.spec with
  | some (.obj spec) => .ok (namespaces.map (expandedItem cluster spec))
  | _ => .error ("AuditClusterNetworkPolicy " ++ cluster.name ++ " has no spec")

/-- The NetworkPolicy that is printed, as an object. -/
def emitPromoted (u : Unstructured) : Except String Unstructured :=
  match u.spec with
  | none => .error ("AuditNetworkPolicy " ++ u.ns ++ "/" ++ u.name ++ " has no spec")
  | some spec => .ok
      { u with uid := "", generation := 0, annotations := cleanAnnotations u.annotations
               spec := some spec }

def runAuditPromoteCluster (cluster : Unstructured) : Except String (List Unstructured) := do
  let discovered ← discoverNamespacesForClusterPolicy list nss cluster
  if discovered = [] then return []
  let expanded ← expandClusterPolicyToNamespaced cluster discovered
  expanded.mapM emitPromoted

end

/-! The part of a selector that is written strictly: keys spelled exactly and
values of the documented types. The hand-written conversion is the typed decoder
of this part. -/

/-- One field under its exact name, as far as `keep` retains its value. -/
def strictField (name : String) (keep : Json → Option Json) (fields : Fields) : Fields :=
  ((fields.lookup name).bind keep).toList.map fun v => (name, v)

def keepStr (j : Json) : Option Json := j.asStr.map .str

def keepStrs (j : Json) : Option Json := j.asArr.map fun items => .arr (items.filterMap keepStr)

def keepLabels (j : Json) : Option Json :=
  j.asObj.map fun ml => .obj (ml.filterMap fun e => (keepStr e.2).map fun v => (e.1, v))

def keepExpr (j : Json) : Option Json :=
  j.asObj.map fun expr => .obj (strictField "key" keepStr expr ++
    (strictField "operator" keepStr expr ++ strictField "values" keepStrs expr))

def keepExprs (j : Json) : Option Json := j.asArr.map fun items => .arr (items.filterMap keepExpr)

def strictPart (nsSel : Fields) : Fields :=
  strictField "matchLabels" keepLabels nsSel ++ strictField "matchExpressions" keepExprs nsSel

theorem key_of_mem_strictField (name : String) (keep : Json → Option Json) (fields : Fields)
    (e : String × Json) (he : e ∈ strictField name keep fields) : e.1 = name := by
  obtain ⟨v, -, rfl⟩ := List.mem_map.mp he
  rfl

theorem other_of_mem_strictField (name other : String) (keep : Json → Option Json)
    (fields : Fields) (hother : equalFold name other = false) :
    ∀ e ∈ strictField name keep fields, equalFold e.1 other = false := by
  intro e he
  rw [key_of_mem_strictField name keep fields e he]
  exact hother

theorem fieldValues_strictField (name : String) (keep : Json → Option Json) (fields : Fields) :
    fieldValues name (strictField name keep fields) =
      ((fields.lookup name).bind keep).toList := by
  rw [strictField]
  cases (fields.lookup name).bind keep with
  | none => rfl
  | some v => simp [fieldValues]

theorem readMap_keepLabels (ml : Fields) (m : Labels) :
    readMap m (.obj (ml.filterMap fun e => (keepStr e.2).map fun v => (e.1, v))) =
      some (ml.foldl (fun m e => match e.2.asStr with
        | some s => m.insert e.1 s
        | none => m) m) := by
  induction ml generalizing m with
  | nil => rfl
  | cons e rest ih =>
      cases hs : e.2.asStr with
      | none => simpa [keepStr, hs] using ih m
      | some s =>
          have hih := ih (m.insert e.1 s)
          simp only [keepStr, hs, List.filterMap_cons, Option.map_some, List.foldl_cons]
          rw [← hih]
          rfl

theorem decodeSlice_keepStrs (items : List Json) :
    decodeSlice decodeString [.arr (items.filterMap keepStr)] =
      some (items.filterMap Json.asStr) := by
  rw [decodeSlice_arr]
  induction items with
  | nil => rfl
  | cons j rest ih =>
      cases hs : j.asStr with
      | none => simp [keepStr, hs, ← ih]
      | some s =>
          simp only [keepStr, hs, List.filterMap_cons, Option.map_some, List.mapM_cons]
          rw [ih]
          rfl

/-- Decoding the strictly written part of an expression is the conversion of
that expression. -/
theorem decodeRequirement_keepExpr (expr : Fields) :
    decodeRequirement [.obj (strictField "key" keepStr expr ++
      (strictField "operator" keepStr expr ++ strictField "values" keepStrs expr))] =
      exprRequirement (.obj expr) := by
  have hkey : fieldValues "key" (strictField "key" keepStr expr ++
      (strictField "operator" keepStr expr ++ strictField "values" keepStrs expr)) =
      ((expr.lookup "key").bind keepStr).toList := by
    rw [fieldValues_append_left, fieldValues_strictField]
    simp only [List.mem_append]
    intro e h
    rcases h with he | he
    · exact other_of_mem_strictField _ _ _ _ (by decide) e he
    · exact other_of_mem_strictField _ _ _ _ (by decide) e he
  have hoperator : fieldValues "operator" (strictField "key" keepStr expr ++
      (strictField "operator" keepStr expr ++ strictField "values" keepStrs expr)) =
      ((expr.lookup "operator").bind keepStr).toList := by
    rw [fieldValues_append_right _ _ _ (other_of_mem_strictField _ _ _ _ (by decide)),
      fieldValues_append_left _ _ _ (other_of_mem_strictField _ _ _ _ (by decide)),
      fieldValues_strictField]
  have hvalues : fieldValues "values" (strictField "key" keepStr expr ++
      (strictField "operator" keepStr expr ++ strictField "values" keepStrs expr)) =
      ((expr.lookup "values").bind keepStrs).toList := by
    rw [fieldValues_append_right _ _ _ (other_of_mem_strictField _ _ _ _ (by decide)),
      fieldValues_append_right _ _ _ (other_of_mem_strictField _ _ _ _ (by decide)),
      fieldValues_strictField]
  have hk : decodeString ((expr.lookup "key").bind keepStr).toList =
      some (((expr.lookup "key").bind Json.asStr).getD "") := by
    rcases (expr.lookup "key") with _ | (_ | _ | _ | _ | _ | _ | _) <;> rfl
  have ho : decodeOperator ((expr.lookup "operator").bind keepStr).toList =
      some (.ofString (((expr.lookup "operator").bind Json.asStr).getD "")) := by
    rcases (expr.lookup "operator") with _ | (_ | _ | _ | _ | _ | _ | _) <;> rfl
  have hv : decodeSlice decodeString ((expr.lookup "values").bind keepStrs).toList =
      some ((((expr.lookup "values").bind Json.asArr).getD []).filterMap Json.asStr) := by
    rcases (expr.lookup "values") with _ | (_ | _ | _ | _ | _ | items | _)
    case some.arr => exact decodeSlice_keepStrs items
    all_goals rfl
  simp only [decodeRequirement, decodeStruct_obj, decodeField_single, hkey, hoperator, hvalues,
    hk, ho, hv, exprRequirement, Json.asObj, Option.map_some]
  rfl

theorem decodeSlice_keepExprs (items : List Json) :
    decodeSlice decodeRequirement [.arr (items.filterMap keepExpr)] =
      some (items.filterMap exprRequirement) := by
  rw [decodeSlice_arr]
  induction items with
  | nil => rfl
  | cons j rest ih =>
      cases ho : j.asObj with
      | none => simpa [keepExpr, exprRequirement, ho] using ih
      | some expr =>
          have hj : j = .obj expr := by
            cases j <;> simp_all [Json.asObj]
          subst hj
          have hexpr := decodeRequirement_keepExpr expr
          simp only [keepExpr, List.filterMap_cons, Json.asObj, Option.map_some, List.mapM_cons]
          rw [hexpr, ih]
          rfl

theorem decodeSelector_strictPart (nsSel : Fields) :
    decodeSelector [.obj (strictPart nsSel)] =
      some (unstructuredToLabelSelector nsSel) := by
  have hlabels : fieldValues "matchLabels" (strictPart nsSel) =
      ((nsSel.lookup "matchLabels").bind keepLabels).toList := by
    rw [strictPart, fieldValues_append_left _ _ _ (other_of_mem_strictField _ _ _ _ (by decide)),
      fieldValues_strictField]
  have hexprs : fieldValues "matchExpressions" (strictPart nsSel) =
      ((nsSel.lookup "matchExpressions").bind keepExprs).toList := by
    rw [strictPart, fieldValues_append_right _ _ _ (other_of_mem_strictField _ _ _ _ (by decide)),
      fieldValues_strictField]
  have hl : decodeMap ((nsSel.lookup "matchLabels").bind keepLabels).toList =
      some (stringEntries (((nsSel.lookup "matchLabels").bind Json.asObj).getD [])) := by
    rcases (nsSel.lookup "matchLabels") with _ | (_ | _ | _ | _ | _ | _ | ml)
    case some.obj =>
      have hml := readMap_keepLabels ml ∅
      simp only [decodeMap, decodeEach, Option.bind_some, keepLabels, Json.asObj, Option.map_some,
        Option.toList_some, List.foldlM_cons, hml, Option.getD_some]
      rfl
    all_goals rfl
  have he : decodeSlice decodeRequirement
      ((nsSel.lookup "matchExpressions").bind keepExprs).toList =
      some ((((nsSel.lookup "matchExpressions").bind Json.asArr).getD []).filterMap
        exprRequirement) := by
    rcases (nsSel.lookup "matchExpressions") with _ | (_ | _ | _ | _ | _ | items | _)
    case some.arr => exact decodeSlice_keepExprs items
    all_goals rfl
  simp only [decodeSelector, decodeStruct_obj, decodeField_single, hlabels, hexprs, hl, he]
  rfl

/-- The selector that the strictly written part of the field decodes to. -/
def strictSelector (cluster : Unstructured) : Option LabelSelector :=
  match nestedSpecField cluster "namespaceSelector" with
  | .ok (some (.obj nsSel)) => decodeSelector [.obj (strictPart nsSel)]
  | _ => none

section

variable (api : Apimachinery) (nss : List Namespace)

/-- A missing selector selects every namespace. -/
def selects (sel : Option LabelSelector) (ns : Namespace) : Bool :=
  sel.all fun s => selectorMatchesLabels api s ns.labels

/-- Which listed namespaces are selected does not depend on parts of the
namespaceSelector that are not strictly written. -/
def SelectionKept (policy : AuditClusterNetworkPolicy) (cluster : Unstructured) : Prop :=
  ∀ ns ∈ nss, selects api policy.spec.namespaceSelector ns = selects api (strictSelector cluster) ns

/-- The lookup knows the listed namespaces with their labels, and pods only in
these. -/
structure Consistent (lookup : Lookup) : Prop where
  sound : lookup.Sound
  labels : ∀ name lbls, lookup.getNamespaceLabels name = some lbls ↔
    ∃ ns ∈ nss, ns.name = name ∧ ns.labels = lbls
  pods : ∀ ns name pod, lookup.getPod ns name = some pod → ∃ n ∈ nss, n.name = ns

/-- The verdict of the emitted policy in the namespace of the subject pod. -/
def promotedVerdict (emitted : List Unstructured) (flow : Flow) (lookup : Lookup)
    (d : Direction) : Verdict :=
  match subjectPod flow d lookup with
  | none => .notApplicable
  | some subject =>
      match (emitted.filterMap unstructuredToPolicy).find? fun p => p.ns = subject.ns with
      | none => .notApplicable
      | some p => verdictIn d (matchPolicy api flow p lookup)

/-- One policy for each namespace that the cluster policy selects, and the same
verdicts. -/
structure KeepsVerdicts (policy : AuditClusterNetworkPolicy) (emitted : List Unstructured) :
    Prop where
  once : (emitted.map Unstructured.ns).Nodup
  matching : ∀ name, name ∈ emitted.map Unstructured.ns ↔
    ∃ ns ∈ nss, ns.name = name ∧ selects api policy.spec.namespaceSelector ns = true
  verdicts : ∀ lookup flow, Consistent nss lookup → ∀ r ∈ matchCluster api flow policy lookup,
    promotedVerdict api emitted flow lookup r.direction = r.verdict

/-- The fields shared with NetworkPolicy are decoded the same without the
namespaceSelector. -/
theorem decodeSpecFields_deleteKey (fields : Fields) :
    decodeSpecFields [deleteKey fields "namespaceSelector"] = decodeSpecFields [fields] := by
  have hfield {α : Type} (dec : Decoder α) (name : String)
      (hname : equalFold "namespaceSelector" name = false) :=
    decodeField_deleteKey dec fields name "namespaceSelector" hname
  simp only [decodeSpecFields, hfield _ "podSelector" (by decide),
    hfield _ "ingress" (by decide), hfield _ "egress" (by decide),
    hfield _ "policyTypes" (by decide)]

/-- The policy that a cluster policy is promoted to in one namespace. -/
def promoted (policy : AuditClusterNetworkPolicy) (ns : String) : AuditNetworkPolicy :=
  ⟨ns, policy.name, "", 0, policy.spec.toNetworkPolicySpec⟩

theorem spec_of_decoded {cluster : Unstructured} {fields : Fields}
    (hspec : cluster.spec = some (.obj fields)) {policy : AuditClusterNetworkPolicy}
    (hdecode : unstructuredToClusterPolicy cluster = some policy) :
    policy.name = cluster.name ∧
      decodeSpecFields [fields] = some policy.spec.toNetworkPolicySpec ∧
      decodeNamespaceSelector [fields] = some policy.spec.namespaceSelector := by
  rw [unstructuredToClusterPolicy, hspec, Option.getD_some, Option.map_eq_some_iff] at hdecode
  obtain ⟨spec, hfields, rfl⟩ := hdecode
  simp only [decodeClusterSpec, decodeStruct_obj, Option.bind_eq_bind,
    Option.bind_eq_some_iff] at hfields
  obtain ⟨base, hbase, nsSel, hns, hpure⟩ := hfields
  cases hpure
  exact ⟨rfl, hbase, hns⟩

theorem fields_of_admitted {cluster : Unstructured}
    (hadmitted : cluster.spec.any specAdmitted = true) :
    ∃ fields, cluster.spec = some (.obj fields) ∧ (fields.map Prod.fst).Nodup ∧
      (∀ e ∈ fields, e.1 ∈ specKeys) ∧
      ∀ j ∈ fields.lookup "namespaceSelector", ∃ nsSel, j = .obj nsSel := by
  obtain ⟨j, hj, hok⟩ := Option.any_eq_true _ _ |>.mp hadmitted
  cases j with
  | obj fields =>
      simp only [specAdmitted, Bool.and_eq_true, decide_eq_true_eq, List.all_eq_true] at hok
      obtain ⟨⟨⟨⟨⟨⟨hnodup, hkeys⟩, -⟩, hns⟩, -⟩, -⟩, -⟩ := hok
      refine ⟨fields, hj, hnodup, fun e he => by simpa using hkeys e he, ?_⟩
      intro v hv
      have hobj : isObject v = true := by
        have hv' : fields.lookup "namespaceSelector" = some v := hv
        simpa [hv'] using hns
      cases v <;> simp_all [isObject, Json.asObj]
  | null => simp [specAdmitted] at hok
  | bool b => simp [specAdmitted] at hok
  | int n => simp [specAdmitted] at hok
  | float t => simp [specAdmitted] at hok
  | str t => simp [specAdmitted] at hok
  | arr items => simp [specAdmitted] at hok

variable {api nss} {list : NamespaceList api} (hlist : list.Documented)
include hlist

/-- Discovery finds the namespaces that the strictly written part selects, each
once. -/
theorem discover_spec {cluster : Unstructured}
    (hadmitted : cluster.spec.any specAdmitted = true) (hnames : (nss.map Namespace.name).Nodup)
    {names : List String}
    (hdiscover : discoverNamespacesForClusterPolicy list nss cluster = .ok names) :
    names.Nodup ∧ ∀ name, name ∈ names ↔
      ∃ ns ∈ nss, ns.name = name ∧ selects api (strictSelector cluster) ns = true := by
  obtain ⟨fields, hspec, -, -, hobj⟩ := fields_of_admitted hadmitted
  cases hsel : fields.lookup "namespaceSelector" with
  | none =>
      simp only [discoverNamespacesForClusterPolicy, nestedSpecField, hspec, hsel, hlist.all,
        Except.ok.injEq] at hdiscover
      subst hdiscover
      refine ⟨hnames, fun name => ?_⟩
      simp [strictSelector, nestedSpecField, hspec, hsel, selects]
  | some j =>
      obtain ⟨nsSel, rfl⟩ := hobj j hsel
      have hstrict : strictSelector cluster = some (unstructuredToLabelSelector nsSel) := by
        simp only [strictSelector, nestedSpecField, hspec, hsel, decodeSelector_strictPart]
      simp only [discoverNamespacesForClusterPolicy, nestedSpecField, hspec, hsel] at hdiscover
      cases hcompile : api.labelSelectorAsSelector (unstructuredToLabelSelector nsSel) with
      | error e => simp [hcompile] at hdiscover
      | ok s =>
          simp only [hcompile, Except.ok.injEq] at hdiscover
          subst hdiscover
          have hselects (ns : Namespace) : selects api (strictSelector cluster) ns =
              api.matchesLabels s ns.labels := by
            simp [selects, hstrict, selectorMatchesLabels, hcompile]
          constructor
          · exact hnames.sublist ((List.filter_sublist.trans (hlist.sublist s nss)).map _)
          · intro name
            simp only [List.mem_map, List.mem_filter, hselects]
            constructor
            · intro h
              obtain ⟨ns, ⟨hmem, hmatch⟩, rfl⟩ := h
              exact ⟨ns, (hlist.sublist s nss).subset hmem, rfl, hmatch⟩
            · intro h
              obtain ⟨ns, hmem, rfl, hmatch⟩ := h
              exact ⟨ns, ⟨hlist.complete s nss ns hmem hmatch, hmatch⟩, rfl⟩

omit hlist in
theorem emitted_of_expanded {cluster : Unstructured} {fields : Fields}
    (hspec : cluster.spec = some (.obj fields)) {policy : AuditClusterNetworkPolicy}
    (hdecode : unstructuredToClusterPolicy cluster = some policy) (names : List String)
    {emitted : List Unstructured}
    (hemit : (names.map (expandedItem cluster fields)).mapM emitPromoted = .ok emitted) :
    emitted.map Unstructured.ns = names ∧
      emitted.filterMap unstructuredToPolicy = names.map (promoted policy) := by
  obtain ⟨hname, hbase, -⟩ := spec_of_decoded hspec hdecode
  have hfields : decodeSpec [.obj (deleteKey fields "namespaceSelector")] =
      some policy.spec.toNetworkPolicySpec := by
    rw [decodeSpec, decodeStruct_obj, decodeSpecFields_deleteKey, hbase]
  induction names generalizing emitted with
  | nil =>
      cases hemit
      exact ⟨rfl, rfl⟩
  | cons ns rest ih =>
      simp only [List.map_cons, List.mapM_cons, emitPromoted, expandedItem] at hemit
      cases hrest : (rest.map (expandedItem cluster fields)).mapM emitPromoted with
      | error e =>
          rw [hrest] at hemit
          cases hemit
      | ok tail =>
          rw [hrest] at hemit
          cases hemit
          obtain ⟨hns, hpolicies⟩ := ih hrest
          refine ⟨by rw [List.map_cons, hns], ?_⟩
          rw [List.filterMap_cons, unstructuredToPolicy]
          simp only [Option.getD_some, hfields, Option.map_some, hpolicies, List.map_cons, promoted,
            hname]

/-- A successful run: the discovered namespaces and what was emitted for them. -/
theorem run_spec {cluster : Unstructured} (hadmitted : cluster.spec.any specAdmitted = true)
    (hnames : (nss.map Namespace.name).Nodup) {policy : AuditClusterNetworkPolicy}
    (hdecode : unstructuredToClusterPolicy cluster = some policy) {emitted : List Unstructured}
    (hrun : runAuditPromoteCluster list nss cluster = .ok emitted) :
    (emitted.map Unstructured.ns).Nodup ∧
      (∀ name, name ∈ emitted.map Unstructured.ns ↔
        ∃ ns ∈ nss, ns.name = name ∧ selects api (strictSelector cluster) ns = true) ∧
      emitted.filterMap unstructuredToPolicy =
        (emitted.map Unstructured.ns).map (promoted policy) := by
  obtain ⟨fields, hspec, -⟩ := fields_of_admitted hadmitted
  cases hdiscover : discoverNamespacesForClusterPolicy list nss cluster with
  | error e =>
      rw [runAuditPromoteCluster, hdiscover] at hrun
      cases hrun
  | ok names =>
      obtain ⟨hnodup, hmem⟩ := discover_spec hlist hadmitted hnames hdiscover
      have hemitted : emitted.map Unstructured.ns = names ∧
          emitted.filterMap unstructuredToPolicy = names.map (promoted policy) := by
        by_cases hnil : names = []
        · subst hnil
          rw [runAuditPromoteCluster, hdiscover] at hrun
          cases hrun
          exact ⟨rfl, rfl⟩
        · rw [runAuditPromoteCluster, hdiscover] at hrun
          simp only [Except.bind, bind, hnil, if_false, expandClusterPolicyToNamespaced,
            hspec] at hrun
          exact emitted_of_expanded hspec hdecode names hrun
      rw [hemitted.1, hemitted.2]
      exact ⟨hnodup, hmem, rfl⟩

omit hlist in
theorem eq_of_name (hnames : (nss.map Namespace.name).Nodup) {n n' : Namespace} (hn : n ∈ nss)
    (hn' : n' ∈ nss) (hname : n.name = n'.name) : n = n' :=
  List.inj_on_of_nodup_map hnames hn hn' hname

omit hlist in
/-- Under a consistent lookup the gate of the evaluator is the selection in the
list. -/
theorem namespaceGate_listed {lookup : Lookup}
    (hlookup : Consistent nss lookup) (policy : AuditClusterNetworkPolicy) (subject : Pod)
    {n : Namespace} (hn : n ∈ nss) (hname : n.name = subject.ns) :
    namespaceGateCluster api policy.spec subject lookup =
      selects api policy.spec.namespaceSelector n := by
  have hlabels : lookup.getNamespaceLabels subject.ns = some n.labels :=
    (hlookup.labels _ _).mpr ⟨n, hn, hname, rfl⟩
  cases hsel : policy.spec.namespaceSelector with
  | none => simp [namespaceGateCluster, selects, hsel]
  | some sel => simp [namespaceGateCluster, selects, hsel, hlabels]

omit hlist in
theorem find_promoted (policy : AuditClusterNetworkPolicy) (names : List String) (ns : String) :
    (names.map (promoted policy)).find? (fun p => p.ns = ns) =
      if ns ∈ names then some (promoted policy ns) else none := by
  induction names with
  | nil => rfl
  | cons name rest ih =>
      by_cases hname : name = ns
      · subst hname
        simp [promoted]
      · have hne : ns ≠ name := Ne.symm hname
        simp [promoted, hname, hne] at ih ⊢
        exact ih

omit hlist in
theorem promotedVerdict_eq (hnames : (nss.map Namespace.name).Nodup)
    {policy : AuditClusterNetworkPolicy} {emitted : List Unstructured}
    (hpolicies : emitted.filterMap unstructuredToPolicy =
      (emitted.map Unstructured.ns).map (promoted policy))
    (hmatching : ∀ name, name ∈ emitted.map Unstructured.ns ↔
      ∃ ns ∈ nss, ns.name = name ∧ selects api policy.spec.namespaceSelector ns = true)
    {lookup : Lookup} (hlookup : Consistent nss lookup) (flow : Flow) (d : Direction)
    (hd : d ∈ effectivePolicyTypesCluster policy.spec) :
    promotedVerdict api emitted flow lookup d =
      (matchClusterDirection api flow policy lookup d).verdict := by
  rw [verdict_matchClusterDirection, promotedVerdict, hpolicies]
  cases hsubject : subjectPod flow d lookup with
  | none => rfl
  | some subject =>
      have hpod : ∃ n ∈ nss, n.name = subject.ns := by
        cases d with
        | ingress => exact (hlookup.sound _ _ _ hsubject).1 ▸ hlookup.pods _ _ _ hsubject
        | egress => exact (hlookup.sound _ _ _ hsubject).1 ▸ hlookup.pods _ _ _ hsubject
        | other name => simp [subjectPod] at hsubject
      obtain ⟨n, hn, hname⟩ := hpod
      have hgate := @namespaceGate_listed api nss lookup hlookup policy subject n hn hname
      have hlisted : subject.ns ∈ emitted.map Unstructured.ns ↔
          selects api policy.spec.namespaceSelector n = true := by
        rw [hmatching]
        constructor
        · intro h
          obtain ⟨n', hn', hname', hsel⟩ := h
          rwa [eq_of_name hnames hn hn' (hname.trans hname'.symm)]
        · exact fun hsel => ⟨n, hn, hname, hsel⟩
      simp only [find_promoted]
      by_cases hmem : subject.ns ∈ emitted.map Unstructured.ns
      · have hverdict :=
          verdictIn_matchPolicy api flow (promoted policy subject.ns) lookup d hd
        rw [verdict_matchDirection, hsubject] at hverdict
        simp only [if_pos hmem, hverdict, gatedVerdict, Option.any_some, hgate, hlisted.mp hmem]
        simp only [promoted, decide_true]
        rfl
      · have hsel : selects api policy.spec.namespaceSelector n = false := by
          simpa using mt hlisted.mpr hmem
        simp only [if_neg hmem, gatedVerdict, Option.any_some, hgate, hsel, Bool.false_and,
          Bool.false_eq_true, if_false]

end

/-- A promotion keeps the verdicts of the audit exactly when the loosely written
parts of the namespaceSelector do not decide which namespaces it selects. -/
theorem runAuditPromoteCluster_keeps_iff (api : Apimachinery) (list : NamespaceList api)
    (hlist : list.Documented) (nss : List Namespace) (hnames : (nss.map Namespace.name).Nodup)
    (cluster : Unstructured) (hadmitted : cluster.spec.any specAdmitted = true)
    (policy : AuditClusterNetworkPolicy)
    (hdecode : unstructuredToClusterPolicy cluster = some policy) (emitted : List Unstructured)
    (hrun : runAuditPromoteCluster list nss cluster = .ok emitted) :
    KeepsVerdicts api nss policy emitted ↔ SelectionKept api nss policy cluster := by
  obtain ⟨honce, hmem, hpolicies⟩ := run_spec hlist hadmitted hnames hdecode hrun
  constructor
  · intro hkeeps ns hns
    have hboth : selects api policy.spec.namespaceSelector ns = true ↔
        selects api (strictSelector cluster) ns = true := by
      have htyped := hkeeps.matching ns.name
      rw [hmem] at htyped
      constructor
      · intro hsel
        obtain ⟨ns', hns', hname, hsel'⟩ := htyped.mpr ⟨ns, hns, rfl, hsel⟩
        rwa [eq_of_name hnames hns hns' hname.symm]
      · intro hsel
        obtain ⟨ns', hns', hname, hsel'⟩ := htyped.mp ⟨ns, hns, rfl, hsel⟩
        rwa [eq_of_name hnames hns hns' hname.symm]
    exact Bool.eq_iff_iff.mpr hboth
  · intro hkept
    have hmatching (name : String) : name ∈ emitted.map Unstructured.ns ↔
        ∃ ns ∈ nss, ns.name = name ∧ selects api policy.spec.namespaceSelector ns = true := by
      rw [hmem]
      constructor
      · intro h
        obtain ⟨ns, hns, hname, hsel⟩ := h
        exact ⟨ns, hns, hname, (hkept ns hns).trans hsel⟩
      · intro h
        obtain ⟨ns, hns, hname, hsel⟩ := h
        exact ⟨ns, hns, hname, (hkept ns hns).symm.trans hsel⟩
    refine ⟨honce, hmatching, ?_⟩
    intro lookup flow hlookup r hr
    obtain ⟨d, hd, rfl⟩ := List.mem_map.mp hr
    rw [direction_matchClusterDirection]
    exact promotedVerdict_eq hnames hpolicies hmatching hlookup flow d hd

theorem decodeNamespaceSelector_admitted {fields : Fields} (hnodup : (fields.map Prod.fst).Nodup)
    (hkeys : ∀ e ∈ fields, e.1 ∈ specKeys) :
    decodeNamespaceSelector [fields] =
      decodePtr decodeSelector (fields.lookup "namespaceSelector").toList := by
  have hfold : ∀ k ∈ specKeys, equalFold k "namespaceSelector" = true →
      k = "namespaceSelector" := by decide
  rw [decodeNamespaceSelector, decodeField_single,
    fieldValues_exact fields "namespaceSelector" hnodup fun e he => hfold e.1 (hkeys e he)]

/-- A selector in which nothing is loosely written is promoted faithfully. -/
theorem selectionKept_of_strict (api : Apimachinery) (nss : List Namespace)
    (cluster : Unstructured) (hadmitted : cluster.spec.any specAdmitted = true)
    (policy : AuditClusterNetworkPolicy)
    (hdecode : unstructuredToClusterPolicy cluster = some policy)
    (hstrict : ∀ nsSel, nestedSpecField cluster "namespaceSelector" = .ok (some (.obj nsSel)) →
      strictPart nsSel = nsSel) : SelectionKept api nss policy cluster := by
  obtain ⟨fields, hspec, hnodup, hkeys, hobj⟩ := fields_of_admitted hadmitted
  obtain ⟨-, -, hdecoded⟩ := spec_of_decoded hspec hdecode
  rw [decodeNamespaceSelector_admitted hnodup hkeys] at hdecoded
  have hsame : policy.spec.namespaceSelector = strictSelector cluster := by
    cases hsel : fields.lookup "namespaceSelector" with
    | none =>
        rw [hsel] at hdecoded
        rw [← Option.some.inj hdecoded]
        simp [strictSelector, nestedSpecField, hspec, hsel]
    | some j =>
        obtain ⟨nsSel, rfl⟩ := hobj j hsel
        have hfield : nestedSpecField cluster "namespaceSelector" = .ok (some (.obj nsSel)) := by
          simp [nestedSpecField, hspec, hsel]
        have hpart := hstrict nsSel hfield
        have hsel' : strictSelector cluster = some (unstructuredToLabelSelector nsSel) := by
          simp [strictSelector, hfield, decodeSelector_strictPart]
        have hplain := decodeSelector_strictPart nsSel
        rw [hpart] at hplain
        rw [hsel, Option.toList_some, decodePtr_obj, hplain, Option.map_some] at hdecoded
        rw [← Option.some.inj hdecoded]
        exact hsel'.symm
  intro ns _
  rw [hsame]

/-! Two teams, and the two spellings of a selector for one of them. -/

def filterList : NamespaceList reference
  | none, nss => nss
  | some s, nss => nss.filter fun ns => reference.matchesLabels s ns.labels

theorem filterList_documented : filterList.Documented where
  all _ := rfl
  sublist _ _ := List.filter_sublist
  complete _ _ _ hns hmatch := List.mem_filter.mpr ⟨hns, hmatch⟩

def teams : List Namespace :=
  [⟨"pay", Labels.ofList [("team", "payments")]⟩, ⟨"web", Labels.ofList [("team", "web")]⟩]

def teamPolicy (key : String) : Unstructured where
  ns := ""
  name := "lockdown"
  uid := "51be"
  generation := 1
  labels := ∅
  annotations := ∅
  spec := some (.obj [("podSelector", .obj []),
    ("namespaceSelector", .obj [(key, .obj [("team", .str "payments")])])])

def typedTeamPolicy : AuditClusterNetworkPolicy :=
  ⟨"lockdown", "51be", 1, ⟨⟨⟨∅, []⟩, [], [], []⟩,
    some (ofMatchLabels (Labels.ofList [("team", "payments")]))⟩⟩

theorem promote_exact_key : ∃ emitted,
    runAuditPromoteCluster filterList teams (teamPolicy "matchLabels") = .ok emitted ∧
      emitted.map Unstructured.ns = ["pay"] ∧
        KeepsVerdicts reference teams typedTeamPolicy emitted :=
  ⟨_, rfl, rfl, (runAuditPromoteCluster_keeps_iff reference filterList filterList_documented teams
    (by decide) (teamPolicy "matchLabels") (by decide) typedTeamPolicy rfl _ rfl).mpr
      (by unfold SelectionKept; decide)⟩

/-- With a key that differs by case the audit covers one namespace and the
promotion emits policies for both. -/
theorem promote_folded_key : ∃ emitted,
    (teamPolicy "matchlabels").spec.any specAdmitted = true ∧
      unstructuredToClusterPolicy (teamPolicy "matchlabels") = some typedTeamPolicy ∧
      runAuditPromoteCluster filterList teams (teamPolicy "matchlabels") = .ok emitted ∧
      emitted.map Unstructured.ns = ["pay", "web"] ∧
      ¬ KeepsVerdicts reference teams typedTeamPolicy emitted := by
  refine ⟨_, by decide, rfl, rfl, rfl, ?_⟩
  intro hkeeps
  obtain ⟨ns, hns, hname, hsel⟩ := (hkeeps.matching "web").mp (by decide)
  have hnone : ∀ ns ∈ teams, ns.name = "web" →
      selects reference typedTeamPolicy.spec.namespaceSelector ns = false := by decide
  rw [hnone ns hns hname] at hsel
  exact absurd hsel (by decide)

end KGuardian.PromoteCluster
