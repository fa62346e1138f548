import Mathlib.Data.List.AList

/-!
Label selectors. The library that compiles and matches them,
`k8s.io/apimachinery`, is not part of the repository, so it is a parameter
here. `Documented` states what its API documentation promises, and `reference`
shows that the promises can be kept.
-/
namespace KGuardian.Selectors

/-- A Go `map[string]string`. -/
abbrev Labels := AList fun _ : String => String

def Labels.ofList (entries : List (String × String)) : Labels :=
  entries.foldr (fun e m => AList.insert e.1 e.2 m) ∅

inductive SelectorOp where
  | opIn
  | opNotIn
  | opExists
  | opDoesNotExist
  | other (name : String)
  deriving DecidableEq, Repr

/-- The conversion `metav1.LabelSelectorOperator(op)`. -/
def SelectorOp.ofString (s : String) : SelectorOp :=
  if s = "In" then .opIn
  else if s = "NotIn" then .opNotIn
  else if s = "Exists" then .opExists
  else if s = "DoesNotExist" then .opDoesNotExist
  else .other s

/-- Membership operators need a list of values, existence operators none. -/
def SelectorOp.Takes : SelectorOp → List String → Prop
  | .opIn, values | .opNotIn, values => values ≠ []
  | .opExists, values | .opDoesNotExist, values => values = []
  | .other _, _ => False

instance (op : SelectorOp) (values : List String) : Decidable (op.Takes values) :=
  match op with
  | .opIn | .opNotIn => inferInstanceAs (Decidable (values ≠ []))
  | .opExists | .opDoesNotExist => inferInstanceAs (Decidable (values = []))
  | .other _ => isFalse id

structure LabelSelectorRequirement where
  key : String
  operator : SelectorOp
  values : List String
  deriving DecidableEq

structure LabelSelector where
  matchLabels : Labels
  matchExpressions : List LabelSelectorRequirement
  deriving DecidableEq

def LabelSelectorRequirement.Holds (r : LabelSelectorRequirement) (lbls : Labels) : Prop :=
  match r.operator with
  | .opIn => ∃ v ∈ lbls.lookup r.key, v ∈ r.values
  | .opNotIn => ∀ v ∈ lbls.lookup r.key, v ∉ r.values
  | .opExists => (lbls.lookup r.key).isSome
  | .opDoesNotExist => (lbls.lookup r.key).isNone
  | .other _ => False

instance (r : LabelSelectorRequirement) (lbls : Labels) : Decidable (r.Holds lbls) :=
  match h : r.operator with
  | .opIn => decidable_of_iff (∃ v ∈ lbls.lookup r.key, v ∈ r.values) (by
      simp only [LabelSelectorRequirement.Holds, h])
  | .opNotIn => decidable_of_iff (∀ v ∈ lbls.lookup r.key, v ∉ r.values) (by
      simp only [LabelSelectorRequirement.Holds, h])
  | .opExists => decidable_of_iff ((lbls.lookup r.key).isSome = true) (by
      simp only [LabelSelectorRequirement.Holds, h])
  | .opDoesNotExist => decidable_of_iff ((lbls.lookup r.key).isNone = true) (by
      simp only [LabelSelectorRequirement.Holds, h])
  | .other _ => isFalse (by simp only [LabelSelectorRequirement.Holds, h, not_false_iff])

/-- Every label and every expression is a condition, and all must hold. The
empty selector therefore selects everything. -/
def LabelSelector.Selects (sel : LabelSelector) (lbls : Labels) : Prop :=
  (∀ e ∈ sel.matchLabels.entries, lbls.lookup e.1 = some e.2) ∧
    ∀ r ∈ sel.matchExpressions, r.Holds lbls

instance (sel : LabelSelector) (lbls : Labels) : Decidable (sel.Selects lbls) :=
  inferInstanceAs (Decidable (_ ∧ _))

def ofMatchLabels (m : Labels) : LabelSelector := ⟨m, []⟩

/-- What the matcher and the advisor call in apimachinery, with the label
syntax it enforces. -/
structure Apimachinery where
  Selector : Type
  validKey : String → Prop
  validValue : String → Prop
  labelSelectorAsSelector : LabelSelector → Except String Selector
  matchesLabels : Selector → Labels → Bool

namespace Apimachinery

variable (api : Apimachinery)

structure WellFormedRequirement (r : LabelSelectorRequirement) : Prop where
  key : api.validKey r.key
  values : ∀ v ∈ r.values, api.validValue v
  operator : r.operator.Takes r.values

/-- Label maps that satisfy the syntax, as on every object in the cluster. -/
def ValidLabels (m : Labels) : Prop :=
  ∀ e ∈ m.entries, api.validKey e.1 ∧ api.validValue e.2

structure WellFormed (sel : LabelSelector) : Prop where
  matchLabels : api.ValidLabels sel.matchLabels
  matchExpressions : ∀ r ∈ sel.matchExpressions, api.WellFormedRequirement r

/-- A well-formed selector whose conditions all hold. -/
def Admits (sel : LabelSelector) (lbls : Labels) : Prop :=
  api.WellFormed sel ∧ sel.Selects lbls

/-- The documented behaviour of the selector library. -/
structure Documented : Prop where
  accepts : ∀ sel, api.WellFormed sel → ∃ s, api.labelSelectorAsSelector sel = .ok s ∧
    ∀ lbls, api.matchesLabels s lbls = true ↔ sel.Selects lbls
  rejects : ∀ sel, ¬ api.WellFormed sel → ∃ e, api.labelSelectorAsSelector sel = .error e

variable {api}

theorem admits_ofMatchLabels_iff (m lbls : Labels) :
    api.Admits (ofMatchLabels m) lbls ↔
      api.ValidLabels m ∧ ∀ e ∈ m.entries, lbls.lookup e.1 = some e.2 := by
  constructor
  · intro h
    obtain ⟨hwf, hsel⟩ := h
    exact ⟨hwf.matchLabels, hsel.1⟩
  · intro h
    obtain ⟨hvalid, hall⟩ := h
    exact ⟨⟨hvalid, fun r hr => absurd hr List.not_mem_nil⟩, hall,
      fun r hr => absurd hr List.not_mem_nil⟩

/-- A valid label map selects every object that carries it. -/
theorem admits_self (m : Labels) (hvalid : api.ValidLabels m) :
    api.Admits (ofMatchLabels m) m := by
  rw [admits_ofMatchLabels_iff]
  refine ⟨hvalid, ?_⟩
  intro e he
  exact AList.mem_lookup_iff.mpr he

end Apimachinery

/-! A reference library with the documented label syntax. -/

def alphaNum (c : Char) : Bool :=
  ('a' ≤ c && c ≤ 'z') || ('A' ≤ c && c ≤ 'Z') || ('0' ≤ c && c ≤ '9')

/-- At most 63 letters, digits, dashes, underscores and dots, with a letter or
digit at both ends. -/
def labelName (s : List Char) : Bool :=
  s.length ≤ 63 && s.all (fun c => alphaNum c || c = '-' || c = '_' || c = '.') &&
    s.head?.any alphaNum && s.getLast?.any alphaNum

def labelValue (s : String) : Bool := s.toList.isEmpty || labelName s.toList

/-- A name, or a DNS subdomain and a name with a slash between them. -/
def labelKey (s : String) : Bool :=
  match s.toList.dropWhile (· ≠ '/') with
  | [] => labelName s.toList
  | _ :: name => labelName name && (s.toList.takeWhile (· ≠ '/')).length ≤ 253 &&
      (s.toList.takeWhile (· ≠ '/')).all (fun c => alphaNum c || c = '-' || c = '.') &&
      !(s.toList.takeWhile (· ≠ '/')).isEmpty

def requirementOk (r : LabelSelectorRequirement) : Bool :=
  labelKey r.key && r.values.all labelValue && decide (r.operator.Takes r.values)

def selectorOk (sel : LabelSelector) : Bool :=
  sel.matchLabels.entries.all (fun e => labelKey e.1 && labelValue e.2) &&
    sel.matchExpressions.all requirementOk

def reference : Apimachinery where
  Selector := LabelSelector
  validKey s := labelKey s = true
  validValue s := labelValue s = true
  labelSelectorAsSelector sel :=
    if selectorOk sel then .ok sel else .error "invalid label selector"
  matchesLabels sel lbls := decide (sel.Selects lbls)

theorem requirementOk_iff (r : LabelSelectorRequirement) :
    requirementOk r = true ↔ reference.WellFormedRequirement r := by
  simp only [requirementOk, Bool.and_eq_true, List.all_eq_true, decide_eq_true_eq]
  exact ⟨fun h => ⟨h.1.1, h.1.2, h.2⟩, fun h => ⟨⟨h.key, h.values⟩, h.operator⟩⟩

theorem selectorOk_iff (sel : LabelSelector) :
    selectorOk sel = true ↔ reference.WellFormed sel := by
  simp only [selectorOk, Bool.and_eq_true, List.all_eq_true, requirementOk_iff]
  exact ⟨fun h => ⟨h.1, h.2⟩, fun h => ⟨h.matchLabels, h.matchExpressions⟩⟩

theorem reference_documented : reference.Documented where
  accepts sel h := by
    refine ⟨sel, ?_, fun lbls => decide_eq_true_iff⟩
    simp only [reference, (selectorOk_iff sel).mpr h, if_true]
  rejects sel h := by
    have hno : ¬ selectorOk sel = true := fun hok => h ((selectorOk_iff sel).mp hok)
    exact ⟨"invalid label selector", if_neg hno⟩

end KGuardian.Selectors
