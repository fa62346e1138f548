import KGuardian.PercentEncoding
import KGuardian.RankedLists
import KGuardian.RetentionPass
import KGuardian.TextScan

/-!
Reading the verdicts back. The assistant writes the filters of a tool call into the query of
a request, the broker reads them and answers with the newest rows that match, and the panel
of the frontend filters what it has loaded once more.
-/
namespace KGuardian.VerdictQueries

open KeyedTables PercentEncoding RankedLists RetentionPass Matcher Utf8Stream
open TextScan (parseSigned)

/-! The request of the assistant. -/

/-- The arguments of a tool call. What is not a text is empty, and a number is the text that
the runtime writes for it. -/
structure VerdictArgs where
  policy : String
  «namespace» : String
  verdict : String
  direction : String
  limit : Option String
  clusterScoped : Bool

inductive FieldName where
  | policy
  | «namespace»
  | verdict
  | direction
  | limit
  deriving DecidableEq

def FieldName.text : FieldName → List Char
  | policy => "policy".toList
  | «namespace» => "namespace".toList
  | verdict => "verdict".toList
  | direction => "direction".toList
  | limit => "limit".toList

def isPositive (number : String) : Bool :=
  number ≠ "0" && number ≠ "NaN" && number.toList.head? ≠ some '-'

def textField (name : FieldName) (value : String) : List (List Char × List Char) :=
  if value = "" then [] else [(name.text, value.toList)]

def namespaceField (args : VerdictArgs) : List (List Char × List Char) :=
  if args.clusterScoped then [(FieldName.namespace.text, [])]
  else textField .namespace args.namespace

def limitField (args : VerdictArgs) : List (List Char × List Char) :=
  match args.limit.filter isPositive with
  | some number => [(FieldName.limit.text, number.toList)]
  | none => []

def queryFields (args : VerdictArgs) : List (List Char × List Char) :=
  textField .policy args.policy ++ (namespaceField args ++ (textField .verdict args.verdict ++
    (textField .direction args.direction ++ limitField args)))

def isFormSafe (b : ℕ) : Bool := isAlphanumeric b || (encode "*-._".toList).contains b

def auditVerdictsQuery (args : VerdictArgs) : List ℕ := formFields isFormSafe (queryFields args)

/-- What the library of the frontend leaves as it is. -/
def isAxiosSafe (b : ℕ) : Bool := isAlphanumeric b || (encode "-_.!~*'():$,".toList).contains b

/-- The query of the frontend, which puts the same fields in the same order. -/
def frontendQuery (args : VerdictArgs) : List ℕ := formFields isAxiosSafe (queryFields args)

/-! The handler of the broker. -/

structure AuditVerdictsQuery where
  policy : Option String := none
  «namespace» : Option String := none
  verdict : Option String := none
  direction : Option String := none
  limit : Option ℤ := none

def fieldName (key : List Char) : Option FieldName :=
  [FieldName.policy, .namespace, .verdict, .direction, .limit].find? fun name => name.text = key

/-- A field that is given twice, or a limit that is no number, fails the request; a field of
another name does not count. -/
def addField (q : AuditVerdictsQuery) (field : List Char × List Char) :
    Option AuditVerdictsQuery :=
  let value := String.ofList field.2
  match fieldName field.1 with
  | some .policy => if q.policy.isSome then none else some { q with policy := some value }
  | some .namespace =>
      if q.namespace.isSome then none else some { q with «namespace» := some value }
  | some .verdict => if q.verdict.isSome then none else some { q with verdict := some value }
  | some .direction => if q.direction.isSome then none else some { q with direction := some value }
  | some .limit =>
      if q.limit.isSome then none
      else (parseSigned 64 value).map fun n => { q with limit := some n }
  | none => some q

def parseQuery (query : List ℕ) : Option AuditVerdictsQuery :=
  (readFields query).foldlM addField {}

def clampAuditLimit (raw : Option ℤ) : ℕ := (max 1 (min (raw.getD 100) 500)).toNat

def normaliseEmptyToNone (raw : Option String) : Option String := raw.filter (· ≠ "")

def validVerdicts : List String := ["Allow", "WouldDeny"]

def validDirections : List String := ["Ingress", "Egress"]

def verdictText : Verdict → String
  | .allow => "Allow"
  | .wouldDeny => "WouldDeny"
  | .notApplicable => "NotApplicable"

def directionText : Direction → String
  | .ingress => "Ingress"
  | .egress => "Egress"
  | .other text => text

/-- The order of the rows: by their time and then by their number, the newest first. -/
def NotOlder (a b : AuditVerdict) : Prop :=
  b.observedAt < a.observedAt ∨ (a.observedAt = b.observedAt ∧ b.id ≤ a.id)

instance : DecidableRel NotOlder := fun _ _ => inferInstanceAs (Decidable (_ ∨ _))

abbrev Newer : AuditVerdict → AuditVerdict → Prop := Before NotOlder

def byText (filter : Option String) (text : String) : Bool :=
  match filter with
  | some wanted => text = wanted
  | none => true

structure Filters where
  policy : Option String
  «namespace» : Option String
  verdict : Option String
  direction : Option String

def Filters.admits (f : Filters) (row : AuditVerdict) : Bool :=
  byText f.policy row.verdict.policyName && byText f.namespace row.verdict.policyNamespace &&
    byText f.verdict (verdictText row.verdict.verdict) &&
    byText f.direction (directionText row.verdict.direction)

def auditVerdictsRows (table : VerdictTable) (f : Filters) (rowLimit : ℕ) : List AuditVerdict :=
  firstBy NotOlder rowLimit (table.rows.filter f.admits)

/-- A refused filter is named with its value. -/
inductive Response where
  | badQuery
  | badRequest (field value : String) (allowed : List String)
  | ok (rows : List AuditVerdict)

def refusal (field : String) (allowed : List String) (filter : Option String) : Option Response :=
  match filter with
  | some value => if value ∈ allowed then none else some (.badRequest field value allowed)
  | none => none

def AuditVerdictsQuery.filters (q : AuditVerdictsQuery) : Filters :=
  ⟨normaliseEmptyToNone q.policy, q.namespace, normaliseEmptyToNone q.verdict,
    normaliseEmptyToNone q.direction⟩

def getAuditVerdicts (table : VerdictTable) (query : List ℕ) : Response :=
  match parseQuery query with
  | none => .badQuery
  | some q =>
      match refusal "verdict" validVerdicts q.filters.verdict with
      | some response => response
      | none =>
          match refusal "direction" validDirections q.filters.direction with
          | some response => response
          | none => .ok (auditVerdictsRows table q.filters (clampAuditLimit q.limit))

/-! The rows. -/

/-- No two rows of a table have one number. -/
theorem ranks_rows (table : VerdictTable) : Ranks NotOlder table.rows where
  total a b := by
    unfold NotOlder
    omega
  trans a b c hab hbc := by
    unfold NotOlder at hab hbc ⊢
    omega
  apart := by
    refine (List.pairwise_map.mp table.keys).imp fun {a b} hid hboth => hid ?_
    unfold NotOlder at hboth
    omega

/-- A row is shown when it matches and few matching rows are newer. -/
theorem mem_auditVerdictsRows (table : VerdictTable) (f : Filters) (n : ℕ) (row : AuditVerdict) :
    row ∈ auditVerdictsRows table f n ↔
      row ∈ table.rows ∧ f.admits row = true ∧
        table.rows.countP (fun other => f.admits other && decide (Newer other row)) < n := by
  have hcount : (table.rows.filter f.admits).countP (fun other => decide (Newer other row)) =
      table.rows.countP fun other => f.admits other && decide (Newer other row) := by
    rw [List.countP_filter]
    exact List.countP_congr fun other _ => by simp [and_comm]
  rw [auditVerdictsRows, ((ranks_rows table).filter f.admits).mem_firstBy, List.mem_filter, hcount,
    and_assoc]

theorem auditVerdictsRows_ordered (table : VerdictTable) (f : Filters) (n : ℕ) :
    (auditVerdictsRows table f n).Pairwise Newer :=
  ((ranks_rows table).filter f.admits).firstBy_ordered n

/-! What the broker reads. -/

def nonEmpty (text : String) : Option String := if text = "" then none else some text

/-- The query that the arguments stand for, but for the limit. -/
def VerdictArgs.query (args : VerdictArgs) (limit : Option ℤ) : AuditVerdictsQuery where
  policy := nonEmpty args.policy
  «namespace» := if args.clusterScoped then some "" else nonEmpty args.namespace
  verdict := nonEmpty args.verdict
  direction := nonEmpty args.direction
  limit := limit

/-- The limit of a call, where the broker can read it. -/
def VerdictArgs.readLimit (args : VerdictArgs) : Option (Option ℤ) :=
  match args.limit.filter isPositive with
  | some number => (parseSigned 64 number).map some
  | none => some none

theorem formSafe : FormSafe isFormSafe := ⟨by decide, by decide, by decide, by decide⟩

theorem axiosSafe : FormSafe isAxiosSafe := ⟨by decide, by decide, by decide, by decide⟩

theorem addPolicy (q : AuditVerdictsQuery) (value : String) (h : q.policy = none) :
    (textField .policy value).foldlM addField q = some { q with policy := nonEmpty value } := by
  have hname : fieldName FieldName.policy.text = some .policy := by decide
  cases q
  obtain rfl : _ = none := h
  unfold textField nonEmpty
  split_ifs with hempty
  · rfl
  · simp [addField, hname]

theorem addNamespace (q : AuditVerdictsQuery) (args : VerdictArgs) (h : q.namespace = none) :
    (namespaceField args).foldlM addField q =
      some { q with «namespace» := (args.query none).namespace } := by
  have hname : fieldName FieldName.namespace.text = some .namespace := by decide
  cases q
  obtain rfl : _ = none := h
  unfold namespaceField textField VerdictArgs.query nonEmpty
  dsimp only
  split_ifs with hcluster hempty
  · simp [addField, hname]
  · rfl
  · simp [addField, hname]

theorem addVerdict (q : AuditVerdictsQuery) (value : String) (h : q.verdict = none) :
    (textField .verdict value).foldlM addField q = some { q with verdict := nonEmpty value } := by
  have hname : fieldName FieldName.verdict.text = some .verdict := by decide
  cases q
  obtain rfl : _ = none := h
  unfold textField nonEmpty
  split_ifs with hempty
  · rfl
  · simp [addField, hname]

theorem addDirection (q : AuditVerdictsQuery) (value : String) (h : q.direction = none) :
    (textField .direction value).foldlM addField q =
      some { q with direction := nonEmpty value } := by
  have hname : fieldName FieldName.direction.text = some .direction := by decide
  cases q
  obtain rfl : _ = none := h
  unfold textField nonEmpty
  split_ifs with hempty
  · rfl
  · simp [addField, hname]

theorem addLimit (q : AuditVerdictsQuery) (args : VerdictArgs) (h : q.limit = none) :
    (limitField args).foldlM addField q =
      args.readLimit.map fun limit => { q with limit := limit } := by
  have hname : fieldName FieldName.limit.text = some .limit := by decide
  cases q
  obtain rfl : _ = none := h
  unfold limitField VerdictArgs.readLimit
  cases args.limit.filter isPositive with
  | none => rfl
  | some number => simp [addField, hname, Function.comp_def]

/-- The broker reads the arguments of the call, whatever their characters. -/
theorem parseQuery_formFields {keeps : ℕ → Bool} (h : FormSafe keeps) (args : VerdictArgs) :
    parseQuery (formFields keeps (queryFields args)) = args.readLimit.map args.query := by
  rw [parseQuery, readFields_formFields h, queryFields, List.foldlM_append,
    addPolicy {} args.policy rfl]
  simp only [Option.bind_eq_bind, Option.bind_some]
  rw [List.foldlM_append, addNamespace _ args rfl]
  simp only [Option.bind_eq_bind, Option.bind_some]
  rw [List.foldlM_append, addVerdict _ args.verdict rfl]
  simp only [Option.bind_eq_bind, Option.bind_some]
  rw [List.foldlM_append, addDirection _ args.direction rfl]
  simp only [Option.bind_eq_bind, Option.bind_some]
  rw [addLimit _ args rfl]
  rfl

/-! What a call is answered with. -/

/-- A row that the call asks for. -/
structure VerdictArgs.Wants (args : VerdictArgs) (row : AuditVerdict) : Prop where
  policy : args.policy ≠ "" → row.verdict.policyName = args.policy
  clusterScoped : args.clusterScoped = true → row.verdict.policyNamespace = ""
  «namespace» : args.clusterScoped = false → args.namespace ≠ "" →
    row.verdict.policyNamespace = args.namespace
  verdict : args.verdict ≠ "" → verdictText row.verdict.verdict = args.verdict
  direction : args.direction ≠ "" → directionText row.verdict.direction = args.direction

theorem normalise_nonEmpty (text : String) :
    normaliseEmptyToNone (nonEmpty text) = nonEmpty text := by
  unfold normaliseEmptyToNone nonEmpty
  split_ifs with h
  · rfl
  · simp [Option.filter, h]

theorem byText_nonEmpty (text wanted : String) :
    byText (nonEmpty wanted) text = true ↔ (wanted ≠ "" → text = wanted) := by
  unfold nonEmpty
  split_ifs with h
  · simp [byText, h]
  · simp [byText, h]

theorem admits_iff_wants (args : VerdictArgs) (limit : Option ℤ) (row : AuditVerdict) :
    (args.query limit).filters.admits row = true ↔ args.Wants row := by
  have hnamespace : byText (args.query limit).namespace row.verdict.policyNamespace = true ↔
      (args.clusterScoped = true → row.verdict.policyNamespace = "") ∧
        (args.clusterScoped = false → args.namespace ≠ "" →
          row.verdict.policyNamespace = args.namespace) := by
    unfold VerdictArgs.query
    cases hcluster : args.clusterScoped with
    | true => simp [byText]
    | false => simp [byText_nonEmpty]
  have hfilters : (args.query limit).filters =
      ⟨nonEmpty args.policy, (args.query limit).namespace, nonEmpty args.verdict,
        nonEmpty args.direction⟩ := by
    simp [AuditVerdictsQuery.filters, VerdictArgs.query, normalise_nonEmpty]
  rw [hfilters]
  simp only [Filters.admits, Bool.and_eq_true, hnamespace, byText_nonEmpty]
  constructor
  · intro h
    exact ⟨h.1.1.1, h.1.1.2.1, h.1.1.2.2, h.1.2, h.2⟩
  · intro h
    exact ⟨⟨⟨h.policy, h.clusterScoped, h.namespace⟩, h.verdict⟩, h.direction⟩

theorem refusal_nonEmpty (field : String) (allowed : List String) (text : String) :
    refusal field allowed (nonEmpty text) = none ↔ text = "" ∨ text ∈ allowed := by
  unfold refusal nonEmpty
  split_ifs with hempty
  · simp [hempty]
  · simp [hempty]

/-- The call whose filters and limit the broker takes. -/
structure VerdictArgs.Valid (args : VerdictArgs) : Prop where
  verdict : args.verdict = "" ∨ args.verdict ∈ validVerdicts
  direction : args.direction = "" ∨ args.direction ∈ validDirections
  limit : args.readLimit ≠ none

theorem not_ok_of_refusal {field : String} {allowed : List String} {filter : Option String}
    {response : Response} (h : refusal field allowed filter = some response)
    (rows : List AuditVerdict) : response ≠ .ok rows := by
  unfold refusal at h
  split at h
  · split_ifs at h
    obtain rfl := Option.some.inj h
    rintro ⟨⟩
  · cases h

section Answers

variable {keeps : ℕ → Bool} (hkeeps : FormSafe keeps) (table : VerdictTable) {args : VerdictArgs}

include hkeeps

theorem getAuditVerdicts_of_valid {limit : Option ℤ} (hlimit : args.readLimit = some limit)
    (hverdict : args.verdict = "" ∨ args.verdict ∈ validVerdicts)
    (hdirection : args.direction = "" ∨ args.direction ∈ validDirections) :
    getAuditVerdicts table (formFields keeps (queryFields args)) =
      .ok (auditVerdictsRows table (args.query limit).filters (clampAuditLimit limit)) := by
  have hfirst : refusal "verdict" validVerdicts (args.query limit).filters.verdict = none := by
    rw [show (args.query limit).filters.verdict = nonEmpty args.verdict from normalise_nonEmpty _]
    exact (refusal_nonEmpty _ _ _).mpr hverdict
  have hsecond :
      refusal "direction" validDirections (args.query limit).filters.direction = none := by
    rw [show (args.query limit).filters.direction = nonEmpty args.direction from
      normalise_nonEmpty _]
    exact (refusal_nonEmpty _ _ _).mpr hdirection
  rw [getAuditVerdicts, parseQuery_formFields hkeeps, hlimit]
  simp only [Option.map_some, hfirst, hsecond]
  rfl

theorem valid_of_ok {rows : List AuditVerdict}
    (h : getAuditVerdicts table (formFields keeps (queryFields args)) = .ok rows) :
    args.Valid := by
  rw [getAuditVerdicts, parseQuery_formFields hkeeps] at h
  cases hlimit : args.readLimit with
  | none =>
      rw [hlimit] at h
      cases h
  | some limit =>
      rw [hlimit] at h
      simp only [Option.map_some] at h
      split at h
      next response hrefusal => exact absurd h (not_ok_of_refusal hrefusal rows)
      next hverdict =>
        split at h
        next response hrefusal => exact absurd h (not_ok_of_refusal hrefusal rows)
        next hdirection =>
          rw [show (args.query limit).filters.verdict = nonEmpty args.verdict from
            normalise_nonEmpty _] at hverdict
          rw [show (args.query limit).filters.direction = nonEmpty args.direction from
            normalise_nonEmpty _] at hdirection
          exact ⟨(refusal_nonEmpty _ _ _).mp hverdict, (refusal_nonEmpty _ _ _).mp hdirection,
            by rw [hlimit]; simp⟩

end Answers

instance (args : VerdictArgs) : DecidablePred args.Wants := fun row =>
  decidable_of_iff _ (admits_iff_wants args none row)

/-- The wanted rows that are newer than a row. -/
def newerWanted (table : VerdictTable) (args : VerdictArgs) (row : AuditVerdict) : ℕ :=
  table.rows.countP fun other => decide (args.Wants other) && decide (Newer other row)

def VerdictArgs.rowLimit (args : VerdictArgs) : ℕ := clampAuditLimit (args.readLimit.getD none)

theorem mem_rows_iff (table : VerdictTable) (args : VerdictArgs) (limit : Option ℤ) (n : ℕ)
    (row : AuditVerdict) :
    row ∈ auditVerdictsRows table (args.query limit).filters n ↔
      row ∈ table.rows ∧ args.Wants row ∧ newerWanted table args row < n := by
  have hcount : (table.rows.countP fun other =>
      (args.query limit).filters.admits other && decide (Newer other row)) =
        newerWanted table args row := by
    refine List.countP_congr fun other _ => ?_
    simp only [Bool.and_eq_true, decide_eq_true_eq, admits_iff_wants]
  rw [mem_auditVerdictsRows, admits_iff_wants, hcount]

/-- A call of the assistant is answered exactly when its filters and its limit are valid, and
then by the newest rows that it asks for, up to the limit, in order. -/
theorem call_answered (table : VerdictTable) (args : VerdictArgs) :
    ((∃ rows, getAuditVerdicts table (auditVerdictsQuery args) = .ok rows) ↔ args.Valid) ∧
      ∀ rows, getAuditVerdicts table (auditVerdictsQuery args) = .ok rows →
        rows.Pairwise Newer ∧
          ∀ row, row ∈ rows ↔ row ∈ table.rows ∧ args.Wants row ∧
            newerWanted table args row < args.rowLimit := by
  have hrows (hvalid : args.Valid) : getAuditVerdicts table (auditVerdictsQuery args) =
      .ok (auditVerdictsRows table (args.query (args.readLimit.getD none)).filters
        args.rowLimit) := by
    obtain ⟨limit, hlimit⟩ := Option.ne_none_iff_exists'.mp hvalid.limit
    have hgetD : args.readLimit.getD none = limit := by rw [hlimit, Option.getD_some]
    rw [VerdictArgs.rowLimit, hgetD]
    exact getAuditVerdicts_of_valid formSafe table hlimit hvalid.verdict hvalid.direction
  constructor
  · constructor
    · rintro ⟨rows, h⟩
      exact valid_of_ok formSafe table h
    · exact fun hvalid => ⟨_, hrows hvalid⟩
  · intro rows h
    have hsame := hrows (valid_of_ok formSafe table h)
    obtain rfl := Response.ok.inj (h.symm.trans hsame)
    exact ⟨auditVerdictsRows_ordered table _ _, mem_rows_iff table args _ _⟩

/-! The panel of the frontend. -/

inductive VerdictTab where
  | wouldDeny
  | allow
  | all
  deriving DecidableEq

def VerdictTab.text : VerdictTab → String
  | wouldDeny => "WouldDeny"
  | allow => "Allow"
  | all => ""

inductive DirectionFilter where
  | all
  | ingress
  | egress

def DirectionFilter.text : DirectionFilter → String
  | all => ""
  | ingress => "Ingress"
  | egress => "Egress"

/-- What the panel asks for, whatever its tab is. -/
def panelArgs (direction : DirectionFilter) : VerdictArgs :=
  ⟨"", "", "", direction.text, some "400", false⟩

/-- The rows that the panel has after it has loaded; an error leaves none. -/
def load (table : VerdictTable) (direction : DirectionFilter) : List AuditVerdict :=
  match getAuditVerdicts table (frontendQuery (panelArgs direction)) with
  | .ok rows => rows
  | _ => []

def policyKey (row : AuditVerdict) : String :=
  if row.verdict.policyNamespace = "" then row.verdict.policyName
  else row.verdict.policyNamespace ++ "/" ++ row.verdict.policyName

def inTab (tab : VerdictTab) (row : AuditVerdict) : Bool :=
  tab = .all || verdictText row.verdict.verdict = tab.text

def isVisible (tab : VerdictTab) (policyFilter : String) (row : AuditVerdict) : Bool :=
  inTab tab row && (policyFilter = "" || policyKey row = policyFilter)

def visible (verdicts : List AuditVerdict) (tab : VerdictTab) (policyFilter : String) :
    List AuditVerdict :=
  verdicts.filter (isVisible tab policyFilter)

theorem load_eq (table : VerdictTable) (direction : DirectionFilter) :
    load table direction =
      auditVerdictsRows table ((panelArgs direction).query (some 400)).filters 400 := by
  have hlimit : (panelArgs direction).readLimit = some (some 400) := by
    cases direction <;> decide
  have hdirection : (panelArgs direction).direction = "" ∨
      (panelArgs direction).direction ∈ validDirections := by
    cases direction <;> decide
  have hrows := getAuditVerdicts_of_valid axiosSafe table hlimit (Or.inl rfl) hdirection
  rw [load, frontendQuery, hrows]
  rfl

theorem isVisible_all_iff (tab : VerdictTab) (row : AuditVerdict) :
    isVisible tab "" row = true ↔ (tab.text ≠ "" → verdictText row.verdict.verdict = tab.text) := by
  cases tab with
  | wouldDeny =>
      by_cases h : verdictText row.verdict.verdict = "WouldDeny" <;>
        simp [isVisible, inTab, VerdictTab.text, h]
  | allow =>
      by_cases h : verdictText row.verdict.verdict = "Allow" <;>
        simp [isVisible, inTab, VerdictTab.text, h]
  | all => simp [isVisible, inTab, VerdictTab.text]

/-- The panel shows a row of its tab exactly when fewer than 400 rows of the direction are
newer, of whatever verdict; so its tab is the beginning of what the broker's own filter would
have given. -/
theorem panel_shows (table : VerdictTable) (direction : DirectionFilter) (tab : VerdictTab)
    (policyFilter : String) :
    (∀ row, row ∈ visible (load table direction) tab policyFilter ↔
        row ∈ table.rows ∧ (panelArgs direction).Wants row ∧
          isVisible tab policyFilter row = true ∧
            newerWanted table (panelArgs direction) row < 400) ∧
      (visible (load table direction) tab policyFilter).Pairwise Newer ∧
      ∃ rows, getAuditVerdicts table
          (frontendQuery { panelArgs direction with verdict := tab.text }) = .ok rows ∧
        visible (load table direction) tab "" <+: rows := by
  rw [load_eq]
  refine ⟨fun row => ?_, (auditVerdictsRows_ordered table _ _).filter _, ?_⟩
  · rw [visible, List.mem_filter, mem_rows_iff, and_assoc, and_assoc]
    exact and_congr_right fun _ => and_congr_right fun _ => and_comm
  · have hlimit : ({ panelArgs direction with verdict := tab.text } : VerdictArgs).readLimit =
        some (some 400) := by
      cases direction <;> rfl
    have hdirection : (panelArgs direction).direction = "" ∨
        (panelArgs direction).direction ∈ validDirections := by
      cases direction <;> decide
    have hverdict : tab.text = "" ∨ tab.text ∈ validVerdicts := by
      cases tab <;> decide
    refine ⟨_, getAuditVerdicts_of_valid axiosSafe table hlimit hverdict hdirection, ?_⟩
    have hadmits : (({ panelArgs direction with verdict := tab.text } : VerdictArgs).query
        (some 400)).filters.admits = fun row => isVisible tab "" row &&
          ((panelArgs direction).query (some 400)).filters.admits row := by
      funext row
      rw [Bool.eq_iff_iff, Bool.and_eq_true, admits_iff_wants, admits_iff_wants, isVisible_all_iff]
      constructor
      · intro h
        exact ⟨h.verdict,
          ⟨h.policy, h.clusterScoped, h.namespace, fun hne => absurd rfl hne, h.direction⟩⟩
      · intro h
        exact ⟨h.2.policy, h.2.clusterScoped, h.2.namespace, h.1, h.2.direction⟩
    rw [auditVerdictsRows, auditVerdictsRows, hadmits, ← List.filter_filter]
    exact ((ranks_rows table).filter _).beginning_filter_firstBy _ _

end KGuardian.VerdictQueries
