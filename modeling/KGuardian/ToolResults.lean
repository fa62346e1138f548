import KGuardian.JsJson
import KGuardian.SortedGroups
import Mathlib.Algebra.BigOperators.Group.List.Lemmas
import Mathlib.Algebra.GroupWithZero.Nat

/-!
Tool results as text for the model (`llm-bridge/src/providers/truncate.ts`). A result that
is too large is cut off, or summed up if it is a list. Lengths are in UTF-16 code units.
-/
namespace KGuardian.ToolResults

open JsJson

def maxToolResultChars : ℕ := 50000

def sampleSize : ℕ := 50

def natText (n : ℕ) : List Char := Nat.toDigits 10 n

def textLength (text : List Char) : ℕ := (JsString.ofText text).length

/-- The text of a result before it is cut off. -/
def rawText : Json → JsString
  | .str s => s
  | data => JsString.ofText (stringify data)

/-- What a tool hands over. No text of the language has `2 ^ 53` units. -/
structure ToolResult where
  data : Json
  error : Option JsString
  bounded : (rawText data).length < 2 ^ 53

def isFalsy : Json → Bool
  | .null => true
  | .bool b => !b
  | .num text => text = ['0']
  | .str s => s.isEmpty
  | .arr _ => false
  | .obj _ => false

mutual

/-- The conversion to a string. A property `toString` of a parsed object cannot be called,
so the conversion throws. -/
def toText : Json → Option JsString
  | .null => some (js "null")
  | .bool true => some (js "true")
  | .bool false => some (js "false")
  | .num text => some (JsString.ofText text)
  | .str s => some s
  | .arr items => joinTexts items
  | .obj fields =>
      if (property (js "toString") fields).isSome then none else some (js "[object Object]")

/-- The items with commas between them, `null` as nothing. -/
def joinTexts : List Json → Option JsString
  | [] => some []
  | [.null] => some []
  | [v] => toText v
  | .null :: w :: rest => (joinTexts (w :: rest)).map fun t => js "," ++ t
  | v :: w :: rest =>
      (toText v).bind fun s => (joinTexts (w :: rest)).map fun t => s ++ js "," ++ t

end

/-- The members that every object inherits, as text. The accessor of the prototype has none
that can be set. -/
def inherited : List (String × Option String) :=
  [("constructor", some "function Object() { [native code] }"),
    ("__defineGetter__", some "function __defineGetter__() { [native code] }"),
    ("__defineSetter__", some "function __defineSetter__() { [native code] }"),
    ("hasOwnProperty", some "function hasOwnProperty() { [native code] }"),
    ("__lookupGetter__", some "function __lookupGetter__() { [native code] }"),
    ("__lookupSetter__", some "function __lookupSetter__() { [native code] }"),
    ("isPrototypeOf", some "function isPrototypeOf() { [native code] }"),
    ("propertyIsEnumerable", some "function propertyIsEnumerable() { [native code] }"),
    ("toString", some "function toString() { [native code] }"),
    ("valueOf", some "function valueOf() { [native code] }"),
    ("__proto__", none),
    ("toLocaleString", some "function toLocaleString() { [native code] }")]

/-- What the name stands for in an empty table. -/
def memberOf (name : JsString) : Option (Option String) :=
  (inherited.find? fun p => js p.1 = name).map Prod.snd

/-- A value of the table of counts: adding to a member that is inherited gives a text. -/
inductive Count where
  | number (n : ℕ)
  | text (s : JsString)
  deriving DecidableEq

def Count.next : Count → Count
  | .number n => .number (n + 1)
  | .text s => .text (s ++ js "1")

def Count.json : Count → Json
  | .number n => .num (natText n)
  | .text s => .str s

abbrev Counts := List (JsString × Count)

/-- The assignment `nsCounts[ns] = (nsCounts[ns] || 0) + 1`. The order is not modelled: the language
lists names that are integers first, this table all names as they come. -/
def countNamespace (counts : Counts) (ns : JsString) : Counts :=
  if counts.any fun p => p.1 = ns then
    counts.map fun p => if p.1 = ns then (ns, p.2.next) else p
  else
    match memberOf ns with
    | none => counts ++ [(ns, .number 1)]
    | some (some member) => counts ++ [(ns, .text (js member ++ js "1"))]
    | some none => counts

/-- The namespace of an item. Reading a property of `null` throws. -/
def namespaceOf : Json → Option JsString
  | .null => none
  | .obj fields =>
      let pod := (property (js "pod_namespace") fields).getD .null
      let svc := (property (js "svc_namespace") fields).getD .null
      toText (if isFalsy pod then if isFalsy svc then .str (js "unknown") else svc else pod)
  | _ => some (js "unknown")

def hasNamespace : List Json → Bool
  | .obj fields :: _ =>
      (property (js "pod_namespace") fields).isSome || (property (js "svc_namespace") fields).isSome
  | _ => false

/-- A summary instead of a list that is too large. -/
structure Envelope where
  total : ℕ
  showing : ℕ
  breakdown : Option Counts
  note : List Char
  sample : List Json

def Envelope.fields (e : Envelope) : Fields :=
  [(js "_truncated", .bool true), (js "_total", .num (natText e.total)),
    (js "_showing", .num (natText e.showing))] ++
  (match e.breakdown with
    | none => []
    | some counts =>
        [(js "_namespace_breakdown", .obj (counts.map fun p => (p.1, p.2.json)))]) ++
  [(js "_note", .str (JsString.ofText e.note)), (js "_sample", .arr e.sample)]

def namespaceNote (total namespaces : ℕ) : List Char :=
  "Result too large (".toList ++ natText total ++ " items across ".toList ++ natText namespaces ++
    " namespaces). Showing first ".toList ++ natText sampleSize ++
    " items. Use namespace filter or pod-specific queries for detailed data.".toList

def plainNote (total : ℕ) : List Char :=
  "Result too large (".toList ++ natText total ++ " items). Showing first ".toList ++
    natText sampleSize ++ " items. Use more specific queries for detailed data.".toList

inductive Serialized where
  | text (s : JsString)
  | envelope (e : Envelope)

def Serialized.string : Serialized → JsString
  | .text s => s
  | .envelope e => JsString.ofText (stringify (.obj e.fields))

/-- The summary of a list. -/
def summarize (items : List Json) : Option Envelope :=
  if hasNamespace items then
    (items.mapM namespaceOf).map fun namespaces =>
      let counts := namespaces.foldl countNamespace []
      ⟨items.length, sampleSize, some counts, namespaceNote items.length counts.length,
        items.take sampleSize⟩
  else
    some ⟨items.length, sampleSize, none, plainNote items.length, items.take sampleSize⟩

def truncationNotice (length : ℕ) : List Char :=
  "\n\n[TRUNCATED — result was ".toList ++ natText length ++
    " characters. Use more specific queries to get detailed data.]".toList

/-- There is no string when it throws. -/
def serializeToolResult (result : ToolResult) : Option Serialized :=
  if (result.error.getD []).isEmpty then
    if isFalsy result.data then some (.text (js "No data returned"))
    else if (rawText result.data).length ≤ maxToolResultChars then
      some (.text (rawText result.data))
    else
      match result.data with
      | .arr items => (summarize items).map Serialized.envelope
      | data =>
          some (.text ((rawText data).take maxToolResultChars ++
            JsString.ofText (truncationNotice (rawText data).length)))
  else some (.text (js "Error: " ++ result.error.getD []))

/-- The fields of a summary agree with each other and with the list. -/
structure Truthful (items : List Json) (e : Envelope) : Prop where
  showing : e.showing = e.sample.length
  total : e.total = items.length
  breakdown : ∀ counts ∈ e.breakdown, ∃ numbers : List ℕ,
    counts.map Prod.snd = numbers.map Count.number ∧ numbers.sum = items.length

/-- There is a string, it is within the limit and an allowance, and a summary is truthful. -/
def BoundedAndTruthful (allowance : ℕ) (result : ToolResult) : Prop :=
  ∃ out, serializeToolResult result = some out ∧
    out.string.length ≤ maxToolResultChars + allowance ∧
    ∀ e, out = .envelope e → ∃ items, result.data = .arr items ∧ Truthful items e

/-- The namespaces with their numbers of items. -/
def tally (namespaces : List JsString) : List (JsString × ℕ) :=
  namespaces.eraseDups.map fun ns => (ns, namespaces.count ns)

/-- The length of a summary by its parts: the fixed texts, the numbers, the namespaces with
their counts and the first items. -/
def summaryLength (items : List Json) (namespaces : Option (List JsString)) : ℕ :=
  textLength (stringify (.arr (items.take sampleSize))) + 2 * (natText items.length).length +
    match namespaces with
    | none => 160
    | some namespaces =>
        textLength (stringify (.obj ((tally namespaces).map fun p => (p.1, .num (natText p.2))))) +
          (natText namespaces.eraseDups.length).length + 222

/-- A list that is too large has fifty items at least, each in a namespace that can be
counted, and its summary is short enough. An error is short enough by itself. -/
def Fits (allowance : ℕ) (result : ToolResult) : Prop :=
  if (result.error.getD []).isEmpty then
    match result.data with
    | .arr items =>
        (rawText result.data).length ≤ maxToolResultChars ∨
          sampleSize ≤ items.length ∧
            if hasNamespace items then
              ∃ namespaces, items.mapM namespaceOf = some namespaces ∧
                (∀ ns ∈ namespaces, memberOf ns = none) ∧
                summaryLength items (some namespaces) ≤ maxToolResultChars + allowance
            else summaryLength items none ≤ maxToolResultChars + allowance
    | _ => True
  else (result.error.getD []).length + 7 ≤ maxToolResultChars + allowance

/-! The table of counts. -/

/-- The entry of a name after so many items. -/
def entryOf (ns : JsString) (n : ℕ) : Option Count :=
  match memberOf ns with
  | none => some (.number n)
  | some (some member) => some (.text (js member ++ (List.replicate n (js "1")).flatten))
  | some none => none

theorem entryOf_next {ns : JsString} {n : ℕ} {entry : Count} (h : entryOf ns n = some entry) :
    entryOf ns (n + 1) = some entry.next := by
  unfold entryOf at h ⊢
  split at h
  · obtain rfl := Option.some.inj h
    rfl
  · obtain rfl := Option.some.inj h
    simp [Count.next, List.replicate_succ', List.append_assoc]
  · exact absurd h (by simp)

/-- What the table is: a name at its first item, with its number of items. -/
def table (namespaces : List JsString) : Counts :=
  namespaces.eraseDups.filterMap fun ns =>
    (entryOf ns (namespaces.count ns)).map fun entry => (ns, entry)

theorem entryOf_eq_none_iff (ns : JsString) (n : ℕ) :
    entryOf ns n = none ↔ memberOf ns = some none := by
  unfold entryOf
  split <;> simp_all

theorem any_table (namespaces : List JsString) (ns : JsString) :
    ((table namespaces).any fun p => p.1 = ns) = true ↔
      ns ∈ namespaces ∧ memberOf ns ≠ some none := by
  simp only [List.any_eq_true, table, List.mem_filterMap, List.mem_eraseDups,
    Option.map_eq_some_iff, decide_eq_true_eq]
  constructor
  · rintro ⟨p, ⟨k, hk, entry, hentry, rfl⟩, rfl⟩
    refine ⟨hk, fun hnone => ?_⟩
    rw [(entryOf_eq_none_iff k _).mpr hnone] at hentry
    exact absurd hentry (by simp)
  · rintro ⟨hmem, hne⟩
    cases hentry : entryOf ns (namespaces.count ns) with
    | none => exact absurd ((entryOf_eq_none_iff ns _).mp hentry) hne
    | some entry => exact ⟨(ns, entry), ⟨ns, hmem, entry, hentry, rfl⟩, rfl⟩

theorem count_concat_of_ne {namespaces : List JsString} {ns k : JsString} (h : k ≠ ns) :
    (namespaces ++ [ns]).count k = namespaces.count k := by
  rw [List.count_append, List.count_singleton, if_neg (by simpa using h.symm), Nat.add_zero]

/-- The names that were there before keep their entries when another one is counted. -/
theorem filterMap_other {namespaces names : List JsString} {ns : JsString}
    (h : ∀ k ∈ names, k = ns → memberOf k = some none) :
    (names.filterMap fun k =>
        (entryOf k ((namespaces ++ [ns]).count k)).map fun entry => (k, entry)) =
      names.filterMap fun k => (entryOf k (namespaces.count k)).map fun entry => (k, entry) := by
  apply List.filterMap_congr
  intro k hk
  by_cases hns : k = ns
  · rw [(entryOf_eq_none_iff k _).mpr (h k hk hns), (entryOf_eq_none_iff k _).mpr (h k hk hns)]
  · rw [count_concat_of_ne hns]

theorem countNamespace_table (namespaces : List JsString) (ns : JsString) :
    countNamespace (table namespaces) ns = table (namespaces ++ [ns]) := by
  unfold countNamespace
  by_cases hset : memberOf ns = some none
  · have hany : ¬ ((table namespaces).any fun p => p.1 = ns) = true := by
      rw [any_table]
      exact fun h => h.2 hset
    rw [if_neg hany, hset]
    simp only [table]
    rw [SortedGroups.eraseDups_concat]
    split
    · exact (filterMap_other fun k _ hk => hk ▸ hset).symm
    · rw [List.filterMap_append, filterMap_other fun k _ hk => hk ▸ hset]
      simp [(entryOf_eq_none_iff ns _).mpr hset]
  · by_cases hmem : ns ∈ namespaces
    · rw [if_pos ((any_table namespaces ns).mpr ⟨hmem, hset⟩)]
      unfold table
      rw [SortedGroups.eraseDups_concat, if_pos hmem, List.map_filterMap]
      apply List.filterMap_congr
      intro k _
      rw [Option.map_map]
      by_cases hns : k = ns
      · subst hns
        cases hentry : entryOf k (namespaces.count k) with
        | none => exact absurd ((entryOf_eq_none_iff k _).mp hentry) hset
        | some entry => simp [entryOf_next hentry]
      · rw [count_concat_of_ne hns]
        simp [Function.comp_def, hns]
    · have hany : ¬ ((table namespaces).any fun p => p.1 = ns) = true := by
        rw [any_table]
        exact fun h => hmem h.1
      have hone : (namespaces ++ [ns]).count ns = 1 := by
        rw [List.count_append, List.count_eq_zero.mpr hmem]
        simp
      have hold : ∀ k ∈ namespaces.eraseDups, k = ns → memberOf k = some none := by
        intro k hk hns
        exact absurd (hns ▸ List.mem_eraseDups.mp hk) hmem
      rw [if_neg hany]
      simp only [table]
      rw [SortedGroups.eraseDups_concat, if_neg hmem, List.filterMap_append, filterMap_other hold]
      simp only [List.filterMap_cons, List.filterMap_nil, hone, entryOf]
      split <;> simp_all

theorem foldl_countNamespace (namespaces : List JsString) :
    namespaces.foldl countNamespace [] = table namespaces := by
  induction namespaces using List.reverseRecOn with
  | nil => rfl
  | append_singleton namespaces ns ih =>
      rw [List.foldl_append, ih]
      exact countNamespace_table namespaces ns

/-- Each item is in one namespace. -/
theorem sum_tally (namespaces : List JsString) :
    ((tally namespaces).map Prod.snd).sum = namespaces.length := by
  have hperm : namespaces.eraseDups.Perm namespaces.dedup := by
    rw [List.perm_ext_iff_of_nodup (SortedGroups.nodup_eraseDups _) (List.nodup_dedup _)]
    intro ns
    rw [List.mem_eraseDups, List.mem_dedup]
  have hmap : (tally namespaces).map Prod.snd =
      namespaces.eraseDups.map fun ns => namespaces.count ns := by
    simp [tally, Function.comp_def]
  have hbeq : (List.instBEq : BEq JsString) = instBEqOfDecidableEq := lawful_beq_subsingleton _ _
  rw [hmap, (hperm.map _).sum_eq, hbeq]
  exact List.sum_map_count_dedup_eq_length namespaces

theorem table_eq_tally {namespaces : List JsString}
    (h : ∀ ns ∈ namespaces, memberOf ns = none) :
    table namespaces = (tally namespaces).map fun p => (p.1, Count.number p.2) := by
  unfold table tally
  rw [List.map_map, ← List.filterMap_eq_map]
  apply List.filterMap_congr
  intro k hk
  simp [entryOf, h k (List.mem_eraseDups.mp hk)]

/-- The numbers in a table are those of the names that stand for nothing else. -/
theorem sum_numbers {namespaces names : List JsString} {numbers : List ℕ}
    (h : (names.filterMap fun ns =>
        (entryOf ns (namespaces.count ns)).map fun entry => (ns, entry)).map Prod.snd =
      numbers.map Count.number) :
    numbers.sum = ((names.filter fun ns => memberOf ns = none).map
      fun ns => namespaces.count ns).sum := by
  induction names generalizing numbers with
  | nil =>
      have hnil : numbers = [] := by simpa using h.symm
      simp [hnil]
  | cons ns names ih =>
      cases hmember : memberOf ns with
      | none =>
          cases numbers with
          | nil => simp [entryOf, hmember] at h
          | cons n numbers =>
              simp only [entryOf, hmember, List.filterMap_cons, Option.map_some, List.map_cons,
                List.cons.injEq, Count.number.injEq] at h
              obtain ⟨rfl, hrest⟩ := h
              simp [hmember, ih hrest]
      | some member =>
          cases member with
          | none =>
              simp only [entryOf, hmember, List.filterMap_cons, Option.map_none] at h
              simp [hmember, ih h]
          | some member =>
              cases numbers with
              | nil => simp [entryOf, hmember] at h
              | cons n numbers => simp [entryOf, hmember] at h

/-- The table sums up to all items exactly when no namespace has the name of a member that
every object inherits. -/
theorem table_sums_iff (namespaces : List JsString) :
    (∃ numbers : List ℕ, (table namespaces).map Prod.snd = numbers.map Count.number ∧
      numbers.sum = namespaces.length) ↔ ∀ ns ∈ namespaces, memberOf ns = none := by
  constructor
  · rintro ⟨numbers, hnumbers, hsum⟩ ns hns
    by_contra hmember
    rw [sum_numbers hnumbers] at hsum
    have hall := sum_tally namespaces
    have hsplit := (List.filter_append_perm (fun ns => memberOf ns = none)
      namespaces.eraseDups).map fun ns => namespaces.count ns
    have htally : (tally namespaces).map Prod.snd =
        namespaces.eraseDups.map fun ns => namespaces.count ns := by
      simp [tally, Function.comp_def]
    rw [htally, ← hsplit.sum_eq, List.map_append, List.sum_append, hsum] at hall
    have hrest : ((namespaces.eraseDups.filter fun ns => !decide (memberOf ns = none)).map
        fun ns => namespaces.count ns).sum = 0 := by omega
    have hkept : ns ∈ namespaces.eraseDups.filter fun ns => !decide (memberOf ns = none) :=
      List.mem_filter.mpr ⟨List.mem_eraseDups.mpr hns, by simpa using hmember⟩
    have hzero := List.sum_eq_zero_iff_forall_eq_nat.mp hrest _ (List.mem_map_of_mem hkept)
    exact absurd hns (List.count_eq_zero.mp hzero)
  · intro h
    refine ⟨(tally namespaces).map Prod.snd, ?_, sum_tally namespaces⟩
    rw [table_eq_tally h]
    simp [Function.comp_def]

/-! The length of a summary. -/

theorem textLength_append (a b : List Char) :
    textLength (a ++ b) = textLength a + textLength b := by
  unfold textLength
  rw [ofText_append, List.length_append]

theorem textLength_cons {c : Char} (h : isPlain c = true) (text : List Char) :
    textLength (c :: text) = textLength text + 1 := by
  have hcons : JsString.ofText (c :: text) = units c ++ JsString.ofText text := rfl
  unfold textLength
  rw [hcons, units_plain h, List.length_append, Nat.add_comm]
  rfl

theorem textLength_plain {text : List Char} (h : text.all isPlain = true) :
    textLength text = text.length := length_ofText_plain h

/-- Two quotes are added to a printable text. -/
theorem textLength_quote {text : List Char} (h : text.all isPlain = true) :
    textLength (quote (JsString.ofText text)) = text.length + 2 := by
  have hquote : quote (JsString.ofText text) = ['"'] ++ text ++ ['"'] := by
    unfold quote
    rw [quoteUnits_plain h]
    rfl
  have hone : textLength ['"'] = 1 := rfl
  rw [hquote, textLength_append, textLength_append, textLength_plain h, hone]
  omega

theorem isPlain_of_isDigit {c : Char} (h : c.isDigit = true) : isPlain c = true := by
  have hrange : 48 ≤ c.toNat ∧ c.toNat ≤ 57 := Char.isDigit_iff_toNat.mp h
  have hquote : c ≠ '"' := fun heq => by simp [heq] at hrange
  have hslash : c ≠ '\\' := fun heq => by simp [heq] at hrange
  simp [isPlain, hquote, hslash]
  omega

theorem natText_plain (n : ℕ) : (natText n).all isPlain = true := by
  rw [List.all_eq_true]
  intro c hc
  exact isPlain_of_isDigit (Nat.isDigit_of_mem_toDigits (by omega) (by omega) hc)

theorem textLength_natText (n : ℕ) : textLength (natText n) = (natText n).length :=
  textLength_plain (natText_plain n)

theorem plainNote_plain (total : ℕ) : (plainNote total).all isPlain = true := by
  unfold plainNote
  simp only [List.all_append, natText_plain, Bool.and_true]
  decide

theorem namespaceNote_plain (total namespaces : ℕ) :
    (namespaceNote total namespaces).all isPlain = true := by
  unfold namespaceNote
  simp only [List.all_append, natText_plain, Bool.and_true]
  decide

theorem textLength_obj (fields : Fields) :
    textLength (stringify (.obj fields)) = textLength (stringifyFields fields) + 2 := by
  have hone : textLength ['}'] = 1 := rfl
  have hopen : stringify (.obj fields) = ['{'] ++ stringifyFields fields ++ ['}'] := by
    rw [stringify]
    rfl
  have hfirst : textLength ['{'] = 1 := rfl
  rw [hopen, textLength_append, textLength_append, hone, hfirst]
  omega

theorem textLength_field {key : List Char} (n : ℕ) (hlength : key.length = n)
    (h : key.all isPlain = true) (v : Json) (p : JsString × Json) (rest : Fields) :
    textLength (stringifyFields ((JsString.ofText key, v) :: p :: rest)) =
      n + textLength (stringify v) + textLength (stringifyFields (p :: rest)) + 4 := by
  subst hlength
  rw [stringifyFields, textLength_append, textLength_cons (by decide), textLength_append,
    textLength_cons (by decide), textLength_quote h]
  omega

theorem textLength_lastField {key : List Char} (n : ℕ) (hlength : key.length = n)
    (h : key.all isPlain = true) (v : Json) :
    textLength (stringifyFields [(JsString.ofText key, v)]) = n + textLength (stringify v) + 3 := by
  subst hlength
  rw [stringifyFields, textLength_append, textLength_cons (by decide), textLength_quote h]
  omega

theorem length_plainNote (total : ℕ) :
    (plainNote total).length = (natText total).length + 95 := by
  have hshort : (natText sampleSize).length = 2 := by decide
  have hfirst : "Result too large (".toList.length = 18 := rfl
  have hsecond : " items). Showing first ".toList.length = 23 := rfl
  have hthird : " items. Use more specific queries for detailed data.".toList.length = 52 := rfl
  unfold plainNote
  simp only [List.length_append, hshort, hfirst, hsecond, hthird]
  omega

theorem length_namespaceNote (total namespaces : ℕ) :
    (namespaceNote total namespaces).length =
      (natText total).length + (natText namespaces).length + 133 := by
  have hshort : (natText sampleSize).length = 2 := by decide
  have hfirst : "Result too large (".toList.length = 18 := rfl
  have hsecond : " items across ".toList.length = 14 := rfl
  have hthird : " namespaces). Showing first ".toList.length = 28 := rfl
  have hfourth :
      " items. Use namespace filter or pod-specific queries for detailed data.".toList.length =
        71 := rfl
  unfold namespaceNote
  simp only [List.length_append, hshort, hfirst, hsecond, hthird, hfourth]
  omega

theorem length_plainSummary (items : List Json) :
    (Serialized.envelope ⟨items.length, sampleSize, none, plainNote items.length,
      items.take sampleSize⟩).string.length = summaryLength items none := by
  have hshort : (natText sampleSize).length = 2 := by decide
  have htrue : textLength (stringify (.bool true)) = 4 := by decide
  show textLength (stringify (.obj _)) = _
  simp only [Envelope.fields, List.cons_append, List.nil_append, textLength_obj, js]
  rw [textLength_field 10 rfl (by decide), textLength_field 6 rfl (by decide),
    textLength_field 8 rfl (by decide), textLength_field 5 rfl (by decide),
    textLength_lastField 7 rfl (by decide), htrue]
  simp only [stringify, textLength_natText, textLength_quote (plainNote_plain _), summaryLength,
    length_plainNote, hshort]
  omega

theorem length_namespaceSummary (items : List Json) (namespaces : List JsString)
    (h : ∀ ns ∈ namespaces, memberOf ns = none) :
    (Serialized.envelope ⟨items.length, sampleSize, some (table namespaces),
      namespaceNote items.length (table namespaces).length,
      items.take sampleSize⟩).string.length = summaryLength items (some namespaces) := by
  have hshort : (natText sampleSize).length = 2 := by decide
  have htrue : textLength (stringify (.bool true)) = 4 := by decide
  have hcounts : (table namespaces).length = namespaces.eraseDups.length := by
    simp [table_eq_tally h, tally]
  have hjson : (table namespaces).map (fun p => (p.1, p.2.json)) =
      (tally namespaces).map fun p => (p.1, .num (natText p.2)) := by
    simp [table_eq_tally h, Function.comp_def, Count.json]
  show textLength (stringify (.obj _)) = _
  simp only [Envelope.fields, List.cons_append, List.nil_append, textLength_obj, js]
  rw [textLength_field 10 rfl (by decide), textLength_field 6 rfl (by decide),
    textLength_field 8 rfl (by decide), textLength_field 20 rfl (by decide),
    textLength_field 5 rfl (by decide), textLength_lastField 7 rfl (by decide), htrue, hjson,
    hcounts]
  simp only [stringify, textLength_natText, textLength_quote (namespaceNote_plain _ _),
    summaryLength, length_namespaceNote, hshort]
  omega

/-- A result that is cut off says so in a few words, whatever its length was. -/
theorem textLength_truncationNotice {length : ℕ} (h : length < 2 ^ 53) :
    textLength (truncationNotice length) ≤ 128 := by
  have hfirst : textLength "\n\n[TRUNCATED — result was ".toList = 26 := by decide
  have hlast : textLength
      " characters. Use more specific queries to get detailed data.]".toList = 61 := by decide
  have hdigits : (natText length).length ≤ 16 := by
    unfold natText
    rw [Nat.length_toDigits_le_iff (by omega) (by omega)]
    omega
  unfold truncationNotice
  rw [textLength_append, textLength_append, textLength_natText, hfirst, hlast]
  omega

/-! What is returned. -/

theorem boundedAndTruthful_text {allowance : ℕ} {result : ToolResult} {s : JsString}
    (h : serializeToolResult result = some (.text s)) :
    BoundedAndTruthful allowance result ↔ s.length ≤ maxToolResultChars + allowance := by
  unfold BoundedAndTruthful
  rw [h]
  constructor
  · rintro ⟨out, hout, hlength, -⟩
    obtain rfl := Option.some.inj hout
    exact hlength
  · intro hlength
    exact ⟨_, rfl, hlength, fun e he => by cases he⟩

theorem boundedAndTruthful_envelope {allowance : ℕ} {result : ToolResult} {items : List Json}
    {e : Envelope} (hdata : result.data = .arr items)
    (h : serializeToolResult result = some (.envelope e)) :
    BoundedAndTruthful allowance result ↔ Truthful items e ∧
      (Serialized.envelope e).string.length ≤ maxToolResultChars + allowance := by
  unfold BoundedAndTruthful
  rw [h, hdata]
  constructor
  · rintro ⟨out, hout, hlength, htruthful⟩
    obtain rfl := Option.some.inj hout
    obtain ⟨items', hitems, ht⟩ := htruthful e rfl
    obtain rfl := Json.arr.inj hitems
    exact ⟨ht, hlength⟩
  · rintro ⟨ht, hlength⟩
    refine ⟨_, rfl, hlength, fun e' he' => ?_⟩
    obtain rfl := Serialized.envelope.inj he'
    exact ⟨items, rfl, ht⟩

theorem not_boundedAndTruthful {allowance : ℕ} {result : ToolResult}
    (h : serializeToolResult result = none) : ¬ BoundedAndTruthful allowance result := by
  rintro ⟨out, hout, -⟩
  rw [h] at hout
  cases hout

theorem length_sample (items : List Json) :
    sampleSize = (items.take sampleSize).length ↔ sampleSize ≤ items.length := by
  rw [List.length_take]
  omega

theorem truthful_plain (items : List Json) (note : List Char) :
    Truthful items ⟨items.length, sampleSize, none, note, items.take sampleSize⟩ ↔
      sampleSize ≤ items.length := by
  constructor
  · intro h
    exact (length_sample items).mp h.showing
  · intro h
    exact ⟨(length_sample items).mpr h, rfl, fun counts hcounts => by cases hcounts⟩

theorem truthful_namespaces {items : List Json} {namespaces : List JsString} (note : List Char)
    (hlength : namespaces.length = items.length) :
    Truthful items ⟨items.length, sampleSize, some (table namespaces), note,
        items.take sampleSize⟩ ↔
      sampleSize ≤ items.length ∧ ∀ ns ∈ namespaces, memberOf ns = none := by
  rw [← table_sums_iff, hlength]
  constructor
  · intro h
    exact ⟨(length_sample items).mp h.showing, h.breakdown _ rfl⟩
  · rintro ⟨hfifty, hsum⟩
    refine ⟨(length_sample items).mpr hfifty, rfl, fun counts hcounts => ?_⟩
    obtain rfl := Option.some.inj hcounts
    exact hsum

theorem length_namespaces {items : List Json} {namespaces : List JsString}
    (h : items.mapM namespaceOf = some namespaces) : namespaces.length = items.length := by
  induction items generalizing namespaces with
  | nil =>
      obtain rfl := Option.some.inj h
      rfl
  | cons v items ih =>
      simp only [List.mapM_cons, Option.bind_eq_bind, Option.bind_eq_some_iff,
        Option.pure_def, Option.some.injEq] at h
      obtain ⟨ns, -, rest, hrest, rfl⟩ := h
      rw [List.length_cons, List.length_cons, ih hrest]

/-- A summary that is not thrown away is truthful and short under these conditions. -/
theorem boundedAndTruthful_summary {allowance : ℕ} {result : ToolResult} {items : List Json}
    (hdata : result.data = .arr items)
    (h : serializeToolResult result = (summarize items).map Serialized.envelope) :
    BoundedAndTruthful allowance result ↔ sampleSize ≤ items.length ∧
      if hasNamespace items then
        ∃ namespaces, items.mapM namespaceOf = some namespaces ∧
          (∀ ns ∈ namespaces, memberOf ns = none) ∧
          summaryLength items (some namespaces) ≤ maxToolResultChars + allowance
      else summaryLength items none ≤ maxToolResultChars + allowance := by
  unfold summarize at h
  by_cases hns : hasNamespace items = true
  · rw [if_pos hns] at h ⊢
    cases hmap : items.mapM namespaceOf with
    | none =>
        rw [hmap] at h
        constructor
        · intro hgood
          exact absurd hgood (not_boundedAndTruthful h)
        · rintro ⟨-, namespaces, hnamespaces, -⟩
          cases hnamespaces
    | some namespaces =>
        rw [hmap] at h
        simp only [Option.map_some, foldl_countNamespace] at h
        have hlength : namespaces.length = items.length := length_namespaces hmap
        rw [boundedAndTruthful_envelope hdata h, truthful_namespaces _ hlength]
        constructor
        · rintro ⟨⟨hfifty, hnames⟩, hshort⟩
          rw [length_namespaceSummary items namespaces hnames] at hshort
          exact ⟨hfifty, namespaces, rfl, hnames, hshort⟩
        · rintro ⟨hfifty, namespaces', hnamespaces, hnames, hshort⟩
          obtain rfl := Option.some.inj hnamespaces
          rw [length_namespaceSummary items namespaces hnames]
          exact ⟨⟨hfifty, hnames⟩, hshort⟩
  · rw [if_neg hns] at h ⊢
    rw [boundedAndTruthful_envelope hdata h, truthful_plain, length_plainSummary]

/-- A string or another value that is not a list is cut off. -/
theorem boundedAndTruthful_cut {allowance : ℕ} (hallowance : 128 ≤ allowance)
    {result : ToolResult}
    (h : serializeToolResult result =
      some (.text ((rawText result.data).take maxToolResultChars ++
        JsString.ofText (truncationNotice (rawText result.data).length)))) :
    BoundedAndTruthful allowance result := by
  rw [boundedAndTruthful_text h, List.length_append, List.length_take]
  have hnotice : (JsString.ofText (truncationNotice (rawText result.data).length)).length ≤ 128 :=
    textLength_truncationNotice result.bounded
  omega

theorem serialize_bounded_truthful_iff (allowance : ℕ) (hallowance : 128 ≤ allowance)
    (result : ToolResult) : BoundedAndTruthful allowance result ↔ Fits allowance result := by
  unfold Fits
  by_cases herror : (result.error.getD []).isEmpty = true
  · rw [if_pos herror]
    by_cases hfalsy : isFalsy result.data = true
    · have hserialize : serializeToolResult result = some (.text (js "No data returned")) := by
        rw [serializeToolResult, if_pos herror, if_pos hfalsy]
      have hshort : (js "No data returned").length = 16 := by decide
      have hlimit : maxToolResultChars = 50000 := rfl
      rw [boundedAndTruthful_text hserialize, hshort]
      apply iff_of_true (by omega)
      split
      · rename_i items hdata
        simp [hdata, isFalsy] at hfalsy
      · trivial
    · by_cases hraw : (rawText result.data).length ≤ maxToolResultChars
      · have hserialize : serializeToolResult result = some (.text (rawText result.data)) := by
          rw [serializeToolResult, if_pos herror, if_neg hfalsy, if_pos hraw]
        rw [boundedAndTruthful_text hserialize]
        apply iff_of_true (by omega)
        split
        · exact .inl hraw
        · trivial
      · split
        · rename_i items hdata
          have hserialize : serializeToolResult result =
              (summarize items).map Serialized.envelope := by
            rw [serializeToolResult, if_pos herror, if_neg hfalsy, if_neg hraw, hdata]
          rw [boundedAndTruthful_summary hdata hserialize, or_iff_right hraw]
        · rename_i hdata
          apply iff_of_true _ trivial
          apply boundedAndTruthful_cut hallowance
          rw [serializeToolResult, if_pos herror, if_neg hfalsy, if_neg hraw]
          split
          · rename_i items heq
            exact absurd heq (hdata items)
          · rfl
  · have hserialize : serializeToolResult result =
        some (.text (js "Error: " ++ result.error.getD [])) := by
      rw [serializeToolResult, if_neg herror]
    have hprefix : (js "Error: ").length = 7 := by decide
    rw [if_neg herror, boundedAndTruthful_text hserialize, List.length_append, hprefix]
    omega

def letters (n : ℕ) : JsString := JsString.ofText (List.replicate n 'a')

theorem plain_letters (n : ℕ) : (List.replicate n 'a').all isPlain = true := by
  rw [List.all_eq_true]
  intro c hc
  rw [List.eq_of_mem_replicate hc]
  decide

theorem length_letters (n : ℕ) : (letters n).length = n := by
  rw [letters, length_ofText_plain (plain_letters n), List.length_replicate]

/-- The items and a bracket or comma after each, and the first bracket. -/
theorem textLength_replicate (n : ℕ) (v : Json) :
    textLength (stringify (.arr (List.replicate (n + 1) v))) =
      (n + 1) * (textLength (stringify v) + 1) + 1 := by
  have hitems : textLength (stringifyItems (List.replicate (n + 1) v)) + 1 =
      (n + 1) * (textLength (stringify v) + 1) := by
    induction n with
    | zero =>
        show textLength (stringifyItems [v]) + 1 = _
        rw [stringifyItems, Nat.zero_add, Nat.one_mul]
    | succ n ih =>
        show textLength (stringifyItems (v :: v :: List.replicate n v)) + 1 = _
        rw [List.replicate_succ] at ih
        rw [stringifyItems, textLength_append, textLength_cons (by decide), Nat.succ_mul, ← ih]
        omega
  have hclose : textLength [']'] = 1 := rfl
  rw [stringify, textLength_cons (by decide), textLength_append, hclose, hitems]

/-- A pod of a namespace, with a record of some length. -/
def shopPod : Json :=
  .obj [(js "pod_namespace", .str (js "shop")), (js "pod_obj", .str (letters 900))]

theorem textLength_shopPod : textLength (stringify shopPod) = 937 := by
  have hns : textLength (stringify (.str (js "shop"))) = 6 := by decide
  have hobj : textLength (stringify (.str (letters 900))) = 902 := by
    rw [stringify, letters, textLength_quote (plain_letters 900), List.length_replicate]
  rw [shopPod, textLength_obj, js, textLength_field 13 (by decide) (by decide), hns, js,
    textLength_lastField 7 (by decide) (by decide), hobj]

/-- More pods than a text may hold, of which fifty fit. -/
def shopPods : ToolResult where
  data := .arr (List.replicate 60 shopPod)
  error := none
  bounded := by
    show textLength (stringify (.arr (List.replicate 60 shopPod))) < 2 ^ 53
    rw [textLength_replicate, textLength_shopPod]
    omega

theorem length_shopSample :
    textLength (stringify (.arr ((List.replicate 60 shopPod).take sampleSize))) = 46901 := by
  have hsample : (List.replicate 60 shopPod).take sampleSize = List.replicate 50 shopPod := by
    rw [List.take_replicate]
    rfl
  rw [hsample, textLength_replicate, textLength_shopPod]

theorem length_shopCounts :
    textLength (stringify (.obj ((tally (List.replicate 60 (js "shop"))).map
      fun p => (p.1, .num (natText p.2))))) = 11 := by decide

theorem shopSummary_short : summaryLength (List.replicate 60 shopPod)
    (some (List.replicate 60 (js "shop"))) ≤ maxToolResultChars + 128 := by
  have hitems : (natText (List.replicate 60 shopPod).length).length = 2 := by decide
  have hnames : (natText (List.replicate 60 (js "shop")).eraseDups.length).length = 1 := by decide
  rw [summaryLength, length_shopSample, length_shopCounts, hitems, hnames]
  decide

theorem shopPods_bounded_truthful :
    maxToolResultChars < (rawText shopPods.data).length ∧ BoundedAndTruthful 128 shopPods := by
  constructor
  · show maxToolResultChars < textLength (stringify (.arr (List.replicate 60 shopPod)))
    rw [textLength_replicate, textLength_shopPod]
    decide
  · refine (serialize_bounded_truthful_iff 128 (by omega) shopPods).mpr (.inr ⟨by decide, ?_⟩)
    have hnamespaces : (List.replicate 60 shopPod).mapM namespaceOf =
        some (List.replicate 60 (js "shop")) := by rfl
    refine ⟨_, hnamespaces, fun ns hns => ?_, shopSummary_short⟩
    rw [List.eq_of_mem_replicate hns]
    decide

theorem length_rawText_letters (n : ℕ) :
    (rawText (.arr [.str (letters n)])).length = n + 4 := by
  show textLength (stringify (.arr [.str (letters n)])) = n + 4
  rw [stringify, stringifyItems, stringify, textLength_cons (by decide), textLength_append,
    letters, textLength_quote (plain_letters n), List.length_replicate]
  rfl

/-- A list of one large item. -/
def oneLargeItem : ToolResult where
  data := .arr [.str (letters maxToolResultChars)]
  error := none
  bounded := by
    rw [length_rawText_letters, maxToolResultChars]
    omega

/-- A tool that failed with a long message. -/
def longError (allowance : ℕ) : ToolResult where
  data := .null
  error := some (letters (maxToolResultChars + allowance))
  bounded := by decide

theorem serialize_not_bounded_truthful :
    (∀ allowance, ¬ BoundedAndTruthful allowance oneLargeItem) ∧
      ∀ allowance, ¬ BoundedAndTruthful allowance (longError allowance) := by
  constructor
  · intro allowance h
    have hraw : ¬ (rawText oneLargeItem.data).length ≤ maxToolResultChars := by
      have hlength : (rawText oneLargeItem.data).length = maxToolResultChars + 4 :=
        length_rawText_letters maxToolResultChars
      omega
    have hserialize : serializeToolResult oneLargeItem =
        (summarize [.str (letters maxToolResultChars)]).map Serialized.envelope := by
      rw [serializeToolResult, if_pos (by rfl), if_neg (by simp [oneLargeItem, isFalsy]),
        if_neg hraw]
      rfl
    have hfifty := ((boundedAndTruthful_summary (by rfl) hserialize).mp h).1
    simp [sampleSize] at hfifty
  · intro allowance h
    have hlength := length_letters (maxToolResultChars + allowance)
    have hne : ¬ ((longError allowance).error.getD []).isEmpty = true := by
      show ¬ (letters (maxToolResultChars + allowance)).isEmpty = true
      rw [List.isEmpty_iff_length_eq_zero, hlength, maxToolResultChars]
      omega
    have hserialize : serializeToolResult (longError allowance) =
        some (.text (js "Error: " ++ letters (maxToolResultChars + allowance))) := by
      rw [serializeToolResult, if_neg hne]
      rfl
    rw [boundedAndTruthful_text hserialize, List.length_append, hlength] at h
    have hprefix : (js "Error: ").length = 7 := by decide
    omega

end KGuardian.ToolResults
