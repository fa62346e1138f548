import KGuardian.GoJson
import KGuardian.JsText
import Mathlib.Data.List.DropRight

/-!
Seccomp profiles from the stored system calls of a pod. The broker answers with
an array of rows. The advisor decodes the array, and the assistant looks for the
fields of a row on the array itself, which has none of them.
-/
namespace KGuardian.SeccompProfiles

open GoJson JsText

/-! The answer of the broker. -/

/-- A row of `pod_syscalls`, with the time stamp as it is serialised. -/
structure PodSyscalls where
  podName : String
  podNamespace : String
  syscalls : String
  arch : String
  timeStamp : String
  deriving DecidableEq

/-- The fields of a serialised row, in order. -/
def rowFields (row : PodSyscalls) : List (String × String) :=
  [("pod_name", row.podName), ("pod_namespace", row.podNamespace), ("syscalls", row.syscalls),
    ("arch", row.arch), ("time_stamp", row.timeStamp)]

def rowJson (row : PodSyscalls) : Json := .obj ((rowFields row).map fun f => (f.1, .str f.2))

/-- The bytes of a character in a JSON string, escapes included. -/
def charBytes (c : Char) : ℕ :=
  if c ∈ ['"', '\\', '\n', '\r', '\t', '\u0008', '\u000c'] then 2
  else if c.toNat < 0x20 then 6
  else c.utf8Size

def stringBytes (s : String) : ℕ := s.toList.foldl (fun n c => n + charBytes c) 2

/-- After each field there is a comma or the closing brace. -/
def rowBytes (row : PodSyscalls) : ℕ :=
  (rowFields row).foldl (fun n f => n + stringBytes f.1 + stringBytes f.2 + 2) 1

def arrayBytes (rows : List PodSyscalls) : ℕ :=
  if rows = [] then 2 else rows.foldl (fun n row => n + rowBytes row + 1) 1

/-- A body: what it encodes and how long it is. -/
structure Body where
  json : Json
  bytes : ℕ

def podSyscallsByName (rows : List PodSyscalls) (name : String) : List PodSyscalls :=
  rows.filter fun row => row.podName = name

/-- The route has no empty last segment. -/
def getPodSyscallName (rows : List PodSyscalls) (name : String) : Option Body :=
  if name = "" then none
  else some ⟨.arr ((podSyscallsByName rows name).map rowJson),
    arrayBytes (podSyscallsByName rows name)⟩

/-! The advisor. -/

structure PodSysCallResponse where
  podName : String
  podNamespace : String
  syscalls : String
  arch : String

def decodePodSysCallResponse : Decoder PodSysCallResponse :=
  decodeStruct fun objects => do
    let podName ← decodeField decodeString "pod_name" objects
    let podNamespace ← decodeField decodeString "pod_namespace" objects
    let syscalls ← decodeField decodeString "syscalls" objects
    let arch ← decodeField decodeString "arch" objects
    return ⟨podName, podNamespace, syscalls, arch⟩

structure PodSysCall where
  syscalls : List String
  arch : String

def maxBrokerResponseBytes : ℕ := 10 * 1024 * 1024

/-- What is between the commas of a text: one piece more than there are commas. -/
def splitCommas (s : String) : List String := (s.toList.splitOn ',').map String.ofList

/-- A body over the limit is cut off, and an array that is cut off is no JSON. -/
def getPodSysCall (response : Option Body) : Except String PodSysCall :=
  match response with
  | none => .error "GetPodSysCall: received non-OK HTTP status code: 404"
  | some body =>
      if body.bytes > maxBrokerResponseBytes then .error "unexpected end of JSON input"
      else
        match decodeSlice decodePodSysCallResponse [body.json] with
        | none => .error "json: cannot unmarshal"
        | some [] => .error "GetPodSysCall: No pod syscall found in database"
        | some (first :: _) => .ok ⟨splitCommas first.syscalls, first.arch⟩

structure Rule where
  names : List String
  action : String
  deriving DecidableEq

structure SeccompProfile where
  defaultAction : String
  architectures : List String
  syscalls : List Rule
  deriving DecidableEq

/-- The table of both halves: what the controller records, with its tokens. -/
def seccompArchitectures : List (String × List String) :=
  [("x86_64", ["SCMP_ARCH_X86_64"]), ("aarch64", ["SCMP_ARCH_ARM64"])]

def buildSeccompProfile (syscalls : List String) (arch defaultAction : String) :
    SeccompProfile where
  defaultAction := if defaultAction = "" then "SCMP_ACT_ERRNO" else defaultAction
  architectures := (seccompArchitectures.lookup arch).getD []
  syscalls := [⟨syscalls, "SCMP_ACT_ALLOW"⟩]

def validateProfile (profile : SeccompProfile) : Except String Unit :=
  if profile.defaultAction = "" then .error "default action is required"
  else if profile.architectures = [] then .error "at least one architecture must be specified"
  else if profile.syscalls = [] then .error "at least one syscall rule must be specified"
  else .ok ()

/-- The profile for these system calls, if it passes its checks. -/
def validProfile (podSysCalls : PodSysCall) : Except String SeccompProfile := do
  let profile := buildSeccompProfile podSysCalls.syscalls podSysCalls.arch "SCMP_ACT_ERRNO"
  validateProfile profile
  return profile

def cliProfile (response : Option Body) : Except String SeccompProfile := do
  validProfile (← getPodSysCall response)

/-! The assistant. -/

namespace Bridge

/-- What a lookup in the table of architectures gives: a list, or a member that
every object inherits. -/
inductive Architectures where
  | tokens (list : List String)
  | inherited (member : String)
  deriving DecidableEq

/-- The members that every object inherits, with the length of those that have
one. -/
def objectMembers : List (String × Option ℕ) :=
  [("constructor", some 1), ("__defineGetter__", some 2), ("__defineSetter__", some 2),
    ("hasOwnProperty", some 1), ("__lookupGetter__", some 1), ("__lookupSetter__", some 1),
    ("isPrototypeOf", some 1), ("propertyIsEnumerable", some 1), ("toString", some 0),
    ("valueOf", some 0), ("__proto__", none), ("toLocaleString", some 0)]

def Architectures.length : Architectures → Option ℕ
  | .tokens list => some list.length
  | .inherited member => (objectMembers.lookup member).join

def architecturesOf (arch : String) : Architectures :=
  match seccompArchitectures.lookup arch with
  | some list => .tokens list
  | none => if (objectMembers.lookup arch).isSome then .inherited arch else .tokens []

structure SeccompProfile where
  defaultAction : String
  architectures : Architectures
  syscalls : List Rule

def buildSeccompProfile (syscalls : List String) (arch : String) : SeccompProfile where
  defaultAction := "SCMP_ACT_ERRNO"
  architectures := architecturesOf arch
  syscalls := [⟨syscalls.insertionSort fun a b => unitsLe a b, "SCMP_ACT_ALLOW"⟩]

def validateSeccompProfile (profile : SeccompProfile) : Except String Unit :=
  if profile.defaultAction = "" then
    .error "seccomp profile is invalid: default action is required"
  else if profile.architectures.length = some 0 then
    .error ("seccomp profile is invalid: unrecognized architecture — no seccomp arch mapping " ++
      "(supported: x86_64, aarch64)")
  else if profile.syscalls = [] then
    .error "seccomp profile is invalid: at least one syscall rule is required"
  else .ok ()

/-- The property `data.syscalls` or `data.arch`, when it is a string. No value but
an object has such a property, and of a repeated one the last counts. -/
def stringProperty (name : String) : Json → String
  | .obj fields =>
      match fields.reverse.lookup name with
      | some (.str s) => s
      | _ => ""
  | _ => ""

def trim (s : String) : String := String.ofList (trimSpace s.toList)

def seccompFromBrokerSyscalls (data : Json) : Except String SeccompProfile := do
  let raw := stringProperty "syscalls" data
  let arch := stringProperty "arch" data
  let names := ((splitCommas raw).map trim).filter fun s => s ≠ ""
  let profile := buildSeccompProfile names arch
  validateSeccompProfile profile
  return profile

/-- The handler `generate_seccomp_profile`, which throws without a body. -/
def generateSeccompProfile (response : Option Body) : Except String SeccompProfile :=
  match response with
  | none => .error "broker returned 404"
  | some body => seccompFromBrokerSyscalls body.json

end Bridge

/-! The two profiles compared. -/

def allowed (rules : List Rule) : List String :=
  (rules.filter fun r => r.action = "SCMP_ACT_ALLOW").flatMap Rule.names

/-- The same default action, architectures and allowed system calls. -/
structure SameProfile (p : SeccompProfile) (q : Bridge.SeccompProfile) : Prop where
  defaultAction : q.defaultAction = p.defaultAction
  architectures : q.architectures = .tokens p.architectures
  allowed : ∀ name, name ∈ allowed q.syscalls ↔ name ∈ allowed p.syscalls

/-- Both yield a profile, and the same one, or neither does. -/
def Agree (cli : Except String SeccompProfile) (bridge : Except String Bridge.SeccompProfile) :
    Prop :=
  ((∃ p, cli = .ok p) ↔ ∃ q, bridge = .ok q) ∧
    ∀ p q, cli = .ok p → bridge = .ok q → SameProfile p q

/-! What the advisor makes of the answer. -/

theorem decode_rowJson (row : PodSyscalls) :
    decodePodSysCallResponse [rowJson row] =
      some ⟨row.podName, row.podNamespace, row.syscalls, row.arch⟩ := by
  have hnodup : (((rowFields row).map fun f => (f.1, Json.str f.2)).map Prod.fst).Nodup := by
    rw [List.map_map]
    exact (by decide : ["pod_name", "pod_namespace", "syscalls", "arch", "time_stamp"].Nodup)
  have hfield (name : String) (hname : name ∈ ["pod_name", "pod_namespace", "syscalls", "arch"]) :
      fieldValues name ((rowFields row).map fun f => (f.1, Json.str f.2)) =
        (((rowFields row).map fun f => (f.1, Json.str f.2)).lookup name).toList := by
    refine fieldValues_exact _ _ hnodup fun e he hfold => ?_
    have hkey : e.1 ∈ ["pod_name", "pod_namespace", "syscalls", "arch", "time_stamp"] := by
      obtain ⟨f, hf, rfl⟩ := List.mem_map.mp he
      exact List.mem_map_of_mem (f := Prod.fst) hf
    have hall : ∀ a ∈ ["pod_name", "pod_namespace", "syscalls", "arch", "time_stamp"],
        ∀ b ∈ ["pod_name", "pod_namespace", "syscalls", "arch"],
          TextScan.equalFold a b = true → a = b := by
      decide
    exact hall _ hkey _ hname hfold
  simp only [decodePodSysCallResponse, rowJson, decodeStruct_obj, decodeField_single, hfield,
    List.mem_cons, true_or, or_true]
  rfl

theorem decode_rows (rows : List PodSyscalls) :
    decodeSlice decodePodSysCallResponse [.arr (rows.map rowJson)] =
      some (rows.map fun row => ⟨row.podName, row.podNamespace, row.syscalls, row.arch⟩) := by
  rw [decodeSlice_arr, List.mapM_map]
  induction rows with
  | nil => rfl
  | cons row rest ih =>
      rw [List.mapM_cons, ih, Function.comp_apply, decode_rowJson]
      rfl

/-- The first row of the name, when the advisor is given it. -/
theorem getPodSysCall_eq_ok_iff (rows : List PodSyscalls) (name : String) (calls : PodSysCall) :
    getPodSysCall (getPodSyscallName rows name) = .ok calls ↔
      name ≠ "" ∧ arrayBytes (podSyscallsByName rows name) ≤ maxBrokerResponseBytes ∧
        ∃ row, (podSyscallsByName rows name).head? = some row ∧
          calls = ⟨splitCommas row.syscalls, row.arch⟩ := by
  by_cases hname : name = ""
  · simp [getPodSyscallName, getPodSysCall, hname]
  rw [getPodSyscallName, if_neg hname, getPodSysCall]
  by_cases hbytes : arrayBytes (podSyscallsByName rows name) > maxBrokerResponseBytes
  · simp [hbytes]
  · have hle := not_lt.mp hbytes
    simp only [if_neg hbytes, decode_rows]
    cases hrows : podSyscallsByName rows name with
    | nil => simp
    | cons first rest =>
        rw [hrows] at hle
        simp [hname, hle, eq_comm]

/-- The architectures that have a token. -/
def Known (arch : String) : Prop := arch ∈ seccompArchitectures.map Prod.fst

instance (arch : String) : Decidable (Known arch) := inferInstanceAs (Decidable (_ ∈ _))

theorem lookup_eq_nil_iff (arch : String) :
    (seccompArchitectures.lookup arch).getD [] = [] ↔ ¬ Known arch := by
  by_cases hx86 : arch = "x86_64"
  · subst hx86
    decide
  by_cases harm : arch = "aarch64"
  · subst harm
    decide
  · have hbeq := beq_eq_false_iff_ne.mpr hx86
    have hbeq' := beq_eq_false_iff_ne.mpr harm
    simp [seccompArchitectures, Known, List.lookup_cons, hx86, harm, hbeq, hbeq']

theorem validProfile_eq (calls : PodSysCall) :
    validProfile calls =
      if Known calls.arch then
        .ok (buildSeccompProfile calls.syscalls calls.arch "SCMP_ACT_ERRNO")
      else .error "at least one architecture must be specified" := by
  have harch := lookup_eq_nil_iff calls.arch
  rw [validProfile, validateProfile, buildSeccompProfile]
  by_cases hknown : Known calls.arch
  · have hne := mt harch.mp (not_not_intro hknown)
    simp only [if_neg hne, if_pos hknown]
    rfl
  · simp only [if_pos (harch.mpr hknown), if_neg hknown]
    rfl

theorem validProfile_eq_ok_iff (calls : PodSysCall) (p : SeccompProfile) :
    validProfile calls = .ok p ↔
      p = buildSeccompProfile calls.syscalls calls.arch "SCMP_ACT_ERRNO" ∧ Known calls.arch := by
  rw [validProfile_eq]
  by_cases hknown : Known calls.arch
  · simp [hknown, eq_comm]
  · simp [hknown]

theorem cliProfile_eq_ok_iff (response : Option Body) (p : SeccompProfile) :
    cliProfile response = .ok p ↔
      ∃ calls, getPodSysCall response = .ok calls ∧ validProfile calls = .ok p := by
  rw [cliProfile]
  cases getPodSysCall response <;> simp [bind, Except.bind]

/-- No property is read from an array, so no architecture is known. -/
theorem seccompFromBrokerSyscalls_arr (items : List Json) :
    ∃ e, Bridge.seccompFromBrokerSyscalls (.arr items) = .error e :=
  ⟨_, rfl⟩

theorem generateSeccompProfile_fails (rows : List PodSyscalls) (name : String) :
    ∃ e, Bridge.generateSeccompProfile (getPodSyscallName rows name) = .error e := by
  rw [getPodSyscallName]
  split
  · exact ⟨_, rfl⟩
  · exact seccompFromBrokerSyscalls_arr _

/-- The advisor gets an answer that it can make a profile from. -/
structure Usable (rows : List PodSyscalls) (name : String) : Prop where
  named : name ≠ ""
  bytes : arrayBytes (podSyscallsByName rows name) ≤ maxBrokerResponseBytes
  arch : ∃ row, (podSyscallsByName rows name).head? = some row ∧ Known row.arch

theorem cliProfile_succeeds_iff (rows : List PodSyscalls) (name : String) :
    (∃ p, cliProfile (getPodSyscallName rows name) = .ok p) ↔ Usable rows name := by
  simp only [cliProfile_eq_ok_iff, getPodSysCall_eq_ok_iff, validProfile_eq_ok_iff]
  constructor
  · intro h
    obtain ⟨p, calls, ⟨hname, hbytes, row, hrow, rfl⟩, -, hknown⟩ := h
    exact ⟨hname, hbytes, row, hrow, hknown⟩
  · intro h
    obtain ⟨row, hrow, hknown⟩ := h.arch
    exact ⟨_, _, ⟨h.named, h.bytes, row, hrow, rfl⟩, rfl, hknown⟩

/-- For every set of rows and every name, the assistant agrees with the advisor
exactly when the advisor gets nothing that it can use either. -/
theorem profiles_agree_iff (rows : List PodSyscalls) (name : String) :
    Agree (cliProfile (getPodSyscallName rows name))
        (Bridge.generateSeccompProfile (getPodSyscallName rows name)) ↔
      ¬ Usable rows name := by
  obtain ⟨e, hfails⟩ := generateSeccompProfile_fails rows name
  have hnone : ¬ ∃ q, Bridge.generateSeccompProfile (getPodSyscallName rows name) = .ok q := by
    simp [hfails]
  rw [← cliProfile_succeeds_iff]
  constructor
  · exact fun h => mt h.1.mp hnone
  · intro h
    exact ⟨iff_of_false h hnone, fun p q hp _ => absurd ⟨p, hp⟩ h⟩

/-! The assistant on a row of its own, the shape that it is written for. -/

theorem trim_trim (s : String) : Bridge.trim (Bridge.trim s) = Bridge.trim s := by
  have hkept (t : List Char) (ht : t.dropWhile isSpace = t) :
      (t.rdropWhile isSpace).dropWhile isSpace = t.rdropWhile isSpace := by
    rcases hfront : t.rdropWhile isSpace with _ | ⟨c, rest⟩
    · rfl
    · obtain ⟨back, rfl⟩ : (c :: rest) <+: t := hfront ▸ List.rdropWhile_prefix _ _
      have hc : isSpace c = false := by
        by_contra hc
        rw [List.cons_append, List.dropWhile_cons_of_pos (by simpa using hc)] at ht
        have hlength := congrArg List.length ht
        have hle := (List.dropWhile_suffix isSpace (l := rest ++ back)).length_le
        simp only [List.length_cons] at hlength
        omega
      rw [List.dropWhile_cons_of_neg (by simp [hc])]
  have htrim (t : List Char) : trimSpace (trimSpace t) = trimSpace t := by
    change List.rdropWhile isSpace (List.dropWhile isSpace
      (List.rdropWhile isSpace (List.dropWhile isSpace t))) =
        List.rdropWhile isSpace (List.dropWhile isSpace t)
    rw [hkept _ (List.dropWhile_idempotent isSpace t), List.rdropWhile_idempotent]
  rw [Bridge.trim, Bridge.trim, String.toList_ofList, htrim]

theorem architecturesOf_known {arch : String} (hknown : Known arch) :
    Bridge.architecturesOf arch = .tokens ((seccompArchitectures.lookup arch).getD []) ∧
      (Bridge.architecturesOf arch).length ≠ some 0 := by
  have hcases : arch = "x86_64" ∨ arch = "aarch64" := by
    simpa [Known, seccompArchitectures] using hknown
  rcases hcases with rfl | rfl
  · exact ⟨rfl, by decide⟩
  · exact ⟨rfl, by decide⟩

theorem seccompFromBrokerSyscalls_row (row : PodSyscalls) (hknown : Known row.arch) :
    Bridge.seccompFromBrokerSyscalls (rowJson row) =
      .ok (Bridge.buildSeccompProfile
        (((splitCommas row.syscalls).map Bridge.trim).filter fun s => s ≠ "") row.arch) := by
  have hsyscalls : Bridge.stringProperty "syscalls" (rowJson row) = row.syscalls := rfl
  have harch : Bridge.stringProperty "arch" (rowJson row) = row.arch := rfl
  have hlength := (architecturesOf_known hknown).2
  simp only [Bridge.seccompFromBrokerSyscalls, hsyscalls, harch, Bridge.validateSeccompProfile,
    Bridge.buildSeccompProfile, if_neg hlength]
  rfl

/-- Given the row itself, the assistant agrees exactly when the names are all
trimmed and none is empty: the advisor keeps them as they are. -/
theorem rowProfile_agrees_iff (row : PodSyscalls) (hknown : Known row.arch) :
    Agree (validProfile ⟨splitCommas row.syscalls, row.arch⟩)
        (Bridge.seccompFromBrokerSyscalls (rowJson row)) ↔
      ∀ s ∈ splitCommas row.syscalls, s ≠ "" ∧ Bridge.trim s = s := by
  have hcli : validProfile ⟨splitCommas row.syscalls, row.arch⟩ =
      .ok (buildSeccompProfile (splitCommas row.syscalls) row.arch "SCMP_ACT_ERRNO") := by
    rw [validProfile_eq, if_pos hknown]
  have hallowed (name : String) :
      name ∈ allowed (Bridge.buildSeccompProfile
          (((splitCommas row.syscalls).map Bridge.trim).filter fun s => s ≠ "")
          row.arch).syscalls ↔
        (∃ s ∈ splitCommas row.syscalls, Bridge.trim s = name) ∧ name ≠ "" := by
    simp [allowed, Bridge.buildSeccompProfile]
  have hcliAllowed (name : String) :
      name ∈ allowed (buildSeccompProfile (splitCommas row.syscalls) row.arch
        "SCMP_ACT_ERRNO").syscalls ↔ name ∈ splitCommas row.syscalls := by
    simp [allowed, buildSeccompProfile]
  rw [hcli, seccompFromBrokerSyscalls_row row hknown]
  constructor
  · intro h s hs
    have hsame := (h.2 _ _ rfl rfl).allowed
    obtain ⟨⟨t, -, rfl⟩, hne⟩ := (hallowed s).mp ((hsame s).mpr ((hcliAllowed s).mpr hs))
    exact ⟨hne, trim_trim t⟩
  · intro h
    refine ⟨iff_of_true ⟨_, rfl⟩ ⟨_, rfl⟩, fun p q hp hq => ?_⟩
    obtain rfl := Except.ok.inj hp
    obtain rfl := Except.ok.inj hq
    refine ⟨rfl, (architecturesOf_known hknown).1, fun name => ?_⟩
    rw [hallowed, hcliAllowed]
    constructor
    · intro hname
      obtain ⟨⟨s, hs, rfl⟩, -⟩ := hname
      rwa [(h s hs).2]
    · intro hname
      exact ⟨⟨name, hname, (h name hname).2⟩, (h name hname).1⟩

/-- The calls of a web server, as they are stored. -/
def webCalls : PodSyscalls :=
  ⟨"web-0", "shop", "openat,read,write", "x86_64", "2024-05-01T10:00:00"⟩

theorem webCalls_disagree :
    cliProfile (getPodSyscallName [webCalls] "web-0") =
      .ok ⟨"SCMP_ACT_ERRNO", ["SCMP_ARCH_X86_64"],
        [⟨["openat", "read", "write"], "SCMP_ACT_ALLOW"⟩]⟩ ∧
    (Bridge.generateSeccompProfile (getPodSyscallName [webCalls] "web-0") =
      .error ("seccomp profile is invalid: unrecognized architecture — no seccomp arch mapping " ++
        "(supported: x86_64, aarch64)")) ∧
    ¬ Agree (cliProfile (getPodSyscallName [webCalls] "web-0"))
      (Bridge.generateSeccompProfile (getPodSyscallName [webCalls] "web-0")) := by
  have hcli : cliProfile (getPodSyscallName [webCalls] "web-0") =
      .ok ⟨"SCMP_ACT_ERRNO", ["SCMP_ARCH_X86_64"],
        [⟨["openat", "read", "write"], "SCMP_ACT_ALLOW"⟩]⟩ := by
    refine (cliProfile_eq_ok_iff _ _).mpr ⟨⟨["openat", "read", "write"], "x86_64"⟩, ?_, rfl⟩
    exact (getPodSysCall_eq_ok_iff _ _ _).mpr ⟨by decide, by decide, webCalls, rfl, rfl⟩
  refine ⟨hcli, rfl, fun h => ?_⟩
  obtain ⟨q, hq⟩ := h.1.mp ⟨_, hcli⟩
  cases hq

end KGuardian.SeccompProfiles
