import KGuardian.SyscallRuns

/-!
System calls from the kernel to a seccomp profile. The program in the kernel lets
a fixed list of numbers through, so what a pod calls beside them is never
recorded, and the profile that is made for the pod denies it.
-/
namespace KGuardian.SyscallCapture

open KeyedTables SeccompProfiles SyscallIngest SyscallRuns

/-! The program in the kernel. -/

def securitySyscalls : List ℕ :=
  [59, 322, 57, 58, 56, 231, 41, 42, 43, 288, 49, 50, 46, 47, 44, 45, 2, 257, 318, 85, 87, 263,
    82, 264, 316, 83, 84, 88, 266, 105, 106, 117, 119, 114, 113, 157, 101, 155, 165, 166, 167, 168,
    175, 313, 176, 126, 321, 308, 272, 227, 228, 248, 78, 217, 0, 1]

/-- The map `allowed_syscalls` after the loop, which ends at an update that fails. -/
def populateSyscallAllowlist (succeeds : ℕ → Bool) : List ℕ := securitySyscalls.takeWhile succeeds

/-- One system call: the network namespace of its task, and its number. -/
structure Call where
  netNs : ℕ
  id : BitVec 64
  deriving DecidableEq

structure SyscallEventData where
  inum : ℕ
  sysnbr : ℕ

/-- The maps of the program, and the pods that the controller knows by their namespaces. -/
structure Probe where
  inodeNum : List ℕ
  updates : ℕ → Bool
  containerMap : ℕ → Option String

def Probe.allowedSyscalls (probe : Probe) : List ℕ := populateSyscallAllowlist probe.updates

/-- The lower half of a number, as the map and the controller read it. -/
def syscallId (call : Call) : ℕ := (call.id.setWidth 32).toNat

/-- The list counts as populated when it has the number zero. -/
def traceExecve (probe : Probe) (call : Call) : Option SyscallEventData :=
  if call.netNs ∉ probe.inodeNum then none
  else if 0 ∈ probe.allowedSyscalls ∧ syscallId call ∉ probe.allowedSyscalls then none
  else some ⟨call.netNs, syscallId call⟩

/-- What the controller does for an event of a pod that it knows. -/
def handleSyscallEvent (probe : Probe) (data : SyscallEventData) : List Event :=
  match probe.containerMap data.inum with
  | some podName => [.opened podName, .recorded podName data.sysnbr]
  | none => []

def captured (probe : Probe) (call : Call) : List Event :=
  match traceExecve probe call with
  | some data => handleSyscallEvent probe data
  | none => []

/-- The pod of a namespace is tracked. -/
structure Tracked (probe : Probe) (netNs : ℕ) (podName : String) : Prop where
  inode : netNs ∈ probe.inodeNum
  pod : probe.containerMap netNs = some podName

/-- The filter lets the number through. -/
def Traced (probe : Probe) (call : Call) : Prop :=
  0 ∈ probe.allowedSyscalls → syscallId call ∈ probe.allowedSyscalls

instance (probe : Probe) (call : Call) : Decidable (Traced probe call) :=
  inferInstanceAs (Decidable (0 ∈ probe.allowedSyscalls →
    syscallId call ∈ probe.allowedSyscalls))

/-- The profile allows the system call by its name. -/
def Allows (names : SyscallNames) (profile : SeccompProfile) (call : Call) : Prop :=
  ∃ name, getSyscallName names (syscallId call) = some name ∧ name ∈ allowed profile.syscalls

/-- Once the whole list is in the map, its numbers pass and no others. -/
theorem traced_iff_of_updates {probe : Probe} (h : ∀ nr, probe.updates nr = true) (call : Call) :
    Traced probe call ↔ syscallId call ∈ securitySyscalls := by
  have hall : probe.allowedSyscalls = securitySyscalls :=
    List.takeWhile_eq_self_iff.mpr fun nr _ => h nr
  have hzero : 0 ∈ securitySyscalls := by decide
  rw [Traced, hall]
  exact ⟨fun htraced => htraced hzero, fun hmem _ => hmem⟩

/-! What is recorded. -/

theorem captured_of_tracked {probe : Probe} {call : Call} {podName : String}
    (h : Tracked probe call.netNs podName) (htraced : Traced probe call) :
    captured probe call = [.opened podName, .recorded podName (syscallId call)] := by
  rw [captured, traceExecve, if_neg (not_not_intro h.inode),
    if_neg fun hand => hand.2 (htraced hand.1)]
  change handleSyscallEvent probe ⟨call.netNs, syscallId call⟩ = _
  rw [handleSyscallEvent, h.pod]

/-- A call leaves its number for its pod, or nothing. -/
theorem captured_cases (probe : Probe) (call : Call) :
    captured probe call = [] ∨ Traced probe call ∧
      ∃ podName, captured probe call = [.opened podName, .recorded podName (syscallId call)] := by
  by_cases htraced : Traced probe call
  · by_cases hinode : call.netNs ∈ probe.inodeNum
    · cases hpod : probe.containerMap call.netNs with
      | none =>
          left
          rw [captured, traceExecve, if_neg (not_not_intro hinode),
            if_neg fun hand => hand.2 (htraced hand.1)]
          change handleSyscallEvent probe ⟨call.netNs, syscallId call⟩ = _
          rw [handleSyscallEvent, hpod]
      | some podName => exact .inr ⟨htraced, podName, captured_of_tracked ⟨hinode, hpod⟩ htraced⟩
    · left
      rw [captured, traceExecve, if_pos hinode]
  · left
    rw [Traced, Classical.not_imp] at htraced
    rw [captured, traceExecve, if_pos htraced]
    split <;> simp_all

/-- All that was recorded of a pod is in its entry. -/
theorem heldNames_captured (names : SyscallNames) (probe : Probe) (podName : String)
    (calls : List Call) :
    (heldNames names podName (calls.flatMap (captured probe))).getD [] =
      recordedNames names podName (calls.flatMap (captured probe)) := by
  induction calls using List.reverseRecOn with
  | nil => rfl
  | append_singleton calls call ih =>
      rw [List.flatMap_append, List.flatMap_singleton]
      rcases captured_cases probe call with hnone | ⟨-, podName', hsome⟩
      · rw [hnone, List.append_nil, ih]
      · rw [hsome, recordedNames_append, ← ih]
        have hconcat (events : List Event) (e e' : Event) :
            events ++ [e, e'] = (events ++ [e]) ++ [e'] := by simp
        rw [hconcat, heldNames_concat, heldNames_concat, hold, hold]
        by_cases hpod : podName' = podName
        · simp [hpod, recordedNames]
        · simp [hpod, recordedNames]

theorem mem_recordedNames_iff {names : SyscallNames} {probe : Probe} {podName name : String}
    {calls : List Call} :
    name ∈ recordedNames names podName (calls.flatMap (captured probe)) ↔
      ∃ call ∈ calls, captured probe call =
        [.opened podName, .recorded podName (syscallId call)] ∧
        syscallName names (syscallId call) = name := by
  induction calls with
  | nil => simp [recordedNames]
  | cons call rest ih =>
      rw [List.flatMap_cons, recordedNames_append, List.mem_append, ih]
      rcases captured_cases probe call with hnone | ⟨-, podName', hsome⟩
      · simp [hnone, recordedNames]
      · by_cases hpod : podName' = podName
        · simp [hsome, hpod, recordedNames, eq_comm]
        · simp [hsome, hpod, recordedNames]

/-! What is stored after one send. -/

/-- The events of a run whose system calls are sent once. -/
def sentOnce (probe : Probe) (calls : List Call) (batch : List PodInputSyscalls) : List Event :=
  calls.flatMap (captured probe) ++ [.collected batch] ++ [.posted batch .accepted]

theorem not_posted_captured (probe : Probe) (calls : List Call) (batch : List PodInputSyscalls)
    (outcome : Outcome) : .posted batch outcome ∉ calls.flatMap (captured probe) := by
  intro h
  obtain ⟨call, -, hcall⟩ := List.mem_flatMap.mp h
  rcases captured_cases probe call with hnone | ⟨-, podName, hsome⟩
  · rw [hnone] at hcall
    cases hcall
  · rw [hsome] at hcall
    simp at hcall

theorem sent_of_run {names : SyscallNames} {arch : String} {probe : Probe} {calls : List Call}
    {batch : List PodInputSyscalls} {s : State}
    (h : Run names arch (sentOnce probe calls batch) s) :
    Sent names arch (calls.flatMap (captured probe)) batch ∧
      createPodSyscalls Table.empty batch = .ok s.table := by
  obtain ⟨s₁, hrun, hpost⟩ := h.of_concat
  obtain ⟨hflight, hok⟩ := commit_of_step hpost nofun
  have hempty : s₁.table = Table.empty := by
    refine table_of_run hrun fun batch' outcome hmem => ?_
    rcases List.mem_append.mp hmem with hcaptured | hcollected
    · exact not_posted_captured probe calls batch' outcome hcaptured
    · simp at hcollected
  have hsent := (inv_of_run hrun).inFlight batch hflight
  rw [beforeCollect_concat] at hsent
  rw [hempty] at hok
  exact ⟨hsent, hok⟩

/-- The row of a pod names what was recorded of it. -/
theorem mem_row_iff {names : SyscallNames} {arch : String} {probe : Probe} {calls : List Call}
    {batch : List PodInputSyscalls} {s : State} (h : Run names arch (sentOnce probe calls batch) s)
    {podName : String} {row : PodSyscalls} (hrow : s.table.lookup podName = some row)
    {name : String} (hname : name ≠ "") :
    name ∈ splitCommas row.syscalls ↔
      name ∈ recordedNames names podName (calls.flatMap (captured probe)) := by
  obtain ⟨hsent, hok⟩ := sent_of_run h
  have hpod : podName ∈ batch.map PodInputSyscalls.podName := by
    by_contra hnot
    have hsyscalls := syscalls_of_create hok podName
    rw [Histories.lastWith_eq_none fun e he hand => hnot (List.mem_map.mpr ⟨e, he, hand.2.symm⟩),
      hrow] at hsyscalls
    cases hsyscalls
  obtain ⟨e, he, rfl⟩ := List.mem_map.mp hpod
  have hstored := mem_storedNames_iff hsent hok he hname
  rw [storedNames, hrow, Option.map_some, Option.getD_some] at hstored
  obtain ⟨-, -, -, held, hheld, hsame⟩ := hsent.entries e he
  have hrecorded := heldNames_captured names probe e.podName calls
  rw [hheld, Option.getD_some] at hrecorded
  rw [hstored, hsame, hrecorded]

/-- A profile allows what is in the row of its pod. -/
theorem row_of_profile {t : SyscallTable} {podName : String} {profile : SeccompProfile}
    (h : cliProfile (getPodSyscallName t.rows podName) = .ok profile) :
    ∃ row, t.lookup podName = some row ∧ allowed profile.syscalls = splitCommas row.syscalls := by
  obtain ⟨calls, hcalls, hvalid⟩ := (cliProfile_eq_ok_iff _ _).mp h
  obtain ⟨-, -, row, hrow, rfl⟩ := (getPodSysCall_eq_ok_iff _ _ _).mp hcalls
  obtain ⟨rfl, -⟩ := (validProfile_eq_ok_iff _ _).mp hvalid
  have hmem := List.mem_filter.mp (List.mem_of_head? hrow)
  obtain rfl : row.podName = podName := by simpa using hmem.2
  refine ⟨row, Table.lookup_of_mem hmem.1, ?_⟩
  simp [allowed, buildSeccompProfile]

/-- The profile of a row that is known and short enough. -/
theorem profile_of_row {t : SyscallTable} {podName : String} {row : PodSyscalls}
    (hname : podName ≠ "") (hrow : (podSyscallsByName t.rows podName).head? = some row)
    (hbytes : arrayBytes (podSyscallsByName t.rows podName) ≤ maxBrokerResponseBytes)
    (hknown : Known row.arch) : cliProfile (getPodSyscallName t.rows podName) =
      .ok (buildSeccompProfile (splitCommas row.syscalls) row.arch "SCMP_ACT_ERRNO") := by
  rw [cliProfile_eq_ok_iff]
  refine ⟨⟨splitCommas row.syscalls, row.arch⟩, ?_, ?_⟩
  · exact (getPodSysCall_eq_ok_iff _ _ _).mpr ⟨hname, hbytes, row, hrow, rfl⟩
  · exact (validProfile_eq_ok_iff _ _).mpr ⟨rfl, hknown⟩

/-- A generated profile allows all that its pod has called exactly when the filter
lets each of these numbers through and the seccomp library has a name for it. -/
theorem profile_allows_iff {names : SyscallNames} {arch : String} {probe : Probe}
    {calls : List Call} {batch : List PodInputSyscalls} {s : State} {netNs : ℕ} {podName : String}
    {profile : SeccompProfile} (htracked : Tracked probe netNs podName)
    (hrun : Run names arch (sentOnce probe calls batch) s)
    (hprofile : cliProfile (getPodSyscallName s.table.rows podName) = .ok profile) :
    (∀ call ∈ calls, call.netNs = netNs → Allows names profile call) ↔
      ∀ call ∈ calls, call.netNs = netNs →
        Traced probe call ∧ getSyscallName names (syscallId call) ≠ none := by
  obtain ⟨row, hrow, hallowed⟩ := row_of_profile hprofile
  have hmem {name : String} (hname : name ≠ "") : name ∈ allowed profile.syscalls ↔
      name ∈ recordedNames names podName (calls.flatMap (captured probe)) := by
    rw [hallowed]
    exact mem_row_iff hrun hrow hname
  have hne {call : Call} {name : String}
      (h : getSyscallName names (syscallId call) = some name) : name ≠ "" := by
    have hplain := (plain_syscallName names (syscallId call)).2
    rwa [syscallName, h] at hplain
  constructor
  · intro h call hcall hpod
    obtain ⟨name, hname, hlisted⟩ := h call hcall hpod
    refine ⟨?_, hname ▸ Option.some_ne_none name⟩
    obtain ⟨call', -, hcaptured, hsame⟩ :=
      mem_recordedNames_iff.mp ((hmem (hne hname)).mp hlisted)
    have hid := eq_of_syscallName_eq hname hsame
    rcases captured_cases probe call' with hnone | ⟨htraced, -⟩
    · rw [hnone] at hcaptured
      cases hcaptured
    · rw [Traced, ← hid]
      exact htraced
  · intro h call hcall hpod
    obtain ⟨htraced, hsome⟩ := h call hcall hpod
    obtain ⟨name, hname⟩ := Option.ne_none_iff_exists'.mp hsome
    refine ⟨name, hname, (hmem (hne hname)).mpr (mem_recordedNames_iff.mpr ⟨call, hcall, ?_, ?_⟩)⟩
    · exact captured_of_tracked (hpod ▸ htracked) htraced
    · rw [syscallName, hname, Option.getD_some]

/-! A pod that reads and writes, and one that maps memory too. -/

def webProbe : Probe where
  inodeNum := [4026532001]
  updates _ := true
  containerMap inum := if inum = 4026532001 then some "web-0" else none

def readsAndWrites : List Call := [⟨4026532001, 1⟩, ⟨4026532001, 0⟩]

theorem tracked_web : Tracked webProbe 4026532001 "web-0" := ⟨by decide, rfl⟩

theorem allows_readWrite :
    Allows amd64Names (buildSeccompProfile ["read", "write"] "x86_64" "SCMP_ACT_ERRNO")
      ⟨4026532001, 1⟩ ∧
    Allows amd64Names (buildSeccompProfile ["read", "write"] "x86_64" "SCMP_ACT_ERRNO")
      ⟨4026532001, 0⟩ := by
  have h : Run amd64Names "x86_64" [] State.init := .init
  have h := h.step (.opened _ "web-0" (by decide))
  have h := h.step (.recorded _ "web-0" 1)
  have h := h.step (.opened _ "web-0" (by decide))
  have h : Run amd64Names "x86_64" _ (cached ["read", "write"] Table.empty) :=
    h.step (.recorded _ "web-0" 0)
  have h := h.step (.collected _ [entry "web-0" ["read", "write"]] rfl
    (collects_one (by decide) (by decide)) (by decide))
  have h := h.step (.accepted _ _ storedOnAmd rfl rfl)
  have hrow : (podSyscallsByName storedOnAmd.rows "web-0").head? =
      some ⟨"web-0", "", "read,write", "x86_64", "2024-05-01T10:00:00"⟩ := rfl
  have hprofile := profile_of_row (by decide) hrow (by decide) (by decide)
  have hcalls : ∀ call ∈ readsAndWrites, call.netNs = 4026532001 → Traced webProbe call ∧
      getSyscallName amd64Names (syscallId call) ≠ none := by
    decide
  have hallows := (profile_allows_iff tracked_web h hprofile).mpr hcalls
  exact ⟨hallows ⟨4026532001, 1⟩ (by decide) rfl, hallows ⟨4026532001, 0⟩ (by decide) rfl⟩

def mapsMemory : List Call := [⟨4026532001, 0⟩, ⟨4026532001, 9⟩]

def readSent : State where
  controller := ⟨AList.insert "web-0" ["read"].toFinset ∅, AList.insert "web-0" ["read"].toFinset ∅,
    none⟩
  table := storedAfter

/-- The profile of the second pod is without its `mmap`. -/
theorem not_allows_mmap :
    Run amd64Names "x86_64" (sentOnce webProbe mapsMemory [entry "web-0" ["read"]]) readSent ∧
    cliProfile (getPodSyscallName readSent.table.rows "web-0") =
      .ok (buildSeccompProfile ["read"] "x86_64" "SCMP_ACT_ERRNO") ∧
    ¬ Allows amd64Names (buildSeccompProfile ["read"] "x86_64" "SCMP_ACT_ERRNO")
      ⟨4026532001, 9⟩ := by
  refine ⟨?_, ?_, ?_⟩
  · have h : Run amd64Names "x86_64" [] State.init := .init
    have h := h.step (.opened _ "web-0" (by decide))
    have h : Run amd64Names "x86_64" _ (cached ["read"] Table.empty) :=
      h.step (.recorded _ "web-0" 0)
    have h := h.step (.collected _ [entry "web-0" ["read"]] rfl
      (collects_one (by decide) (by decide)) (by decide))
    have h := h.step (.accepted _ _ storedAfter rfl rfl)
    exact h
  · have hrow : (podSyscallsByName storedAfter.rows "web-0").head? =
        some ⟨"web-0", "", "read", "x86_64", "2024-05-01T10:00:00"⟩ := rfl
    exact profile_of_row (by decide) hrow (by decide) (by decide)
  · intro h
    obtain ⟨name, hname, hlisted⟩ := h
    obtain rfl : "mmap" = name := Option.some.inj hname
    exact absurd hlisted (by decide)

end KGuardian.SyscallCapture
