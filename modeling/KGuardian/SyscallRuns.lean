import KGuardian.SyscallIngest
import Mathlib.Data.Finset.Basic
import Mathlib.Data.Finset.Dedup
import Mathlib.Data.List.AList

/-!
System calls from the controller's cache to the broker. The controller sends all
that its cache holds for a pod, and the broker replaces what it had, so a name
that the cache has lost is lost to the broker with the next batch.
-/
namespace KGuardian.SyscallRuns

open Histories KeyedTables SeccompProfiles SyscallIngest

/-! The names of system calls. -/

theorem digits_toString (n : ℕ) : ∀ c ∈ (toString n).toList, c.isDigit = true := by
  intro c hc
  rw [Nat.toString_eq_ofList_toDigits, String.toList_ofList] at hc
  exact Nat.isDigit_of_mem_toDigits (by decide) (by decide) hc

theorem toString_ne_empty (n : ℕ) : toString n ≠ "" := by
  intro h
  rw [Nat.toString_eq_ofList_toDigits, ← String.toList_inj, String.toList_ofList] at h
  exact Nat.toDigits_ne_nil h

/-- The table of the seccomp library for one architecture. Its names are words
without a comma, and no two numbers have the same. -/
structure SyscallNames where
  getName : ℕ → Option String
  plain : ∀ nr name, getName nr = some name → ',' ∉ name.toList
  word : ∀ nr name, getName nr = some name → ∃ c ∈ name.toList, c.isDigit = false
  distinct : ∀ nr nr' name, getName nr = some name → getName nr' = some name → nr = nr'

/-- A number beyond a signed integer is not looked up. -/
def getSyscallName (names : SyscallNames) (sysnbr : ℕ) : Option String :=
  if sysnbr < 2 ^ 31 then names.getName sysnbr else none

/-- A number without a name stands for itself. -/
def syscallName (names : SyscallNames) (sysnbr : ℕ) : String :=
  (getSyscallName names sysnbr).getD (toString sysnbr)

theorem getName_of_getSyscallName {names : SyscallNames} {sysnbr : ℕ} {name : String}
    (h : getSyscallName names sysnbr = some name) : names.getName sysnbr = some name := by
  rw [getSyscallName] at h
  split at h
  · exact h
  · cases h

theorem plain_syscallName (names : SyscallNames) (sysnbr : ℕ) :
    ',' ∉ (syscallName names sysnbr).toList ∧ syscallName names sysnbr ≠ "" := by
  rw [syscallName]
  cases h : getSyscallName names sysnbr with
  | none =>
      refine ⟨fun hcomma => ?_, toString_ne_empty sysnbr⟩
      exact absurd (digits_toString sysnbr ',' hcomma) (by decide)
  | some name =>
      have hname := getName_of_getSyscallName h
      refine ⟨names.plain sysnbr name hname, ?_⟩
      rintro rfl
      obtain ⟨c, hc, -⟩ := names.word sysnbr _ hname
      exact absurd hc List.not_mem_nil

/-- A name of the library stands for its own number only. -/
theorem eq_of_syscallName_eq {names : SyscallNames} {sysnbr sysnbr' : ℕ} {name : String}
    (h : getSyscallName names sysnbr = some name) (h' : syscallName names sysnbr' = name) :
    sysnbr' = sysnbr := by
  have hname := getName_of_getSyscallName h
  rw [syscallName] at h'
  cases hother : getSyscallName names sysnbr' with
  | none =>
      rw [hother] at h'
      obtain ⟨c, hc, hdigit⟩ := names.word sysnbr name hname
      rw [← h'] at hc
      rw [digits_toString sysnbr' c hc] at hdigit
      cases hdigit
  | some name' =>
      rw [hother] at h'
      obtain rfl : name' = name := h'
      exact names.distinct _ _ _ (getName_of_getSyscallName hother) hname

/-! The controller. -/

abbrev SyscallCache := AList fun _ : String => Finset String

structure Controller where
  syscallCache : SyscallCache
  lastSentCache : SyscallCache
  inFlight : Option (List PodInputSyscalls)

def Controller.init : Controller := ⟨∅, ∅, none⟩

/-- An entry that is missing is made, with an empty set. -/
def getWith (cache : SyscallCache) (podName : String) : SyscallCache :=
  cache.insert podName ((cache.lookup podName).getD ∅)

/-- The set is extended in place, so nothing is seen of it after an eviction. -/
def addName (cache : SyscallCache) (podName name : String) : SyscallCache :=
  match cache.lookup podName with
  | some syscalls => cache.insert podName (insert name syscalls)
  | none => cache

/-- What was sent last for a pod. An entry that is made here is empty as a missing one. -/
def lastSent (c : Controller) (podName : String) : Finset String :=
  (c.lastSentCache.lookup podName).getD ∅

def markSent (cache : SyscallCache) (batch : List PodInputSyscalls) : SyscallCache :=
  batch.foldl (fun cache e => cache.insert e.podName e.syscalls.toFinset) cache

/-- The batch of one pass: the entries that differ from what was sent, in any
order, each with its names in any order. -/
structure Collects (arch : String) (c : Controller) (batch : List PodInputSyscalls) : Prop where
  pods : (batch.map PodInputSyscalls.podName).Nodup
  entries : ∀ e ∈ batch, e.podNamespace = "" ∧ e.arch = arch ∧ e.syscalls.Nodup ∧
    c.syscallCache.lookup e.podName = some e.syscalls.toFinset
  changed : ∀ podName syscalls, c.syscallCache.lookup podName = some syscalls →
    (podName ∈ batch.map PodInputSyscalls.podName ↔ syscalls ≠ lastSent c podName)

inductive Outcome where
  | accepted
  | unacknowledged
  | failed
  deriving DecidableEq

/-- The turn of an event for a pod has two steps, since a pass can come between
them. A batch is posted as it was collected. -/
inductive Event where
  | opened (podName : String)
  | recorded (podName : String) (sysnbr : ℕ)
  | evicted (podName : String)
  | sentEvicted (podName : String)
  | collected (batch : List PodInputSyscalls)
  | posted (batch : List PodInputSyscalls) (outcome : Outcome)
  | restarted

structure State where
  controller : Controller
  table : SyscallTable

def State.init : State := ⟨Controller.init, Table.empty⟩

/-- What one pass reads of a pod it reads at once, so a pass is one step here.
No pod of a cluster has a blank name. -/
inductive Step (names : SyscallNames) (arch : String) : State → Event → State → Prop
  | opened (s : State) (podName : String) (hnamed : ¬ Blank podName) :
      Step names arch s (.opened podName) { s with controller := { s.controller with
        syscallCache := getWith s.controller.syscallCache podName } }
  | recorded (s : State) (podName : String) (sysnbr : ℕ) :
      Step names arch s (.recorded podName sysnbr) { s with controller := { s.controller with
        syscallCache := addName s.controller.syscallCache podName (syscallName names sysnbr) } }
  | evicted (s : State) (podName : String) :
      Step names arch s (.evicted podName) { s with controller := { s.controller with
        syscallCache := s.controller.syscallCache.erase podName } }
  | sentEvicted (s : State) (podName : String) :
      Step names arch s (.sentEvicted podName) { s with controller := { s.controller with
        lastSentCache := s.controller.lastSentCache.erase podName } }
  | collected (s : State) (batch : List PodInputSyscalls) (hidle : s.controller.inFlight = none)
      (hcollects : Collects arch s.controller batch) (hbatch : batch ≠ []) :
      Step names arch s (.collected batch)
        { s with controller := { s.controller with inFlight := some batch } }
  | accepted (s : State) (batch : List PodInputSyscalls) (table : SyscallTable)
      (hsent : s.controller.inFlight = some batch)
      (hok : createPodSyscalls s.table batch = .ok table) :
      Step names arch s (.posted batch .accepted)
        ⟨{ s.controller with
          lastSentCache := markSent s.controller.lastSentCache batch, inFlight := none }, table⟩
  | unacknowledged (s : State) (batch : List PodInputSyscalls) (table : SyscallTable)
      (hsent : s.controller.inFlight = some batch)
      (hok : createPodSyscalls s.table batch = .ok table) :
      Step names arch s (.posted batch .unacknowledged)
        ⟨{ s.controller with inFlight := none }, table⟩
  | failed (s : State) (batch : List PodInputSyscalls)
      (hsent : s.controller.inFlight = some batch) :
      Step names arch s (.posted batch .failed)
        { s with controller := { s.controller with inFlight := none } }
  | restarted (s : State) :
      Step names arch s .restarted { s with controller := Controller.init }

inductive Run (names : SyscallNames) (arch : String) : List Event → State → Prop
  | init : Run names arch [] State.init
  | step {events : List Event} {s s' : State} {e : Event} (h : Run names arch events s)
      (hstep : Step names arch s e s') : Run names arch (events ++ [e]) s'

theorem Run.of_concat {names : SyscallNames} {arch : String} {events : List Event} {e : Event}
    {s' : State} (h : Run names arch (events ++ [e]) s') :
    ∃ s, Run names arch events s ∧ Step names arch s e s' := by
  generalize hall : events ++ [e] = all at h
  cases h with
  | init => exact absurd hall (by simp)
  | step h hstep =>
      obtain ⟨rfl, hlast⟩ := List.append_inj' hall rfl
      obtain rfl := List.singleton_inj.mp hlast
      exact ⟨_, h, hstep⟩

/-! What a run says of a pod. -/

/-- The names that came for a pod. -/
def recordedNames (names : SyscallNames) (podName : String) (events : List Event) : List String :=
  events.filterMap fun
    | .recorded podName' sysnbr =>
        if podName' = podName then some (syscallName names sysnbr) else none
    | _ => none

def hold (names : SyscallNames) (podName : String) (held : Option (List String)) :
    Event → Option (List String)
  | .opened podName' => if podName' = podName then some (held.getD []) else held
  | .recorded podName' sysnbr =>
      if podName' = podName then held.map fun l => l ++ [syscallName names sysnbr] else held
  | .evicted podName' => if podName' = podName then none else held
  | .restarted => none
  | _ => held

/-- The names that came for a pod since its entry was lost, if it has one. -/
def heldNames (names : SyscallNames) (podName : String) (events : List Event) :
    Option (List String) :=
  events.foldl (hold names podName) none

/-- The names that batches of the broker have reported for a pod. -/
def reportedNames (podName : String) (events : List Event) : List String :=
  events.flatMap fun
    | .posted _ .failed => []
    | .posted batch _ =>
        (batch.filter fun e => e.podName = podName).flatMap PodInputSyscalls.syscalls
    | _ => []

/-- The names in the row of a pod. -/
def storedNames (table : SyscallTable) (podName : String) : List String :=
  ((table.lookup podName).map fun row => splitCommas row.syscalls).getD []

def isCollect : Event → Bool
  | .collected _ => true
  | _ => false

/-- What came before the batch that was collected last. -/
def beforeCollect (events : List Event) : List Event := beforeLast isCollect events

/-- What holds of each batch that the broker commits, with the events before it
and the table after it. -/
def EveryCommit (names : SyscallNames) (arch : String) (events : List Event)
    (P : List Event → List PodInputSyscalls → Outcome → SyscallTable → Prop) : Prop :=
  ∀ before batch outcome after s s', events = before ++ .posted batch outcome :: after →
    outcome ≠ .failed → Run names arch before s →
    Step names arch s (.posted batch outcome) s' → P before batch outcome s'.table

/-- After each batch all that was reported of a pod is stored, and so is all that was
recorded of it before the batch was collected, be it in the batch or not. -/
def OnlyGrows (names : SyscallNames) (arch : String) (events : List Event) : Prop :=
  EveryCommit names arch events fun before batch outcome table => ∀ podName,
    (∀ name ∈ reportedNames podName (before ++ [.posted batch outcome]),
      name ∈ storedNames table podName) ∧
    ∀ name ∈ recordedNames names podName (beforeCollect before),
      name ∈ storedNames table podName

/-- The broker commits a batch with an entry of the pod. -/
def commits (podName : String) : Event → Bool
  | .posted _ .failed => false
  | .posted batch _ => podName ∈ batch.map PodInputSyscalls.podName
  | _ => false

/-- What came before the last committed batch with an entry of the pod was collected. -/
def beforeReport (podName : String) (events : List Event) : List Event :=
  beforeCollect (beforeLast (commits podName) events)

/-- For each pod, all that was recorded before a batch was collected was in its entry
of the cache, in which it came again if the entry was lost, when the last batch that
has the pod was collected. -/
def RecordedAgain (names : SyscallNames) (arch : String) (events : List Event) : Prop :=
  EveryCommit names arch events fun before batch outcome _ =>
    ∀ podName, ∀ name ∈ recordedNames names podName (beforeCollect before),
      ∃ held ∈ heldNames names podName (beforeReport podName (before ++ [.posted batch outcome])),
        name ∈ held

/-! The cache. -/

theorem recordedNames_append (names : SyscallNames) (podName : String)
    (before after : List Event) : recordedNames names podName (before ++ after) =
      recordedNames names podName before ++ recordedNames names podName after :=
  List.filterMap_append

theorem reportedNames_append (podName : String) (before after : List Event) :
    reportedNames podName (before ++ after) =
      reportedNames podName before ++ reportedNames podName after :=
  List.flatMap_append

theorem heldNames_concat (names : SyscallNames) (podName : String) (events : List Event)
    (e : Event) : heldNames names podName (events ++ [e]) =
      hold names podName (heldNames names podName events) e := by
  rw [heldNames, List.foldl_concat, ← heldNames]

theorem beforeCollect_concat (events : List Event) (e : Event) :
    beforeCollect (events ++ [e]) = if isCollect e then events else beforeCollect events :=
  beforeLast_concat isCollect events e

theorem recordedNames_beforeCollect {names : SyscallNames} {podName name : String}
    {events : List Event} (h : name ∈ recordedNames names podName (beforeCollect events)) :
    name ∈ recordedNames names podName events := by
  obtain ⟨after, hafter⟩ := beforeLast_initial isCollect events
  rw [← hafter, recordedNames_append]
  exact List.mem_append_left _ h

theorem plain_of_recorded {names : SyscallNames} {podName name : String} {events : List Event}
    (h : name ∈ recordedNames names podName events) : ',' ∉ name.toList ∧ name ≠ "" := by
  obtain ⟨e, -, he⟩ := List.mem_filterMap.mp h
  split at he
  · split at he
    · obtain rfl := Option.some.inj he
      exact plain_syscallName names _
    · cases he
  · cases he

theorem recorded_of_held {names : SyscallNames} {podName : String} {events : List Event}
    {held : List String} (h : heldNames names podName events = some held) :
    ∀ name ∈ held, name ∈ recordedNames names podName events := by
  induction events using List.reverseRecOn generalizing held with
  | nil => cases h
  | append_singleton events e ih =>
      intro name hname
      rw [recordedNames_append, List.mem_append]
      rw [heldNames_concat] at h
      have hsame (h : heldNames names podName events = some held) :
          name ∈ recordedNames names podName events ∨ name ∈ recordedNames names podName [e] :=
        .inl (ih h name hname)
      cases e with
      | opened podName' =>
          rw [hold] at h
          split at h
          · cases hheld : heldNames names podName events with
            | none =>
                rw [hheld] at h
                obtain rfl := Option.some.inj h
                exact absurd hname List.not_mem_nil
            | some l =>
                rw [hheld] at h
                exact hsame (hheld.trans h)
          · exact hsame h
      | recorded podName' sysnbr =>
          rw [hold] at h
          split at h
          · rename_i hpod
            obtain ⟨l, hl, rfl⟩ := Option.map_eq_some_iff.mp h
            rcases List.mem_append.mp hname with hold | hnew
            · exact .inl (ih hl name hold)
            · right
              rw [List.mem_singleton.mp hnew]
              simp [recordedNames, hpod]
          · exact hsame h
      | evicted podName' =>
          rw [hold] at h
          split at h
          · cases h
          · exact hsame h
      | sentEvicted podName' => exact hsame h
      | collected batch => exact hsame h
      | posted batch outcome => exact hsame h
      | restarted => cases h

theorem lookup_getWith (cache : SyscallCache) (podName podName' : String) :
    (getWith cache podName).lookup podName' =
      if podName = podName' then some ((cache.lookup podName').getD ∅)
      else cache.lookup podName' := by
  rw [getWith]
  by_cases hpod : podName = podName'
  · subst hpod
    rw [AList.lookup_insert, if_pos rfl]
  · rw [AList.lookup_insert_ne (Ne.symm hpod), if_neg hpod]

theorem lookup_addName (cache : SyscallCache) (podName name podName' : String) :
    (addName cache podName name).lookup podName' =
      if podName = podName' then (cache.lookup podName').map (insert name)
      else cache.lookup podName' := by
  rw [addName]
  cases hlookup : cache.lookup podName with
  | none =>
      change cache.lookup podName' = _
      split
      · rename_i hpod
        rw [← hpod, hlookup]
        rfl
      · rfl
  | some syscalls =>
      change (cache.insert podName (insert name syscalls)).lookup podName' = _
      by_cases hpod : podName = podName'
      · subst hpod
        rw [AList.lookup_insert, if_pos rfl, hlookup]
        rfl
      · rw [AList.lookup_insert_ne (Ne.symm hpod), if_neg hpod]

/-- What a batch says of the events before it was collected. -/
structure Sent (names : SyscallNames) (arch : String) (before : List Event)
    (batch : List PodInputSyscalls) : Prop where
  pods : (batch.map PodInputSyscalls.podName).Nodup
  entries : ∀ e ∈ batch, ¬ Blank e.podName ∧ e.podNamespace = "" ∧ e.arch = arch ∧
    ∃ held, heldNames names e.podName before = some held ∧
      ∀ name, name ∈ e.syscalls ↔ name ∈ held

/-- What holds between any two steps. -/
structure Inv (names : SyscallNames) (arch : String) (events : List Event) (s : State) :
    Prop where
  cache : ∀ podName, s.controller.syscallCache.lookup podName =
    (heldNames names podName events).map List.toFinset
  named : ∀ podName, heldNames names podName events ≠ none → ¬ Blank podName
  inFlight : ∀ batch, s.controller.inFlight = some batch →
    Sent names arch (beforeCollect events) batch

/-- A step that leaves the cache alone. -/
theorem Inv.of_cache {names : SyscallNames} {arch : String} {events : List Event} {s s' : State}
    {e : Event} (h : Inv names arch events s) (hhold : ∀ pod held, hold names pod held e = held)
    (hcache : s'.controller.syscallCache = s.controller.syscallCache)
    (hflight : ∀ batch, s'.controller.inFlight = some batch →
      Sent names arch (beforeCollect (events ++ [e])) batch) :
    Inv names arch (events ++ [e]) s' := by
  refine ⟨fun podName => ?_, fun podName => ?_, hflight⟩
  · rw [heldNames_concat, hhold, hcache]
    exact h.cache podName
  · rw [heldNames_concat, hhold]
    exact h.named podName

theorem inv_init (names : SyscallNames) (arch : String) : Inv names arch [] State.init :=
  ⟨fun _ => rfl, fun _ hheld => absurd rfl hheld, nofun⟩

section steps

variable {names : SyscallNames} {arch : String} {events : List Event} {s : State}

theorem Inv.opened (h : Inv names arch events s) {podName : String} (hnamed : ¬ Blank podName) :
    Inv names arch (events ++ [.opened podName]) { s with controller := { s.controller with
      syscallCache := getWith s.controller.syscallCache podName } } := by
  refine ⟨fun podName' => ?_, fun podName' => ?_, ?_⟩
  · rw [lookup_getWith, h.cache, heldNames_concat, hold]
    split
    · cases heldNames names podName' events <;> rfl
    · rfl
  · rw [heldNames_concat, hold]
    split
    · rename_i hpod
      exact fun _ => hpod ▸ hnamed
    · exact h.named podName'
  · rw [beforeCollect_concat]
    exact h.inFlight

theorem Inv.recorded (h : Inv names arch events s) (podName : String) (sysnbr : ℕ) :
    Inv names arch (events ++ [.recorded podName sysnbr]) { s with controller := { s.controller with
      syscallCache := addName s.controller.syscallCache podName (syscallName names sysnbr) } } := by
  refine ⟨fun podName' => ?_, fun podName' => ?_, ?_⟩
  · rw [lookup_addName, h.cache, heldNames_concat, hold]
    split
    · cases heldNames names podName' events with
      | none => rfl
      | some held =>
          simp only [Option.map_some, Option.some.injEq]
          ext name
          simp [or_comm]
    · rfl
  · rw [heldNames_concat, hold]
    split
    · intro hheld
      refine h.named podName' fun hnone => hheld ?_
      rw [hnone]
      rfl
    · exact h.named podName'
  · rw [beforeCollect_concat]
    exact h.inFlight

theorem Inv.evicted (h : Inv names arch events s) (podName : String) :
    Inv names arch (events ++ [.evicted podName]) { s with controller := { s.controller with
      syscallCache := s.controller.syscallCache.erase podName } } := by
  refine ⟨fun podName' => ?_, fun podName' => ?_, ?_⟩
  · rw [heldNames_concat, hold]
    split
    · rename_i hpod
      rw [hpod]
      exact AList.lookup_erase _ _
    · rename_i hpod
      rw [AList.lookup_erase_ne (Ne.symm hpod)]
      exact h.cache podName'
  · rw [heldNames_concat, hold]
    split
    · exact fun hheld => absurd rfl hheld
    · exact h.named podName'
  · rw [beforeCollect_concat]
    exact h.inFlight

theorem Inv.collected (h : Inv names arch events s) {batch : List PodInputSyscalls}
    (hcollects : Collects arch s.controller batch) :
    Inv names arch (events ++ [.collected batch])
      { s with controller := { s.controller with inFlight := some batch } } := by
  refine h.of_cache (fun _ _ => rfl) rfl fun batch' hbatch' => ?_
  obtain rfl := Option.some.inj hbatch'
  rw [beforeCollect_concat]
  refine ⟨hcollects.pods, fun e he => ?_⟩
  obtain ⟨hnamespace, harch, -, hlookup⟩ := hcollects.entries e he
  rw [h.cache] at hlookup
  obtain ⟨held, hheld, hsame⟩ := Option.map_eq_some_iff.mp hlookup
  refine ⟨h.named e.podName (by rw [hheld]; nofun), hnamespace, harch, held, hheld, ?_⟩
  intro name
  rw [← List.mem_toFinset, ← hsame, List.mem_toFinset]

/-- Nothing is held after a restart. -/
theorem inv_restarted (names : SyscallNames) (arch : String) (events : List Event)
    (s : State) :
    Inv names arch (events ++ [.restarted]) { s with controller := Controller.init } := by
  refine ⟨fun podName => ?_, fun podName => ?_, nofun⟩
  · rw [heldNames_concat]
    rfl
  · rw [heldNames_concat]
    exact fun hheld => absurd rfl hheld

theorem inv_of_run (h : Run names arch events s) : Inv names arch events s := by
  induction h with
  | init => exact inv_init names arch
  | step h hstep ih =>
      cases hstep with
      | opened podName hnamed => exact ih.opened hnamed
      | recorded podName sysnbr => exact ih.recorded podName sysnbr
      | evicted podName => exact ih.evicted podName
      | sentEvicted podName =>
          refine ih.of_cache (fun _ _ => rfl) rfl ?_
          rw [beforeCollect_concat]
          exact ih.inFlight
      | collected batch hidle hcollects hbatch => exact ih.collected hcollects
      | accepted batch table hsent hok => exact ih.of_cache (fun _ _ => rfl) rfl nofun
      | unacknowledged batch table hsent hok => exact ih.of_cache (fun _ _ => rfl) rfl nofun
      | failed batch hsent => exact ih.of_cache (fun _ _ => rfl) rfl nofun
      | restarted => exact inv_restarted names arch _ _

end steps

/-! The stored rows. -/

theorem commit_of_step {names : SyscallNames} {arch : String} {s s' : State}
    {batch : List PodInputSyscalls} {outcome : Outcome}
    (h : Step names arch s (.posted batch outcome) s') (hcommit : outcome ≠ .failed) :
    s.controller.inFlight = some batch ∧ createPodSyscalls s.table batch = .ok s'.table := by
  cases h with
  | accepted _ table hsent hok => exact ⟨hsent, hok⟩
  | unacknowledged _ table hsent hok => exact ⟨hsent, hok⟩
  | failed _ hsent => exact absurd rfl hcommit

/-- Only commits change the table. -/
theorem table_of_step {names : SyscallNames} {arch : String} {s s' : State} {e : Event}
    (h : Step names arch s e s')
    (hcommit : ∀ batch outcome, e = .posted batch outcome → outcome = .failed) :
    s'.table = s.table := by
  cases h with
  | accepted batch table hsent hok => cases hcommit batch .accepted rfl
  | unacknowledged batch table hsent hok => cases hcommit batch .unacknowledged rfl
  | _ => rfl

theorem table_of_run {names : SyscallNames} {arch : String} {events : List Event} {s : State}
    (h : Run names arch events s) (hcommit : ∀ batch outcome, .posted batch outcome ∉ events) :
    s.table = Table.empty := by
  induction h with
  | init => rfl
  | @step events s s' e h hstep ih =>
      rw [table_of_step hstep]
      · exact ih fun batch outcome hmem => hcommit batch outcome (List.mem_append_left _ hmem)
      · rintro batch outcome rfl
        exact absurd (by simp) (hcommit batch outcome)

theorem syscalls_of_sent {names : SyscallNames} {arch : String} {before : List Event}
    {batch : List PodInputSyscalls} (h : Sent names arch before batch) {e : PodInputSyscalls}
    (he : e ∈ batch) : ∀ name ∈ e.syscalls, ',' ∉ name.toList ∧ name ≠ "" := by
  intro name hname
  obtain ⟨-, -, -, held, hheld, hsame⟩ := h.entries e he
  exact plain_of_recorded (recorded_of_held hheld name ((hsame name).mp hname))

/-- A committed batch leaves the names of each of its entries. -/
theorem mem_storedNames_iff {names : SyscallNames} {arch : String} {before : List Event}
    {batch : List PodInputSyscalls} {t t' : SyscallTable} (h : Sent names arch before batch)
    (hok : createPodSyscalls t batch = .ok t') {e : PodInputSyscalls} (he : e ∈ batch)
    {name : String} (hname : name ≠ "") :
    name ∈ storedNames t' e.podName ↔ name ∈ e.syscalls := by
  have honly : ∀ e' ∈ batch, (¬ Blank e'.podName ∧ e.podName = e'.podName) → e' = e := by
    intro e' he' hand
    exact List.inj_on_of_nodup_map h.pods he' he hand.2.symm
  have hrow := syscalls_of_create hok e.podName
  rw [lastWith_eq_some he ⟨(h.entries e he).1, rfl⟩ honly] at hrow
  obtain ⟨row, hlookup, hsyscalls⟩ := Option.map_eq_some_iff.mp hrow
  change row.syscalls = joinCommas e.syscalls at hsyscalls
  rw [storedNames, hlookup, Option.map_some, Option.getD_some, hsyscalls]
  by_cases hnil : e.syscalls = []
  · rw [hnil]
    have hempty : splitCommas (joinCommas []) = [""] := by decide
    rw [hempty]
    simp [hname]
  · rw [splitCommas_joinCommas (fun n hn => (syscalls_of_sent h he n hn).1) hnil]

theorem storedNames_of_not_mem {batch : List PodInputSyscalls} {t t' : SyscallTable}
    (hok : createPodSyscalls t batch = .ok t') {podName : String}
    (hpod : podName ∉ batch.map PodInputSyscalls.podName) :
    storedNames t' podName = storedNames t podName := by
  have hrow := syscalls_of_create hok podName
  rw [lastWith_eq_none fun e he hand => hpod (List.mem_map.mpr ⟨e, he, hand.2.symm⟩)] at hrow
  have hsplit (t : SyscallTable) : storedNames t podName =
      (((t.lookup podName).map PodSyscalls.syscalls).map splitCommas).getD [] := by
    rw [storedNames, Option.map_map]
    rfl
  rw [hsplit, hsplit, hrow]
  rfl

theorem mem_reportedNames_posted {podName name : String} {batch : List PodInputSyscalls}
    {outcome : Outcome} (h : name ∈ reportedNames podName [.posted batch outcome]) :
    ∃ e ∈ batch, e.podName = podName ∧ name ∈ e.syscalls := by
  cases outcome with
  | failed => exact absurd h List.not_mem_nil
  | _ => simpa [reportedNames, and_assoc] using h

/-! The run. -/

/-- What was reported was recorded before the last batch was collected. -/
theorem recorded_of_reported {names : SyscallNames} {arch : String} {events : List Event}
    {s : State} (h : Run names arch events s) (podName : String) :
    ∀ name ∈ reportedNames podName events,
      name ∈ recordedNames names podName (beforeCollect events) := by
  induction h with
  | init => exact fun name hname => absurd hname List.not_mem_nil
  | @step events s s' e h hstep ih =>
      intro name hname
      rw [reportedNames_append, List.mem_append] at hname
      rw [beforeCollect_concat]
      rcases hname with hold | hnew
      · split
        · exact recordedNames_beforeCollect (ih name hold)
        · exact ih name hold
      · cases e with
        | posted batch outcome =>
            obtain ⟨e, he, rfl, hname⟩ := mem_reportedNames_posted hnew
            have hcommit : outcome ≠ .failed := by
              rintro rfl
              exact absurd hnew List.not_mem_nil
            have hsent := (inv_of_run h).inFlight batch (commit_of_step hstep hcommit).1
            obtain ⟨-, -, -, held, hheld, hsame⟩ := hsent.entries e he
            exact recorded_of_held hheld name ((hsame name).mp hname)
        | _ => exact absurd hnew List.not_mem_nil

theorem commits_eq_false {podName : String} {e : Event}
    (h : ∀ batch outcome, e = .posted batch outcome → outcome = .failed) :
    commits podName e = false := by
  cases e with
  | posted batch outcome =>
      obtain rfl := h batch outcome rfl
      rfl
  | _ => rfl

theorem commits_posted {podName : String} {batch : List PodInputSyscalls} {outcome : Outcome}
    (h : outcome ≠ .failed) : commits podName (.posted batch outcome) =
      decide (podName ∈ batch.map PodInputSyscalls.podName) := by
  cases outcome with
  | failed => exact absurd rfl h
  | accepted => rfl
  | unacknowledged => rfl

theorem beforeReport_concat (podName : String) (events : List Event) (e : Event) :
    beforeReport podName (events ++ [e]) =
      if commits podName e then beforeCollect events else beforeReport podName events := by
  rw [beforeReport, beforeLast_concat]
  split <;> rfl

/-- The row of a pod has what its entry of the cache had when the last committed batch
with the pod was collected. -/
theorem stored_iff_held {names : SyscallNames} {arch : String} {events : List Event} {s : State}
    (h : Run names arch events s) (podName : String) {name : String} (hname : name ≠ "") :
    name ∈ storedNames s.table podName ↔
      ∃ held ∈ heldNames names podName (beforeReport podName events), name ∈ held := by
  induction h with
  | init => exact iff_of_false List.not_mem_nil (by rintro ⟨_, ⟨⟩, _⟩)
  | @step events s s' e h hstep ih =>
      rw [beforeReport_concat]
      by_cases hcommit : ∀ batch outcome, e = .posted batch outcome → outcome = .failed
      · rw [table_of_step hstep hcommit, commits_eq_false hcommit]
        exact ih
      · push Not at hcommit
        obtain ⟨batch, outcome, rfl, hcommit⟩ := hcommit
        obtain ⟨hflight, hok⟩ := commit_of_step hstep hcommit
        have hsent := (inv_of_run h).inFlight batch hflight
        rw [commits_posted hcommit]
        by_cases hpod : podName ∈ batch.map PodInputSyscalls.podName
        · obtain ⟨e, he, rfl⟩ := List.mem_map.mp hpod
          obtain ⟨-, -, -, held, hheld, hsame⟩ := hsent.entries e he
          rw [mem_storedNames_iff hsent hok he hname, hsame, if_pos (decide_eq_true hpod), hheld]
          simp
        · rw [storedNames_of_not_mem hok hpod, if_neg (by simpa using hpod)]
          exact ih

/-- The stored system calls only grow exactly when, at each batch that the broker takes,
the last report of every pod has all that was recorded of it before the batch, also
before the cache lost it. -/
theorem onlyGrows_iff_recordedAgain (names : SyscallNames) (arch : String)
    (events : List Event) :
    OnlyGrows names arch events ↔ RecordedAgain names arch events := by
  have hstored {before : List Event} {batch : List PodInputSyscalls} {outcome : Outcome}
      {s s' : State} (hrun : Run names arch before s)
      (hstep : Step names arch s (.posted batch outcome) s') (podName : String) {name : String}
      (hname : name ∈ recordedNames names podName (beforeCollect before)) :=
    stored_iff_held (hrun.step hstep) podName (plain_of_recorded hname).2
  constructor
  · intro h before batch outcome after s s' hevents hcommit hrun hstep podName name hname
    obtain ⟨-, hrecorded⟩ := h before batch outcome after s s' hevents hcommit hrun hstep podName
    exact (hstored hrun hstep podName hname).mp (hrecorded name hname)
  · intro h before batch outcome after s s' hevents hcommit hrun hstep podName
    have hagain := h before batch outcome after s s' hevents hcommit hrun hstep podName
    have hrecorded : ∀ name ∈ recordedNames names podName (beforeCollect before),
        name ∈ storedNames s'.table podName := fun name hname =>
      (hstored hrun hstep podName hname).mpr (hagain name hname)
    refine ⟨fun name hname => hrecorded name ?_, hrecorded⟩
    -- what the batch reports was recorded before it was collected
    have hreported := recorded_of_reported (hrun.step hstep) podName name hname
    rwa [beforeCollect_concat] at hreported

/-! A controller that restarts after it has sent two system calls of a pod. -/

def amd64Name : ℕ → Option String
  | 0 => some "read"
  | 1 => some "write"
  | 9 => some "mmap"
  | 257 => some "openat"
  | _ => none

def amd64Number (name : String) : ℕ :=
  if name = "read" then 0 else if name = "write" then 1 else if name = "mmap" then 9 else 257

theorem amd64Number_of_name {nr : ℕ} {name : String} (h : amd64Name nr = some name) :
    amd64Number name = nr := by
  rw [amd64Name.eq_def] at h
  split at h <;> cases h <;> decide

def amd64Names : SyscallNames where
  getName := amd64Name
  plain := by
    intro nr name h
    rw [amd64Name.eq_def] at h
    split at h <;> cases h <;> decide
  word := by
    intro nr name h
    rw [amd64Name.eq_def] at h
    split at h <;> cases h <;> exact ⟨_, List.head_mem (by decide), by decide⟩
  distinct := by
    intro nr nr' name h h'
    rw [← amd64Number_of_name h, amd64Number_of_name h']

def entry (podName : String) (syscalls : List String) : PodInputSyscalls :=
  ⟨podName, "", syscalls, "x86_64", "2024-05-01T10:00:00"⟩

/-- A cache of one pod whose names were not sent. -/
theorem collects_one {podName : String} {syscalls : List String} (hnodup : syscalls.Nodup)
    (hnew : syscalls ≠ []) :
    Collects "x86_64" ⟨AList.insert podName syscalls.toFinset ∅, ∅, none⟩
      [entry podName syscalls] := by
  constructor
  · exact List.nodup_singleton _
  · intro e he
    rw [List.mem_singleton.mp he]
    exact ⟨rfl, rfl, hnodup, AList.lookup_insert _⟩
  · intro podName' syscalls' hlookup
    by_cases hpod : podName' = podName
    · subst hpod
      obtain rfl := Option.some.inj ((AList.lookup_insert _).symm.trans hlookup)
      refine iff_of_true (List.mem_singleton.mpr rfl) ?_
      change syscalls.toFinset ≠ ∅
      rwa [Ne, List.toFinset_eq_empty_iff]
    · rw [AList.lookup_insert_ne hpod] at hlookup
      cases hlookup

def untilRestart : List Event :=
  [.opened "web-0", .recorded "web-0" 1, .recorded "web-0" 0,
    .collected [entry "web-0" ["read", "write"]],
    .posted [entry "web-0" ["read", "write"]] .accepted, .restarted]

def afterRestart : List Event :=
  [.opened "web-0", .recorded "web-0" 0, .collected [entry "web-0" ["read"]]]

def storedAfter : SyscallTable :=
  ⟨[⟨"web-0", "", "read", "x86_64", "2024-05-01T10:00:00"⟩], List.nodup_singleton _⟩

def restartedState : State where
  controller := ⟨AList.insert "web-0" {"read"} ∅, ∅, some [entry "web-0" ["read"]]⟩
  table := storedOnAmd

/-- A state with one pod in the cache, before its names are sent. -/
def cached (syscalls : List String) (table : SyscallTable) : State :=
  ⟨⟨AList.insert "web-0" syscalls.toFinset ∅, ∅, none⟩, table⟩

theorem run_restarted : Run amd64Names "x86_64" (untilRestart ++ afterRestart) restartedState := by
  have h : Run amd64Names "x86_64" [] State.init := .init
  have h := h.step (.opened _ "web-0" (by decide))
  have h := h.step (.recorded _ "web-0" 1)
  have h : Run amd64Names "x86_64" _ (cached ["read", "write"] Table.empty) :=
    h.step (.recorded _ "web-0" 0)
  have h := h.step (.collected _ [entry "web-0" ["read", "write"]] rfl
    (collects_one (by decide) (by decide)) (by decide))
  have h := h.step (.accepted _ _ storedOnAmd rfl rfl)
  have h := h.step (.restarted _)
  have h := h.step (.opened _ "web-0" (by decide))
  have h : Run amd64Names "x86_64" _ (cached ["read"] storedOnAmd) :=
    h.step (.recorded _ "web-0" 0)
  exact h.step (.collected _ [entry "web-0" ["read"]] rfl
    (collects_one (by decide) (by decide)) (by decide))

/-- The second batch takes away what the first one stored. -/
theorem not_onlyGrows_restart :
    ¬ OnlyGrows amd64Names "x86_64"
      (untilRestart ++ afterRestart ++ [.posted [entry "web-0" ["read"]] .accepted]) := by
  intro h
  have hstep : Step amd64Names "x86_64" restartedState
      (.posted [entry "web-0" ["read"]] .accepted) _ :=
    .accepted restartedState _ storedAfter rfl rfl
  obtain ⟨hgrows, -⟩ := h _ _ .accepted [] _ _ rfl nofun run_restarted hstep "web-0"
  exact absurd (hgrows "write" (by decide)) (by decide)

end KGuardian.SyscallRuns
