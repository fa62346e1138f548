import KGuardian.Histories
import KGuardian.KeyedTables
import KGuardian.SeccompProfiles
import KGuardian.TextScan

/-!
The stored system calls (`pod_syscalls`). The table has one row for a pod name,
while the batch looks for rows of a name, a namespace and an architecture, so an
entry whose name is stored under others makes the whole batch fail.
-/
namespace KGuardian.SyscallIngest

open Histories KeyedTables SeccompProfiles

/-- An entry of a batch. Its time stamp is taken at the precision of the column. -/
structure PodInputSyscalls where
  podName : String
  podNamespace : String
  syscalls : List String
  arch : String
  timeStamp : String
  deriving DecidableEq

abbrev SyscallTable := Table PodSyscalls.podName

inductive DbError where
  | uniqueViolation (podName : String)
  deriving DecidableEq

def joinCommas (names : List String) : String :=
  String.ofList ([','].intercalate (names.map String.toList))

/-- Names without a comma come back apart as they were joined. -/
theorem splitCommas_joinCommas {names : List String} (hplain : ∀ name ∈ names, ',' ∉ name.toList)
    (hnames : names ≠ []) : splitCommas (joinCommas names) = names := by
  rw [splitCommas, joinCommas, String.toList_ofList, List.splitOn_intercalate]
  · rw [List.map_map]
    exact List.map_id'' (fun name => String.ofList_toList) names
  · intro l hl
    obtain ⟨name, hname, rfl⟩ := List.mem_map.mp hl
    exact hplain name hname
  · simpa using hnames

def Blank (podName : String) : Prop := TextScan.trim podName.toList = []

instance (podName : String) : Decidable (Blank podName) :=
  inferInstanceAs (Decidable (TextScan.trim podName.toList = []))

def getRow (t : SyscallTable) (e : PodInputSyscalls) : Option PodSyscalls :=
  t.rows.find? fun row =>
    row.podName = e.podName && (row.podNamespace = e.podNamespace && row.arch = e.arch)

/-- The turn of the loop for one entry. An update leaves the time stamp as it is. -/
def storeEntry (t : SyscallTable) (e : PodInputSyscalls) : Except DbError SyscallTable :=
  if Blank e.podName then .ok t
  else
    match getRow t e with
    | some row =>
        .ok (t.update (fun r => r.podName = row.podName)
          (fun r => { r with syscalls := joinCommas e.syscalls }) fun _ => rfl)
    | none =>
        match t.insert ⟨e.podName, e.podNamespace, joinCommas e.syscalls, e.arch, e.timeStamp⟩ with
        | some t' => .ok t'
        | none => .error (.uniqueViolation e.podName)

/-- The body of the transaction. -/
def createPodSyscalls (t : SyscallTable) (batch : List PodInputSyscalls) :
    Except DbError SyscallTable :=
  batch.foldlM storeEntry t

/-- The table after the transaction, which an error rolls back. -/
def afterBatch (t : SyscallTable) (batch : List PodInputSyscalls) : SyscallTable :=
  match createPodSyscalls t batch with
  | .ok t' => t'
  | .error _ => t

/-! What a batch should do. -/

/-- What a row is looked up by beside its name. -/
def owner (row : PodSyscalls) : String × String := (row.podNamespace, row.arch)

def entryOwner (e : PodInputSyscalls) : String × String := (e.podNamespace, e.arch)

/-- The entry that decides what is stored for this one's pod. -/
def lastEntry (batch : List PodInputSyscalls) (e : PodInputSyscalls) : Option PodInputSyscalls :=
  lastWith (fun e' => e'.podName = e.podName ∧ entryOwner e' = entryOwner e) batch

/-- The batch is committed, and each entry with a name has its row. -/
def AllStored (t : SyscallTable) (batch : List PodInputSyscalls) : Prop :=
  ∃ t', createPodSyscalls t batch = .ok t' ∧
    ∀ e ∈ batch, ¬ Blank e.podName → ∃ row, t'.lookup e.podName = some row ∧
      owner row = entryOwner e ∧
      some row.syscalls = (lastEntry batch e).map fun e' => joinCommas e'.syscalls

def ownerOf (t : SyscallTable) (name : String) : Option (String × String) :=
  (t.lookup name).map owner

/-- Each name stands for one namespace and architecture, in the table and in the batch. -/
structure OneOwner (t : SyscallTable) (batch : List PodInputSyscalls) : Prop where
  table : ∀ e ∈ batch, ¬ Blank e.podName → ∀ o, ownerOf t e.podName = some o → o = entryOwner e
  batch : ∀ e ∈ batch, ∀ e' ∈ batch, ¬ Blank e.podName → e'.podName = e.podName →
    entryOwner e' = entryOwner e

/-! One entry. -/

/-- The row of an entry: what was there with the new system calls, or a new one. -/
def rowAfter (old : Option PodSyscalls) (e : PodInputSyscalls) : PodSyscalls :=
  match old with
  | some row => { row with syscalls := joinCommas e.syscalls }
  | none => ⟨e.podName, e.podNamespace, joinCommas e.syscalls, e.arch, e.timeStamp⟩

theorem getRow_eq (t : SyscallTable) (e : PodInputSyscalls) :
    getRow t e = (t.lookup e.podName).filter fun row => owner row = entryOwner e := by
  rw [getRow, t.find?_key_and]
  congr 1
  funext row
  rw [owner, entryOwner, Bool.eq_iff_iff]
  simp

/-- The first entry of a pod makes its row. -/
theorem storeEntry_of_none {t : SyscallTable} {e : PodInputSyscalls} (hnamed : ¬ Blank e.podName)
    (hlookup : t.lookup e.podName = none) :
    ∃ t', storeEntry t e = .ok t' ∧ ∀ name, t'.lookup name =
      if name = e.podName then some (rowAfter none e) else t.lookup name := by
  rw [storeEntry, if_neg hnamed, getRow_eq, hlookup, Option.filter_none]
  cases hinsert : t.insert (rowAfter none e) with
  | none => exact absurd hlookup (Table.insert_eq_none_iff.mp hinsert)
  | some t' =>
      simp only [rowAfter] at hinsert
      simp only [hinsert]
      exact ⟨t', rfl, fun name => Table.lookup_of_insert hinsert name⟩

/-- Later entries of the same owner replace its system calls. -/
theorem storeEntry_of_owner {t : SyscallTable} {e : PodInputSyscalls} {row : PodSyscalls}
    (hnamed : ¬ Blank e.podName) (hlookup : t.lookup e.podName = some row)
    (howner : owner row = entryOwner e) :
    ∃ t', storeEntry t e = .ok t' ∧ ∀ name, t'.lookup name =
      if name = e.podName then some (rowAfter (some row) e) else t.lookup name := by
  have hname := Table.key_of_lookup hlookup
  rw [storeEntry, if_neg hnamed, getRow_eq, hlookup, Option.filter_some_pos (by simpa using howner)]
  refine ⟨_, rfl, fun name => ?_⟩
  rw [Table.lookup_update]
  split
  · rename_i heq
    rw [heq, hlookup]
    simp [rowAfter]
  · rename_i hne
    cases hother : t.lookup name with
    | none => rfl
    | some other =>
        have hother' := Table.key_of_lookup hother
        simp [hname, hother', hne]

/-- Entries of another owner of the name are refused. -/
theorem storeEntry_of_other {t : SyscallTable} {e : PodInputSyscalls} {row : PodSyscalls}
    (hnamed : ¬ Blank e.podName) (hlookup : t.lookup e.podName = some row)
    (howner : owner row ≠ entryOwner e) :
    storeEntry t e = .error (.uniqueViolation e.podName) := by
  have hinsert : t.insert (rowAfter none e) = none := by
    refine Table.insert_eq_none_iff.mpr ?_
    change t.lookup e.podName ≠ none
    rw [hlookup]
    exact Option.some_ne_none row
  rw [storeEntry, if_neg hnamed, getRow_eq, hlookup, Option.filter_some_neg (by simpa using howner)]
  simp only [rowAfter] at hinsert
  simp only [hinsert]

/-- What becomes of an entry depends on who owns the row of its name. -/
theorem storeEntry_cases (t : SyscallTable) (e : PodInputSyscalls) :
    (Blank e.podName ∧ storeEntry t e = .ok t) ∨
    (¬ Blank e.podName ∧ (∀ o, ownerOf t e.podName = some o → o = entryOwner e) ∧
      ∃ t', storeEntry t e = .ok t' ∧ ∀ name, t'.lookup name =
        if name = e.podName then some (rowAfter (t.lookup e.podName) e) else t.lookup name) ∨
    (¬ Blank e.podName ∧ (∃ o, ownerOf t e.podName = some o ∧ o ≠ entryOwner e) ∧
      storeEntry t e = .error (.uniqueViolation e.podName)) := by
  by_cases hblank : Blank e.podName
  · exact .inl ⟨hblank, by rw [storeEntry, if_pos hblank]⟩
  · refine .inr ?_
    rw [ownerOf]
    cases hlookup : t.lookup e.podName with
    | none => exact .inl ⟨hblank, nofun, storeEntry_of_none hblank hlookup⟩
    | some row =>
        by_cases howner : owner row = entryOwner e
        · refine .inl ⟨hblank, fun o ho => ?_, storeEntry_of_owner hblank hlookup howner⟩
          exact (Option.some.inj ho).symm.trans howner
        · exact .inr ⟨hblank, ⟨owner row, rfl, howner⟩, storeEntry_of_other hblank hlookup howner⟩

theorem owner_rowAfter {t : SyscallTable} {e : PodInputSyscalls}
    (h : ∀ o, ownerOf t e.podName = some o → o = entryOwner e) :
    owner (rowAfter (t.lookup e.podName) e) = entryOwner e := by
  cases hlookup : t.lookup e.podName with
  | none => rfl
  | some row => exact h (owner row) (by rw [ownerOf, hlookup]; rfl)

theorem syscalls_rowAfter (old : Option PodSyscalls) (e : PodInputSyscalls) :
    (rowAfter old e).syscalls = joinCommas e.syscalls := by
  cases old <;> rfl

/-! A whole batch. -/

theorem createPodSyscalls_concat (t : SyscallTable) (batch : List PodInputSyscalls)
    (e : PodInputSyscalls) :
    createPodSyscalls t (batch ++ [e]) =
      (createPodSyscalls t batch).bind fun t' => storeEntry t' e := by
  rw [createPodSyscalls, List.foldlM_append, ← createPodSyscalls]
  cases createPodSyscalls t batch with
  | error err => rfl
  | ok t' => exact bind_pure (storeEntry t' e)

theorem ok_of_concat {t t' : SyscallTable} {batch : List PodInputSyscalls} {e : PodInputSyscalls}
    (h : createPodSyscalls t (batch ++ [e]) = .ok t') :
    ∃ t₁, createPodSyscalls t batch = .ok t₁ ∧ storeEntry t₁ e = .ok t' := by
  rw [createPodSyscalls_concat] at h
  cases hbatch : createPodSyscalls t batch with
  | error err => rw [hbatch] at h; cases h
  | ok t₁ => exact ⟨t₁, rfl, by rw [hbatch] at h; exact h⟩

/-- A committed entry leaves its row, and all others as they are. -/
theorem lookup_of_storeEntry {t t' : SyscallTable} {e : PodInputSyscalls}
    (h : storeEntry t e = .ok t') (name : String) :
    t'.lookup name = if ¬ Blank e.podName ∧ name = e.podName then
      some (rowAfter (t.lookup e.podName) e) else t.lookup name := by
  rcases storeEntry_cases t e with ⟨hblank, hok⟩ | ⟨hnamed, -, t₁, hok, hlookup⟩ | ⟨-, -, herror⟩
  · obtain rfl := Except.ok.inj (hok.symm.trans h)
    rw [if_neg fun hand => hand.1 hblank]
  · obtain rfl := Except.ok.inj (hok.symm.trans h)
    rw [hlookup]
    simp [hnamed]
  · rw [herror] at h
    cases h

theorem owned_of_storeEntry {t t' : SyscallTable} {e : PodInputSyscalls}
    (h : storeEntry t e = .ok t') (hnamed : ¬ Blank e.podName) :
    ∀ o, ownerOf t e.podName = some o → o = entryOwner e := by
  rcases storeEntry_cases t e with ⟨hblank, -⟩ | ⟨-, howned, -⟩ | ⟨-, -, herror⟩
  · exact absurd hblank hnamed
  · exact howned
  · rw [herror] at h
    cases h

theorem ownerOf_of_storeEntry {t t' : SyscallTable} {e : PodInputSyscalls}
    (h : storeEntry t e = .ok t') (name : String) :
    ownerOf t' name = if ¬ Blank e.podName ∧ name = e.podName then some (entryOwner e)
      else ownerOf t name := by
  rw [ownerOf, lookup_of_storeEntry h]
  split
  · rename_i hand
    rw [Option.map_some, owner_rowAfter (owned_of_storeEntry h hand.1)]
  · rfl

/-- A row stays with its owner. -/
theorem ownerOf_of_create {t t' : SyscallTable} {batch : List PodInputSyscalls}
    (h : createPodSyscalls t batch = .ok t') {name : String} {o : String × String}
    (ho : ownerOf t name = some o) : ownerOf t' name = some o := by
  induction batch using List.reverseRecOn generalizing t' with
  | nil =>
      obtain rfl := Except.ok.inj h
      exact ho
  | append_singleton batch e ih =>
      obtain ⟨t₁, hbatch, hentry⟩ := ok_of_concat h
      rw [ownerOf_of_storeEntry hentry]
      split
      · rename_i hand
        obtain ⟨hnamed, rfl⟩ := hand
        rw [owned_of_storeEntry hentry hnamed o (ih hbatch)]
      · exact ih hbatch

/-- A row is from the table or from an entry of the batch. -/
theorem ownerOf_from_create {t t' : SyscallTable} {batch : List PodInputSyscalls}
    (h : createPodSyscalls t batch = .ok t') {name : String} {o : String × String}
    (ho : ownerOf t' name = some o) :
    ownerOf t name = some o ∨
      ∃ e ∈ batch, ¬ Blank e.podName ∧ e.podName = name ∧ entryOwner e = o := by
  induction batch using List.reverseRecOn generalizing t' with
  | nil =>
      obtain rfl := Except.ok.inj h
      exact .inl ho
  | append_singleton batch e ih =>
      obtain ⟨t₁, hbatch, hentry⟩ := ok_of_concat h
      rw [ownerOf_of_storeEntry hentry] at ho
      split at ho
      · rename_i hand
        exact .inr ⟨e, by simp, hand.1, hand.2.symm, Option.some.inj ho⟩
      · rcases ih hbatch ho with htable | ⟨e', he', hnamed, hname, howner⟩
        · exact .inl htable
        · exact .inr ⟨e', List.mem_append_left _ he', hnamed, hname, howner⟩

/-- The system calls of a name are those of its last entry, or what they were. -/
theorem syscalls_of_create {t t' : SyscallTable} {batch : List PodInputSyscalls}
    (h : createPodSyscalls t batch = .ok t') (name : String) :
    (t'.lookup name).map PodSyscalls.syscalls =
      ((lastWith (fun e => ¬ Blank e.podName ∧ name = e.podName) batch).map fun e =>
        joinCommas e.syscalls).or ((t.lookup name).map PodSyscalls.syscalls) := by
  induction batch using List.reverseRecOn generalizing t' with
  | nil =>
      obtain rfl := Except.ok.inj h
      rfl
  | append_singleton batch e ih =>
      obtain ⟨t₁, hbatch, hentry⟩ := ok_of_concat h
      rw [lookup_of_storeEntry hentry, lastWith_concat]
      split
      · rw [Option.map_some, Option.map_some, syscalls_rowAfter]
        rfl
      · exact ih hbatch

theorem lastEntry_concat (batch : List PodInputSyscalls) (e e' : PodInputSyscalls) :
    lastEntry (batch ++ [e']) e =
      if e'.podName = e.podName ∧ entryOwner e' = entryOwner e then some e'
      else lastEntry batch e :=
  lastWith_concat _ batch e'

theorem OneOwner.of_concat {t : SyscallTable} {batch : List PodInputSyscalls}
    {e : PodInputSyscalls} (h : OneOwner t (batch ++ [e])) : OneOwner t batch := by
  constructor
  · exact fun e' he' => h.table e' (List.mem_append_left _ he')
  · exact fun e₁ h₁ e₂ h₂ => h.batch e₁ (List.mem_append_left _ h₁) e₂ (List.mem_append_left _ h₂)

theorem allStored_of_oneOwner {t : SyscallTable} {batch : List PodInputSyscalls}
    (h : OneOwner t batch) : AllStored t batch := by
  induction batch using List.reverseRecOn with
  | nil => exact ⟨t, rfl, fun e he => absurd he List.not_mem_nil⟩
  | append_singleton batch e ih =>
      obtain ⟨t₁, hbatch, hstored⟩ := ih h.of_concat
      have hlast : e ∈ batch ++ [e] := by simp
      have howned (hnamed : ¬ Blank e.podName) :
          ∀ o, ownerOf t₁ e.podName = some o → o = entryOwner e := by
        intro o ho
        rcases ownerOf_from_create hbatch ho with htable | ⟨e', he', -, hname, howner⟩
        · exact h.table e hlast hnamed o htable
        · rw [← howner]
          exact h.batch e hlast e' (List.mem_append_left _ he') hnamed hname
      have hok : ∃ t', storeEntry t₁ e = .ok t' := by
        rcases storeEntry_cases t₁ e with ⟨-, hok⟩ | ⟨-, -, t', hok, -⟩ | ⟨hnamed, ⟨o, ho, hne⟩, -⟩
        · exact ⟨t₁, hok⟩
        · exact ⟨t', hok⟩
        · exact absurd (howned hnamed o ho) hne
      obtain ⟨t', hentry⟩ := hok
      refine ⟨t', by rw [createPodSyscalls_concat, hbatch]; exact hentry, ?_⟩
      intro e' he' hnamed
      rw [lookup_of_storeEntry hentry, lastEntry_concat]
      split
      · rename_i hand
        obtain ⟨hnamed', hname⟩ := hand
        have howner := h.batch e' he' e hlast hnamed hname.symm
        rw [if_pos ⟨hname.symm, howner⟩]
        exact ⟨_, rfl, (owner_rowAfter (howned hnamed')).trans howner,
          congrArg some (syscalls_rowAfter _ e)⟩
      · rename_i hnot
        have hne : e'.podName ≠ e.podName := fun hname => hnot ⟨hname ▸ hnamed, hname⟩
        rw [if_neg fun hand => hne hand.1.symm]
        rcases List.mem_append.mp he' with hold | hnew
        · exact hstored e' hold hnamed
        · exact absurd (congrArg PodInputSyscalls.podName (List.mem_singleton.mp hnew)) hne

/-- In a batch that is committed each name goes to the owner of its entries. -/
theorem ownerOf_of_mem {t t' : SyscallTable} {batch : List PodInputSyscalls}
    (h : createPodSyscalls t batch = .ok t') {e : PodInputSyscalls} (he : e ∈ batch)
    (hnamed : ¬ Blank e.podName) : ownerOf t' e.podName = some (entryOwner e) := by
  induction batch using List.reverseRecOn generalizing t' with
  | nil => exact absurd he List.not_mem_nil
  | append_singleton batch last ih =>
      obtain ⟨t₁, hbatch, hentry⟩ := ok_of_concat h
      rw [ownerOf_of_storeEntry hentry]
      rcases List.mem_append.mp he with hold | hnew
      · split
        · rename_i hand
          obtain ⟨hnamed', hname⟩ := hand
          have howner := ih hbatch hold
          rw [hname] at howner
          rw [owned_of_storeEntry hentry hnamed' _ howner]
        · exact ih hbatch hold
      · obtain rfl := List.mem_singleton.mp hnew
        rw [if_pos ⟨hnamed, rfl⟩]

theorem oneOwner_of_ok {t t' : SyscallTable} {batch : List PodInputSyscalls}
    (h : createPodSyscalls t batch = .ok t') : OneOwner t batch := by
  constructor
  · intro e he hnamed o ho
    exact Option.some.inj ((ownerOf_of_create h ho).symm.trans (ownerOf_of_mem h he hnamed))
  · intro e he e' he' hnamed hname
    have hsame := ownerOf_of_mem h he' (hname ▸ hnamed)
    rw [hname] at hsame
    exact Option.some.inj (hsame.symm.trans (ownerOf_of_mem h he hnamed))

/-- A batch stores all its entries exactly when each of their names belongs to one
namespace and architecture. -/
theorem allStored_iff_oneOwner (t : SyscallTable) (batch : List PodInputSyscalls) :
    AllStored t batch ↔ OneOwner t batch := by
  constructor
  · intro h
    obtain ⟨t', hok, -⟩ := h
    exact oneOwner_of_ok hok
  · exact allStored_of_oneOwner

/-! A pod that comes back on a node of another architecture. -/

def storedOnAmd : SyscallTable :=
  ⟨[⟨"web-0", "", "read,write", "x86_64", "2024-05-01T10:00:00"⟩], List.nodup_singleton _⟩

def fromArmNode : List PodInputSyscalls :=
  [⟨"api-0", "", ["openat"], "aarch64", "2024-05-01T11:00:00"⟩,
    ⟨"web-0", "", ["read"], "aarch64", "2024-05-01T11:00:00"⟩]

/-- The entry of the moved pod takes the other entry of the batch with it. -/
theorem not_allStored_fromArmNode :
    ¬ AllStored storedOnAmd fromArmNode ∧
      (afterBatch storedOnAmd fromArmNode).lookup "api-0" = none := by
  have herror : createPodSyscalls storedOnAmd fromArmNode = .error (.uniqueViolation "web-0") := rfl
  constructor
  · intro h
    obtain ⟨t', hok, -⟩ := h
    rw [herror] at hok
    cases hok
  · rw [afterBatch, herror]
    rfl

end KGuardian.SyscallIngest
