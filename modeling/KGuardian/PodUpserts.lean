import KGuardian.PodRecords
import KGuardian.Runs

/-!
Upserts of pod details, one after the other. An insert stores all columns of a
record, and an update skips those that the record has no value for, so a value of
an earlier record stays where a later one has none. Neither keeps the nanoseconds of
a time.
-/
namespace KGuardian.PodUpserts

open KeyedTables PodRecords Runs SyscallIngest

/-- A record that is stored, since its pod has a name. -/
structure Post where
  detail : PodDetail
  named : ¬ Blank detail.podName

def machine : Machine PodTable Post where
  init := Table.empty
  step t post := some (addPodDetails t post.detail)

/-- Rows that are alive come first, then the latest. -/
def aliveFirst (row row' : PodDetail) : Bool :=
  if row.isDead = row'.isDead then row'.timeStamp ≤ row.timeStamp else row'.isDead

/-- What `/pod/name` answers. -/
def podName (t : PodTable) (name : String) : Option PodDetail :=
  ((t.rows.filter fun row => row.podName = name).mergeSort aliveFirst).head?

def compacted (detail : PodDetail) : PodDetail :=
  { detail with podObj := detail.podObj.map compactPodObj }

/-- What the upsert answers is what a read finds. -/
def ReadsBack (t : PodTable) (post : Post) : Prop :=
  podName t post.detail.podName = some (compacted post.detail)

/-- The record has a value for the column, unless no earlier one of its pod has. -/
def Kept {α : Type} (column : PodDetail → Option α) (earlier : List Post) (post : Post) : Prop :=
  column post.detail = none →
    ∀ old ∈ earlier, old.detail.podName = post.detail.podName → column old.detail = none

/-- All nullable columns, and a time that its column keeps whole. -/
structure KeepsColumns (earlier : List Post) (post : Post) : Prop where
  timeStamp : 1000 ∣ post.detail.timeStamp
  podNamespace : Kept PodDetail.podNamespace earlier post
  podObj : Kept PodDetail.podObj earlier post
  podIdentity : Kept PodDetail.podIdentity earlier post
  workloadSelectorLabels : Kept PodDetail.workloadSelectorLabels earlier post

/-! Reads and writes of one row. -/

/-- A name has one row, so the order of `/pod/name` says nothing. -/
theorem podName_eq_lookup (t : PodTable) (name : String) : podName t name = t.lookup name := by
  cases hhead : podName t name with
  | none =>
      have hnil := List.head?_eq_none_iff.mp hhead
      have hrows : t.rows.filter (fun row => row.podName = name) = [] :=
        List.Perm.nil_eq (hnil ▸ (List.mergeSort_perm _ aliveFirst)) |>.symm
      refine (Table.lookup_eq_none_iff.mpr fun hname => ?_).symm
      obtain ⟨row, hrow, hkey⟩ := List.mem_map.mp hname
      exact List.filter_eq_nil_iff.mp hrows row hrow (decide_eq_true hkey)
  | some row =>
      have hmem := List.mem_mergeSort.mp (List.mem_of_head? hhead)
      obtain ⟨hrow, hname⟩ := List.mem_filter.mp hmem
      rw [← of_decide_eq_true hname, Table.lookup_of_mem hrow]

theorem lookup_addPodDetails (t : PodTable) (post : Post) (name : String) :
    (addPodDetails t post.detail).lookup name =
      if name = post.detail.podName then
        some (((t.lookup name).map (changeset (compacted post.detail))).getD
          (inserted (compacted post.detail)))
      else t.lookup name := by
  rw [addPodDetails, if_neg post.named, upsertPodDetails]
  exact Table.lookup_upsert t _ _ _ name

/-- How the two paths treat a nullable column. -/
structure Nullable {α : Type} (column : PodDetail → Option α) : Prop where
  inserted : ∀ detail, column (inserted detail) = column detail
  changeset : ∀ detail row, column (changeset detail row) = (column detail).or (column row)
  compacted : ∀ detail, column (compacted detail) = none ↔ column detail = none

theorem nullable_podNamespace : Nullable PodDetail.podNamespace :=
  ⟨fun _ => rfl, fun _ _ => rfl, fun _ => Iff.rfl⟩

theorem nullable_podObj : Nullable PodDetail.podObj :=
  ⟨fun _ => rfl, fun _ _ => rfl, fun _ => Option.map_eq_none_iff⟩

theorem nullable_podIdentity : Nullable PodDetail.podIdentity :=
  ⟨fun _ => rfl, fun _ _ => rfl, fun _ => Iff.rfl⟩

theorem nullable_workloadSelectorLabels : Nullable PodDetail.workloadSelectorLabels :=
  ⟨fun _ => rfl, fun _ _ => rfl, fun _ => Iff.rfl⟩

theorem or_eq_left_iff {α : Type} (a b : Option α) : a.or b = a ↔ (a = none → b = none) := by
  cases a with
  | none => simp
  | some a => simp

theorem inserted_eq_iff (detail : PodDetail) :
    inserted detail = detail ↔ 1000 ∣ detail.timeStamp := by
  rw [← timestampColumn_eq_self_iff]
  cases detail
  simp only [inserted, PodDetail.mk.injEq, and_true, true_and]

/-- An update keeps the old value of a column exactly where the record has none. -/
theorem changeset_eq_iff (detail row : PodDetail) (hname : row.podName = detail.podName) :
    changeset detail row = detail ↔ 1000 ∣ detail.timeStamp ∧
      (detail.podNamespace = none → row.podNamespace = none) ∧
      (detail.podObj = none → row.podObj = none) ∧
      (detail.podIdentity = none → row.podIdentity = none) ∧
      (detail.workloadSelectorLabels = none → row.workloadSelectorLabels = none) := by
  rw [← or_eq_left_iff, ← or_eq_left_iff, ← or_eq_left_iff, ← or_eq_left_iff,
    ← timestampColumn_eq_self_iff]
  cases detail
  simp only at hname
  subst hname
  simp only [changeset, PodDetail.mk.injEq, true_and]
  tauto

/-! The rows of a run. -/

/-- A row has a value for a column when one of the records of its name had. -/
structure Stored (posts : List Post) (t : PodTable) : Prop where
  absent : ∀ name, t.lookup name = none → ∀ post ∈ posts, post.detail.podName ≠ name
  columns : ∀ {α : Type} {column : PodDetail → Option α}, Nullable column →
    ∀ name row, t.lookup name = some row →
      (column row = none ↔ ∀ post ∈ posts, post.detail.podName = name → column post.detail = none)

theorem Stored.step {posts : List Post} {t : PodTable} (h : Stored posts t) (post : Post) :
    Stored (posts ++ [post]) (addPodDetails t post.detail) := by
  constructor
  · intro name hnone
    rw [lookup_addPodDetails] at hnone
    split at hnone
    · cases hnone
    · rename_i hname
      intro old hold
      rcases List.mem_append.mp hold with hold | hold
      · exact h.absent name hnone old hold
      · obtain rfl := List.mem_singleton.mp hold
        exact Ne.symm hname
  · intro α column hcolumn name row hrow
    simp only [List.forall_mem_append, List.forall_mem_singleton]
    rw [lookup_addPodDetails] at hrow
    by_cases hname : name = post.detail.podName
    · rw [if_pos hname] at hrow
      obtain rfl := Option.some.inj hrow
      cases hold : t.lookup name with
      | none =>
          have hnew : ∀ old ∈ posts, old.detail.podName = name → column old.detail = none :=
            fun old hmem heq => absurd heq (h.absent name hold old hmem)
          rw [Option.map_none, Option.getD_none, hcolumn.inserted, hcolumn.compacted]
          exact ⟨fun hpost => ⟨hnew, fun _ => hpost⟩, fun hboth => hboth.2 hname.symm⟩
      | some old =>
          rw [Option.map_some, Option.getD_some, hcolumn.changeset, Option.or_eq_none_iff,
            hcolumn.compacted, h.columns hcolumn name old hold]
          exact ⟨fun hboth => ⟨hboth.2, fun _ => hboth.1⟩,
            fun hboth => ⟨hboth.2 hname.symm, hboth.1⟩⟩
    · rw [if_neg hname] at hrow
      rw [h.columns hcolumn name row hrow]
      exact ⟨fun hall => ⟨hall, fun heq => absurd heq.symm hname⟩, And.left⟩

theorem stored_of_run {posts : List Post} {t : PodTable} (h : machine.run posts = some t) :
    Stored posts t := by
  refine Machine.invariant (P := Stored) ?_ ?_ h
  · exact ⟨fun _ _ _ hpost => absurd hpost List.not_mem_nil,
      fun _ _ _ hrow => (Option.some_ne_none _ hrow.symm).elim⟩
  · intro posts t post t' _ hstored hstep
    obtain rfl := Option.some.inj hstep
    exact hstored.step post

/-! Reads after writes. -/

theorem Stored.kept_iff {posts : List Post} {t : PodTable} (h : Stored posts t) {α : Type}
    {column : PodDetail → Option α} (hcolumn : Nullable column) (post : Post) {row : PodDetail}
    (hrow : t.lookup post.detail.podName = some row) :
    (column (compacted post.detail) = none → column row = none) ↔ Kept column posts post := by
  rw [hcolumn.compacted, h.columns hcolumn _ row hrow, Kept]

theorem Stored.readsBack_iff {posts : List Post} {t : PodTable} (h : Stored posts t)
    (post : Post) : ReadsBack (addPodDetails t post.detail) post ↔ KeepsColumns posts post := by
  rw [ReadsBack, podName_eq_lookup, lookup_addPodDetails, if_pos rfl]
  cases hrow : t.lookup post.detail.podName with
  | none =>
      have hnew {α : Type} (column : PodDetail → Option α) : Kept column posts post :=
        fun _ old hold heq => absurd heq (h.absent _ hrow old hold)
      rw [Option.map_none, Option.getD_none, Option.some.injEq, inserted_eq_iff]
      exact ⟨fun htime => ⟨htime, hnew _, hnew _, hnew _, hnew _⟩, fun h => h.timeStamp⟩
  | some row =>
      rw [Option.map_some, Option.getD_some, Option.some.injEq,
        changeset_eq_iff (compacted post.detail) row (Table.key_of_lookup hrow),
        h.kept_iff nullable_podNamespace post hrow, h.kept_iff nullable_podObj post hrow,
        h.kept_iff nullable_podIdentity post hrow,
        h.kept_iff nullable_workloadSelectorLabels post hrow]
      exact ⟨fun ⟨h₀, h₁, h₂, h₃, h₄⟩ => ⟨h₀, h₁, h₂, h₃, h₄⟩,
        fun ⟨h₀, h₁, h₂, h₃, h₄⟩ => ⟨h₀, h₁, h₂, h₃, h₄⟩⟩

/-- A read after each record finds it exactly when its time has whole microseconds and
no record leaves a column empty that an earlier one of its pod filled. -/
theorem readsBack_iff_keepsColumns (posts : List Post) :
    machine.EveryStep posts (fun _ _ post t => ReadsBack t post) ↔
      ∀ earlier post later, posts = earlier ++ post :: later → KeepsColumns earlier post := by
  constructor
  · intro h earlier post later hposts
    obtain ⟨t, hrun⟩ := Machine.exists_run (m := machine) (fun _ _ => ⟨_, rfl⟩) earlier
    exact ((stored_of_run hrun).readsBack_iff post).mp (h earlier post later t _ hposts hrun rfl)
  · intro h earlier post later t t' hposts hrun hstep
    obtain rfl := Option.some.inj hstep
    exact ((stored_of_run hrun).readsBack_iff post).mpr (h earlier post later hposts)

/-! A pod that comes back without the labels of its workload. -/

def ownedWeb : Post where
  detail := updatePodsDetails (watchedWeb prodWeb "10.244.1.7" "node-a")
  named := prodWeb.not_blank

def orphanedWeb : Post where
  detail := { ownedWeb.detail with podIp := "10.244.1.9", workloadSelectorLabels := none }
  named := prodWeb.not_blank

/-- The labels of the first record are read after the second. -/
theorem labels_stay_after_orphanedWeb :
    ¬ ∀ posts, machine.EveryStep posts fun _ _ post t => ReadsBack t post := by
  intro h
  have hreads : podName _ "web-1" = some (compacted orphanedWeb.detail) :=
    h [ownedWeb, orphanedWeb] [ownedWeb] orphanedWeb [] _ _ rfl rfl rfl
  rw [podName_eq_lookup] at hreads
  cases congrArg (Option.map PodDetail.workloadSelectorLabels) hreads

end KGuardian.PodUpserts
