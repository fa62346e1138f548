import KGuardian.BrokerTraffic
import KGuardian.KeyedTables
import KGuardian.RankedLists
import Mathlib.Data.Finset.Card
import Mathlib.Data.List.AList
import Mathlib.Data.List.Dedup
import Mathlib.Data.String.Basic

/-!
The assistant's summary of the traffic in the cluster: the newest rows of the broker, those of
a namespace among them, and one entry for each pod name with its counts.
-/
namespace KGuardian.ClusterTraffic

open BrokerTraffic KeyedTables RankedLists

/-- A row with the time at which the broker stored it, in microseconds. -/
structure StoredTraffic where
  traffic : PodTraffic
  timeStamp : ℤ

/-- The table `pod_traffic` by its primary key. -/
abbrev TrafficTable := Table fun row : StoredTraffic => row.traffic.uuid

/-- The order of texts in the database, which tells different texts apart. -/
structure Collation where
  le : String → String → Prop
  decidable : DecidableRel le
  total : ∀ a b, le a b ∨ le b a
  trans : ∀ a b c, le a b → le b c → le a c
  antisymm : ∀ a b, le a b → le b a → a = b

section Reading

variable (collation : Collation)

/-- The newest first, and among those of one time by the identifier, the last first. -/
def NotOlder (a b : StoredTraffic) : Prop :=
  b.timeStamp < a.timeStamp ∨
    (a.timeStamp = b.timeStamp ∧ collation.le b.traffic.uuid a.traffic.uuid)

instance : DecidableRel (NotOlder collation) := fun a b =>
  haveI := collation.decidable b.traffic.uuid a.traffic.uuid
  inferInstanceAs (Decidable (_ ∨ _))

def clampPodTrafficLimit (raw : Option ℤ) : ℕ := (max 1 (min (raw.getD 5000) 20000)).toNat

def podTraffic (table : TrafficTable) (rowLimit : ℕ) : List StoredTraffic :=
  firstBy (NotOlder collation) rowLimit table.rows

/-- The answer to the assistant, which gives no limit. -/
def getPodTraffic (table : TrafficTable) : List PodTraffic :=
  (podTraffic collation table (clampPodTrafficLimit none)).map StoredTraffic.traffic

end Reading

def filterByNamespace (rows : List PodTraffic) (ns : String) : List PodTraffic :=
  if ns = "" then rows else rows.filter fun row => row.podNamespace = some ns

structure Stats where
  ingress : ℕ
  egress : ℕ
  allow : ℕ
  drop : ℕ
  peers : List String

def Stats.empty : Stats := ⟨0, 0, 0, 0, []⟩

structure PodSummary where
  ingressCount : ℕ
  egressCount : ℕ
  allowCount : ℕ
  dropCount : ℕ
  uniquePeerCount : ℕ
  deriving DecidableEq

structure TrafficSummary where
  totalRecords : ℕ
  podCount : ℕ
  totalDropCount : ℕ
  pods : List (String × PodSummary)
  filteredNamespace : Option String

abbrev Pods := AList fun _ : String => Stats

section Summary

-- Upper case as the runtime has it.
variable (upper : String → String)

def isIngress (row : PodTraffic) : Bool := upper (row.trafficType.getD "") = "INGRESS"

/-- A row that is ingress is not counted again. -/
def isEgress (row : PodTraffic) : Bool :=
  !isIngress upper row && upper (row.trafficType.getD "") = "EGRESS"

def isDrop (row : PodTraffic) : Bool := upper (row.decision.getD "") = "DROP"

def isAllow (row : PodTraffic) : Bool :=
  !isDrop upper row && upper (row.decision.getD "") = "ALLOW"

def peerOf (row : PodTraffic) : Option String := row.trafficInOutIp.filter (· ≠ "")

/-- A set that the peer is in stays as it is. -/
def addPeer (peers : List String) (row : PodTraffic) : List String :=
  match peerOf row with
  | some peer => if peer ∈ peers then peers else peers ++ [peer]
  | none => peers

def Stats.add (s : Stats) (row : PodTraffic) : Stats where
  ingress := s.ingress + (isIngress upper row).toNat
  egress := s.egress + (isEgress upper row).toNat
  allow := s.allow + (isAllow upper row).toNat
  drop := s.drop + (isDrop upper row).toNat
  peers := addPeer s.peers row

def nameOf (row : PodTraffic) : String := row.podName.getD ""

/-- A row without a pod name does not count. -/
def addRow (state : Pods × ℕ) (row : PodTraffic) : Pods × ℕ :=
  if nameOf row = "" then state
  else
    (state.1.insert (nameOf row) (((state.1.lookup (nameOf row)).getD Stats.empty).add upper row),
      state.2 + (isDrop upper row).toNat)

def Stats.summary (s : Stats) : PodSummary :=
  ⟨s.ingress, s.egress, s.allow, s.drop, s.peers.length⟩

/-- The name that sets the prototype of an object and no property. -/
def prototypeName : String := "__proto__"

def compactTrafficSummary (rows : List PodTraffic) : TrafficSummary :=
  let (pods, totalDrop) := rows.foldl (addRow upper) (∅, 0)
  { totalRecords := rows.length
    podCount := pods.entries.length
    totalDropCount := totalDrop
    pods := (pods.entries.filter fun e => e.1 ≠ prototypeName).map fun e => (e.1, e.2.summary)
    filteredNamespace := none }

/-- The tool of the assistant. -/
def getClusterTraffic (collation : Collation) (table : TrafficTable) (ns : String) :
    TrafficSummary :=
  let summary := compactTrafficSummary upper (filterByNamespace (getPodTraffic collation table) ns)
  if ns = "" then summary else { summary with filteredNamespace := some ns }

/-! The counts of a pod. -/

def statsOf (rows : List PodTraffic) : Stats := rows.foldl (Stats.add upper) Stats.empty

theorem statsOf_concat (rows : List PodTraffic) (row : PodTraffic) :
    statsOf upper (rows ++ [row]) = (statsOf upper rows).add upper row := by
  simp [statsOf]

theorem countP_concat {α : Type*} (p : α → Bool) (l : List α) (a : α) :
    (l ++ [a]).countP p = l.countP p + (p a).toNat := by
  rw [List.countP_append, List.countP_singleton]
  cases p a <;> rfl

/-- The counters count the rows of their kind. -/
theorem statsOf_counts (rows : List PodTraffic) :
    (statsOf upper rows).ingress = rows.countP (isIngress upper) ∧
      (statsOf upper rows).egress = rows.countP (isEgress upper) ∧
      (statsOf upper rows).allow = rows.countP (isAllow upper) ∧
      (statsOf upper rows).drop = rows.countP (isDrop upper) := by
  induction rows using List.reverseRecOn with
  | nil => exact ⟨rfl, rfl, rfl, rfl⟩
  | append_singleton rows row ih =>
    obtain ⟨hingress, hegress, hallow, hdrop⟩ := ih
    simp only [statsOf_concat, Stats.add, countP_concat, hingress, hegress, hallow, hdrop,
      and_self]

theorem mem_addPeer (peers : List String) (row : PodTraffic) (peer : String) :
    peer ∈ addPeer peers row ↔ peer ∈ peers ∨ peerOf row = some peer := by
  unfold addPeer
  cases peerOf row with
  | none => simp
  | some other =>
      dsimp only
      split_ifs with hmem
      · constructor
        · exact Or.inl
        · rintro (h | h)
          · exact h
          · exact Option.some.inj h ▸ hmem
      · simp [eq_comm]

theorem nodup_addPeer {peers : List String} (h : peers.Nodup) (row : PodTraffic) :
    (addPeer peers row).Nodup := by
  unfold addPeer
  cases peerOf row with
  | none => exact h
  | some other =>
      dsimp only
      split_ifs with hmem
      · exact h
      · refine List.nodup_append.mpr ⟨h, List.nodup_singleton _, ?_⟩
        intro a ha b hb heq
        rw [List.mem_singleton.mp hb] at heq
        exact hmem (heq ▸ ha)

theorem statsOf_peers (rows : List PodTraffic) :
    (statsOf upper rows).peers.Nodup ∧
      ∀ peer, peer ∈ (statsOf upper rows).peers ↔ peer ∈ rows.filterMap peerOf := by
  induction rows using List.reverseRecOn with
  | nil => simp [statsOf, Stats.empty]
  | append_singleton rows row ih =>
    obtain ⟨hnodup, hmem⟩ := ih
    rw [statsOf_concat]
    refine ⟨nodup_addPeer hnodup row, fun peer => ?_⟩
    rw [Stats.add, mem_addPeer, hmem, List.filterMap_append, List.mem_append,
      List.mem_filterMap (l := [row])]
    simp

/-- What the summary of a pod says, told of its rows. -/
def summaryOf (rows : List PodTraffic) : PodSummary where
  ingressCount := rows.countP (isIngress upper)
  egressCount := rows.countP (isEgress upper)
  allowCount := rows.countP (isAllow upper)
  dropCount := rows.countP (isDrop upper)
  uniquePeerCount := (rows.filterMap peerOf).toFinset.card

theorem summary_statsOf (rows : List PodTraffic) :
    (statsOf upper rows).summary = summaryOf upper rows := by
  obtain ⟨hingress, hegress, hallow, hdrop⟩ := statsOf_counts upper rows
  obtain ⟨hnodup, hmem⟩ := statsOf_peers upper rows
  have hpeers : (statsOf upper rows).peers.toFinset = (rows.filterMap peerOf).toFinset := by
    ext peer
    rw [List.mem_toFinset, List.mem_toFinset, hmem]
  have hcard : (statsOf upper rows).peers.length = (rows.filterMap peerOf).toFinset.card := by
    rw [← hpeers, List.toFinset_card_of_nodup hnodup]
  rw [Stats.summary, summaryOf, hingress, hegress, hallow, hdrop, hcard]

theorem summaryOf_perm {rows rows' : List PodTraffic} (h : rows.Perm rows') :
    summaryOf upper rows = summaryOf upper rows' := by
  have hpeers : (rows.filterMap peerOf).toFinset = (rows'.filterMap peerOf).toFinset :=
    List.toFinset_eq_of_perm _ _ (h.filterMap peerOf)
  rw [summaryOf, summaryOf, h.countP_eq, h.countP_eq, h.countP_eq, h.countP_eq, hpeers]

/-! The loop over the rows. -/

def isNamed (row : PodTraffic) : Bool := nameOf row ≠ ""

def hasName (name : String) (row : PodTraffic) : Bool := nameOf row = name

theorem foldl_addRow (rows : List PodTraffic) :
    (∀ name, (rows.foldl (addRow upper) (∅, 0)).1.lookup name =
        if name ≠ "" ∧ rows.any (hasName name) = true then
          some (statsOf upper (rows.filter (hasName name)))
        else none) ∧
      (rows.foldl (addRow upper) (∅, 0)).2 =
        rows.countP fun row => isNamed row && isDrop upper row := by
  induction rows using List.reverseRecOn with
  | nil => simp [AList.lookup_empty]
  | append_singleton rows row ih =>
    obtain ⟨hlookup, hdrop⟩ := ih
    rw [List.foldl_append, List.foldl_cons, List.foldl_nil]
    by_cases hname : nameOf row = ""
    · have hstep : addRow upper (rows.foldl (addRow upper) (∅, 0)) row =
          rows.foldl (addRow upper) (∅, 0) := if_pos hname
      rw [hstep]
      refine ⟨fun name => ?_, ?_⟩
      · rw [hlookup]
        by_cases hempty : name = ""
        · simp [hempty]
        · have hother : hasName name row = false := by
            simpa [hasName, hname, eq_comm] using hempty
          simp [hother, List.filter_append]
      · rw [hdrop, countP_concat]
        simp [isNamed, hname]
    · rw [addRow, if_neg hname]
      refine ⟨fun name => ?_, ?_⟩
      · by_cases hsame : name = nameOf row
        · have hhas : hasName name row = true := by simp [hasName, hsame]
          have hbefore : ((rows.foldl (addRow upper) (∅, 0)).1.lookup name).getD Stats.empty =
              statsOf upper (rows.filter (hasName name)) := by
            rw [hlookup]
            split_ifs with hany
            · rfl
            · have hnone : rows.filter (hasName name) = [] := by
                refine List.filter_eq_nil_iff.mpr fun a ha hhit => hany ?_
                exact ⟨hsame ▸ hname, List.any_eq_true.mpr ⟨a, ha, hhit⟩⟩
              rw [hnone]
              rfl
          dsimp only
          rw [← hsame, AList.lookup_insert, hbefore, ← statsOf_concat]
          have hne : name ≠ "" := hsame ▸ hname
          simp [hne, hhas, List.filter_append]
        · have hhas : hasName name row = false := by
            simpa [hasName] using fun h => hsame h.symm
          dsimp only
          rw [AList.lookup_insert_ne hsame, hlookup]
          simp [hhas, List.filter_append]
      · dsimp only
        rw [hdrop, countP_concat]
        simp [isNamed, hname]

/-- The pod names of the rows. -/
def names (rows : List PodTraffic) : Finset String :=
  ((rows.filter isNamed).map nameOf).toFinset

theorem mem_names (rows : List PodTraffic) (name : String) :
    name ∈ names rows ↔ name ≠ "" ∧ rows.any (hasName name) = true := by
  rw [names, List.mem_toFinset, List.mem_map, List.any_eq_true]
  constructor
  · rintro ⟨row, hrow, rfl⟩
    obtain ⟨hmem, hnamed⟩ := List.mem_filter.mp hrow
    exact ⟨by simpa [isNamed] using hnamed, row, hmem, by simp [hasName]⟩
  · rintro ⟨hne, row, hmem, hhas⟩
    obtain rfl : nameOf row = name := by simpa [hasName] using hhas
    exact ⟨row, List.mem_filter.mpr ⟨hmem, by simpa [isNamed] using hne⟩, rfl⟩

/-- The summary says of each pod what its rows say. -/
theorem compactTrafficSummary_exact (rows : List PodTraffic) :
    (compactTrafficSummary upper rows).totalRecords = rows.length ∧
      (compactTrafficSummary upper rows).podCount = (names rows).card ∧
      (compactTrafficSummary upper rows).totalDropCount =
        rows.countP (fun row => isNamed row && isDrop upper row) ∧
      ((compactTrafficSummary upper rows).pods.map Prod.fst).Nodup ∧
      ∀ name summary, (name, summary) ∈ (compactTrafficSummary upper rows).pods ↔
        name ∈ names rows ∧ name ≠ prototypeName ∧
          summary = summaryOf upper (rows.filter (hasName name)) := by
  obtain ⟨hlookup, hdrop⟩ := foldl_addRow upper rows
  rcases hfold : rows.foldl (addRow upper) (∅, 0) with ⟨pods, totalDrop⟩
  rw [hfold] at hlookup hdrop
  have hsummary : compactTrafficSummary upper rows =
      ⟨rows.length, pods.entries.length, totalDrop,
        (pods.entries.filter fun e => e.1 ≠ prototypeName).map fun e => (e.1, e.2.summary),
        none⟩ := by
    rw [compactTrafficSummary, hfold]
  have hnodup : (pods.entries.map Sigma.fst).Nodup := pods.nodupKeys
  have hkeys : pods.entries.map Sigma.fst = pods.keys := rfl
  have hmem (name : String) : name ∈ pods.keys ↔ name ∈ names rows := by
    rw [mem_names, ← AList.mem_keys, ← AList.lookup_isSome, hlookup]
    split_ifs with h
    · simpa using h
    · simpa using h
  rw [hsummary]
  refine ⟨rfl, ?_, hdrop, ?_, fun name summary => ?_⟩
  · have hset : pods.keys.toFinset = names rows := by
      ext name
      rw [List.mem_toFinset, hmem]
    have hlength : pods.entries.length = pods.keys.length := (List.length_map _).symm
    rw [hlength, ← hset, List.toFinset_card_of_nodup (hkeys ▸ hnodup)]
  · dsimp only
    rw [List.map_map]
    exact hnodup.sublist ((List.filter_sublist).map Sigma.fst)
  · dsimp only
    rw [List.mem_map]
    constructor
    · rintro ⟨e, he, heq⟩
      obtain ⟨hentry, hne⟩ := List.mem_filter.mp he
      obtain ⟨rfl, rfl⟩ := Prod.mk.inj heq
      have hstats : pods.lookup e.1 = some e.2 := AList.mem_lookup_iff.mpr hentry
      have hname : e.1 ∈ names rows := (hmem e.1).mp (List.mem_map_of_mem hentry)
      rw [hlookup, if_pos ((mem_names rows e.1).mp hname)] at hstats
      refine ⟨hname, by simpa using hne, ?_⟩
      rw [← Option.some.inj hstats, summary_statsOf]
    · rintro ⟨hname, hne, rfl⟩
      have hstats := hlookup name
      rw [if_pos ((mem_names rows name).mp hname)] at hstats
      refine ⟨⟨name, statsOf upper (rows.filter (hasName name))⟩, ?_, ?_⟩
      · exact List.mem_filter.mpr ⟨AList.mem_lookup_iff.mp hstats, by simpa using hne⟩
      · rw [summary_statsOf]

/-- The rows that a summary counts: those of the namespace among the newest 5000 of the whole
cluster. -/
def isCounted (collation : Collation) (table : TrafficTable) (ns : String) (row : StoredTraffic) :
    Bool :=
  decide (table.rows.countP (fun other => Before (NotOlder collation) other row) < 5000) &&
    (ns = "" || row.traffic.podNamespace = some ns)

def countedRows (collation : Collation) (table : TrafficTable) (ns : String) : List PodTraffic :=
  (table.rows.filter (isCounted collation table ns)).map StoredTraffic.traffic

theorem ranks_rows (collation : Collation) (table : TrafficTable) :
    Ranks (NotOlder collation) table.rows where
  total a b := by
    obtain hlt | heq | hgt := lt_trichotomy a.timeStamp b.timeStamp
    · exact Or.inr (Or.inl hlt)
    · obtain hle | hle := collation.total b.traffic.uuid a.traffic.uuid
      · exact Or.inl (Or.inr ⟨heq, hle⟩)
      · exact Or.inr (Or.inr ⟨heq.symm, hle⟩)
    · exact Or.inl (Or.inl hgt)
  trans a b c hab hbc := by
    obtain hab | ⟨hab, hle⟩ := hab
    · obtain hbc | ⟨hbc, -⟩ := hbc
      · exact Or.inl (hbc.trans hab)
      · exact Or.inl (hbc ▸ hab)
    · obtain hbc | ⟨hbc, hle'⟩ := hbc
      · exact Or.inl (hab ▸ hbc)
      · exact Or.inr ⟨hab.trans hbc, collation.trans _ _ _ hle' hle⟩
  apart := by
    refine (List.pairwise_map.mp table.keys).imp fun {a b} huuid hboth => huuid ?_
    obtain ⟨hab, hba⟩ := hboth
    obtain hlt | ⟨heq, hle⟩ := hab
    · obtain hgt | ⟨heq, -⟩ := hba
      · exact absurd hlt hgt.asymm
      · exact absurd heq hlt.ne
    · obtain hgt | ⟨-, hle'⟩ := hba
      · exact absurd heq hgt.ne
      · exact collation.antisymm _ _ hle' hle

theorem filterByNamespace_perm (collation : Collation) (table : TrafficTable) (ns : String) :
    (filterByNamespace (getPodTraffic collation table) ns).Perm
      (countedRows collation table ns) := by
  have hlimit : clampPodTrafficLimit none = 5000 := by decide
  have hwindow := (ranks_rows collation table).firstBy_perm 5000
  unfold filterByNamespace getPodTraffic podTraffic countedRows
  rw [hlimit]
  by_cases hns : ns = ""
  · rw [if_pos hns]
    refine (hwindow.map _).trans (List.Perm.of_eq ?_)
    refine congrArg _ (List.filter_congr fun row _ => ?_)
    simp [isCounted, hns]
  · rw [if_neg hns, List.filter_map]
    refine ((hwindow.filter _).map _).trans (List.Perm.of_eq ?_)
    rw [List.filter_filter]
    refine congrArg _ (List.filter_congr fun row _ => ?_)
    simp [isCounted, hns, Bool.and_comm]

/-- The summary of a namespace counts its rows among the newest 5000 of the cluster, pod by
pod, each row once in each respect; only a pod by the name of the prototype has no entry. -/
theorem cluster_traffic_exact (collation : Collation) (table : TrafficTable) (ns : String) :
    let rows := countedRows collation table ns
    let answer := getClusterTraffic upper collation table ns
    answer.totalRecords = rows.length ∧ answer.podCount = (names rows).card ∧
      answer.totalDropCount = rows.countP (fun row => isNamed row && isDrop upper row) ∧
      answer.filteredNamespace = (if ns = "" then none else some ns) ∧
      (answer.pods.map Prod.fst).Nodup ∧
      ∀ name summary, (name, summary) ∈ answer.pods ↔
        name ∈ names rows ∧ name ≠ prototypeName ∧
          summary = summaryOf upper (rows.filter (hasName name)) := by
  intro rows answer
  have hperm : (filterByNamespace (getPodTraffic collation table) ns).Perm rows :=
    filterByNamespace_perm collation table ns
  obtain ⟨htotal, hcount, hdrop, hnodup, hpods⟩ := compactTrafficSummary_exact upper
    (filterByNamespace (getPodTraffic collation table) ns)
  have hnames : names (filterByNamespace (getPodTraffic collation table) ns) = names rows :=
    List.toFinset_eq_of_perm _ _ ((hperm.filter _).map _)
  have hsame : answer.totalRecords = (compactTrafficSummary upper
        (filterByNamespace (getPodTraffic collation table) ns)).totalRecords ∧
      answer.podCount = (compactTrafficSummary upper
        (filterByNamespace (getPodTraffic collation table) ns)).podCount ∧
      answer.totalDropCount = (compactTrafficSummary upper
        (filterByNamespace (getPodTraffic collation table) ns)).totalDropCount ∧
      answer.pods = (compactTrafficSummary upper
        (filterByNamespace (getPodTraffic collation table) ns)).pods ∧
      answer.filteredNamespace = (if ns = "" then none else some ns) := by
    by_cases hns : ns = ""
    · simp [answer, getClusterTraffic, hns, compactTrafficSummary]
    · simp [answer, getClusterTraffic, hns]
  obtain ⟨htotal', hcount', hdrop', hpods', hns⟩ := hsame
  refine ⟨?_, ?_, ?_, hns, ?_, fun name summary => ?_⟩
  · rw [htotal', htotal, hperm.length_eq]
  · rw [hcount', hcount, hnames]
  · rw [hdrop', hdrop, hperm.countP_eq]
  · rw [hpods']
    exact hnodup
  · rw [hpods', hpods, hnames, summaryOf_perm upper (hperm.filter (hasName name))]

end Summary

/-! Two rows of one time, and a later one of another namespace. -/

/-- The collation `C`. -/
def byteOrder : Collation where
  le := (· ≤ ·)
  decidable := inferInstance
  total := le_total
  trans _ _ _ := le_trans
  antisymm _ _ := le_antisymm

def upperAscii (s : String) : String := String.ofList (s.toList.map Char.toUpper)

def webRow (uuid ns trafficType decision : String) : PodTraffic where
  uuid
  podName := some "web-0"
  podNamespace := some ns
  podIp := some "10.0.0.7"
  podPort := some "8080"
  ipProtocol := some "TCP"
  trafficType := some trafficType
  trafficInOutIp := some "10.0.0.9"
  trafficInOutPort := some "0"
  decision := some decision

def webTable : TrafficTable where
  rows := [⟨webRow "a" "shop" "INGRESS" "ALLOW", 1⟩, ⟨webRow "b" "shop" "EGRESS" "DROP", 1⟩,
    ⟨webRow "c" "bank" "EGRESS" "ALLOW", 2⟩]
  keys := by decide

theorem webTable_summed :
    let answer := getClusterTraffic upperAscii byteOrder webTable "shop"
    answer.totalRecords = 2 ∧ answer.totalDropCount = 1 ∧
      ("web-0", ⟨1, 1, 1, 1, 1⟩) ∈ answer.pods := by
  obtain ⟨htotal, -, hdrop, -, -, hpods⟩ :=
    cluster_traffic_exact upperAscii byteOrder webTable "shop"
  have hrows : countedRows byteOrder webTable "shop" =
      [webRow "a" "shop" "INGRESS" "ALLOW", webRow "b" "shop" "EGRESS" "DROP"] := by decide
  rw [hrows] at htotal hdrop hpods
  exact ⟨htotal, hdrop.trans (by decide), (hpods _ _).mpr (by decide)⟩

end KGuardian.ClusterTraffic
