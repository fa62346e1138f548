import KGuardian.PodUpserts
import KGuardian.StandardPolicy

/-!
Pods looked up by address (`/pod/ip`). Rows of pods that are gone stay for days
with the address that another pod may have by now, and the query neither filters
nor orders them, so either row may be the answer.
-/
namespace KGuardian.AddressLookups

open KeyedTables PodRecords Runs SyscallIngest
open PodUpserts (compacted lookup_addPodDetails)
open Selectors (Labels)
open StandardPolicy (BrokerData SvcDetail resolvePeer resolvePeer_pods_cases)

/-- What clients ask of the broker. -/
inductive Request where
  | podSpec (detail : PodDetail)
  | markDead (pod : String) (ip : Option String)

def serve (t : PodTable) : Request → PodTable
  | .podSpec detail => addPodDetails t detail
  | .markDead pod ip => (markPodAsDead t pod ip).1

def machine : Machine PodTable Request := ⟨Table.empty, fun t request => some (serve t request)⟩

/-- The first row with the address, of the rows in the order in which they come. -/
def podIp (rows : List PodDetail) (ip : String) : Option PodDetail :=
  rows.find? fun row => row.podIp = ip

def IsLive (t : PodTable) (ip : String) (row : PodDetail) : Prop :=
  row ∈ t.rows ∧ row.podIp = ip ∧ row.isDead = false

/-- The broker as a generator of policies sees it. -/
def brokerOf (rows : List PodDetail) (serviceByIP : String → Except String (Option SvcDetail))
    (decode : PodDetail → Except String StandardPolicy.PodDetail) : BrokerData where
  serviceByIP := serviceByIP
  podByIP ip :=
    match podIp rows ip with
    | none => .ok none
    | some row => (decode row).map some

/-- Lookups of the address find a pod that is alive, and so do peers that are not
resolved to a service, in whatever order the rows come. -/
structure FindsLive (t : PodTable) (ip : String) : Prop where
  answer : ∀ rows, rows.Perm t.rows → ∃ row, podIp rows ip = some row ∧ row.isDead = false
  peer : ∀ rows, rows.Perm t.rows → ∀ serviceByIP decode ns labels,
    resolvePeer (brokerOf rows serviceByIP decode) ip = .pods ns labels →
      (∃ svc, serviceByIP ip = .ok (some svc) ∧ ns = svc.svcNamespace ∧ labels = svc.selector) ∨
      ∃ row pod, IsLive t ip row ∧ decode row = .ok pod ∧ ns = pod.ns ∧ labels = pod.podLabels

def FindsLiveOwners (t : PodTable) : Prop := ∀ ip, (∃ row, IsLive t ip row) → FindsLive t ip

/-- The request leaves no live row and dead row under one address. -/
def KeepsApart (t : PodTable) : Request → Prop
  | .podSpec detail => Blank detail.podName ∨
      ∀ row ∈ t.rows, row.podName ≠ detail.podName → row.podIp = detail.podIp →
        row.isDead = detail.isDead
  | .markDead pod ip => trim pod = "" ∨
      ∀ row ∈ t.rows, isMarked (trim pod) ip row = true →
        ∀ other ∈ t.rows, other.podName ≠ row.podName → other.podIp = row.podIp →
          other.isDead = true

/-! Tables whose rows of one address are all alive or all dead. -/

def Unmixed (t : PodTable) : Prop :=
  ∀ name name' row row', t.lookup name = some row → t.lookup name' = some row' →
    row.podIp = row'.podIp → row.isDead = row'.isDead

theorem podIp_mem {rows : List PodDetail} {ip : String} {row : PodDetail}
    (h : podIp rows ip = some row) : row ∈ rows ∧ row.podIp = ip :=
  ⟨List.mem_of_find?_eq_some h, by simpa using List.find?_some h⟩

theorem row_of_podByIP {rows : List PodDetail}
    {serviceByIP : String → Except String (Option SvcDetail)}
    {decode : PodDetail → Except String StandardPolicy.PodDetail} {ip : String}
    {pod : StandardPolicy.PodDetail}
    (h : (brokerOf rows serviceByIP decode).podByIP ip = .ok (some pod)) :
    ∃ row, podIp rows ip = some row ∧ decode row = .ok pod := by
  rw [brokerOf] at h
  cases hrow : podIp rows ip with
  | none =>
      simp only [hrow] at h
      cases h
  | some row =>
      simp only [hrow] at h
      cases hdecode : decode row with
      | error e =>
          rw [hdecode] at h
          cases h
      | ok decoded =>
          rw [hdecode] at h
          cases h
          exact ⟨row, rfl, hdecode⟩

/-- Rows are compared from the one that is alive. -/
theorem Unmixed.of_live {t : PodTable}
    (h : ∀ name name' row row', t.lookup name = some row → t.lookup name' = some row' →
      row.podIp = row'.podIp → row.isDead = false → row'.isDead = false) : Unmixed t := by
  intro name name' row row' hrow hrow' hip
  cases hdead : row.isDead with
  | false => exact (h name name' row row' hrow hrow' hip hdead).symm
  | true =>
      cases hdead' : row'.isDead with
      | false =>
          rw [h name' name row' row hrow' hrow hip.symm hdead'] at hdead
          cases hdead
      | true => rfl

/-- The database may return any of the rows first. -/
theorem unmixed_of_findsLiveOwners {t : PodTable} (h : FindsLiveOwners t) : Unmixed t := by
  refine .of_live fun name name' row row' hrow hrow' hip hlive => ?_
  obtain ⟨before, after, hsplit⟩ := List.append_of_mem (Table.mem_of_lookup hrow')
  have hperm : (row' :: (before ++ after)).Perm t.rows := hsplit ▸ List.perm_middle.symm
  obtain ⟨found, hfound, hfoundLive⟩ :=
    (h row.podIp ⟨row, Table.mem_of_lookup hrow, rfl, hlive⟩).answer _ hperm
  rw [podIp, List.find?_cons_of_pos (by simp [hip])] at hfound
  obtain rfl := Option.some.inj hfound
  exact hfoundLive

theorem findsLive_of_unmixed {t : PodTable} (h : Unmixed t) {ip : String} {live : PodDetail}
    (hlive : IsLive t ip live) : FindsLive t ip := by
  obtain ⟨hmem, hip, hdead⟩ := hlive
  have hfound {rows : List PodDetail} (hperm : rows.Perm t.rows) {row : PodDetail}
      (hrow : podIp rows ip = some row) : IsLive t ip row := by
    obtain ⟨hrowMem, hrowIp⟩ := podIp_mem hrow
    have hrowMem' := hperm.mem_iff.mp hrowMem
    exact ⟨hrowMem', hrowIp, (h _ _ _ _ (Table.lookup_of_mem hrowMem') (Table.lookup_of_mem hmem)
      (hrowIp.trans hip.symm)).trans hdead⟩
  constructor
  · intro rows hperm
    cases hrow : podIp rows ip with
    | none =>
        have hnone := List.find?_eq_none.mp hrow live (hperm.mem_iff.mpr hmem)
        exact absurd (decide_eq_true hip) hnone
    | some row => exact ⟨row, rfl, (hfound hperm hrow).2.2⟩
  · intro rows hperm serviceByIP decode ns labels hpeer
    rcases (resolvePeer_pods_cases hpeer).2 with hservice | ⟨pod, hpod, hns, hlabels⟩
    · exact .inl hservice
    · obtain ⟨row, hrow, hdecode⟩ := row_of_podByIP hpod
      exact .inr ⟨row, pod, hfound hperm hrow, hdecode, hns, hlabels⟩

theorem findsLiveOwners_iff_unmixed (t : PodTable) : FindsLiveOwners t ↔ Unmixed t :=
  ⟨unmixed_of_findsLiveOwners, fun h _ ⟨_, hlive⟩ => findsLive_of_unmixed h hlive⟩

/-! One request. -/

/-- The row that a record becomes has its address and is alive or dead as it says. -/
theorem lookup_podSpec (t : PodTable) {detail : PodDetail} (hnamed : ¬ Blank detail.podName) :
    ∃ new, new.podIp = detail.podIp ∧ new.isDead = detail.isDead ∧
      ∀ name, (addPodDetails t detail).lookup name =
        if name = detail.podName then some new else t.lookup name := by
  refine ⟨((t.lookup detail.podName).map (changeset (compacted detail))).getD
    (inserted (compacted detail)), ?_, ?_, fun name => ?_⟩
  · cases t.lookup detail.podName <;> rfl
  · cases t.lookup detail.podName <;> rfl
  · rw [lookup_addPodDetails t ⟨detail, hnamed⟩ name]
    by_cases hname : name = detail.podName
    · rw [if_pos hname, if_pos hname, hname]
    · rw [if_neg hname, if_neg hname]

theorem unmixed_podSpec_iff {t : PodTable} (h : Unmixed t) (detail : PodDetail) :
    Unmixed (addPodDetails t detail) ↔ KeepsApart t (.podSpec detail) := by
  by_cases hnamed : Blank detail.podName
  · rw [addPodDetails, if_pos hnamed]
    exact iff_of_true h (.inl hnamed)
  obtain ⟨new, hip, hdead, hlookup⟩ := lookup_podSpec t hnamed
  have hself := (hlookup detail.podName).trans (if_pos rfl)
  constructor
  · intro h'
    refine .inr fun row hrow hname hrowIp => ?_
    have hkept := (hlookup row.podName).trans (if_neg hname)
    rw [Table.lookup_of_mem hrow] at hkept
    rw [← hdead]
    exact h' _ _ row new hkept hself (hrowIp.trans hip.symm)
  · rintro (hblank | hapart)
    · exact absurd hblank hnamed
    have hother (name : String) (row : PodDetail) (hrow : t.lookup name = some row)
        (hname : name ≠ detail.podName) (hrowIp : row.podIp = new.podIp) :
        row.isDead = new.isDead := by
      rw [hdead]
      exact hapart row (Table.mem_of_lookup hrow) (Table.key_of_lookup hrow ▸ hname)
        (hrowIp.trans hip)
    intro name name' row row' hrow hrow' hrowIp
    rw [hlookup] at hrow hrow'
    by_cases hname : name = detail.podName
    · rw [if_pos hname] at hrow
      obtain rfl := Option.some.inj hrow
      by_cases hname' : name' = detail.podName
      · rw [if_pos hname'] at hrow'
        rw [Option.some.inj hrow']
      · rw [if_neg hname'] at hrow'
        exact (hother name' row' hrow' hname' hrowIp.symm).symm
    · rw [if_neg hname] at hrow
      by_cases hname' : name' = detail.podName
      · rw [if_pos hname'] at hrow'
        obtain rfl := Option.some.inj hrow'
        exact hother name row hrow hname hrowIp
      · rw [if_neg hname'] at hrow'
        exact h name name' row row' hrow hrow' hrowIp

theorem markRow_of_isMarked {pod : String} {ip : Option String} {row : PodDetail}
    (h : isMarked pod ip row = true) : (markRow pod ip row).isDead = true := by
  rw [markRow, if_pos h]

theorem podIp_markRow (pod : String) (ip : Option String) (row : PodDetail) :
    (markRow pod ip row).podIp = row.podIp := by
  rw [markRow]
  split <;> rfl

theorem markRow_of_not_isMarked {pod : String} {ip : Option String} {row : PodDetail}
    (h : isMarked pod ip row = false) : markRow pod ip row = row :=
  (markRow_eq_self_iff pod ip row).mpr (.inl h)

theorem unmixed_markDead_iff {t : PodTable} (h : Unmixed t) (pod : String) (ip : Option String) :
    Unmixed (markPodAsDead t pod ip).1 ↔ KeepsApart t (.markDead pod ip) := by
  by_cases hpod : trim pod = ""
  · rw [markPodAsDead, if_pos hpod]
    exact iff_of_true h (.inl hpod)
  constructor
  · intro h'
    refine .inr fun row hrow hmarked other hother hname hip => ?_
    have hrow' := lookup_markDead t hpod ip row.podName
    have hother' := lookup_markDead t hpod ip other.podName
    rw [Table.lookup_of_mem hrow] at hrow'
    rw [Table.lookup_of_mem hother] at hother'
    have hkept : markRow (trim pod) ip other = other :=
      markRow_of_ne fun heq => hname (heq.trans (podName_of_isMarked hmarked).symm)
    rw [Option.map_some, hkept] at hother'
    rw [h' _ _ _ _ hother' hrow' (hip.trans (podIp_markRow _ _ row).symm)]
    exact markRow_of_isMarked hmarked
  · rintro (hblank | hapart)
    · exact absurd hblank hpod
    refine .of_live fun name name' row row' hrow hrow' hip hlive => ?_
    rw [lookup_markDead t hpod] at hrow hrow'
    obtain ⟨old, hold, rfl⟩ := Option.map_eq_some_iff.mp hrow
    obtain ⟨old', hold', rfl⟩ := Option.map_eq_some_iff.mp hrow'
    rw [podIp_markRow, podIp_markRow] at hip
    have hkept : isMarked (trim pod) ip old = false := by
      by_contra hmarked
      rw [markRow_of_isMarked (eq_true_of_ne_false hmarked)] at hlive
      cases hlive
    rw [markRow_of_not_isMarked hkept] at hlive
    -- Otherwise the request marks a row of the address where this one stays alive.
    have hkept' : isMarked (trim pod) ip old' = false := by
      by_contra hmarked
      have hname : old.podName ≠ old'.podName := by
        intro heq
        obtain rfl := List.inj_on_of_nodup_map t.keys (Table.mem_of_lookup hold)
          (Table.mem_of_lookup hold') heq
        exact hmarked hkept
      rw [hapart old' (Table.mem_of_lookup hold') (eq_true_of_ne_false hmarked) old
        (Table.mem_of_lookup hold) hname hip] at hlive
      cases hlive
    rw [markRow_of_not_isMarked hkept', ← h name name' old old' hold hold' hip]
    exact hlive

/-! Runs. -/

theorem unmixed_serve_iff {t : PodTable} (h : Unmixed t) (request : Request) :
    Unmixed (serve t request) ↔ KeepsApart t request := by
  cases request with
  | podSpec detail => exact unmixed_podSpec_iff h detail
  | markDead pod ip => exact unmixed_markDead_iff h pod ip

/-- Lookups by address find live owners all along exactly when each request leaves
no live row and dead row under one address. -/
theorem findsLiveOwners_iff_keepsApart (requests : List Request) :
    machine.EveryState requests (fun _ t => FindsLiveOwners t) ↔
      machine.EveryStep requests (fun _ t request _ => KeepsApart t request) := by
  simp only [findsLiveOwners_iff_unmixed]
  refine Machine.everyState_iff_everyStep ?_ ?_
  · exact fun _ _ _ _ hrow => (Option.some_ne_none _ hrow.symm).elim
  · intro _ t request t' _ hunmixed hstep
    obtain rfl := Option.some.inj hstep
    exact unmixed_serve_iff hunmixed request

/-! An address that a new pod has from one that is gone. -/

def otherWeb : PodId := ⟨"prod", "web-2", by decide, by simp [TextScan.isWhitespace]⟩

def reusedAddress : List Request :=
  [.podSpec (updatePodsDetails (watchedWeb prodWeb "10.244.1.5" "node-a")),
    .markDead "web-1" (some "10.244.1.5"),
    .podSpec (updatePodsDetails (watchedWeb otherWeb "10.244.1.5" "node-a"))]

/-- The rows in the order of the table give the pod that is gone. -/
theorem reusedAddress_finds_dead :
    ¬ ∀ requests, machine.EveryState requests fun _ t => FindsLiveOwners t := by
  intro h
  obtain ⟨t, hrun⟩ := Machine.exists_run (m := machine) (fun _ _ => ⟨_, rfl⟩) reusedAddress
  obtain rfl := Option.some.inj hrun
  have hlive := h reusedAddress reusedAddress [] _ rfl rfl "10.244.1.5"
    ⟨_, .tail _ (.head _), rfl, rfl⟩
  obtain ⟨row, hrow, hrowLive⟩ := hlive.answer _ (.refl _)
  obtain rfl := Option.some.inj hrow
  cases hrowLive

end KGuardian.AddressLookups
