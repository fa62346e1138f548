import KGuardian.MapWrites
import KGuardian.PodGroups

/-!
The graph of the frontend (`frontend/src/components/NetworkGraph.tsx`): the nodes it makes
for what is outside of the namespace, and the ends it finds for each row of traffic. The
rows are collected by address first, and the addresses of pods behind a service are merged
into that of the service, so that an entry holds the rows of its canonical address.
-/
namespace KGuardian.NetworkGraph

open BridgeNetworkPolicy (TrafficRow)
open FrontendPolicy (ServiceInfo present presentLabels)
open JsText MapWrites PodGroups Selectors SortedGroups

/-! The data of the page. -/

structure NetworkTraffic extends TrafficRow where
  decision : Option String
  deriving DecidableEq

/-- A node has a primary pod and all pods of its identity. -/
structure PodNode where
  id : String
  pod : PodRow
  pods : List PodRow
  traffic : List NetworkTraffic
  isExternal : Bool

inductive Direction where
  | ingress
  | egress
  deriving DecidableEq

/-- The nodes of the namespace are not marked as external. -/
structure Page where
  pods : List PodNode
  allPodsLookup : List PodRow
  services : List ServiceInfo
  unmarked : ∀ node ∈ pods, node.isExternal = false

def ipToAllPodsMap (page : Page) : List (String × PodRow) :=
  (page.allPodsLookup.filter fun pod => pod.podIp ≠ "").map fun pod => (pod.podIp, pod)

def ipToLocalPodMap (page : Page) : List (String × PodNode) :=
  page.pods.flatMap fun node =>
    ((node.pod :: node.pods).filter fun pod => pod.podIp ≠ "").map fun pod => (pod.podIp, node)

/-- All labels of the selector are among the labels of the pod's workload. -/
def selects (selector : Labels) (pod : PodRow) : Bool :=
  pod.workloadSelectorLabels.any fun labels =>
    selector.entries.all fun l => labels.lookup l.1 = some l.2

def svcIpToLocalPodMap (page : Page) : List (String × PodNode) :=
  page.services.filterMap fun svc =>
    if svc.svcIp = "" then none
    else (presentLabels svc.selector).bind fun selector =>
      (page.pods.find? fun node => selects selector node.pod).map fun node => (svc.svcIp, node)

def podIpToSvcIp (page : Page) : List (String × String) :=
  page.services.flatMap fun svc =>
    if svc.svcIp = "" then []
    else match presentLabels svc.selector with
      | none => []
      | some selector =>
          (page.allPodsLookup.filter fun pod => pod.podIp ≠ "" && selects selector pod).map
            fun pod => (pod.podIp, svc.svcIp)

def svcIpLookup (page : Page) : List (String × ServiceInfo) :=
  (page.services.filter fun svc => svc.svcIp ≠ "").map fun svc => (svc.svcIp, svc)

/-! Addresses outside of the namespace. -/

variable (lower : LowerCase) (page : Page)

def directionOf (traffic : NetworkTraffic) : Option Direction :=
  let trafficType := traffic.trafficType.map lower.toLowerCase
  if trafficType = some "ingress" then some .ingress
  else if trafficType = some "egress" then some .egress
  else none

def remoteIp (traffic : NetworkTraffic) : Option String := present traffic.trafficInOutIp

def allTraffic : List NetworkTraffic := page.pods.flatMap PodNode.traffic

def localNode (ip : String) : Option PodNode :=
  (get (ipToLocalPodMap page) ip).or (get (svcIpToLocalPodMap page) ip)

def isExternalIp (ip : String) : Bool := (localNode page ip).isNone

/-- An entry of `externalIpData`, with its `ingressTraffic` and `egressTraffic`. -/
structure External where
  podInfo : Option PodRow
  ip : String
  traffic : Direction → List NetworkTraffic

def externalTraffic : List (String × NetworkTraffic) :=
  (allTraffic page).filterMap fun traffic =>
    ((remoteIp traffic).filter (isExternalIp page)).map fun ip => (ip, traffic)

/-- The rows of one address by direction. Rows without a direction are in neither list. -/
def byDirection (rows : List (String × NetworkTraffic)) (d : Direction) : List NetworkTraffic :=
  (rows.map Prod.snd).filter fun traffic => directionOf lower traffic = some d

def externalIpData : List External :=
  (groupBy Prod.fst (externalTraffic page)).map fun g =>
    ⟨get (ipToAllPodsMap page) g.1, g.1, byDirection lower g.2⟩

/-! Pods behind a service are merged into the entry of the service. -/

def podIpsToMerge : List (String × String) :=
  (externalIpData lower page).filterMap fun entry =>
    ((present (get (podIpToSvcIp page) entry.ip)).filter fun svcIp =>
      (get (svcIpLookup page) svcIp).isSome).map fun svcIp => (entry.ip, svcIp)

def External.push (entry added : External) : External :=
  { entry with traffic := fun d => entry.traffic d ++ added.traffic d }

def withEntry (data : List External) (svcIp : String) : List External :=
  if data.any fun e => e.ip = svcIp then data else data ++ [⟨none, svcIp, fun _ => []⟩]

def mergeInto (data : List External) (merge : String × String) : List External :=
  match data.find? fun entry => entry.ip = merge.1 with
  | none => data
  | some entry =>
      ((withEntry data merge.2).map fun e => if e.ip = merge.2 then e.push entry else e).filter
        fun e => e.ip ≠ merge.1

def mergedIpData : List External :=
  (podIpsToMerge lower page).foldl mergeInto (externalIpData lower page)

def mergedBackingIps (svcIp : String) : List String :=
  ((podIpsToMerge lower page).filter fun merge => merge.2 = svcIp).map Prod.fst

/-! Nodes. -/

inductive Group where
  | identity (key : String)
  | internet
  deriving DecidableEq

def Group.key : Group → String
  | .identity key => key
  | .internet => "external-internet"

/-- A pod that stands for an address. -/
def placeholder (name ip ns : String) (identity : Option String) : PodRow where
  podName := name
  podIp := ip
  podNamespace := some ns
  labels := none
  podIdentity := identity
  workloadSelectorLabels := none
  isDead := false

/-- The group of an entry. The address of a dead pod has none. -/
def groupOf (entry : External) : Option Group :=
  match get (svcIpLookup page) entry.ip with
  | some svc =>
      some (.identity ("external-svc-" ++ (present svc.svcNamespace).getD "unknown" ++ "-" ++
        (present svc.svcName).getD entry.ip))
  | none =>
      match entry.podInfo with
      | some info =>
          if info.isDead then none
          else some (.identity ("external-" ++ (present info.podNamespace).getD "unknown" ++ "-" ++
            identityOf info))
      | none => some .internet

def memberPods (entry : External) : List PodRow :=
  match get (svcIpLookup page) entry.ip with
  | some svc =>
      let ns := (present svc.svcNamespace).getD "unknown"
      let name := (present svc.svcName).getD entry.ip
      let backingIps := mergedBackingIps lower page entry.ip
      (if backingIps ≠ [] then backingIps else [entry.ip].filter fun ip => ip ≠ "").map fun ip =>
        placeholder name ip ns (some name)
  | none =>
      match entry.podInfo with
      | some info => [info]
      | none => [placeholder entry.ip entry.ip "internet" none]

def suffix : Direction → String
  | .ingress => "-in"
  | .egress => "-out"

/-- The node of a group in a direction, if there is traffic. -/
def directionalNode (group : Group) (entries : List External) (d : Direction) : Option PodNode :=
  let traffic := entries.flatMap fun entry => entry.traffic d
  match entries.flatMap (memberPods lower page) with
  | [] => none
  | primary :: rest =>
      if traffic = [] then none
      else some ⟨group.key ++ suffix d, primary, primary :: rest, traffic, true⟩

def groupedEntries : List (Group × External) :=
  (mergedIpData lower page).filterMap fun entry =>
    (groupOf page entry).map fun group => (group, entry)

/-- The entries by group. That of the addresses nobody knows is the last. -/
def groups : List (Group × List External) :=
  let grouped := groupBy Prod.fst (groupedEntries lower page)
  (grouped.filter (fun g => g.1 ≠ .internet) ++ grouped.filter fun g => g.1 = .internet).map
    fun g => (g.1, g.2.map Prod.snd)

def externalNodes : List PodNode :=
  (groups lower page).flatMap fun g =>
    [Direction.ingress, Direction.egress].filterMap (directionalNode lower page g.1 g.2)

/-! The ends of a row. -/

def endsWith (id ending : String) : Bool := ending.toList.isSuffixOf id.toList

/-- The maps `ingressExternalIpMap` and `egressExternalIpMap`. -/
def externalIpMap (d : Direction) : List (String × PodNode) :=
  (externalNodes lower page).flatMap fun node =>
    if endsWith node.id (suffix d) then
      (node.pods.filter fun pod => pod.podIp ≠ "").flatMap fun pod =>
        (pod.podIp, node) :: ((present (get (podIpToSvcIp page) pod.podIp)).map fun svcIp =>
          (svcIp, node)).toList
    else []

def canonicalIp (ip : String) : String := (get (podIpToSvcIp page) ip).getD ip

/-- The other end of a row of the direction, by its address. -/
def remoteNode (d : Direction) (ip : String) : Option PodNode :=
  (localNode page ip).or ((get (externalIpMap lower page d) ip).or
    (get (externalIpMap lower page d) (canonicalIp page ip)))

/-- The other end of the edge that a row is counted on. -/
def endOf (traffic : NetworkTraffic) : Option PodNode :=
  match directionOf lower traffic, remoteIp traffic with
  | some d, some ip => remoteNode lower page d ip
  | _, _ => none

/-! What the rows say about the addresses outside of the namespace. -/

section

variable {lower : LowerCase} {page : Page}

/-- The address at the other end of a row of the direction, if it is outside of the namespace. -/
def outside (lower : LowerCase) (page : Page) (d : Direction) (traffic : NetworkTraffic) :
    Option String :=
  if directionOf lower traffic = some d then (remoteIp traffic).filter (isExternalIp page)
  else none

/-- The rows of the direction with an address. -/
def rowsOf (lower : LowerCase) (page : Page) (d : Direction) (ip : String) :
    List NetworkTraffic :=
  (allTraffic page).filter fun traffic => outside lower page d traffic = some ip

/-- The addresses outside of the namespace. -/
def externalIps (lower : LowerCase) (page : Page) : List String :=
  (externalIpData lower page).map External.ip

theorem externalIps_nodup : (externalIps lower page).Nodup := by
  rw [externalIps, externalIpData, groupBy_eq, List.map_map, List.map_map]
  exact (List.map_id' _).symm ▸ nodup_eraseDups _

theorem mem_externalIps {ip : String} :
    ip ∈ externalIps lower page ↔
      ∃ traffic ∈ allTraffic page, (remoteIp traffic).filter (isExternalIp page) = some ip := by
  rw [externalIps, externalIpData, groupBy_eq, List.map_map, List.map_map]
  simp only [Function.comp_def, List.map_id', List.mem_eraseDups, List.mem_map, externalTraffic,
    List.mem_filterMap, Option.map_eq_some_iff]
  constructor
  · rintro ⟨_, ⟨traffic, htraffic, ip', hip, rfl⟩, rfl⟩
    exact ⟨traffic, htraffic, hip⟩
  · rintro ⟨traffic, htraffic, hip⟩
    exact ⟨_, ⟨traffic, htraffic, ip, hip, rfl⟩, rfl⟩

theorem ne_empty_of_mem_externalIps {ip : String} (h : ip ∈ externalIps lower page) :
    ip ≠ "" := by
  obtain ⟨traffic, -, hip⟩ := mem_externalIps.mp h
  have hremote := (Option.filter_eq_some_iff.mp hip).1
  exact of_decide_eq_true (Option.filter_eq_some_iff.mp hremote).2

theorem mem_externalIps_of_outside {d : Direction} {traffic : NetworkTraffic} {ip : String}
    (htraffic : traffic ∈ allTraffic page) (h : outside lower page d traffic = some ip) :
    ip ∈ externalIps lower page := by
  refine mem_externalIps.mpr ⟨traffic, htraffic, ?_⟩
  rw [outside] at h
  split at h
  · exact h
  · cases h

theorem rowsOf_of_not_mem {d : Direction} {ip : String} (h : ip ∉ externalIps lower page) :
    rowsOf lower page d ip = [] := by
  rw [rowsOf, List.filter_eq_nil_iff]
  intro traffic htraffic hip
  exact h (mem_externalIps_of_outside htraffic (of_decide_eq_true hip))

theorem of_mem_externalIpData {e : External} (h : e ∈ externalIpData lower page) :
    e.podInfo = get (ipToAllPodsMap page) e.ip ∧
      ∀ d, e.traffic d = rowsOf lower page d e.ip := by
  rw [externalIpData, groupBy_eq, List.map_map] at h
  obtain ⟨ip, -, rfl⟩ := List.mem_map.mp h
  refine ⟨rfl, fun d => ?_⟩
  simp only [Function.comp_def, byDirection, externalTraffic, filter_filterMap_key]
  rw [List.filter_filter, rowsOf]
  refine List.filter_congr fun traffic _ => ?_
  by_cases hd : directionOf lower traffic = some d
  · simp [outside, hd]
  · simp [outside, hd]


/-! Addresses of pods and of services. -/

/-- The address of a service is that of no pod. -/
def ServicesApart (page : Page) : Prop :=
  ∀ svc ∈ page.services, svc.svcIp ≠ "" → ∀ pod ∈ page.allPodsLookup, pod.podIp ≠ svc.svcIp

theorem of_podIpToSvcIp {ip svcIp : String} (h : get (podIpToSvcIp page) ip = some svcIp) :
    (∃ pod ∈ page.allPodsLookup, pod.podIp = ip) ∧
      ∃ svc ∈ page.services, svc.svcIp = svcIp ∧ svcIp ≠ "" := by
  obtain ⟨svc, hsvc, hmem⟩ := List.mem_flatMap.mp (mem_of_get h)
  by_cases hempty : svc.svcIp = ""
  · simp [hempty] at hmem
  · rw [if_neg hempty] at hmem
    cases hlabels : presentLabels svc.selector with
    | none => simp [hlabels] at hmem
    | some selector =>
        rw [hlabels] at hmem
        obtain ⟨pod, hpod, heq⟩ := List.mem_map.mp hmem
        cases heq
        exact ⟨⟨pod, (List.mem_filter.mp hpod).1, rfl⟩, svc, hsvc, rfl, hempty⟩

theorem present_podIpToSvcIp (ip : String) :
    present (get (podIpToSvcIp page) ip) = get (podIpToSvcIp page) ip := by
  cases h : get (podIpToSvcIp page) ip with
  | none => rfl
  | some svcIp =>
      obtain ⟨-, svc, -, -, hne⟩ := of_podIpToSvcIp h
      simp [present, hne]

theorem svcIpLookup_of_mem {svc : ServiceInfo} (hsvc : svc ∈ page.services)
    (hne : svc.svcIp ≠ "") : (get (svcIpLookup page) svc.svcIp).isSome := by
  have hmem : (svc.svcIp, svc) ∈ svcIpLookup page := by
    refine List.mem_map.mpr ⟨svc, List.mem_filter.mpr ⟨hsvc, ?_⟩, rfl⟩
    exact decide_eq_true hne
  obtain ⟨svc', h⟩ := exists_get hmem
  rw [h]
  rfl

/-- A service IP is not behind another one. -/
theorem podIpToSvcIp_of_service (hservices : ServicesApart page) {ip svcIp : String}
    (h : get (podIpToSvcIp page) ip = some svcIp) : get (podIpToSvcIp page) svcIp = none := by
  obtain ⟨-, svc, hsvc, rfl, hne⟩ := of_podIpToSvcIp h
  refine Option.eq_none_iff_forall_ne_some.mpr fun svcIp' h' => ?_
  obtain ⟨⟨pod, hpod, heq⟩, -⟩ := of_podIpToSvcIp h'
  exact hservices svc hsvc hne pod hpod heq

theorem canonicalIp_canonicalIp (hservices : ServicesApart page) (ip : String) :
    canonicalIp page (canonicalIp page ip) = canonicalIp page ip := by
  cases h : get (podIpToSvcIp page) ip with
  | none => rw [canonicalIp, canonicalIp, h, Option.getD_none, h, Option.getD_none]
  | some svcIp =>
      rw [canonicalIp, canonicalIp, h, Option.getD_some, podIpToSvcIp_of_service hservices h,
        Option.getD_none]

/-! What the entries hold after the pods behind services are merged into them. -/

theorem mem_podIpsToMerge {ip svcIp : String} :
    (ip, svcIp) ∈ podIpsToMerge lower page ↔
      ip ∈ externalIps lower page ∧ get (podIpToSvcIp page) ip = some svcIp := by
  rw [podIpsToMerge, List.mem_filterMap, externalIps, List.mem_map]
  constructor
  · rintro ⟨e, he, hmerge⟩
    rw [present_podIpToSvcIp] at hmerge
    obtain ⟨svcIp', hsvc, heq⟩ := Option.map_eq_some_iff.mp hmerge
    cases heq
    exact ⟨⟨e, he, rfl⟩, (Option.filter_eq_some_iff.mp hsvc).1⟩
  · rintro ⟨⟨e, he, rfl⟩, hget⟩
    obtain ⟨-, svc, hsvc, rfl, hne⟩ := of_podIpToSvcIp hget
    refine ⟨e, he, ?_⟩
    rw [present_podIpToSvcIp, hget, Option.filter_some, svcIpLookup_of_mem hsvc hne]
    rfl

theorem podIpsToMerge_nodup : ((podIpsToMerge lower page).map Prod.fst).Nodup := by
  rw [List.Nodup, List.pairwise_map, podIpsToMerge]
  have hips := @externalIps_nodup lower page
  rw [List.Nodup, externalIps, List.pairwise_map] at hips
  refine hips.filterMap _ fun e e' hne merge hmerge merge' hmerge' => ?_
  obtain ⟨_, -, rfl⟩ := Option.map_eq_some_iff.mp hmerge
  obtain ⟨_, -, rfl⟩ := Option.map_eq_some_iff.mp hmerge'
  exact hne

/-- The entries after some merges, where those of the targets are there already. -/
structure Merged (lower : LowerCase) (page : Page) (targets : List String)
    (merges : List (String × String)) (data : List External) : Prop where
  nodup : (data.map External.ip).Nodup
  ips : ∀ ip, ip ∈ data.map External.ip ↔
    (ip ∈ externalIps lower page ∨ ip ∈ targets) ∧ ip ∉ merges.map Prod.fst
  traffic : ∀ e ∈ data, ∀ d, e.traffic d = rowsOf lower page d e.ip ++
    (merges.filter fun m => m.2 = e.ip).flatMap fun m => rowsOf lower page d m.1
  podInfo : ∀ e ∈ data, e.podInfo = get (ipToAllPodsMap page) e.ip ∨
    (get (svcIpLookup page) e.ip).isSome

theorem merged_externalIpData : Merged lower page [] [] (externalIpData lower page) where
  nodup := externalIps_nodup
  ips := by
    intro ip
    simp [externalIps]
  traffic := by
    intro e he d
    simp [(of_mem_externalIpData he).2 d]
  podInfo := by
    intro e he
    exact Or.inl (of_mem_externalIpData he).1

section

variable {targets : List String} {merges : List (String × String)} {data : List External}
  {svcIp : String}

theorem Merged.entry (h : Merged lower page targets merges data)
    (hmerges : ∀ m ∈ merges, m.2 ∈ targets) (hsvc : (get (svcIpLookup page) svcIp).isSome)
    (hnot : svcIp ∉ merges.map Prod.fst) :
    Merged lower page (targets ++ [svcIp]) merges (withEntry data svcIp) := by
  have hany : (data.any fun e => e.ip = svcIp) = true ↔ svcIp ∈ data.map External.ip := by
    simp
  rw [withEntry]
  by_cases hmem : svcIp ∈ data.map External.ip
  · rw [if_pos (hany.mpr hmem)]
    refine { h with ips := fun ip => ?_ }
    rw [h.ips, List.mem_append, List.mem_singleton]
    refine and_congr_left fun _ => ⟨fun hip => ?_, fun hip => ?_⟩
    · exact hip.imp_right Or.inl
    · rcases hip with hip | hip | rfl
      · exact Or.inl hip
      · exact Or.inr hip
      · exact ((h.ips ip).mp hmem).1
  · rw [if_neg (hany.not.mpr hmem)]
    have hnew : svcIp ∉ externalIps lower page ∧ svcIp ∉ targets := by
      rw [h.ips] at hmem
      tauto
    refine ⟨?_, fun ip => ?_, fun e he d => ?_, fun e he => ?_⟩
    · rw [List.map_append, List.nodup_append]
      refine ⟨h.nodup, List.nodup_singleton _, ?_⟩
      intro ip hip ip' hip' heq
      obtain rfl : ip' = svcIp := List.mem_singleton.mp hip'
      exact hmem (heq ▸ hip)
    · rw [List.map_append, List.mem_append, h.ips, List.mem_append, List.map_singleton]
      simp only [List.mem_singleton]
      constructor
      · rintro (⟨hip, hout⟩ | rfl)
        · exact ⟨hip.imp_right Or.inl, hout⟩
        · exact ⟨Or.inr (Or.inr rfl), hnot⟩
      · rintro ⟨hip | hip | rfl, hout⟩
        · exact Or.inl ⟨Or.inl hip, hout⟩
        · exact Or.inl ⟨Or.inr hip, hout⟩
        · exact Or.inr rfl
    · rcases List.mem_append.mp he with he | he
      · exact h.traffic e he d
      · obtain rfl := List.mem_singleton.mp he
        have hnone : (merges.filter fun m => m.2 = svcIp) = [] := by
          rw [List.filter_eq_nil_iff]
          intro m hm heq
          exact hnew.2 (of_decide_eq_true heq ▸ hmerges m hm)
        rw [rowsOf_of_not_mem hnew.1, hnone]
        rfl
    · rcases List.mem_append.mp he with he | he
      · exact h.podInfo e he
      · exact Or.inr (List.mem_singleton.mp he ▸ hsvc)

theorem push_ips (entry : External) (svcIp : String) (data : List External) :
    (data.map fun e => if e.ip = svcIp then e.push entry else e).map External.ip =
      data.map External.ip := by
  rw [List.map_map]
  refine List.map_congr_left fun e _ => ?_
  simp only [Function.comp_apply]
  split
  · rfl
  · rfl

/-- The entry of a pod that was not merged yet holds its own rows. -/
theorem Merged.find {podIp : String} (h : Merged lower page targets merges data)
    (hmerges : ∀ m ∈ merges, m.2 ∈ targets) (hpod : podIp ∈ externalIps lower page)
    (hfirst : podIp ∉ merges.map Prod.fst) (hapart : podIp ∉ targets) :
    ∃ entry, data.find? (fun entry => entry.ip = podIp) = some entry ∧
      ∀ d, entry.traffic d = rowsOf lower page d podIp := by
  obtain ⟨entry, hentry, hip⟩ := List.mem_map.mp ((h.ips podIp).mpr ⟨Or.inl hpod, hfirst⟩)
  obtain ⟨entry, hfind⟩ : ∃ entry, data.find? (fun entry => entry.ip = podIp) = some entry :=
    Option.isSome_iff_exists.mp (List.find?_isSome.mpr ⟨entry, hentry, decide_eq_true hip⟩)
  refine ⟨entry, hfind, fun d => ?_⟩
  have hip : entry.ip = podIp := by simpa using List.find?_some hfind
  have hnone : (merges.filter fun m => m.2 = podIp) = [] := by
    rw [List.filter_eq_nil_iff]
    intro m hm heq
    exact hapart (of_decide_eq_true heq ▸ hmerges m hm)
  rw [h.traffic entry (List.mem_of_find?_eq_some hfind) d, hip, hnone]
  simp

/-- One turn of the loop over the pods behind services. -/
theorem Merged.merge {podIp : String} (h : Merged lower page targets merges data)
    (hmerges : ∀ m ∈ merges, m.2 ∈ targets) (hpod : podIp ∈ externalIps lower page)
    (hfirst : podIp ∉ merges.map Prod.fst) (hapart : podIp ∉ targets)
    (hsvc : (get (svcIpLookup page) svcIp).isSome) (hnot : svcIp ∉ merges.map Prod.fst) :
    Merged lower page (targets ++ [svcIp]) (merges ++ [(podIp, svcIp)])
      (mergeInto data (podIp, svcIp)) := by
  have hent := h.entry hmerges hsvc hnot
  obtain ⟨entry, hfind, hentry⟩ := h.find hmerges hpod hfirst hapart
  have hmap := push_ips entry svcIp (withEntry data svcIp)
  simp only [mergeInto, hfind]
  refine ⟨?_, fun ip => ?_, fun e he d => ?_, fun e he => ?_⟩
  · exact (hmap ▸ hent.nodup).sublist (List.filter_sublist.map _)
  · have hfilter : ip ∈ ((((withEntry data svcIp).map fun e =>
        if e.ip = svcIp then e.push entry else e).filter fun e => e.ip ≠ podIp).map
          External.ip) ↔ ip ∈ (withEntry data svcIp).map External.ip ∧ ip ≠ podIp := by
      rw [← hmap]
      simp only [List.mem_map, List.mem_filter, decide_eq_true_eq]
      constructor
      · rintro ⟨e, ⟨he, hout⟩, rfl⟩
        exact ⟨⟨e, he, rfl⟩, hout⟩
      · rintro ⟨⟨e, he, rfl⟩, hout⟩
        exact ⟨e, ⟨he, hout⟩, rfl⟩
    rw [hfilter, hent.ips, and_assoc, List.map_append, List.map_singleton]
    simp only [List.mem_append, List.mem_singleton, not_or]
  · obtain ⟨e, hold, rfl⟩ := List.mem_map.mp (List.mem_filter.mp he).1
    have htraffic := hent.traffic e hold d
    rw [List.filter_append]
    by_cases hip : e.ip = svcIp
    · simp [hip, External.push, hentry d, htraffic]
    · simp [hip, Ne.symm hip, htraffic]
  · obtain ⟨e, hold, rfl⟩ := List.mem_map.mp (List.mem_filter.mp he).1
    have hinfo := hent.podInfo e hold
    by_cases hip : e.ip = svcIp
    · rw [if_pos hip]
      exact hinfo
    · rw [if_neg hip]
      exact hinfo

end

theorem merged_foldl (hservices : ServicesApart page) (merges : List (String × String))
    (hmerges : merges <+: podIpsToMerge lower page) :
    Merged lower page (merges.map Prod.snd) merges
      (merges.foldl mergeInto (externalIpData lower page)) := by
  induction merges using List.reverseRecOn with
  | nil => exact merged_externalIpData
  | append_singleton merges m ih =>
      obtain ⟨podIp, svcIp⟩ := m
      have hmem : ∀ m ∈ merges ++ [(podIp, svcIp)], get (podIpToSvcIp page) m.1 = some m.2 := by
        intro m hm
        exact (mem_podIpsToMerge.mp (hmerges.subset hm)).2
      have hget := hmem (podIp, svcIp) (by simp)
      have hnodup := podIpsToMerge_nodup.sublist (hmerges.sublist.map Prod.fst)
      rw [List.map_append, List.nodup_append] at hnodup
      have hservice : ∀ m ∈ merges ++ [(podIp, svcIp)], ∀ m' ∈ merges ++ [(podIp, svcIp)],
          m.1 ≠ m'.2 := by
        intro m hm m' hm' heq
        have hnone := podIpToSvcIp_of_service hservices (hmem m' hm')
        rw [← heq, hmem m hm] at hnone
        cases hnone
      obtain ⟨-, svc, hsvc, rfl, hne⟩ := of_podIpToSvcIp hget
      rw [List.foldl_concat, List.map_append]
      refine (ih ((List.prefix_append _ _).trans hmerges)).merge ?_ ?_ ?_ ?_ ?_ ?_
      · exact fun m hm => List.mem_map_of_mem hm
      · exact (mem_podIpsToMerge.mp (hmerges.subset (List.mem_concat_self))).1
      · intro hfirst
        exact hnodup.2.2 podIp hfirst podIp (by simp) rfl
      · intro hlast
        obtain ⟨m, hm, heq⟩ := List.mem_map.mp hlast
        exact hservice (podIp, svc.svcIp) (by simp) m (List.mem_append_left _ hm) heq.symm
      · exact svcIpLookup_of_mem hsvc hne
      · intro hfirst
        obtain ⟨m, hm, heq⟩ := List.mem_map.mp hfirst
        exact hservice m (List.mem_append_left _ hm) (podIp, svc.svcIp) (by simp) heq

theorem merged_mergedIpData (hservices : ServicesApart page) :
    Merged lower page ((podIpsToMerge lower page).map Prod.snd) (podIpsToMerge lower page)
      (mergedIpData lower page) :=
  merged_foldl hservices _ (List.prefix_refl _)

theorem canonicalIp_mem (hservices : ServicesApart page) {ip : String}
    (hip : ip ∈ externalIps lower page) :
    canonicalIp page ip ∈ (mergedIpData lower page).map External.ip := by
  rw [(merged_mergedIpData hservices).ips]
  cases hget : get (podIpToSvcIp page) ip with
  | none =>
      rw [canonicalIp, hget]
      refine ⟨Or.inl hip, fun hmem => ?_⟩
      obtain ⟨⟨_, svcIp⟩, hmerge, rfl⟩ := List.mem_map.mp hmem
      rw [(mem_podIpsToMerge.mp hmerge).2] at hget
      cases hget
  | some svcIp =>
      rw [canonicalIp, hget]
      have hmerge := mem_podIpsToMerge.mpr ⟨hip, hget⟩
      refine ⟨Or.inr (List.mem_map_of_mem hmerge), fun hmem => ?_⟩
      obtain ⟨⟨_, svcIp'⟩, hmerge', heq⟩ := List.mem_map.mp hmem
      have hnone := podIpToSvcIp_of_service hservices hget
      rw [Option.getD_some] at heq
      rw [← heq, (mem_podIpsToMerge.mp hmerge').2] at hnone
      cases hnone

theorem canonicalIp_of_mem (hservices : ServicesApart page) {e : External}
    (he : e ∈ mergedIpData lower page) : canonicalIp page e.ip = e.ip := by
  obtain ⟨hip, hnot⟩ := ((merged_mergedIpData hservices).ips e.ip).mp (List.mem_map_of_mem he)
  rcases hip with hip | hip
  · cases hget : get (podIpToSvcIp page) e.ip with
    | none => rw [canonicalIp, hget, Option.getD_none]
    | some svcIp =>
        exact absurd (List.mem_map_of_mem (mem_podIpsToMerge.mpr ⟨hip, hget⟩)) hnot
  · obtain ⟨⟨ip, svcIp⟩, hmerge, heq⟩ := List.mem_map.mp hip
    have hnone := podIpToSvcIp_of_service hservices (mem_podIpsToMerge.mp hmerge).2
    rw [← heq, canonicalIp, hnone, Option.getD_none]

theorem ip_ne_empty (hservices : ServicesApart page) {e : External}
    (he : e ∈ mergedIpData lower page) : e.ip ≠ "" := by
  obtain ⟨hip, -⟩ := ((merged_mergedIpData hservices).ips e.ip).mp (List.mem_map_of_mem he)
  rcases hip with hip | hip
  · exact ne_empty_of_mem_externalIps hip
  · obtain ⟨⟨ip, svcIp⟩, hmerge, heq⟩ := List.mem_map.mp hip
    obtain ⟨-, _, -, -, hne⟩ := of_podIpToSvcIp (mem_podIpsToMerge.mp hmerge).2
    exact heq ▸ hne

/-- The addresses of an entry are those it is the canonical one of. -/
theorem mem_merged_iff (hservices : ServicesApart page) {e : External}
    (he : e ∈ mergedIpData lower page) {ip : String} (hip : ip ∈ externalIps lower page) :
    ip ∈ e.ip :: ((podIpsToMerge lower page).filter fun m => m.2 = e.ip).map Prod.fst ↔
      canonicalIp page ip = e.ip := by
  rw [List.mem_cons, List.mem_map]
  constructor
  · rintro (rfl | ⟨⟨_, _⟩, hmerge, rfl⟩)
    · exact canonicalIp_of_mem hservices he
    · obtain ⟨hmerge, heq⟩ := List.mem_filter.mp hmerge
      rw [canonicalIp, (mem_podIpsToMerge.mp hmerge).2, Option.getD_some]
      exact of_decide_eq_true heq
  · intro heq
    cases hget : get (podIpToSvcIp page) ip with
    | none =>
        rw [canonicalIp, hget, Option.getD_none] at heq
        exact Or.inl heq
    | some svcIp =>
        rw [canonicalIp, hget, Option.getD_some] at heq
        have hmerge := mem_podIpsToMerge.mpr ⟨hip, hget⟩
        exact Or.inr ⟨_, List.mem_filter.mpr ⟨hmerge, decide_eq_true heq⟩, rfl⟩

/-- An entry holds the rows of the addresses that are merged into its address. -/
theorem traffic_perm (hservices : ServicesApart page) {e : External}
    (he : e ∈ mergedIpData lower page) (d : Direction) :
    (e.traffic d).Perm ((allTraffic page).filter fun traffic =>
      (outside lower page d traffic).map (canonicalIp page) = some e.ip) := by
  have hnot := (((merged_mergedIpData hservices).ips e.ip).mp (List.mem_map_of_mem he)).2
  have hnodup : (e.ip :: ((podIpsToMerge lower page).filter fun m => m.2 = e.ip).map
      Prod.fst).Nodup := by
    refine List.nodup_cons.mpr ⟨fun hmem => ?_, ?_⟩
    · exact hnot ((List.filter_sublist.map Prod.fst).subset hmem)
    · exact podIpsToMerge_nodup.sublist (List.filter_sublist.map Prod.fst)
  have hperm := flatMap_filter_perm (outside lower page d) (allTraffic page) hnodup
  rw [List.flatMap_cons, List.flatMap_map] at hperm
  rw [(merged_mergedIpData hservices).traffic e he d]
  refine hperm.trans (List.Perm.of_eq (List.filter_congr fun traffic htraffic => ?_))
  cases hip : outside lower page d traffic with
  | none => rfl
  | some ip =>
      have hiff := mem_merged_iff hservices he (mem_externalIps_of_outside htraffic hip)
      simp only [Option.any_some, Option.map_some, Option.some.injEq]
      exact decide_eq_decide.mpr hiff

end

end KGuardian.NetworkGraph
