import KGuardian.NetworkGraph

/-!
The nodes and the ends of the frontend's graph. Nodes are made from the entries, service by
service and identity by identity, and the ends of the rows are looked up by address
afterwards. Both are shown to go by the canonical address, so a row ends at the node that
holds it.
-/
namespace KGuardian.GraphEnds

open FrontendPolicy (ServiceInfo present)
open JsText MapWrites NetworkGraph PodGroups Selectors

variable {lower : LowerCase} {page : Page}

/-! Groups and their nodes. -/

/-- The group of an address that is the canonical one. -/
def groupOfIp (page : Page) (ip : String) : Option Group :=
  groupOf page ⟨get (ipToAllPodsMap page) ip, ip, fun _ => []⟩

theorem groupOf_eq (hservices : ServicesApart page) {e : External}
    (he : e ∈ mergedIpData lower page) : groupOf page e = groupOfIp page e.ip := by
  rcases (merged_mergedIpData hservices).podInfo e he with hinfo | hsvc
  · rw [groupOfIp, ← hinfo]
    rfl
  · obtain ⟨svc, hsvc⟩ := Option.isSome_iff_exists.mp hsvc
    simp only [groupOfIp, groupOf, hsvc]

def members (lower : LowerCase) (page : Page) (group : Group) : List External :=
  (mergedIpData lower page).filter fun e => groupOf page e = some group

theorem mem_groupedEntries {group : Group} {e : External} :
    (group, e) ∈ groupedEntries lower page ↔
      e ∈ mergedIpData lower page ∧ groupOf page e = some group := by
  rw [groupedEntries, List.mem_filterMap]
  constructor
  · rintro ⟨e', he, hgroup⟩
    obtain ⟨_, hgroup, heq⟩ := Option.map_eq_some_iff.mp hgroup
    cases heq
    exact ⟨he, hgroup⟩
  · rintro ⟨he, hgroup⟩
    exact ⟨e, he, by rw [hgroup]; rfl⟩

theorem mem_groups {group : Group} {entries : List External} :
    (group, entries) ∈ groups lower page ↔
      (∃ e ∈ mergedIpData lower page, groupOf page e = some group) ∧
        entries = members lower page group := by
  rw [groups, List.mem_map]
  constructor
  · rintro ⟨⟨group', entries'⟩, hg, heq⟩
    cases heq
    have hgroup : (group', entries') ∈ groupBy Prod.fst (groupedEntries lower page) := by
      rcases List.mem_append.mp hg with hg | hg
      · exact (List.mem_filter.mp hg).1
      · exact (List.mem_filter.mp hg).1
    obtain ⟨⟨⟨_, e⟩, he, rfl⟩, rfl⟩ := mem_groupBy.mp hgroup
    exact ⟨⟨e, mem_groupedEntries.mp he⟩, filter_filterMap_key (groupOf page) _ _⟩
  · rintro ⟨⟨e, he, hgroup⟩, rfl⟩
    have hmem : (group, (groupedEntries lower page).filter fun g => g.1 = group) ∈
        groupBy Prod.fst (groupedEntries lower page) :=
      mem_groupBy.mpr ⟨⟨(group, e), mem_groupedEntries.mpr ⟨he, hgroup⟩, rfl⟩, rfl⟩
    refine ⟨(group, (groupedEntries lower page).filter fun g => g.1 = group), ?_,
      Prod.ext rfl (filter_filterMap_key (groupOf page) group _)⟩
    by_cases hinternet : group = .internet
    · exact List.mem_append_right _ (List.mem_filter.mpr ⟨hmem, decide_eq_true hinternet⟩)
    · exact List.mem_append_left _ (List.mem_filter.mpr ⟨hmem, decide_eq_true hinternet⟩)

/-- The node of a group in a direction. -/
def nodeOf (lower : LowerCase) (page : Page) (group : Group) (d : Direction) : Option PodNode :=
  directionalNode lower page group (members lower page group) d

theorem of_nodeOf {group : Group} {d : Direction} {node : PodNode}
    (h : nodeOf lower page group d = some node) :
    node.id = group.key ++ suffix d ∧ node.isExternal = true ∧
      node.pods = (members lower page group).flatMap (memberPods lower page) ∧
      node.traffic = (members lower page group).flatMap (fun e => e.traffic d) ∧
      node.traffic ≠ [] := by
  rw [nodeOf, directionalNode] at h
  cases hpods : (members lower page group).flatMap (memberPods lower page) with
  | nil => simp [hpods] at h
  | cons primary rest =>
      simp only [hpods] at h
      split at h
      · cases h
      · next htraffic =>
          cases h
          exact ⟨rfl, rfl, rfl, rfl, htraffic⟩

theorem exists_nodeOf {group : Group} {d : Direction}
    (hpods : (members lower page group).flatMap (memberPods lower page) ≠ [])
    (htraffic : (members lower page group).flatMap (fun e => e.traffic d) ≠ []) :
    ∃ node, nodeOf lower page group d = some node := by
  rw [nodeOf, directionalNode]
  cases hall : (members lower page group).flatMap (memberPods lower page) with
  | nil => exact absurd hall hpods
  | cons primary rest =>
      simp only [if_neg htraffic]
      exact ⟨_, rfl⟩

theorem exists_member {group : Group} {d : Direction} {node : PodNode}
    (h : nodeOf lower page group d = some node) : ∃ e, e ∈ members lower page group := by
  obtain ⟨-, -, -, htraffic, hne⟩ := of_nodeOf h
  refine List.exists_mem_of_ne_nil _ fun hnil => hne ?_
  rw [htraffic, hnil]
  rfl

theorem mem_externalNodes {node : PodNode} :
    node ∈ externalNodes lower page ↔ ∃ group d, nodeOf lower page group d = some node := by
  rw [externalNodes, List.mem_flatMap]
  constructor
  · rintro ⟨⟨group, entries⟩, hg, hnode⟩
    obtain ⟨-, rfl⟩ := mem_groups.mp hg
    obtain ⟨d, -, hnode⟩ := List.mem_filterMap.mp hnode
    exact ⟨group, d, hnode⟩
  · rintro ⟨group, d, hnode⟩
    obtain ⟨e, he⟩ := exists_member hnode
    obtain ⟨he, hgroup⟩ := List.mem_filter.mp he
    refine ⟨_, mem_groups.mpr ⟨⟨e, he, of_decide_eq_true hgroup⟩, rfl⟩, ?_⟩
    refine List.mem_filterMap.mpr ⟨d, ?_, hnode⟩
    cases d
    · exact List.mem_cons_self
    · exact List.mem_cons_of_mem _ List.mem_cons_self

/-- The rows of a node are those whose canonical address is of its group. -/
theorem nodeOf_traffic (hservices : ServicesApart page) {group : Group} {d : Direction}
    {node : PodNode} (h : nodeOf lower page group d = some node) :
    node.traffic.Perm ((allTraffic page).filter fun traffic =>
      (outside lower page d traffic).any fun ip =>
        groupOfIp page (canonicalIp page ip) = some group) := by
  obtain ⟨-, -, -, htraffic, -⟩ := of_nodeOf h
  have hmembers : ∀ e ∈ members lower page group, e ∈ mergedIpData lower page :=
    fun e he => (List.mem_filter.mp he).1
  have hnodup : ((members lower page group).map External.ip).Nodup :=
    (merged_mergedIpData hservices).nodup.sublist (List.filter_sublist.map _)
  have hperm := flatMap_filter_perm
    (fun traffic => (outside lower page d traffic).map (canonicalIp page)) (allTraffic page) hnodup
  rw [List.flatMap_map] at hperm
  rw [htraffic]
  refine (List.Perm.flatMap_left _ fun e he =>
    traffic_perm hservices (hmembers e he) d).trans (hperm.trans ?_)
  refine List.Perm.of_eq (List.filter_congr fun traffic htraffic => ?_)
  cases hip : outside lower page d traffic with
  | none => rfl
  | some ip =>
      simp only [Option.map_some, Option.any_some]
      refine decide_eq_decide.mpr ?_
      rw [List.mem_map]
      constructor
      · rintro ⟨e, he, heq⟩
        rw [← heq, ← groupOf_eq hservices (hmembers e he)]
        exact of_decide_eq_true (List.mem_filter.mp he).2
      · intro hgroup
        obtain ⟨e, he, heq⟩ := List.mem_map.mp
          (canonicalIp_mem hservices (mem_externalIps_of_outside htraffic hip))
        refine ⟨e, List.mem_filter.mpr ⟨he, decide_eq_true ?_⟩, heq⟩
        rw [groupOf_eq hservices he, heq, hgroup]

/-! The ends of the rows. -/

/-- A pod of an entry has an address, and the entry is that of its canonical address. -/
theorem memberPods_canonicalIp (hservices : ServicesApart page) {e : External}
    (he : e ∈ mergedIpData lower page) :
    memberPods lower page e ≠ [] ∧ ∀ pod ∈ memberPods lower page e,
      pod.podIp ≠ "" ∧ canonicalIp page pod.podIp = e.ip := by
  have hne := ip_ne_empty hservices he
  have hself := canonicalIp_of_mem hservices he
  have hplace : ∀ name ns identity, (placeholder name e.ip ns identity).podIp ≠ "" ∧
      canonicalIp page (placeholder name e.ip ns identity).podIp = e.ip :=
    fun _ _ _ => ⟨hne, hself⟩
  rw [memberPods]
  cases hsvc : get (svcIpLookup page) e.ip with
  | some svc =>
      by_cases hbacking : mergedBackingIps lower page e.ip = []
      · simp only [hbacking, ne_eq, not_true_eq_false, if_false]
        simp [hne, placeholder, hself]
      · simp only [ne_eq, hbacking, not_false_eq_true, if_true, List.map_eq_nil_iff, true_and]
        intro pod hpod
        obtain ⟨ip, hip, rfl⟩ := List.mem_map.mp hpod
        obtain ⟨⟨_, _⟩, hmerge, rfl⟩ := List.mem_map.mp hip
        obtain ⟨hmerge, heq⟩ := List.mem_filter.mp hmerge
        obtain ⟨hmem, hget⟩ := mem_podIpsToMerge.mp hmerge
        refine ⟨ne_empty_of_mem_externalIps hmem, ?_⟩
        rw [canonicalIp, placeholder, hget, Option.getD_some]
        exact of_decide_eq_true heq
  | none =>
      cases hinfo : e.podInfo with
      | none => simpa using hplace e.ip "internet" none
      | some info =>
          have hget : get (ipToAllPodsMap page) e.ip = some info := by
            rcases (merged_mergedIpData hservices).podInfo e he with h | h
            · rw [← h, hinfo]
            · rw [hsvc] at h
              cases h
          obtain ⟨pod, -, heq⟩ := List.mem_map.mp (mem_of_get hget)
          obtain ⟨hip, rfl⟩ := Prod.mk.inj heq
          simpa [hip] using ⟨hne, hself⟩

theorem endsWith_suffix (key : String) (d d' : Direction) :
    endsWith (key ++ suffix d') (suffix d) = true ↔ d' = d := by
  have hends : ∀ t, (t ++ (suffix d).toList).getLast? = ((suffix d).toList).getLast? := by
    intro t
    cases d
    · simp [suffix]
    · simp [suffix]
  rw [endsWith, List.isSuffixOf_iff_suffix, String.toList_append]
  constructor
  · rintro ⟨t, heq⟩
    have hlast := congrArg List.getLast? heq
    rw [hends] at hlast
    cases d
    · cases d'
      · rfl
      · simp [suffix] at hlast
    · cases d'
      · simp [suffix] at hlast
      · rfl
  · rintro rfl
    exact List.suffix_append _ _

theorem mem_externalIpMap {d : Direction} {key : String} {node : PodNode} :
    (key, node) ∈ externalIpMap lower page d ↔
      (∃ group, nodeOf lower page group d = some node) ∧ ∃ pod ∈ node.pods, pod.podIp ≠ "" ∧
        (key = pod.podIp ∨ get (podIpToSvcIp page) pod.podIp = some key) := by
  have hpods : (key, node) ∈ ((node.pods.filter fun pod => pod.podIp ≠ "").flatMap fun pod =>
      (pod.podIp, node) :: ((present (get (podIpToSvcIp page) pod.podIp)).map fun svcIp =>
        (svcIp, node)).toList) ↔ ∃ pod ∈ node.pods, pod.podIp ≠ "" ∧
        (key = pod.podIp ∨ get (podIpToSvcIp page) pod.podIp = some key) := by
    simp [present_podIpToSvcIp, and_assoc]
  constructor
  · intro hmem
    obtain ⟨node', hnode, hmem⟩ := List.mem_flatMap.mp hmem
    obtain ⟨group, d', hnode⟩ := mem_externalNodes.mp hnode
    by_cases hends : endsWith node'.id (suffix d) = true
    · rw [if_pos hends] at hmem
      obtain rfl : node' = node := by
        obtain ⟨pod, -, hwrite⟩ := List.mem_flatMap.mp hmem
        rcases List.mem_cons.mp hwrite with heq | hwrite
        · exact (Prod.mk.inj heq).2.symm
        · obtain ⟨_, -, heq⟩ := Option.map_eq_some_iff.mp (Option.mem_toList.mp hwrite)
          exact (Prod.mk.inj heq).2
      rw [(of_nodeOf hnode).1, endsWith_suffix] at hends
      exact ⟨⟨group, hends ▸ hnode⟩, hpods.mp hmem⟩
    · rw [if_neg hends] at hmem
      cases hmem
  · rintro ⟨⟨group, hnode⟩, hmem⟩
    refine List.mem_flatMap.mpr ⟨node, mem_externalNodes.mpr ⟨group, d, hnode⟩, ?_⟩
    rw [if_pos (by rw [(of_nodeOf hnode).1, endsWith_suffix])]
    exact hpods.mpr hmem

/-- All writes of an address are of the node of one group. -/
theorem groupOfIp_of_mem (hservices : ServicesApart page) {d : Direction} {key : String}
    {node : PodNode} (h : (key, node) ∈ externalIpMap lower page d) :
    ∃ group, groupOfIp page (canonicalIp page key) = some group ∧
      nodeOf lower page group d = some node := by
  obtain ⟨⟨group, hnode⟩, pod, hpod, -, hkey⟩ := mem_externalIpMap.mp h
  obtain ⟨-, -, hpods, -⟩ := of_nodeOf hnode
  rw [hpods] at hpod
  obtain ⟨e, he, hpod⟩ := List.mem_flatMap.mp hpod
  obtain ⟨he, hgroup⟩ := List.mem_filter.mp he
  have hgroup : groupOf page e = some group := of_decide_eq_true hgroup
  have hcanonical : canonicalIp page key = e.ip := by
    have hpodIp := ((memberPods_canonicalIp hservices he).2 pod hpod).2
    rcases hkey with rfl | hkey
    · exact hpodIp
    · rw [canonicalIp, hkey, Option.getD_some] at hpodIp
      rw [hpodIp, canonicalIp_of_mem hservices he]
  refine ⟨group, ?_, hnode⟩
  rw [hcanonical, ← groupOf_eq hservices he, hgroup]

/-- The canonical address of a row leads to the node that holds the row. -/
theorem mem_externalIpMap_canonicalIp (hservices : ServicesApart page) {d : Direction}
    {traffic : NetworkTraffic} (htraffic : traffic ∈ allTraffic page) {ip : String}
    (hip : outside lower page d traffic = some ip) {group : Group}
    (hgroup : groupOfIp page (canonicalIp page ip) = some group) :
    ∃ node, nodeOf lower page group d = some node ∧
      (canonicalIp page ip, node) ∈ externalIpMap lower page d := by
  obtain ⟨e, he, heq⟩ := List.mem_map.mp
    (canonicalIp_mem hservices (mem_externalIps_of_outside htraffic hip))
  rw [← heq, ← groupOf_eq hservices he] at hgroup
  have hmember : e ∈ members lower page group :=
    List.mem_filter.mpr ⟨he, decide_eq_true hgroup⟩
  obtain ⟨hne, hpods⟩ := memberPods_canonicalIp hservices he
  obtain ⟨pod, hpod⟩ := List.exists_mem_of_ne_nil _ hne
  have hpod' : pod ∈ (members lower page group).flatMap (memberPods lower page) :=
    List.mem_flatMap.mpr ⟨e, hmember, hpod⟩
  have hrow : (members lower page group).flatMap (fun e => e.traffic d) ≠ [] := by
    have hmem : traffic ∈ e.traffic d := by
      refine (traffic_perm hservices he d).mem_iff.mpr (List.mem_filter.mpr ⟨htraffic, ?_⟩)
      rw [hip, Option.map_some, heq]
      exact decide_eq_true rfl
    exact List.ne_nil_of_mem (List.mem_flatMap.mpr ⟨e, hmember, hmem⟩)
  obtain ⟨node, hnode⟩ := exists_nodeOf (List.ne_nil_of_mem hpod') hrow
  refine ⟨node, hnode, mem_externalIpMap.mpr ⟨⟨group, hnode⟩, pod, ?_, (hpods pod hpod).1, ?_⟩⟩
  · rw [(of_nodeOf hnode).2.2.1]
    exact hpod'
  · have hcanonical := (hpods pod hpod).2
    rw [heq] at hcanonical
    cases hget : get (podIpToSvcIp page) pod.podIp with
    | none =>
        rw [canonicalIp, hget, Option.getD_none] at hcanonical
        exact Or.inl hcanonical.symm
    | some svcIp =>
        rw [canonicalIp, hget, Option.getD_some] at hcanonical
        exact Or.inr (congrArg some hcanonical)

theorem endOf_eq {d : Direction} {traffic : NetworkTraffic} {ip : String}
    (hip : outside lower page d traffic = some ip) :
    endOf lower page traffic = (get (externalIpMap lower page d) ip).or
      (get (externalIpMap lower page d) (canonicalIp page ip)) := by
  rw [outside] at hip
  split at hip
  · next hd =>
      obtain ⟨hremote, hlocal⟩ := Option.filter_eq_some_iff.mp hip
      rw [isExternalIp, Option.isNone_iff_eq_none] at hlocal
      simp only [endOf, hd, hremote, remoteNode, hlocal, Option.none_or]
  · cases hip

/-- A row to the outside ends at the node of the group of its canonical address. -/
theorem endOf_outside (hservices : ServicesApart page) {d : Direction}
    {traffic : NetworkTraffic} (htraffic : traffic ∈ allTraffic page) {ip : String}
    (hip : outside lower page d traffic = some ip) :
    endOf lower page traffic =
      (groupOfIp page (canonicalIp page ip)).bind fun group => nodeOf lower page group d := by
  have hwrites : ∀ key node, canonicalIp page key = canonicalIp page ip →
      get (externalIpMap lower page d) key = some node →
        ∃ group, groupOfIp page (canonicalIp page ip) = some group ∧
          nodeOf lower page group d = some node := by
    intro key node hkey hget
    rw [← hkey]
    exact groupOfIp_of_mem hservices (mem_of_get hget)
  rw [endOf_eq hip]
  cases hfirst : get (externalIpMap lower page d) ip with
  | some node =>
      obtain ⟨group, hgroup, hnode⟩ := hwrites ip node rfl hfirst
      rw [hgroup, Option.some_or, Option.bind_some, hnode]
  | none =>
      rw [Option.none_or]
      cases hgroup : groupOfIp page (canonicalIp page ip) with
      | none =>
          refine Option.eq_none_iff_forall_ne_some.mpr fun node hget => ?_
          obtain ⟨group, hgroup', -⟩ :=
            hwrites _ node (canonicalIp_canonicalIp hservices ip) hget
          rw [hgroup] at hgroup'
          cases hgroup'
      | some group =>
          obtain ⟨node, hnode, hmem⟩ :=
            mem_externalIpMap_canonicalIp hservices htraffic hip hgroup
          rw [Option.bind_some, hnode]
          refine get_of_forall hmem fun node' hmem' => ?_
          obtain ⟨group', hgroup', hnode'⟩ := groupOfIp_of_mem hservices hmem'
          rw [canonicalIp_canonicalIp hservices, hgroup] at hgroup'
          cases hgroup'
          exact Option.some.inj (hnode'.symm.trans hnode)

/-! The theorem. -/

theorem groupOfIp_eq_none_iff (ip : String) :
    groupOfIp page ip = none ↔ get (svcIpLookup page) ip = none ∧
      ∃ pod, get (ipToAllPodsMap page) ip = some pod ∧ pod.isDead = true := by
  rw [groupOfIp, groupOf]
  cases hsvc : get (svcIpLookup page) ip with
  | some svc => simp
  | none =>
      cases hpod : get (ipToAllPodsMap page) ip with
      | none => simp
      | some pod => simp

/-- The id of an identity has a dash behind the word that all ids begin with. -/
theorem exists_dash {ip key : String} (h : groupOfIp page ip = some (.identity key)) :
    ∃ name, key.toList = "external-".toList ++ name ∧ '-' ∈ name := by
  rw [groupOfIp, groupOf] at h
  cases hsvc : get (svcIpLookup page) ip with
  | some svc =>
      simp only [hsvc, Option.some.injEq, Group.identity.injEq] at h
      subst h
      refine ⟨"svc-".toList ++ ((present svc.svcNamespace).getD "unknown").toList ++
        "-".toList ++ ((present svc.svcName).getD ip).toList, ?_, ?_⟩
      · simp [String.toList_append]
      · simp
  | none =>
      cases hpod : get (ipToAllPodsMap page) ip with
      | none => simp [hsvc, hpod] at h
      | some pod =>
          simp only [hsvc, hpod] at h
          split at h
          · cases h
          · simp only [Option.some.injEq, Group.identity.injEq] at h
            subst h
            refine ⟨((present pod.podNamespace).getD "unknown").toList ++ "-".toList ++
              (identityOf pod).toList, ?_, ?_⟩
            · simp [String.toList_append]
            · simp

theorem key_ne_internet {ip key : String} (h : groupOfIp page ip = some (.identity key)) :
    key ≠ Group.internet.key := by
  intro heq
  obtain ⟨name, hname, hmem⟩ := exists_dash h
  have hsplit : "external-internet".toList = "external-".toList ++ "internet".toList := by
    decide
  rw [heq, Group.key, hsplit] at hname
  rw [← List.append_cancel_left hname] at hmem
  simp at hmem

/-- The ids of groups that an address can have are different. -/
theorem key_injective {ip ip' : String} {group group' : Group}
    (h : groupOfIp page ip = some group) (h' : groupOfIp page ip' = some group')
    (hkey : group.key = group'.key) : group = group' := by
  cases group with
  | internet =>
      cases group' with
      | internet => rfl
      | identity key => exact absurd hkey.symm (key_ne_internet h')
  | identity key =>
      cases group' with
      | internet => exact absurd hkey (key_ne_internet h)
      | identity key' => exact congrArg Group.identity hkey

theorem id_injective {key key' : String} {d d' : Direction}
    (h : key ++ suffix d = key' ++ suffix d') : key = key' ∧ d = d' := by
  have hends := (endsWith_suffix key d d).mpr rfl
  rw [h, endsWith_suffix] at hends
  subst hends
  have htexts := congrArg String.toList h
  rw [String.toList_append, String.toList_append] at htexts
  exact ⟨String.toList_injective (List.append_cancel_right htexts), rfl⟩

theorem exists_groupOfIp (hservices : ServicesApart page) {group : Group} {d : Direction}
    {node : PodNode} (h : nodeOf lower page group d = some node) :
    ∃ ip, groupOfIp page ip = some group := by
  obtain ⟨e, he⟩ := exists_member h
  obtain ⟨he, hgroup⟩ := List.mem_filter.mp he
  exact ⟨e.ip, groupOf_eq hservices he ▸ of_decide_eq_true hgroup⟩

theorem mem_pods_of_localNode {ip : String} {node : PodNode}
    (h : localNode page ip = some node) : node ∈ page.pods := by
  rw [localNode, Option.or_eq_some_iff] at h
  rcases h with h | ⟨-, h⟩
  · obtain ⟨node', hnode, hmem⟩ := List.mem_flatMap.mp (mem_of_get h)
    obtain ⟨pod, -, heq⟩ := List.mem_map.mp hmem
    exact (Prod.mk.inj heq).2 ▸ hnode
  · obtain ⟨svc, -, hmem⟩ := List.mem_filterMap.mp (mem_of_get h)
    split at hmem
    · cases hmem
    · obtain ⟨selector, -, hmem⟩ := Option.bind_eq_some_iff.mp hmem
      obtain ⟨node', hfind, heq⟩ := Option.map_eq_some_iff.mp hmem
      exact (Prod.mk.inj heq).2 ▸ List.mem_of_find?_eq_some hfind

/-- A row is known by its direction and by the other end's address. -/
theorem endOf_cases (lower : LowerCase) (page : Page) (traffic : NetworkTraffic) :
    (endOf lower page traffic = none ∧ ∀ d, outside lower page d traffic = none) ∨
      (∃ node ∈ page.pods, endOf lower page traffic = some node ∧
        ∀ d, outside lower page d traffic = none) ∨
      ∃ d ip, outside lower page d traffic = some ip ∧
        ∀ d', d' ≠ d → outside lower page d' traffic = none := by
  cases hd : directionOf lower traffic with
  | none => exact Or.inl ⟨by rw [endOf, hd], fun d => by simp [outside, hd]⟩
  | some d =>
      have hother : ∀ d', d' ≠ d → outside lower page d' traffic = none := by
        intro d' hne
        rw [outside, hd, if_neg fun heq => hne (Option.some.inj heq).symm]
      have hsame : outside lower page d traffic =
          (remoteIp traffic).filter (isExternalIp page) := by
        rw [outside, hd, if_pos rfl]
      have hnone : outside lower page d traffic = none →
          ∀ d', outside lower page d' traffic = none := by
        intro h d'
        by_cases hd' : d' = d
        · rw [hd', h]
        · exact hother d' hd'
      cases hremote : remoteIp traffic with
      | none =>
          refine Or.inl ⟨by rw [endOf, hd, hremote], hnone ?_⟩
          rw [hsame, hremote]
          rfl
      | some ip =>
          rw [hremote] at hsame
          cases hlocal : localNode page ip with
          | none =>
              refine Or.inr (Or.inr ⟨d, ip, ?_, hother⟩)
              rw [hsame, Option.filter_some, isExternalIp, hlocal]
              rfl
          | some node =>
              refine Or.inr (Or.inl ⟨node, mem_pods_of_localNode hlocal, ?_, hnone ?_⟩)
              · simp only [endOf, hd, hremote, remoteNode, hlocal, Option.some_or]
              · rw [hsame, Option.filter_some, isExternalIp, hlocal]
                rfl

/-- The node of a group holds a row exactly when the row ends at a node with its id. -/
theorem ends_at_iff (hservices : ServicesApart page) {group : Group} {d : Direction}
    {node : PodNode} (hnode : nodeOf lower page group d = some node)
    {traffic : NetworkTraffic} (htraffic : traffic ∈ allTraffic page) :
    ((outside lower page d traffic).any fun ip =>
        decide (groupOfIp page (canonicalIp page ip) = some group)) =
      (endOf lower page traffic).any fun other => other.isExternal && other.id = node.id := by
  rcases endOf_cases lower page traffic with
    ⟨hend, hout⟩ | ⟨other, hother, hend, hout⟩ | ⟨d', ip, hout, hothers⟩
  · rw [hend, hout]
    rfl
  · rw [hend, hout, Option.any_none, Option.any_some, page.unmarked other hother, Bool.false_and]
  · rw [endOf_outside hservices htraffic hout]
    cases hgroup : groupOfIp page (canonicalIp page ip) with
    | none =>
        by_cases hd : d = d'
        · rw [hd, hout, Option.any_some, hgroup]
          rfl
        · rw [hothers d hd]
          rfl
    | some group' =>
        obtain ⟨other, hother, -⟩ := mem_externalIpMap_canonicalIp hservices htraffic hout hgroup
        obtain ⟨hid, hexternal, -⟩ := of_nodeOf hother
        rw [Option.bind_some, hother, Option.any_some, hexternal, hid, (of_nodeOf hnode).1,
          Bool.true_and]
        by_cases hd : d = d'
        · subst hd
          obtain ⟨ip', hip'⟩ := exists_groupOfIp hservices hnode
          rw [hout, Option.any_some, hgroup]
          refine decide_eq_decide.mpr ⟨fun heq => ?_, fun heq => ?_⟩
          · rw [Option.some.inj heq]
          · rw [key_injective hgroup hip' (id_injective heq).1]
        · rw [hothers d hd, Option.any_none]
          exact (decide_eq_false fun heq => hd (id_injective heq).2.symm).symm

/-- The nodes and the ends agree on the rows to the outside. Each of these nodes holds the rows
that end at it, and a row whose other end has an address ends nowhere only if that is the address
of a dead pod that no service selects. -/
theorem external_traffic_exact (lower : LowerCase) (page : Page)
    (hservices : ServicesApart page) :
    (∀ node ∈ externalNodes lower page, node.traffic.Perm ((allTraffic page).filter fun traffic =>
      (endOf lower page traffic).any fun other => other.isExternal && other.id = node.id)) ∧
      ∀ traffic ∈ allTraffic page, ∀ d ip, directionOf lower traffic = some d →
        remoteIp traffic = some ip → (endOf lower page traffic = none ↔
          localNode page ip = none ∧ get (svcIpLookup page) (canonicalIp page ip) = none ∧
            ∃ pod, get (ipToAllPodsMap page) (canonicalIp page ip) = some pod ∧
              pod.isDead = true) := by
  refine ⟨fun node hnode => ?_, fun traffic htraffic d ip hd hremote => ?_⟩
  · obtain ⟨group, d, hnode⟩ := mem_externalNodes.mp hnode
    refine (nodeOf_traffic hservices hnode).trans (List.Perm.of_eq (List.filter_congr ?_))
    exact fun traffic htraffic => ends_at_iff hservices hnode htraffic
  · cases hfound : localNode page ip with
    | some node => simp [endOf, hd, hremote, remoteNode, hfound]
    | none =>
        have hout : outside lower page d traffic = some ip := by
          rw [outside, if_pos hd, hremote, Option.filter_some, isExternalIp, hfound]
          rfl
        rw [endOf_outside hservices htraffic hout, ← groupOfIp_eq_none_iff]
        simp only [true_and]
        cases hgroup : groupOfIp page (canonicalIp page ip) with
        | none => simp
        | some group =>
            obtain ⟨other, hother, -⟩ :=
              mem_externalIpMap_canonicalIp hservices htraffic hout hgroup
            simp [hother]

/-! A service in front of a pod of another namespace. -/

def selectorOf (app : String) : Labels := Labels.ofList [("app", app)]

def podRow (name ip ns : String) (isDead : Bool) : PodRow where
  podName := name
  podIp := ip
  podNamespace := some ns
  labels := none
  podIdentity := none
  workloadSelectorLabels := some (selectorOf name)
  isDead := isDead

def egressTo (ip : String) : NetworkTraffic where
  trafficType := some "EGRESS"
  podPort := some "0"
  trafficInOutIp := some ip
  trafficInOutPort := some "5432"
  ipProtocol := some "TCP"
  decision := some "ALLOW"

def dbService : ServiceInfo where
  svcIp := "10.96.0.5"
  svcName := some "db"
  svcNamespace := some "data"
  selector := some (selectorOf "db")

def webNode : PodNode where
  id := "shop-web"
  pod := podRow "web" "10.0.0.1" "shop" false
  pods := [podRow "web" "10.0.0.1" "shop" false]
  traffic := [egressTo "10.96.0.5", egressTo "10.0.1.7", egressTo "10.0.1.9"]
  isExternal := false

def shopPage : Page where
  pods := [webNode]
  allPodsLookup := [podRow "web" "10.0.0.1" "shop" false, podRow "db" "10.0.1.7" "data" false,
    podRow "job" "10.0.1.9" "data" true]
  services := [dbService]
  unmarked := by
    intro node hnode
    rw [List.mem_singleton.mp hnode]
    rfl

theorem shopPage_exact :
    endOf asciiLowerCase shopPage (egressTo "10.0.1.9") = none ∧
      ∀ node ∈ externalNodes asciiLowerCase shopPage,
        node.traffic.Perm ((allTraffic shopPage).filter fun traffic =>
          (endOf asciiLowerCase shopPage traffic).any fun other =>
            other.isExternal && other.id = node.id) := by
  have hservices : ServicesApart shopPage := by
    simp [ServicesApart, shopPage, dbService, podRow]
  obtain ⟨hheld, hends⟩ := external_traffic_exact asciiLowerCase shopPage hservices
  refine ⟨(hends (egressTo "10.0.1.9") ?_ .egress "10.0.1.9" ?_ rfl).mpr ?_, hheld⟩
  · simp [allTraffic, shopPage, webNode]
  · decide
  · refine ⟨?_, ?_, podRow "job" "10.0.1.9" "data" true, ?_, rfl⟩
    · decide
    · decide
    · rfl

end KGuardian.GraphEnds
