import KGuardian.ObservedTraffic

/-!
Peers compared by what they stand for in every cluster. Two collections of peers
stand for the same ends of flows exactly when each peer of one that an object can
match is within a peer of the other: a cluster with one more pod, or an address
outside of it, tells them apart.
-/
namespace KGuardian.PeerInclusion

open Matcher ObservedTraffic PolicySemantics Selectors
open NetAddr (parseAddr parseIP)
open StandardPolicy (ResolvedPeer)

def nameLabels (ns : String) : Labels := Labels.ofList [("kubernetes.io/metadata.name", ns)]

/-- All labels of the map are on the object. -/
def Carried (labels lbls : Labels) : Prop := ∀ l ∈ labels.entries, lbls.lookup l.1 = some l.2

/-- The first peer asks for all that the second asks for. -/
def Within : ResolvedPeer → ResolvedPeer → Prop
  | .pods ns labels, .pods ns' labels' => ns = ns' ∧ Carried labels' labels
  | .address ip, .address ip' => parseIP ip = parseIP ip'
  | _, _ => False

/-- A peer of a policy: some labels, or an IPv4 address. -/
def Proper : ResolvedPeer → Prop
  | .pods _ labels => labels.keys ≠ []
  | .address ip => ∃ a, parseAddr ip.toList = some (.v4 a)

/-- The labels and the namespace are ones that objects of a cluster can have. -/
def Matchable (api : Apimachinery) : ResolvedPeer → Prop
  | .pods ns labels => api.ValidLabels labels ∧ ns ≠ "" ∧ api.ValidLabels (nameLabels ns)
  | .address _ => True

/-- A cluster with a pod of this name and these labels. -/
structure Placed (api : Apimachinery) (lookup : Lookup) (ns name : String) (labels : Labels) :
    Prop where
  cluster : ClusterObjects api lookup
  known : ∃ pod, lookup.getPod ns name = some pod ∧ pod.labels = labels

section

variable {api : Apimachinery} {lookup : Lookup} {ns name : String} {labels : Labels}

/-! Pods of a cluster. -/

theorem namespaceNamed_iff (hcluster : ClusterObjects api lookup) {e : Endpoint} {pod : Pod}
    (hpod : pod ∈ podAt lookup e) (ns : String) :
    (∃ lbls ∈ lookup.getNamespaceLabels pod.ns,
      lbls.lookup "kubernetes.io/metadata.name" = some ns) ↔ pod.ns = ns := by
  obtain ⟨-, lbls, hlbls, hname⟩ := hcluster.named _ _ _ hpod
  rw [← (hcluster.sound _ _ _ hpod).1] at hlbls hname
  constructor
  · rintro ⟨lbls', hlbls', hname'⟩
    obtain rfl := Option.some.inj (hlbls.symm.trans hlbls')
    exact Option.some.inj (hname.symm.trans hname')
  · rintro rfl
    exact ⟨lbls, hlbls, hname⟩

theorem podsCover_iff (hcluster : ClusterObjects api lookup) (ns : String) (labels : Labels)
    (e : Endpoint) :
    PodsCover lookup ns labels e ↔
      ∃ pod ∈ podAt lookup e, pod.ns = ns ∧ Carried labels pod.labels :=
  exists_congr fun _ => and_congr_right fun hpod =>
    and_congr_left' (namespaceNamed_iff hcluster hpod ns)

theorem admits_iff_carried {lbls : Labels} (hvalid : api.ValidLabels lbls) (labels : Labels) :
    api.Admits (ofMatchLabels labels) lbls ↔ Carried labels lbls := by
  rw [Apimachinery.admits_ofMatchLabels_iff]
  exact ⟨And.right, fun h => ⟨validLabels_of_carried hvalid h, h⟩⟩

theorem carried_nameLabels_iff (ns : String) (lbls : Labels) :
    Carried (nameLabels ns) lbls ↔ lbls.lookup "kubernetes.io/metadata.name" = some ns := by
  have hentries : (nameLabels ns).entries = [⟨"kubernetes.io/metadata.name", ns⟩] := rfl
  rw [Carried, hentries, List.forall_mem_singleton]

theorem namespaceAdmits_iff (hcluster : ClusterObjects api lookup) {e : Endpoint} {pod : Pod}
    (hpod : pod ∈ podAt lookup e) (ns : String) :
    (∃ lbls ∈ lookup.getNamespaceLabels pod.ns, api.Admits (ofMatchLabels (nameLabels ns)) lbls) ↔
      pod.ns = ns := by
  rw [← namespaceNamed_iff hcluster hpod]
  refine exists_congr fun lbls => and_congr_right fun hlbls => ?_
  rw [admits_iff_carried (hcluster.namespaceLabels _ _ hlbls), carried_nameLabels_iff]

/-- A selector peer stands for the pods of the namespace that it names, which is the
home namespace when it names none. -/
theorem peerAdmits_selectors_iff (hcluster : ClusterObjects api lookup) {ns homeNs : String}
    {selector : Option LabelSelector}
    (hselector : selector = some (ofMatchLabels (nameLabels ns)) ∨ selector = none ∧ homeNs = ns)
    (hlabels : labels.keys ≠ []) (e : Endpoint) :
    PeerAdmits api lookup homeNs e
        { podSelector := some (ofMatchLabels labels)
          namespaceSelector := selector
          ipBlock := none } ↔
      Covers lookup e (.pods ns labels) := by
  rw [Covers, and_iff_right hlabels, podsCover_iff hcluster]
  refine exists_congr fun pod => and_congr_right fun hpod => ?_
  have hvalid : api.ValidLabels pod.labels := hcluster.podLabels _ _ _ hpod
  rcases hselector with rfl | ⟨rfl, rfl⟩
  · constructor
    · intro h
      exact ⟨(namespaceAdmits_iff hcluster hpod ns).mp (h.namespaces _ rfl),
        (admits_iff_carried hvalid labels).mp (h.pods _ rfl)⟩
    · rintro ⟨hns, hcarried⟩
      refine ⟨by simp, fun sel hsel => ?_, fun sel hsel => ?_⟩
      · obtain rfl := Option.some.inj hsel
        exact (namespaceAdmits_iff hcluster hpod ns).mpr hns
      · obtain rfl := Option.some.inj hsel
        exact (admits_iff_carried hvalid labels).mpr hcarried
  · constructor
    · intro h
      exact ⟨h.home rfl, (admits_iff_carried hvalid labels).mp (h.pods _ rfl)⟩
    · rintro ⟨hns, hcarried⟩
      refine ⟨fun _ => hns, by simp, fun sel hsel => ?_⟩
      obtain rfl := Option.some.inj hsel
      exact (admits_iff_carried hvalid labels).mpr hcarried

/-! One peer. -/

theorem covers_of_within {peer peer' : ResolvedPeer} (hpeer : Proper peer) (hpeer' : Proper peer')
    (hwithin : Within peer peer') {e : Endpoint} (h : Covers lookup e peer) :
    Covers lookup e peer' := by
  cases peer with
  | pods ns labels =>
      cases peer' with
      | pods ns' labels' =>
          obtain ⟨rfl, hcarried⟩ := hwithin
          obtain ⟨-, pod, hpod, hns, hlabels⟩ := h
          refine ⟨hpeer', pod, hpod, hns, fun l hl => ?_⟩
          exact hlabels l (AList.mem_lookup_iff.mp (hcarried l hl))
      | address ip => exact hwithin.elim
  | address ip =>
      cases peer' with
      | pods ns' labels' => exact hwithin.elim
      | address ip' =>
          obtain ⟨a, ha⟩ := hpeer
          obtain ⟨a', ha'⟩ := hpeer'
          exact (blockHolds_host_iff ip' e.ip a' ha').mpr
            (((blockHolds_host_iff ip e.ip a ha).mp h).trans hwithin)

/-- What stands for some end of a flow can be matched. -/
theorem matchable_of_covers (hcluster : ClusterObjects api lookup) {peer : ResolvedPeer}
    {e : Endpoint} (h : Covers lookup e peer) : Matchable api peer := by
  cases peer with
  | pods ns labels =>
      obtain ⟨-, pod, hpod, ⟨lbls, hlbls, hname⟩, hcarried⟩ := h
      have hns := (namespaceNamed_iff hcluster hpod ns).mp ⟨lbls, hlbls, hname⟩
      refine ⟨validLabels_of_carried (hcluster.podLabels _ _ _ hpod) hcarried, ?_, ?_⟩
      · rw [← hns, (hcluster.sound _ _ _ hpod).1]
        exact (hcluster.named _ _ _ hpod).1
      · exact validLabels_of_carried (hcluster.namespaceLabels _ _ hlbls)
          ((carried_nameLabels_iff ns lbls).mpr hname)
  | address ip => trivial

/-- The cluster with one more pod, in a namespace that has no label but its name. -/
def withPod (lookup : Lookup) (pod : Pod) : Lookup where
  getPod ns name := if ns = pod.ns ∧ name = pod.name then some pod else lookup.getPod ns name
  getNamespaceLabels ns :=
    if ns = pod.ns then some (nameLabels ns) else lookup.getNamespaceLabels ns

theorem getPod_withPod_cases {pod found : Pod} {ns name : String}
    (h : (withPod lookup pod).getPod ns name = some found) :
    ns = pod.ns ∧ name = pod.name ∧ found = pod ∨ lookup.getPod ns name = some found := by
  rw [withPod] at h
  dsimp only at h
  split at h
  · rename_i hsame
    exact .inl ⟨hsame.1, hsame.2, (Option.some.inj h).symm⟩
  · exact .inr h

theorem getNamespaceLabels_withPod_cases {pod : Pod} {ns : String} {lbls : Labels}
    (h : (withPod lookup pod).getNamespaceLabels ns = some lbls) :
    ns = pod.ns ∧ lbls = nameLabels ns ∨ lookup.getNamespaceLabels ns = some lbls := by
  rw [withPod] at h
  dsimp only at h
  split at h
  · rename_i hsame
    exact .inl ⟨hsame, (Option.some.inj h).symm⟩
  · exact .inr h

theorem getPod_withPod_self (lookup : Lookup) (pod : Pod) :
    (withPod lookup pod).getPod pod.ns pod.name = some pod :=
  if_pos ⟨rfl, rfl⟩

theorem getPod_withPod_of_ne (lookup : Lookup) {pod : Pod} {name : String}
    (hname : name ≠ pod.name) (ns : String) :
    (withPod lookup pod).getPod ns name = lookup.getPod ns name :=
  if_neg fun h => hname h.2

/-- Namespaces are still labelled with their names. -/
theorem named_withPod {pod : Pod} {ns : String}
    (h : ns = pod.ns ∨ ∃ lbls, lookup.getNamespaceLabels ns = some lbls ∧
      lbls.lookup "kubernetes.io/metadata.name" = some ns) :
    ∃ lbls, (withPod lookup pod).getNamespaceLabels ns = some lbls ∧
      lbls.lookup "kubernetes.io/metadata.name" = some ns := by
  by_cases hsame : ns = pod.ns
  · rw [hsame]
    refine ⟨nameLabels pod.ns, if_pos rfl, ?_⟩
    exact (carried_nameLabels_iff _ _).mp fun l hl => AList.mem_lookup_iff.mpr hl
  · obtain ⟨lbls, hlbls, hnamed⟩ := h.resolve_left hsame
    exact ⟨lbls, (if_neg hsame).trans hlbls, hnamed⟩

theorem clusterObjects_withPod (hcluster : ClusterObjects api lookup) {pod : Pod}
    (hlabels : api.ValidLabels pod.labels) (hns : pod.ns ≠ "")
    (hname : api.ValidLabels (nameLabels pod.ns)) : ClusterObjects api (withPod lookup pod) := by
  refine ⟨?_, ?_, ?_, ?_⟩
  · intro ns name found h
    rcases getPod_withPod_cases h with ⟨rfl, rfl, rfl⟩ | hold
    · exact ⟨rfl, rfl⟩
    · exact hcluster.sound _ _ _ hold
  · intro ns name found h
    rcases getPod_withPod_cases h with ⟨rfl, rfl, rfl⟩ | hold
    · exact hlabels
    · exact hcluster.podLabels _ _ _ hold
  · intro ns lbls h
    rcases getNamespaceLabels_withPod_cases h with ⟨rfl, rfl⟩ | hold
    · exact hname
    · exact hcluster.namespaceLabels _ _ hold
  · intro ns name found h
    rcases getPod_withPod_cases h with ⟨rfl, rfl, rfl⟩ | hold
    · exact ⟨hns, named_withPod (.inl rfl)⟩
    · obtain ⟨hne, hnamed⟩ := hcluster.named _ _ _ hold
      exact ⟨hne, named_withPod (.inr hnamed)⟩

/-- Labels are told apart by a pod that has them and no other ones. -/
theorem exists_covered_pods (hplaced : Placed api lookup ns name labels) {ns' : String}
    {labels' : Labels} (hproper : Proper (.pods ns' labels'))
    (hmatchable : Matchable api (.pods ns' labels')) :
    ∃ lookup' e, Placed api lookup' ns name labels ∧ Covers lookup' e (.pods ns' labels') ∧
      ∀ peer', Proper peer' → Covers lookup' e peer' → Within (.pods ns' labels') peer' := by
  obtain ⟨hvalid, hns, hnameLabels⟩ := hmatchable
  have hcluster : ClusterObjects api (withPod lookup ⟨ns', name ++ "-peer", labels', []⟩) :=
    clusterObjects_withPod hplaced.cluster hvalid hns hnameLabels
  have hpod : podAt (withPod lookup ⟨ns', name ++ "-peer", labels', []⟩)
      ⟨ns', name ++ "-peer", ""⟩ = some ⟨ns', name ++ "-peer", labels', []⟩ :=
    getPod_withPod_self lookup ⟨ns', name ++ "-peer", labels', []⟩
  have hother : name ≠ name ++ "-peer" := by
    intro heq
    have hlength := congrArg String.length heq
    simp at hlength
  refine ⟨_, ⟨ns', name ++ "-peer", ""⟩, ⟨hcluster, ?_⟩, ⟨hproper, ?_⟩, ?_⟩
  · obtain ⟨pod, hknown, hsame⟩ := hplaced.known
    exact ⟨pod, (getPod_withPod_of_ne lookup hother ns).trans hknown, hsame⟩
  · rw [podsCover_iff hcluster]
    exact ⟨_, hpod, rfl, fun l hl => AList.mem_lookup_iff.mpr hl⟩
  · intro peer' hproper' hcovers
    cases peer' with
    | pods ns'' labels'' =>
        obtain ⟨pod, hpod', hns', hcarried⟩ := (podsCover_iff hcluster _ _ _).mp hcovers.2
        obtain rfl := Option.some.inj (hpod.symm.trans hpod')
        exact ⟨hns', hcarried⟩
    | address ip =>
        obtain ⟨addr, haddr, -⟩ := hcovers
        have hempty : parseIP "" = none := by decide
        exact absurd (hempty.symm.trans haddr) (by simp)

/-- Addresses are told apart by an end without a pod. -/
theorem exists_covered_address (hplaced : Placed api lookup ns name labels) {ip : String}
    (hproper : Proper (.address ip)) :
    ∃ lookup' e, Placed api lookup' ns name labels ∧ Covers lookup' e (.address ip) ∧
      ∀ peer', Proper peer' → Covers lookup' e peer' → Within (.address ip) peer' := by
  obtain ⟨a, ha⟩ := hproper
  refine ⟨lookup, ⟨"", "", ip⟩, hplaced, (blockHolds_host_iff ip ip a ha).mpr rfl, ?_⟩
  intro peer' hproper' hcovers
  cases peer' with
  | pods ns' labels' =>
      obtain ⟨-, pod, hpod, -⟩ := hcovers
      exact absurd rfl (hplaced.cluster.named _ _ _ hpod).1
  | address ip' =>
      obtain ⟨a', ha'⟩ := hproper'
      exact (blockHolds_host_iff ip' ip a' ha').mp hcovers

/-- Some end of a flow is covered by a peer that can be matched, and only by peers
that it is within. -/
theorem exists_covered (hplaced : Placed api lookup ns name labels) {peer : ResolvedPeer}
    (hproper : Proper peer) (hmatchable : Matchable api peer) :
    ∃ lookup' e, Placed api lookup' ns name labels ∧ Covers lookup' e peer ∧
      ∀ peer', Proper peer' → Covers lookup' e peer' → Within peer peer' := by
  cases peer with
  | pods ns' labels' => exact exists_covered_pods hplaced hproper hmatchable
  | address ip => exact exists_covered_address hplaced hproper

end

/-! Collections of peers. -/

/-- Each peer of the first collection that can be matched is within one of the
second. -/
def Refines (api : Apimachinery) (peers peers' : ResolvedPeer → Prop) : Prop :=
  ∀ peer, peers peer → Matchable api peer → ∃ peer', peers' peer' ∧ Within peer peer'

/-- One of the peers stands for the other end of the flow. -/
def Meets (lookup : Lookup) (flow : Flow) (d : Direction) (peers : ResolvedPeer → Prop) : Prop :=
  ∃ e ∈ otherEnd flow d, ∃ peer, peers peer ∧ Covers lookup e peer

section

variable {api : Apimachinery} {ns name : String} {labels : Labels}
  {peers peers' : ResolvedPeer → Prop}

theorem Refines.covers (h : Refines api peers peers') (hproper : ∀ peer, peers peer → Proper peer)
    (hproper' : ∀ peer, peers' peer → Proper peer) {lookup : Lookup}
    (hcluster : ClusterObjects api lookup) {e : Endpoint}
    (hcovers : ∃ peer, peers peer ∧ Covers lookup e peer) :
    ∃ peer, peers' peer ∧ Covers lookup e peer := by
  obtain ⟨peer, hpeer, hcovered⟩ := hcovers
  obtain ⟨peer', hpeer', hwithin⟩ := h peer hpeer (matchable_of_covers hcluster hcovered)
  exact ⟨peer', hpeer',
    covers_of_within (hproper peer hpeer) (hproper' peer' hpeer') hwithin hcovered⟩

theorem refines_of_covers (hplaced : ∃ lookup, Placed api lookup ns name labels)
    (hproper : ∀ peer, peers peer → Proper peer) (hproper' : ∀ peer, peers' peer → Proper peer)
    (h : ∀ lookup, Placed api lookup ns name labels → ∀ e,
      (∃ peer, peers peer ∧ Covers lookup e peer) → ∃ peer, peers' peer ∧ Covers lookup e peer) :
    Refines api peers peers' := by
  intro peer hpeer hmatchable
  obtain ⟨lookup, hlookup⟩ := hplaced
  obtain ⟨lookup', e, hplaced', hcovered, hwithin⟩ :=
    exists_covered hlookup (hproper peer hpeer) hmatchable
  obtain ⟨peer', hpeer', hcovered'⟩ := h lookup' hplaced' e ⟨peer, hpeer, hcovered⟩
  exact ⟨peer', hpeer', hwithin peer' (hproper' peer' hpeer') hcovered'⟩

/-- Collections of peers stand for the same ends of flows in every cluster with the
pod exactly when each refines the other. -/
theorem covers_iff_refines (hplaced : ∃ lookup, Placed api lookup ns name labels)
    (hproper : ∀ peer, peers peer → Proper peer) (hproper' : ∀ peer, peers' peer → Proper peer) :
    (∀ lookup, Placed api lookup ns name labels → ∀ e,
      ((∃ peer, peers peer ∧ Covers lookup e peer) ↔ ∃ peer, peers' peer ∧ Covers lookup e peer)) ↔
      Refines api peers peers' ∧ Refines api peers' peers := by
  constructor
  · intro h
    constructor
    · exact refines_of_covers hplaced hproper hproper' fun lookup hlookup e =>
        (h lookup hlookup e).mp
    · exact refines_of_covers hplaced hproper' hproper fun lookup hlookup e =>
        (h lookup hlookup e).mpr
  · rintro ⟨hrefines, hrefines'⟩ lookup hlookup e
    exact ⟨hrefines.covers hproper hproper' hlookup.cluster,
      hrefines'.covers hproper' hproper hlookup.cluster⟩

end

end KGuardian.PeerInclusion
