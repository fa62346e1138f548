import KGuardian.FrontendCilium
import KGuardian.JoinedNames

/-!
The peers of the frontend's generators and the keys under which they are grouped. A key joins
the namespace and the name of a service or a pod by a dash, which both may contain, and takes
a missing namespace for `default`. The grouping keeps the peers apart exactly when no two of
them are confused by this.
-/
namespace KGuardian.PeerKeys

open FrontendPolicy JoinedNames JsText Matcher SortedGroups
open BridgeNetworkPolicy (TrafficRow)

/-! Peers. -/

/-- What an address was resolved to. -/
inductive Resolved where
  | service (ns : Option String) (name : String)
  | pod (ns : Option String) (name : String)
  | external (ip : String)
  deriving DecidableEq

def resolved (peer : PeerInfo) : Resolved :=
  match peer.identity with
  | .service name ns _ => .service ns name
  | .pod name ns _ => .pod ns name
  | .external => .external peer.ip

/-- The namespace and the name, as they are written into a key. -/
def written (ns : Option String) (name : String) : List Char × List Char :=
  ((ns.getD "default").toList, name.toList)

def Resolved.key : Resolved → List Char
  | .service ns name => "svc-".toList ++ join '-' (written ns name)
  | .pod ns name => "pod-".toList ++ join '-' (written ns name)
  | .external ip => "ip-".toList ++ ip.toList

/-- A missing namespace next to `default`, or a namespace that goes on where the other one
ends, with what the name of the other one starts with. -/
def Confused (ns : Option String) (name : String) (ns' : Option String) (name' : String) : Prop :=
  ns ≠ ns' ∧ written ns name = written ns' name' ∨
    Shifted '-' (written ns name) (written ns' name') ∨
    Shifted '-' (written ns' name') (written ns name)

/-- Two services, or two pods, that a key does not tell apart. -/
def Resolved.Confused : Resolved → Resolved → Prop
  | .service ns name, .service ns' name' => PeerKeys.Confused ns name ns' name'
  | .pod ns name, .pod ns' name' => PeerKeys.Confused ns name ns' name'
  | _, _ => False

/-! The grouping. -/

/-- The entry that a peer falls into. -/
def entryFor (peers : List PeerPorts) (peer : PeerInfo) : Option PeerPorts :=
  peers.find? fun e => e.key = peerKey peer

/-- Rows share an entry when their peers are equal, and each peer is there with the ports of its
own rows and no others. -/
structure Faithful (rows : List (PeerInfo × String)) (peers : List PeerPorts) : Prop where
  grouped : ∀ row ∈ rows, ∀ row' ∈ rows,
    entryFor peers row.1 = entryFor peers row'.1 ↔ resolved row.1 = resolved row'.1
  kept : ∀ row ∈ rows, ∃ e ∈ peers, resolved e.peer = resolved row.1 ∧ row.2 ∈ e.ports
  own : ∀ e ∈ peers, ∀ port ∈ e.ports,
    ∃ row ∈ rows, resolved row.1 = resolved e.peer ∧ row.2 = port

/-! Keys. -/

theorem toList_peerKey (peer : PeerInfo) : (peerKey peer).toList = (resolved peer).key := by
  unfold peerKey resolved
  cases peer.identity <;>
    simp [Resolved.key, written, join]

theorem peerKey_eq_iff (p q : PeerInfo) :
    peerKey p = peerKey q ↔ (resolved p).key = (resolved q).key := by
  rw [← toList_peerKey, ← toList_peerKey, String.toList_inj]

theorem written_join_eq_iff {ns ns' : Option String} {name name' : String} :
    join '-' (written ns name) = join '-' (written ns' name') ↔
      (ns = ns' ∧ name = name') ∨ Confused ns name ns' name' := by
  rw [join_eq_iff]
  constructor
  · rintro (heq | hshifted)
    · by_cases hns : ns = ns'
      · exact .inl ⟨hns, String.toList_inj.mp (congrArg Prod.snd heq)⟩
      · exact .inr (.inl ⟨hns, heq⟩)
    · exact .inr (.inr hshifted)
  · rintro (⟨rfl, rfl⟩ | ⟨-, heq⟩ | hshifted)
    · exact .inl rfl
    · exact .inl heq
    · exact .inr hshifted

/-- Two peers have one key exactly when they are equal or confused. -/
theorem key_eq_iff (p q : Resolved) : p.key = q.key ↔ p = q ∨ p.Confused q := by
  cases p <;> cases q <;>
    simp [Resolved.key, Resolved.Confused, written_join_eq_iff, String.toList_inj]

theorem ne_of_confused {p q : Resolved} (h : p.Confused q) : p ≠ q := by
  rintro rfl
  have hnone (ns : Option String) (name : String) : ¬ Confused ns name ns name := by
    rintro (⟨hne, -⟩ | hshifted | hshifted)
    · exact hne rfl
    · exact hshifted.ne rfl
    · exact hshifted.ne rfl
  cases p with
  | service ns name => exact hnone ns name h
  | pod ns name => exact hnone ns name h
  | external ip => exact h

/-! Entries. -/

section Entries

variable {rows : List (PeerInfo × String)}

theorem key_of_mem {e : PeerPorts} (h : e ∈ collected rows) : e.key = peerKey e.peer := by
  obtain ⟨row, hrow, hpeer⟩ := Option.map_eq_some_iff.mp (firstPeer_of_mem h)
  have hkey := List.find?_some hrow
  rw [hpeer] at hkey
  exact (of_decide_eq_true hkey).symm

theorem exists_entry_iff (key port : String) :
    (∃ e ∈ collected rows, e.key = key ∧ port ∈ e.ports) ↔
      ∃ row ∈ rows, peerKey row.1 = key ∧ row.2 = port := by
  have hin := inGroup_mergeAll (rows.map fun row => (peerKey row.1, row.2)) key port
  rw [← group_collected, InGroup, List.mem_map] at hin
  simpa [group] using hin

theorem key_of_entryFor {peers : List PeerPorts} {peer : PeerInfo} {e : PeerPorts}
    (h : entryFor peers peer = some e) : e.key = peerKey peer := by
  unfold entryFor at h
  simpa using List.find?_some h

theorem entryFor_eq_iff {row row' : PeerInfo × String} (h : row ∈ rows) :
    entryFor (collected rows) row.1 = entryFor (collected rows) row'.1 ↔
      peerKey row.1 = peerKey row'.1 := by
  constructor
  · intro heq
    obtain ⟨e, he, hkey⟩ := (exists_key_iff rows (peerKey row.1)).mpr ⟨row, h, rfl⟩
    have hsome : (entryFor (collected rows) row.1).isSome = true :=
      List.find?_isSome.mpr ⟨e, he, decide_eq_true hkey⟩
    obtain ⟨found, hfound⟩ := Option.isSome_iff_exists.mp hsome
    exact (key_of_entryFor hfound).symm.trans (key_of_entryFor (heq.symm.trans hfound))
  · intro hkey
    unfold entryFor
    rw [hkey]

/-- The maps are faithful exactly when no two of the peers are confused. -/
theorem faithful_collected_iff :
    Faithful rows (collected rows) ↔
      ∀ row ∈ rows, ∀ row' ∈ rows, ¬ (resolved row.1).Confused (resolved row'.1) := by
  constructor
  · intro h row hrow row' hrow' hconfused
    have hkey : peerKey row.1 = peerKey row'.1 :=
      (peerKey_eq_iff _ _).mpr ((key_eq_iff _ _).mpr (.inr hconfused))
    have hsame := (h.grouped row hrow row' hrow').mp ((entryFor_eq_iff hrow).mpr hkey)
    exact ne_of_confused hconfused hsame
  · intro h
    have hkey : ∀ row ∈ rows, ∀ row' ∈ rows,
        peerKey row.1 = peerKey row'.1 ↔ resolved row.1 = resolved row'.1 := by
      intro row hrow row' hrow'
      rw [peerKey_eq_iff, key_eq_iff, or_iff_left (h row hrow row' hrow')]
    -- The peer of an entry is that of its first row.
    have hpeer : ∀ e ∈ collected rows, ∃ row ∈ rows, row.1 = e.peer := by
      intro e he
      obtain ⟨row, hrow, heq⟩ := Option.map_eq_some_iff.mp (firstPeer_of_mem he)
      exact ⟨row, List.mem_of_find?_eq_some hrow, heq⟩
    constructor
    · intro row hrow row' hrow'
      rw [entryFor_eq_iff hrow, hkey row hrow row' hrow']
    · intro row hrow
      obtain ⟨e, he, hsame, hport⟩ := (exists_entry_iff _ _).mpr ⟨row, hrow, rfl, rfl⟩
      obtain ⟨first, hfirst, heq⟩ := hpeer e he
      rw [key_of_mem he, ← heq] at hsame
      exact ⟨e, he, heq ▸ (hkey first hfirst row hrow).mp hsame, hport⟩
    · intro e he port hport
      obtain ⟨row, hrow, hsame, hrowPort⟩ := (exists_entry_iff _ _).mp ⟨e, he, rfl, hport⟩
      obtain ⟨first, hfirst, heq⟩ := hpeer e he
      rw [key_of_mem he, ← heq] at hsame
      exact ⟨row, hrow, heq ▸ (hkey row hrow first hfirst).mp hsame, hrowPort⟩

end Entries

/-- The maps that both generators make their rules of are faithful exactly when no two peers of
a direction are confused, whatever the addresses were resolved to. -/
theorem peerMaps_faithful_iff (lower : LowerCase) (identities : List (String × TrafficIdentity))
    (traffic : List TrafficRow) (d : Direction) :
    Faithful (entries lower identities d traffic) (side (peerMaps lower identities traffic) d) ↔
      ∀ row ∈ entries lower identities d traffic, ∀ row' ∈ entries lower identities d traffic,
        ¬ (resolved row.1).Confused (resolved row'.1) := by
  rw [side_peerMaps]
  exact faithful_collected_iff

/-! A service `a-db` of the namespace `team`, and a service `db` of `team-a`. -/

def serviceAt (ip ns name : String) : ServiceInfo := ⟨ip, some name, some ns, none⟩

def teamServices : Broker where
  pods := KeyedTables.Table.empty
  services := ⟨[serviceAt "10.96.0.20" "team" "a-db", serviceAt "10.96.0.21" "team-a" "db"],
    by decide⟩

def egressTo (ip port : String) : TrafficRow :=
  ⟨some "EGRESS", some "40112", some ip, some port, some "TCP"⟩

def teamTraffic : List TrafficRow := [egressTo "10.96.0.20" "5432", egressTo "10.96.0.21" "3306"]

theorem teamTraffic_not_faithful :
    ¬ Faithful
      (entries asciiLowerCase (identityMap teamServices teamTraffic) .egress teamTraffic)
      (side (peerMaps asciiLowerCase (identityMap teamServices teamTraffic) teamTraffic)
        .egress) := by
  rw [side_peerMaps, faithful_collected_iff]
  intro h
  have hrows : entries asciiLowerCase (identityMap teamServices teamTraffic) .egress teamTraffic =
      [(⟨"10.96.0.20", .service "a-db" (some "team") none⟩, "TCP:5432"),
        (⟨"10.96.0.21", .service "db" (some "team-a") none⟩, "TCP:3306")] := by
    rfl
  rw [hrows] at h
  refine h _ List.mem_cons_self _ (List.mem_cons_of_mem _ List.mem_cons_self) ?_
  exact .inr (.inl ⟨['a'], by decide, by decide⟩)

end KGuardian.PeerKeys
