import KGuardian.DropProbe
import KGuardian.PodReadiness

/-!
The addresses that the probes ignore. The watcher sends the address of a pod that a daemonset
owns, and the poll loop (`controller/src/bpf.rs`) puts one address at a time into the map of the
network probe. The probe for dropped connections consults a map of its own, which nothing is put
into, and nothing is taken out of a map when a pod is gone.
-/
namespace KGuardian.IgnoredAddresses

open InodeOwners NetworkEvents NetworkProbe PodReadiness Runs

/-- The address of a text as a key of the maps: the probes read the bytes of an address in the
order of the host. -/
def ignoreKey (ip : String) : Option (BitVec 32) :=
  match NetAddr.parseAddr ip.toList with
  | some (.v4 bits) => some (fromBe bits)
  | _ => none

/-- The programs that consult a map. Each has its own. -/
inductive Probe where
  | network
  | netpolicyDrop
  deriving DecidableEq

/-- The pods of the node as they are and as they were, the addresses on their way, and the
maps. -/
structure State where
  live : List WatchedPod
  seen : List WatchedPod
  channel : List String
  ignoreIps : Probe → List (BitVec 32)

def maxEntries : ℕ := 10240

def channelSize : ℕ := 1000

inductive Event where
  | changed (p : WatchedPod)
  | deleted (name : String) (ns : Option String)
  | processed (w : Watcher) (index : ℕ)
  | polled (keep : BitVec 32 → Bool)

def isPod (name : String) (ns : Option String) (p : WatchedPod) : Bool :=
  p.pod.name = name && p.pod.ns = ns

/-- An address goes into a map of its program. A full map drops entries. -/
def update (keep : BitVec 32 → Bool) (entries : List (BitVec 32)) (key : BitVec 32) :
    List (BitVec 32) :=
  key :: if entries.length < maxEntries then entries else entries.filter keep

/-- A pod is created or changed, or it is deleted, and its address is free for another one. The
watcher may be told of a pod later than that. An address waits for room in the channel. -/
def step (s : State) : Event → Option State
  | .changed p =>
      some { s with
        live := p :: s.live.filter fun q => !isPod p.pod.name p.pod.ns q
        seen := p :: s.seen }
  | .deleted name ns => some { s with live := s.live.filter fun q => !isPod name ns q }
  | .processed w index =>
      match s.seen[index]? with
      | none => none
      | some p =>
          if s.channel.length < channelSize ∧ w.ignoreDaemonsetTraffic = true then
            some { s with channel := s.channel ++ (processPod w p).ignored.toList }
          else none
  | .polled keep =>
      match s.channel with
      | [] => some s
      | ip :: channel =>
          match ignoreKey ip with
          | none => some { s with channel }
          | some key =>
              some { s with
                channel
                ignoreIps := Function.update s.ignoreIps .network
                  (update keep (s.ignoreIps .network) key) }

def node : Machine State Event := ⟨⟨[], [], [], fun _ => []⟩, step⟩

/-! What should be ignored. -/

/-- The key of the address that a pod has. -/
def keyOf (p : WatchedPod) : Option (BitVec 32) :=
  (p.pod.status.bind PodStatus.podIp).bind ignoreKey

/-- Each probe ignores the addresses of the daemonset pods that live on the node, and no
others. -/
def Accurate (s : State) : Prop :=
  ∀ probe key, key ∈ s.ignoreIps probe ↔
    ∃ p ∈ s.live, isBackedByDaemonset p = true ∧ keyOf p = some key

/-- A step does not send an address that the poll loop would put into a map. -/
def SendsNone (_ : List Event) (s : State) (e : Event) (_ : State) : Prop :=
  match e with
  | .processed w index =>
      ∀ p, s.seen[index]? = some p → (processPod w p).ignored.bind ignoreKey = none
  | _ => True

/-- No daemonset pod that lives on the node has an IPv4 address. -/
def NoneLive (s : State) : Prop := ∀ p ∈ s.live, isBackedByDaemonset p = true → keyOf p = none

/-! Runs. -/

/-- A watcher that ignores daemonsets is told of a pod. Its address is sent, if it has one to
send. -/
theorem step_processed {s s' : State} {w : Watcher} {index : ℕ}
    (h : node.step s (.processed w index) = some s') :
    ∃ p, s.seen[index]? = some p ∧
      (s.channel.length < channelSize ∧ w.ignoreDaemonsetTraffic = true) ∧
      s' = { s with channel := s.channel ++ (processPod w p).ignored.toList } := by
  have hstep : step s (.processed w index) = some s' := h
  unfold step at hstep
  dsimp only at hstep
  cases hseen : s.seen[index]? with
  | none =>
      rw [hseen] at hstep
      cases hstep
  | some p =>
      rw [hseen] at hstep
      obtain ⟨hsends, rfl⟩ := Machine.of_guard hstep
      exact ⟨p, rfl, hsends, rfl⟩

/-- The poll loop finds no address, one that has no key, or one that it puts into its map. -/
theorem step_polled {s s' : State} {keep : BitVec 32 → Bool}
    (h : node.step s (.polled keep) = some s') :
    (s.channel = [] ∧ s' = s) ∨
      ∃ ip channel, s.channel = ip :: channel ∧
        ((ignoreKey ip = none ∧ s' = { s with channel }) ∨
          ∃ key, ignoreKey ip = some key ∧
            s' = { s with
              channel
              ignoreIps := Function.update s.ignoreIps .network
                (update keep (s.ignoreIps .network) key) }) := by
  have hstep : step s (.polled keep) = some s' := h
  unfold step at hstep
  dsimp only at hstep
  cases hchannel : s.channel with
  | nil =>
      rw [hchannel] at hstep
      exact .inl ⟨rfl, (Option.some.inj hstep).symm⟩
  | cons ip channel =>
      rw [hchannel] at hstep
      refine .inr ⟨ip, channel, rfl, ?_⟩
      cases hkey : ignoreKey ip with
      | none =>
          simp only [hkey, Option.some.injEq] at hstep
          exact .inl ⟨rfl, hstep.symm⟩
      | some key =>
          simp only [hkey, Option.some.injEq] at hstep
          exact .inr ⟨key, rfl, hstep.symm⟩

/-- The second map stays empty, and the first one as long as no address is sent. -/
structure Filled (events : List Event) (s : State) : Prop where
  netpolicyDrop : s.ignoreIps .netpolicyDrop = []
  network : (s.ignoreIps .network = [] ∧ ∀ ip ∈ s.channel, ignoreKey ip = none) ↔
    node.EveryStep events SendsNone

theorem filled_start : Filled [] node.init where
  netpolicyDrop := rfl
  network := by
    constructor
    · intro _ before e after s s' hevents
      simp at hevents
    · intro _
      exact ⟨rfl, fun ip hip => absurd hip List.not_mem_nil⟩

/-- A step that leaves the maps and sends nothing. -/
theorem Filled.of_same {events : List Event} {s s' : State} {e : Event} (h : Filled events s)
    (hrun : node.run events = some s) (hstep : node.step s e = some s')
    (hmaps : s'.ignoreIps = s.ignoreIps) (hchannel : s'.channel = s.channel)
    (hnone : SendsNone events s e s') : Filled (events ++ [e]) s' where
  netpolicyDrop := by rw [hmaps, h.netpolicyDrop]
  network := by
    rw [Machine.everyStep_concat_iff hrun hstep, and_iff_left hnone, hmaps, hchannel, h.network]

theorem forall_append_toList_iff (channel : List String) (sent : Option String) :
    (∀ ip ∈ channel ++ sent.toList, ignoreKey ip = none) ↔
      (∀ ip ∈ channel, ignoreKey ip = none) ∧ sent.bind ignoreKey = none := by
  cases sent <;> simp [or_imp, forall_and]

theorem Filled.step {events : List Event} {s s' : State} {e : Event} (h : Filled events s)
    (hrun : node.run events = some s) (hstep : node.step s e = some s') :
    Filled (events ++ [e]) s' := by
  have hlast := Machine.everyStep_concat_iff (P := SendsNone) hrun hstep
  cases e with
  | changed p =>
      obtain rfl := Option.some.inj hstep
      exact h.of_same hrun hstep rfl rfl trivial
  | deleted name ns =>
      obtain rfl := Option.some.inj hstep
      exact h.of_same hrun hstep rfl rfl trivial
  | processed w index =>
      obtain ⟨p, hseen, -, rfl⟩ := step_processed hstep
      refine ⟨h.netpolicyDrop, ?_⟩
      rw [hlast, ← h.network, forall_append_toList_iff]
      simp only [SendsNone, hseen, Option.some.injEq, forall_eq']
      exact (and_assoc).symm
  | polled keep =>
      obtain ⟨-, rfl⟩ | ⟨ip, channel, hchannel, hread⟩ := step_polled hstep
      · exact h.of_same hrun hstep rfl rfl trivial
      have hpolled (t : State) : SendsNone events s (.polled keep) t := trivial
      have hnetwork := h.network
      rw [hchannel, List.forall_mem_cons] at hnetwork
      obtain ⟨hkey, rfl⟩ | ⟨key, hkey, rfl⟩ := hread
      · refine ⟨h.netpolicyDrop, ?_⟩
        rw [hlast, and_iff_left (hpolled _), ← hnetwork, and_iff_right hkey]
      · -- The address that is read now was sent, and its entry is there afterwards.
        refine ⟨by simpa using h.netpolicyDrop, ?_⟩
        rw [hlast, and_iff_left (hpolled _), ← hnetwork, hkey]
        simp [IgnoredAddresses.update]

theorem filled {events : List Event} {s : State} (h : node.run events = some s) :
    Filled events s :=
  Machine.invariant filled_start (fun _ _ _ _ hrun hfilled hstep => hfilled.step hrun hstep) h

/-- With accurate maps every probe filters the traffic of the daemonset pods that live on the
node, and of no others, apart from addresses that none of them looks up. -/
theorem shouldFilterTraffic_iff_of_accurate {s : State} (h : Accurate s) (probe : Probe)
    {maps : ProbeState} (hmaps : maps.ignoreIps = s.ignoreIps probe) {saddr daddr : BitVec 32}
    (hne : saddr ≠ daddr) (hsource : saddr ≠ 0x0100007F#32 ∧ saddr ≠ 0#32)
    (hdest : daddr ≠ 0x0100007F#32 ∧ daddr ≠ 0#32) :
    shouldFilterTraffic maps saddr daddr = true ↔
      ∃ p ∈ s.live, isBackedByDaemonset p = true ∧
        (keyOf p = some saddr ∨ keyOf p = some daddr) := by
  have hlookup : shouldFilterTraffic maps saddr daddr = true ↔
      saddr ∈ s.ignoreIps probe ∨ daddr ∈ s.ignoreIps probe := by
    rw [shouldFilterTraffic, hmaps]
    simp [hne, hsource, hdest]
  rw [hlookup, h probe saddr, h probe daddr]
  constructor
  · rintro (⟨p, hp, hdaemonset, hkey⟩ | ⟨p, hp, hdaemonset, hkey⟩)
    · exact ⟨p, hp, hdaemonset, .inl hkey⟩
    · exact ⟨p, hp, hdaemonset, .inr hkey⟩
  · rintro ⟨p, hp, hdaemonset, hkey | hkey⟩
    · exact .inl ⟨p, hp, hdaemonset, hkey⟩
    · exact .inr ⟨p, hp, hdaemonset, hkey⟩

/-- When every address has been handled, the maps are accurate exactly when no address was sent
and no daemonset pod has one. -/
theorem accurate_iff {events : List Event} {s : State} (h : node.run events = some s)
    (hdone : s.channel = []) :
    Accurate s ↔ node.EveryStep events SendsNone ∧ NoneLive s := by
  have hfilled := filled h
  have hnetwork := hfilled.network
  rw [hdone] at hnetwork
  have hempty : s.ignoreIps .network = [] ↔ node.EveryStep events SendsNone := by
    rw [← hnetwork]
    exact (and_iff_left fun ip hip => absurd hip List.not_mem_nil).symm
  rw [← hempty]
  constructor
  · intro haccurate
    have hnone : NoneLive s := by
      intro p hp hdaemonset
      cases hkey : keyOf p with
      | none => rfl
      | some key =>
          have hmem := (haccurate .netpolicyDrop key).mpr ⟨p, hp, hdaemonset, hkey⟩
          rw [hfilled.netpolicyDrop] at hmem
          exact absurd hmem List.not_mem_nil
    refine ⟨List.eq_nil_iff_forall_not_mem.mpr fun key hkey => ?_, hnone⟩
    obtain ⟨p, hp, hdaemonset, howns⟩ := (haccurate .network key).mp hkey
    rw [hnone p hp hdaemonset] at howns
    cases howns
  · rintro ⟨hmap, hnone⟩ probe key
    have hprobe : s.ignoreIps probe = [] := by
      cases probe with
      | network => exact hmap
      | netpolicyDrop => exact hfilled.netpolicyDrop
    rw [hprobe]
    constructor
    · intro hkey
      exact absurd hkey List.not_mem_nil
    · rintro ⟨p, hp, hdaemonset, howns⟩
      rw [hnone p hp hdaemonset] at howns
      cases howns

/-! A daemonset pod whose address a pod of a deployment has later. -/

def readyPod (name podIp kind : String) : WatchedPod where
  pod :=
    { name := name
      ns := some "shop"
      status := some
        { conditions := some [⟨"Ready", "True", none⟩]
          containerStatuses := some [some "containerd://5f2c"]
          podIp := some podIp } }
  ownerKinds := some [kind]
  identity := none
  workloadSelectorLabels := none
  object := .null

/-- On a node without daemonset pods the maps are accurate. -/
theorem ordinaryPod_accurate :
    Accurate ⟨[readyPod "web-0" "10.0.0.5" "ReplicaSet"],
      [readyPod "web-0" "10.0.0.5" "ReplicaSet"], [], fun _ => []⟩ := by
  have hrun : node.run [.changed (readyPod "web-0" "10.0.0.5" "ReplicaSet")] =
      some ⟨[readyPod "web-0" "10.0.0.5" "ReplicaSet"],
        [readyPod "web-0" "10.0.0.5" "ReplicaSet"], [], fun _ => []⟩ := rfl
  refine (accurate_iff hrun rfl).mpr ⟨?_, ?_⟩
  · intro before e after s s' hevents hbefore hstep
    cases before with
    | nil =>
        obtain ⟨rfl, -⟩ := List.cons.inj hevents
        trivial
    | cons first before => simp at hevents
  · intro p hp hdaemonset
    rw [List.mem_singleton.mp hp] at hdaemonset
    exact absurd hdaemonset (by decide)

theorem reusedAddress_not_accurate :
    ¬ ∀ events s, node.run events = some s → s.channel = [] → Accurate s := by
  intro h
  let proxy := readyPod "kube-proxy-8x2lq" "10.0.0.5" "DaemonSet"
  let web := readyPod "web-0" "10.0.0.5" "ReplicaSet"
  have hrun : node.run [.changed proxy, .processed watcher 0, .polled fun _ => true,
      .deleted "kube-proxy-8x2lq" (some "shop"), .changed web] =
      some ⟨[web], [web, proxy], [],
        Function.update (fun _ => []) .network [fromBe 0x0A000005#32]⟩ := by
    rfl
  obtain ⟨p, hp, hdaemonset, -⟩ :=
    (h _ _ hrun rfl .network (fromBe 0x0A000005#32)).mp List.mem_cons_self
  rw [List.mem_singleton.mp hp] at hdaemonset
  exact absurd hdaemonset (by decide)

end KGuardian.IgnoredAddresses
