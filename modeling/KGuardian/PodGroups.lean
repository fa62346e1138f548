import KGuardian.ConcurrencyLimit
import KGuardian.FrontendPolicy

/-!
The pods of a namespace as the frontend shows them (`fetchPodData` in
`frontend/src/hooks/usePodData.ts`): one node for each identity, with what the broker answers about
the pods of that identity. Groups are fetched side by side, and so are the pods of a group. A
request that fails counts as one that is answered with nothing, so no task is rejected.
-/
namespace KGuardian.PodGroups

open Runs ConcurrencyLimit SortedGroups

/-! Groups in the order in which their keys come first. -/

section Groups

variable {κ α : Type*} [DecidableEq κ]

/-- Adds an element to the group of its key, which may be new. -/
def push (k : κ) (a : α) : List (κ × List α) → List (κ × List α)
  | [] => [(k, [a])]
  | g :: rest => if g.1 = k then (g.1, g.2 ++ [a]) :: rest else g :: push k a rest

def groupBy (key : α → κ) (l : List α) : List (κ × List α) :=
  l.foldl (fun groups a => push (key a) a groups) []

theorem push_map (k : κ) (a : α) (keys : List κ) (members : κ → List α) (hnodup : keys.Nodup)
    (hnew : k ∉ keys → members k = []) :
    push k a (keys.map fun k' => (k', members k')) =
      (if k ∈ keys then keys else keys ++ [k]).map fun k' =>
        (k', members k' ++ if k' = k then [a] else []) := by
  induction keys with
  | nil => simp [push, hnew]
  | cons k' rest ih =>
      obtain ⟨hfirst, hrest⟩ := List.nodup_cons.mp hnodup
      by_cases hk : k' = k
      · subst hk
        have hsame : (rest.map fun k => (k, members k ++ if k = k' then [a] else [])) =
            rest.map fun k => (k, members k) := by
          refine List.map_congr_left fun k hmem => ?_
          have hne : k ≠ k' := fun heq => hfirst (heq ▸ hmem)
          rw [if_neg hne, List.append_nil]
        rw [if_pos List.mem_cons_self, List.map_cons, List.map_cons, push, if_pos rfl, hsame,
          if_pos rfl]
      · have hmem : k ∈ k' :: rest ↔ k ∈ rest := by simp [Ne.symm hk]
        rw [List.map_cons, push, if_neg hk, ih hrest fun hnot => hnew (hmem.not.mpr hnot)]
        by_cases hin : k ∈ rest
        · rw [if_pos hin, if_pos (hmem.mpr hin), List.map_cons, if_neg hk, List.append_nil]
        · rw [if_neg hin, if_neg (hmem.not.mpr hin), List.cons_append, List.map_cons, if_neg hk,
            List.append_nil]

/-- The groups are the distinct keys in order, each with the elements of that key in order. -/
theorem groupBy_eq (key : α → κ) (l : List α) :
    groupBy key l = (l.map key).eraseDups.map fun k => (k, l.filter fun a => key a = k) := by
  induction l using List.reverseRecOn with
  | nil => rfl
  | append_singleton l a ih =>
      have hnew : key a ∉ (l.map key).eraseDups → (l.filter fun b => key b = key a) = [] := by
        intro hnot
        rw [List.filter_eq_nil_iff]
        intro b hb
        have hne : key b ≠ key a := by
          intro heq
          exact hnot (List.mem_eraseDups.mpr (heq ▸ List.mem_map_of_mem hb))
        simpa using hne
      rw [groupBy, List.foldl_concat, ← groupBy, ih, push_map _ _ _ _ (nodup_eraseDups _) hnew,
        List.map_append, List.map_singleton, eraseDups_concat]
      have hmem : key a ∈ (l.map key).eraseDups ↔ key a ∈ l.map key := List.mem_eraseDups
      simp only [hmem]
      refine List.map_congr_left fun k _ => ?_
      rw [List.filter_append]
      by_cases hk : k = key a
      · subst hk
        simp
      · have hother : key a ≠ k := Ne.symm hk
        simp [hk, hother]

theorem mem_groupBy {key : α → κ} {l : List α} {k : κ} {group : List α} :
    (k, group) ∈ groupBy key l ↔ (∃ a ∈ l, key a = k) ∧ group = l.filter fun a => key a = k := by
  rw [groupBy_eq, List.mem_map]
  constructor
  · rintro ⟨k', hk', heq⟩
    cases heq
    exact ⟨List.mem_map.mp (List.mem_eraseDups.mp hk'), rfl⟩
  · rintro ⟨⟨a, ha, hkey⟩, rfl⟩
    exact ⟨k, List.mem_eraseDups.mpr (List.mem_map.mpr ⟨a, ha, hkey⟩), rfl⟩

theorem eraseDups_map {β : Type*} [DecidableEq β] (f : β → κ) (hf : Function.Injective f)
    (l : List β) : (l.map f).eraseDups = l.eraseDups.map f := by
  induction l using List.reverseRecOn with
  | nil => rfl
  | append_singleton l b ih =>
      rw [List.map_append, List.map_singleton, eraseDups_concat, eraseDups_concat, ih]
      by_cases hb : b ∈ l
      · rw [if_pos hb, if_pos (List.mem_map_of_mem hb)]
      · have hnot : f b ∉ l.map f := by
          intro hmem
          obtain ⟨b', hb', heq⟩ := List.mem_map.mp hmem
          exact hb (hf heq ▸ hb')
        rw [if_neg hb, if_neg hnot, List.map_append, List.map_singleton]

end Groups

/-! The pods. -/

structure PodRow extends FrontendPolicy.PodInfo where
  isDead : Bool

/-- The identity of a pod, or its name where it has none. -/
def identityOf (pod : PodRow) : String :=
  match pod.podIdentity with
  | some identity => if identity = "" then pod.podName else identity
  | none => pod.podName

def activePods (ns : String) (allPods : List PodRow) : List PodRow :=
  allPods.filter fun pod => pod.podNamespace = some ns && !pod.isDead

def groupKey (pod : PodRow) : String := pod.podNamespace.getD "null" ++ "-" ++ identityOf pod

def podsByIdentity (ns : String) (allPods : List PodRow) : List (String × List PodRow) :=
  groupBy groupKey (activePods ns allPods)

/-- The identities of the active pods, in the order of the pods. -/
def identities (ns : String) (allPods : List PodRow) : List String :=
  ((activePods ns allPods).map identityOf).eraseDups

/-- The key of a group stands for the identity alone, since the namespace is that of the page. -/
theorem podsByIdentity_eq (ns : String) (allPods : List PodRow) :
    podsByIdentity ns allPods = (identities ns allPods).map fun identity =>
      (ns ++ "-" ++ identity,
        (activePods ns allPods).filter fun pod => identityOf pod = identity) := by
  have hinjective : Function.Injective fun identity => ns ++ "-" ++ identity := by
    intro a b heq
    have hlists := congrArg String.toList heq
    simp only [String.toList_append, List.append_cancel_left_eq] at hlists
    exact String.toList_injective hlists
  have hkey : ∀ pod ∈ activePods ns allPods, groupKey pod = ns ++ "-" ++ identityOf pod := by
    intro pod hpod
    have hactive := (List.mem_filter.mp hpod).2
    simp only [Bool.and_eq_true, decide_eq_true_eq] at hactive
    rw [groupKey, hactive.1]
    rfl
  have hkeys : (activePods ns allPods).map groupKey =
      ((activePods ns allPods).map identityOf).map fun identity => ns ++ "-" ++ identity := by
    rw [List.map_map]
    exact List.map_congr_left hkey
  rw [podsByIdentity, groupBy_eq, hkeys, eraseDups_map _ hinjective, List.map_map, identities]
  refine List.map_congr_left fun identity _ => ?_
  refine Prod.ext rfl (List.filter_congr fun pod hpod => ?_)
  rw [hkey pod hpod]
  exact decide_eq_decide.mpr hinjective.eq_iff

/-- What the graph shows for an identity, with the rows of its pods. -/
structure PodNode (τ σ : Type*) where
  id : String
  label : String
  pod : PodRow
  pods : List PodRow
  traffic : List τ
  syscalls : Option (List σ)

variable {τ σ : Type*}

def merged {β : Type*} (size : ℕ) (p : Pool (List β) Empty) : List β :=
  (List.range size).flatMap fun i => (p.results i).getD []

def nodeOf (key : String) (primary : PodRow) (pods : List PodRow) (traffic : List τ)
    (syscalls : List σ) : PodNode τ σ where
  id := key
  label := identityOf primary
  pod := primary
  pods
  traffic
  syscalls := if syscalls.length > 0 then some syscalls else none

structure Fetch (τ σ : Type*) where
  outer : Pool (PodNode τ σ) Empty
  traffic : ℕ → Pool (List τ) Empty
  syscalls : ℕ → Pool (List σ) Empty

inductive Step (τ σ : Type*) where
  | traffic (group : ℕ) (e : Event (List τ) Empty)
  | syscalls (group : ℕ) (e : Event (List σ) Empty)
  | grouped (group : ℕ)
  | resumed

def limit : ℕ := 10

def hasReturned {β : Type*} (p : Pool β Empty) : Bool :=
  match p.phase with
  | .returned => true
  | _ => false

section Machine

variable (groups : List (String × List PodRow))

def sizeOf (group : ℕ) : ℕ := ((groups[group]?).map fun g => g.2.length).getD 0

/-- A task of the outer call makes its requests once it is started. -/
def step (s : Fetch τ σ) : Step τ σ → Option (Fetch τ σ)
  | .traffic group e =>
      if group ∈ s.outer.inFlight then
        ((withConcurrencyLimit limit (sizeOf groups group)).step (s.traffic group) e).map fun p =>
          { s with traffic := Function.update s.traffic group p }
      else none
  | .syscalls group e =>
      if group ∈ s.outer.inFlight then
        ((withConcurrencyLimit limit (sizeOf groups group)).step (s.syscalls group) e).map fun p =>
          { s with syscalls := Function.update s.syscalls group p }
      else none
  | .grouped group =>
      match groups[group]? with
      | some (key, primary :: rest) =>
          if hasReturned (s.traffic group) && hasReturned (s.syscalls group) then
            let size := (primary :: rest).length
            let node := nodeOf key primary (primary :: rest) (merged size (s.traffic group))
              (merged size (s.syscalls group))
            ((withConcurrencyLimit limit groups.length).step s.outer
              (.settled group (.ok node))).map fun outer => { s with outer }
          else none
      | _ => none
  | .resumed =>
      ((withConcurrencyLimit limit groups.length).step s.outer .resumed).map fun outer =>
        { s with outer }

def machine : Machine (Fetch τ σ) (Step τ σ) where
  init :=
    { outer := (withConcurrencyLimit limit groups.length).init
      traffic := fun group => (withConcurrencyLimit limit (sizeOf groups group)).init
      syscalls := fun group => (withConcurrencyLimit limit (sizeOf groups group)).init }
  step := step groups

end Machine

/-! What every moment of a fetch keeps. -/

/-- The requests of one kind that a group has made or seen answered. -/
def Step.ofTraffic (group : ℕ) : Step τ σ → Option (Event (List τ) Empty)
  | .traffic g e => if g = group then some e else none
  | _ => none

def Step.ofSyscalls (group : ℕ) : Step τ σ → Option (Event (List σ) Empty)
  | .syscalls g e => if g = group then some e else none
  | _ => none

/-- The rows are the answers about the pods of the group, one after the other. -/
def Answers {β : Type*} (events : List (Event (List β) Empty)) (size : ℕ) (rows : List β) : Prop :=
  ∃ answers : ℕ → List β, (∀ i < size, .settled i (.ok (answers i)) ∈ events) ∧
    rows = (List.range size).flatMap answers

/-- A node is made of the answers about its pods. -/
structure NodeOf (steps : List (Step τ σ)) (group : ℕ) (key : String) (pods : List PodRow)
    (node : PodNode τ σ) : Prop where
  id : node.id = key
  members : node.pods = pods
  primary : pods.head? = some node.pod
  label : node.label = identityOf node.pod
  traffic : Answers (steps.filterMap (Step.ofTraffic group)) pods.length node.traffic
  syscalls : Answers (steps.filterMap (Step.ofSyscalls group)) pods.length (node.syscalls.getD [])

structure Kept (groups : List (String × List PodRow)) (steps : List (Step τ σ)) (s : Fetch τ σ) :
    Prop where
  traffic : ∀ group, (withConcurrencyLimit limit (sizeOf groups group)).run
    (steps.filterMap (Step.ofTraffic group)) = some (s.traffic group)
  syscalls : ∀ group, (withConcurrencyLimit limit (sizeOf groups group)).run
    (steps.filterMap (Step.ofSyscalls group)) = some (s.syscalls group)
  outer : ∃ events, (withConcurrencyLimit limit groups.length).run events = some s.outer ∧
    ∀ group node, .settled group (.ok node) ∈ events → ∃ key pods, groups[group]? =
      some (key, pods) ∧ NodeOf steps group key pods node

section Runs

variable {groups : List (String × List PodRow)} {steps : List (Step τ σ)} {s s' : Fetch τ σ}
  {x : Step τ σ}

theorem filterMap_concat {γ δ : Type*} (f : γ → Option δ) (l : List γ) (a : γ) :
    (l ++ [a]).filterMap f = l.filterMap f ++ (f a).toList := by
  rw [List.filterMap_append]
  cases h : f a <;> simp [h]

theorem Answers.mono {β : Type*} {events events' : List (Event (List β) Empty)} {size : ℕ}
    {rows : List β} (h : Answers events size rows) (hsub : events ⊆ events') :
    Answers events' size rows := by
  obtain ⟨answers, hanswers, hrows⟩ := h
  exact ⟨answers, fun i hi => hsub (hanswers i hi), hrows⟩

theorem NodeOf.mono {group : ℕ} {key : String} {pods : List PodRow} {node : PodNode τ σ}
    (h : NodeOf steps group key pods node) : NodeOf (steps ++ [x]) group key pods node where
  id := h.id
  members := h.members
  primary := h.primary
  label := h.label
  traffic := h.traffic.mono (filterMap_concat _ steps x ▸ List.subset_append_left _ _)
  syscalls := h.syscalls.mono (filterMap_concat _ steps x ▸ List.subset_append_left _ _)

theorem hasReturned_iff {β : Type*} (p : Pool β Empty) :
    hasReturned p = true ↔ p.phase = .returned := by
  rw [hasReturned]
  split
  · rename_i h
    exact iff_of_true rfl h
  · rename_i h
    exact iff_of_false Bool.false_ne_true h

/-- The rows that a call returns are the answers to its requests. -/
theorem answers_merged {β : Type*} {size : ℕ} {events : List (Event (List β) Empty)}
    {p : Pool (List β) Empty} (hrun : (withConcurrencyLimit limit size).run events = some p)
    (hreturned : hasReturned p = true) : Answers events size (merged size p) := by
  obtain ⟨htracked, hconsistent⟩ := kept_run hrun
  obtain ⟨-, hall⟩ := (obeys_of_kept htracked hconsistent).answers
    ((hasReturned_iff p).mp hreturned)
  refine ⟨fun i => (p.results i).getD [], fun i hi => ?_, rfl⟩
  obtain ⟨r, hmem, hresult⟩ := hall i hi
  simpa only [hresult, Option.getD_some] using hmem

theorem nodeOf_spec {group : ℕ} {key : String} {primary : PodRow} {rest : List PodRow}
    {traffic : List τ} {syscalls : List σ}
    (htraffic : Answers (steps.filterMap (Step.ofTraffic group)) (primary :: rest).length traffic)
    (hsyscalls : Answers (steps.filterMap (Step.ofSyscalls group)) (primary :: rest).length
      syscalls) :
    NodeOf steps group key (primary :: rest)
      (nodeOf key primary (primary :: rest) traffic syscalls) := by
  refine ⟨rfl, rfl, rfl, rfl, htraffic, ?_⟩
  have hsame : (nodeOf key primary (primary :: rest) traffic syscalls).syscalls.getD [] =
      syscalls := by
    cases syscalls <;> rfl
  rw [hsame]
  exact hsyscalls

/-- A request of one kind moves one call of that kind. -/
theorem run_update {β : Type*} {size : ℕ → ℕ} {pools : ℕ → Pool (List β) Empty}
    {history : ℕ → List (Event (List β) Empty)}
    (h : ∀ g, (withConcurrencyLimit limit (size g)).run (history g) = some (pools g)) {group : ℕ}
    {e : Event (List β) Empty} {p : Pool (List β) Empty}
    (hstep : (withConcurrencyLimit limit (size group)).step (pools group) e = some p) (g : ℕ) :
    (withConcurrencyLimit limit (size g)).run
        (history g ++ (if group = g then some e else none).toList) =
      some (Function.update pools group p g) := by
  by_cases hg : group = g
  · subst hg
    rw [if_pos rfl, Function.update_self]
    exact Machine.run_concat_eq_some_iff.mpr ⟨_, h group, hstep⟩
  · rw [if_neg hg, Function.update_of_ne (Ne.symm hg), Option.toList_none, List.append_nil]
    exact h g

theorem kept_init : Kept groups ([] : List (Step τ σ)) (machine groups).init := by
  refine ⟨fun _ => rfl, fun _ => rfl, [], rfl, ?_⟩
  intro group node hmem
  exact absurd hmem List.not_mem_nil

theorem Kept.step (h : Kept groups steps s) (hstep : step groups s x = some s') :
    Kept groups (steps ++ [x]) s' := by
  obtain ⟨events, hrun, hnodes⟩ := h.outer
  have hkept (group : ℕ) (node : PodNode τ σ) (hmem : .settled group (.ok node) ∈ events) :
      ∃ key pods, groups[group]? = some (key, pods) ∧
        NodeOf (steps ++ [x]) group key pods node := by
    obtain ⟨key, pods, hgroup, hnode⟩ := hnodes group node hmem
    exact ⟨key, pods, hgroup, hnode.mono⟩
  have hquietTraffic (hx : ∀ g, Step.ofTraffic g x = none) (g : ℕ) :
      (withConcurrencyLimit limit (sizeOf groups g)).run
        ((steps ++ [x]).filterMap (Step.ofTraffic g)) = some (s.traffic g) := by
    rw [filterMap_concat, hx, Option.toList_none, List.append_nil]
    exact h.traffic g
  have hquietSyscalls (hx : ∀ g, Step.ofSyscalls g x = none) (g : ℕ) :
      (withConcurrencyLimit limit (sizeOf groups g)).run
        ((steps ++ [x]).filterMap (Step.ofSyscalls g)) = some (s.syscalls g) := by
    rw [filterMap_concat, hx, Option.toList_none, List.append_nil]
    exact h.syscalls g
  cases x with
  | traffic group e =>
      obtain ⟨-, hmoved⟩ := Option.ite_none_right_eq_some.mp hstep
      obtain ⟨p, hp, rfl⟩ := Option.map_eq_some_iff.mp hmoved
      refine ⟨fun g => ?_, hquietSyscalls fun _ => rfl, events, hrun, hkept⟩
      rw [filterMap_concat]
      exact run_update h.traffic hp g
  | syscalls group e =>
      obtain ⟨-, hmoved⟩ := Option.ite_none_right_eq_some.mp hstep
      obtain ⟨p, hp, rfl⟩ := Option.map_eq_some_iff.mp hmoved
      refine ⟨hquietTraffic fun _ => rfl, fun g => ?_, events, hrun, hkept⟩
      rw [filterMap_concat]
      exact run_update h.syscalls hp g
  | grouped group =>
      simp only [PodGroups.step] at hstep
      split at hstep
      · rename_i key primary rest hgroup
        obtain ⟨hboth, hmoved⟩ := Option.ite_none_right_eq_some.mp hstep
        obtain ⟨hdoneTraffic, hdoneSyscalls⟩ := Bool.and_eq_true_iff.mp hboth
        obtain ⟨outer, houter, rfl⟩ := Option.map_eq_some_iff.mp hmoved
        have hsize : sizeOf groups group = (primary :: rest).length := by
          rw [sizeOf, hgroup]
          rfl
        have htraffic := answers_merged (h.traffic group) hdoneTraffic
        have hsyscalls := answers_merged (h.syscalls group) hdoneSyscalls
        rw [hsize] at htraffic hsyscalls
        refine ⟨hquietTraffic fun _ => rfl, hquietSyscalls fun _ => rfl, _,
          Machine.run_concat_eq_some_iff.mpr ⟨_, hrun, houter⟩, ?_⟩
        intro group' node hmem
        rcases List.mem_append.mp hmem with hold | hnew
        · exact hkept group' node hold
        · have heq := List.mem_singleton.mp hnew
          simp only [Event.settled.injEq, Except.ok.injEq] at heq
          obtain ⟨rfl, rfl⟩ := heq
          exact ⟨key, primary :: rest, hgroup, (nodeOf_spec htraffic hsyscalls).mono⟩
      · cases hstep
  | resumed =>
      obtain ⟨outer, houter, rfl⟩ := Option.map_eq_some_iff.mp hstep
      refine ⟨hquietTraffic fun _ => rfl, hquietSyscalls fun _ => rfl, _,
        Machine.run_concat_eq_some_iff.mpr ⟨_, hrun, houter⟩, ?_⟩
      intro group node hmem
      rcases List.mem_append.mp hmem with hold | hnew
      · exact hkept group node hold
      · cases List.mem_singleton.mp hnew

theorem kept_of_run (h : (machine groups).run steps = some s) : Kept groups steps s := by
  refine Machine.invariant (P := Kept groups) kept_init ?_ h
  intro steps s x s' _ hkept hstep
  exact hkept.step hstep

end Runs

/-! What the page shows. -/

def openRequests (s : Fetch τ σ) : ℕ :=
  (s.outer.inFlight.map fun group =>
    (s.traffic group).inFlight.length + (s.syscalls group).inFlight.length).sum

/-- A step that no request has to be answered for. -/
def Internal : Step τ σ → Prop
  | .traffic _ e => e = .resumed
  | .syscalls _ e => e = .resumed
  | _ => True

/-- While a fetch goes on, a bounded number of requests is open. When it is done there is a node
for each identity, and until then it waits for an answer or moves by itself. -/
structure Shows (ns : String) (allPods : List PodRow) (steps : List (Step τ σ)) (s : Fetch τ σ) :
    Prop where
  requests : openRequests s ≤ limit * (2 * limit)
  nodes : s.outer.phase = .returned → ∀ i identity, (identities ns allPods)[i]? = some identity →
    ∃ node, s.outer.results i = some node ∧ node.label = identity ∧
      NodeOf steps i (ns ++ "-" ++ identity)
        ((activePods ns allPods).filter fun pod => identityOf pod = identity) node
  moves : ¬ s.outer.Ended → 0 < openRequests s ∨
    ∃ x s', Internal x ∧ step (podsByIdentity ns allPods) s x = some s'

section Results

variable {groups : List (String × List PodRow)} {steps : List (Step τ σ)} {s : Fetch τ σ}

theorem length_inFlight_le {β : Type*} {size : ℕ} {events : List (Event β Empty)}
    {p : Pool β Empty} (h : (withConcurrencyLimit limit size).run events = some p) :
    p.inFlight.length ≤ limit := by
  obtain ⟨htracked, hconsistent⟩ := kept_run h
  have hbounded := (obeys_of_kept htracked hconsistent).bounded
  have hmax : max limit 1 = limit := rfl
  rwa [hmax] at hbounded

theorem openRequests_le (h : Kept groups steps s) : openRequests s ≤ limit * (2 * limit) := by
  obtain ⟨events, hrun, -⟩ := h.outer
  have heach : ∀ n ∈ s.outer.inFlight.map fun group =>
      (s.traffic group).inFlight.length + (s.syscalls group).inFlight.length, n ≤ 2 * limit := by
    intro n hn
    obtain ⟨group, -, rfl⟩ := List.mem_map.mp hn
    have htraffic := length_inFlight_le (h.traffic group)
    have hsyscalls := length_inFlight_le (h.syscalls group)
    omega
  have hsum := List.sum_le_card_nsmul _ _ heach
  rw [List.length_map, smul_eq_mul] at hsum
  exact hsum.trans (Nat.mul_le_mul_right _ (length_inFlight_le hrun))

/-- A call of a group that is not done waits for an answer or goes on. -/
theorem moves_of_open {β : Type*} {size : ℕ} {events : List (Event (List β) Empty)}
    {p : Pool (List β) Empty} (h : (withConcurrencyLimit limit size).run events = some p)
    (hopen : hasReturned p = false) :
    0 < p.inFlight.length ∨ ∃ p', (withConcurrencyLimit limit size).step p .resumed = some p' := by
  obtain ⟨htracked, hconsistent⟩ := kept_run h
  have hended : ¬ p.Ended := by
    rintro (hreturned | ⟨e, -⟩)
    · rw [(hasReturned_iff p).mpr hreturned] at hopen
      cases hopen
    · exact e.elim
  exact ((obeys_of_kept htracked hconsistent).moves hended).imp_left fun ⟨i, hi⟩ =>
    List.length_pos_of_mem hi

theorem openRequests_pos {group : ℕ} (hgroup : group ∈ s.outer.inFlight)
    (h : 0 < (s.traffic group).inFlight.length + (s.syscalls group).inFlight.length) :
    0 < openRequests s := by
  let openOf (group : ℕ) := (s.traffic group).inFlight.length + (s.syscalls group).inFlight.length
  have hmem : openOf group ∈ s.outer.inFlight.map openOf := List.mem_map_of_mem hgroup
  exact h.trans_le (List.single_le_sum (fun _ _ => Nat.zero_le _) _ hmem)

theorem moves_of_kept (h : Kept groups steps s) (hgroups : ∀ g ∈ groups, g.2 ≠ [])
    (hended : ¬ s.outer.Ended) :
    0 < openRequests s ∨ ∃ x s', Internal x ∧ step groups s x = some s' := by
  obtain ⟨events, hrun, -⟩ := h.outer
  obtain ⟨htracked, hconsistent⟩ := kept_run hrun
  rcases (obeys_of_kept htracked hconsistent).moves hended with ⟨group, hgroup⟩ | ⟨outer, houter⟩
  · cases htraffic : hasReturned (s.traffic group) with
    | false =>
        rcases moves_of_open (h.traffic group) htraffic with hpos | ⟨p, hp⟩
        · exact Or.inl (openRequests_pos hgroup (Nat.add_pos_left hpos _))
        · refine Or.inr ⟨.traffic group .resumed,
            { s with traffic := Function.update s.traffic group p }, rfl, ?_⟩
          rw [step, if_pos hgroup, hp]
          rfl
    | true =>
        cases hsyscalls : hasReturned (s.syscalls group) with
        | false =>
            rcases moves_of_open (h.syscalls group) hsyscalls with hpos | ⟨p, hp⟩
            · exact Or.inl (openRequests_pos hgroup (Nat.add_pos_right _ hpos))
            · refine Or.inr ⟨.syscalls group .resumed,
            { s with syscalls := Function.update s.syscalls group p }, rfl, ?_⟩
              rw [step, if_pos hgroup, hp]
              rfl
        | true =>
            have hlt : group < groups.length :=
              lt_of_lt_of_le ((htracked.running group).mp (mem_inFlight.mp hgroup).1).1
                htracked.started_le
            have hsome := List.getElem?_eq_getElem hlt
            have hne := hgroups _ (List.getElem_mem hlt)
            obtain ⟨primary, rest, hpods⟩ := List.exists_cons_of_ne_nil hne
            have hat : groups[group]? = some (groups[group].1, primary :: rest) := by
              rw [hsome, ← hpods]
            have hsettled (node : PodNode τ σ) :
                (withConcurrencyLimit limit groups.length).step s.outer
                  (.settled group (.ok node)) = some (settle s.outer group (.ok node)) :=
              if_pos hgroup
            have hstep : ∃ s', step groups s (.grouped group) = some s' := by
              simp only [step, hat, htraffic, hsyscalls, Bool.and_self, if_true, hsettled,
                Option.map_some]
              exact ⟨_, rfl⟩
            obtain ⟨s', hs'⟩ := hstep
            exact Or.inr ⟨.grouped group, s', trivial, hs'⟩
  · refine Or.inr ⟨.resumed, { s with outer }, trivial, ?_⟩
    exact Option.map_eq_some_iff.mpr ⟨outer, houter, rfl⟩

theorem podsByIdentity_ne_nil (ns : String) (allPods : List PodRow) :
    ∀ g ∈ podsByIdentity ns allPods, g.2 ≠ [] := by
  intro g hg
  rw [podsByIdentity_eq] at hg
  obtain ⟨identity, hidentity, rfl⟩ := List.mem_map.mp hg
  obtain ⟨pod, hpod, hsame⟩ := List.mem_map.mp (List.mem_eraseDups.mp hidentity)
  exact List.ne_nil_of_mem (List.mem_filter.mpr ⟨hpod, by simpa using hsame⟩)

/-- Whatever order the answers come in, the page ends up with one node for each identity of the
namespace, with all of its active pods and all that was answered about them. -/
theorem fetchPodData_shows (ns : String) (allPods : List PodRow)
    (h : (machine (podsByIdentity ns allPods)).run steps = some s) : Shows ns allPods steps s := by
  have hkept := kept_of_run h
  refine ⟨openRequests_le hkept, ?_, moves_of_kept hkept (podsByIdentity_ne_nil ns allPods)⟩
  intro hreturned i identity hidentity
  obtain ⟨events, hrun, hnodes⟩ := hkept.outer
  obtain ⟨htracked, hconsistent⟩ := kept_run hrun
  have hgroup : (podsByIdentity ns allPods)[i]? = some (ns ++ "-" ++ identity,
      (activePods ns allPods).filter fun pod => identityOf pod = identity) := by
    rw [podsByIdentity_eq, List.getElem?_map, hidentity]
    rfl
  have hlt := (List.getElem?_eq_some_iff.mp hgroup).1
  obtain ⟨node, hmem, hresult⟩ := ((obeys_of_kept htracked hconsistent).answers hreturned).2 i hlt
  obtain ⟨key, pods, hsame, hnode⟩ := hnodes i node hmem
  obtain ⟨rfl, rfl⟩ := Prod.mk.inj (Option.some.inj (hgroup.symm.trans hsame))
  have hpod := (List.mem_filter.mp (List.mem_of_head? hnode.primary)).2
  refine ⟨node, hresult, ?_, hnode⟩
  rw [hnode.label]
  simpa using hpod

end Results

/-! Two pods of one workload, and two pods that are not shown. -/

def podRow (ns name : String) (identity : Option String) (isDead : Bool) : PodRow where
  podName := name
  podIp := "10.0.0.7"
  podNamespace := some ns
  labels := none
  podIdentity := identity
  workloadSelectorLabels := none
  isDead

def shopPods : List PodRow :=
  [podRow "shop" "web-0" (some "web") false, podRow "test" "web-0" (some "web") false,
    podRow "shop" "web-1" (some "web") false, podRow "shop" "web-2" (some "web") true]

def shopSteps : List (Step String String) :=
  [.traffic 0 (.settled 1 (.ok ["GET /cart"])), .syscalls 0 (.settled 0 (.ok ["read"])),
    .traffic 0 (.settled 0 (.ok ["GET /"])), .traffic 0 .resumed,
    .syscalls 0 (.settled 1 (.ok [])), .syscalls 0 .resumed, .grouped 0, .resumed]

def shopMachine : Machine (Fetch String String) (Step String String) :=
  machine (podsByIdentity "shop" shopPods)

def shopFetch : Fetch String String := (shopMachine.run shopSteps).getD shopMachine.init

theorem shopFetch_shows : Shows "shop" shopPods shopSteps shopFetch :=
  fetchPodData_shows "shop" shopPods (show shopMachine.run shopSteps = some shopFetch from rfl)

end KGuardian.PodGroups
