import KGuardian.CheckIns
import KGuardian.Runs

/-!
What `/version` says about newer releases (`broker/src/version_check.rs`). The broker asks
the version service (`cloudflare/version-service/src/index.js`), whose workers ask GitHub
and keep the answer in two caches of their location, one for minutes and one for a day in
case GitHub does not answer. Requests run side by side, and any of them may stop anywhere.
-/
namespace KGuardian.VersionService

open CheckIns Runs

/-! The service. -/

structure Release where
  tagName : String
  draft : Bool
  prerelease : Bool

def components : List String :=
  ["chart", "broker", "controller", "frontend", "advisor", "llm-bridge", "evaluator"]

/-- Components and their versions, in the order of the object. -/
abbrev Versions := List (String × String)

def stripV : List Char → List Char
  | 'v' :: rest => rest
  | version => version

/-- The first two parts of a tag such as `chart/v1.13.2`. -/
def parseTag (tagName : String) : Option (String × String) :=
  match tagName.toList.splitOn '/' with
  | component :: version :: _ =>
      if version ≠ [] ∧ String.ofList component ∈ components then
        some (String.ofList component, String.ofList (stripV version))
      else none
  | _ => none

def addRelease (latest : Versions) (rel : Release) : Versions :=
  if rel.draft || rel.prerelease then latest
  else
    match parseTag rel.tagName with
    | none => latest
    | some (component, version) =>
        if (latest.lookup component).isSome then latest else latest ++ [(component, version)]

/-- What is made of a page of releases, the newest of which come first. -/
def latestOf (releases : List Release) : Versions := releases.foldl addRelease []

def perPage : ℕ := 100

def cacheTtlSecs : ℕ := 300

def staleTtlSecs : ℕ := 24 * 60 * 60

/-- A response in a cache, with the time of the fetch that it came from. -/
structure Entry where
  latest : Versions
  fetchedAt : ℕ
  storedAt : ℕ

structure Caches where
  fresh : Option Entry
  stale : Option Entry

/-- Where a call of `latestVersions` is. -/
inductive Phase where
  | looking
  | fetching
  | failed
  | fetched (latest : Versions) (fetchedAt : ℕ)
  | storedFresh (latest : Versions) (fetchedAt : ℕ)
  | answered (latest : Versions)

/-- A cache drops what it likes when it likes. -/
def Caches.evict (caches : Caches) (long : Bool) : Caches where
  fresh := if long then caches.fresh else none
  stale := if long then none else caches.stale

def matched (ttl now : ℕ) (entry : Option Entry) : Option Versions :=
  (entry.filter fun e => now < e.storedAt + ttl).map Entry.latest

structure Request (κ : Type*) where
  colo : κ
  started : ℕ
  phase : Phase

/-! The broker. -/

def requestTimeoutSecs : ℕ := 10

structure CheckOutcome where
  latest : Versions
  checkedAt : ℕ

def updateAvailable (currentChart : String) (latest : Option Versions) : Bool :=
  if currentChart = "unknown" then false
  else
    ((latest.bind (List.lookup "chart")).map fun latestChart =>
      decide (stripBuildMetadata latestChart.toList ≠
        stripBuildMetadata currentChart.toList)).getD false

structure VersionInfo where
  broker : String
  chart : String
  latest : Option Versions
  checkedAt : Option ℕ
  updateAvailable : Bool

def getVersion (env : BrokerEnv) (outcome : Option CheckOutcome) : VersionInfo where
  broker := env.cargoPkgVersion
  chart := chartVersion env
  latest := outcome.map CheckOutcome.latest
  checkedAt := outcome.map CheckOutcome.checkedAt
  updateAvailable := VersionService.updateAvailable (chartVersion env)
    (outcome.map CheckOutcome.latest)

/-! The system. -/

variable {κ : Type*}

/-- The time in seconds, the caches of each location, the requests of all clients, and
what the broker knows. -/
structure State (κ : Type*) where
  now : ℕ
  caches : κ → Caches
  requests : List (Request κ)
  outcome : Option CheckOutcome

inductive Event (κ : Type*) where
  | passed (secs : ℕ)
  | arrives (colo : κ)
  | looks (i : ℕ)
  | fetches (i : ℕ) (ok : Bool)
  | fallsBack (i : ℕ)
  | stores (i : ℕ)
  | evicted (colo : κ) (long : Bool)
  | received (i : ℕ)

/-- The releases of the repository at each time, and how long a call of a worker may run. -/
structure World where
  releases : ℕ → List Release
  lifetime : ℕ

variable (w : World)

def fetchLatestFromGitHub (now : ℕ) : Versions := latestOf ((w.releases now).take perPage)

variable [DecidableEq κ]

def State.setPhase (s : State κ) (i : ℕ) (r : Request κ) (phase : Phase) : State κ :=
  { s with requests := s.requests.set i { r with phase := phase } }

def State.setCaches (s : State κ) (colo : κ) (caches : Caches) : State κ :=
  { s with caches := Function.update s.caches colo caches }

/-- A request that is not over its time. -/
def State.running (s : State κ) (i : ℕ) : Option (Request κ) :=
  s.requests[i]?.filter fun r => s.now ≤ r.started + w.lifetime

def step (s : State κ) : Event κ → Option (State κ)
  | .passed secs => some { s with now := s.now + secs }
  | .arrives colo => some { s with requests := s.requests ++ [⟨colo, s.now, .looking⟩] }
  | .looks i => do
      let r ← s.running w i
      match r.phase with
      | .looking =>
          match matched cacheTtlSecs s.now (s.caches r.colo).fresh with
          | some latest => some (s.setPhase i r (.answered latest))
          | none => some (s.setPhase i r .fetching)
      | _ => none
  | .fetches i ok => do
      let r ← s.running w i
      match r.phase with
      | .fetching =>
          if ok then some (s.setPhase i r (.fetched (fetchLatestFromGitHub w s.now) s.now))
          else some (s.setPhase i r .failed)
      | _ => none
  -- without a copy the handler answers with an empty map
  | .fallsBack i => do
      let r ← s.running w i
      match r.phase with
      | .failed =>
          some (s.setPhase i r (.answered
            ((matched staleTtlSecs s.now (s.caches r.colo).stale).getD [])))
      | _ => none
  | .stores i => do
      let r ← s.running w i
      match r.phase with
      | .fetched latest fetchedAt =>
          some ((s.setPhase i r (.storedFresh latest fetchedAt)).setCaches r.colo
            { s.caches r.colo with fresh := some ⟨latest, fetchedAt, s.now⟩ })
      | .storedFresh latest fetchedAt =>
          some ((s.setPhase i r (.answered latest)).setCaches r.colo
            { s.caches r.colo with stale := some ⟨latest, fetchedAt, s.now⟩ })
      | _ => none
  | .evicted colo long =>
      some (s.setCaches colo ((s.caches colo).evict long))
  | .received i => do
      let r ← s.requests[i]?
      match r.phase with
      | .answered latest =>
          if s.now ≤ r.started + requestTimeoutSecs then
            some { s with outcome := some ⟨latest, s.now⟩ }
          else none
      | _ => none

def machine (κ : Type*) [DecidableEq κ] : Machine (State κ) (Event κ) where
  init := ⟨0, fun _ => ⟨none, none⟩, [], none⟩
  step := step w

/-! What a page of releases comes to. -/

/-- The version that a release is of the component, if it counts. -/
def versionOf (component : String) (rel : Release) : Option String :=
  if rel.draft || rel.prerelease then none
  else (parseTag rel.tagName).bind fun p => if p.1 = component then some p.2 else none

/-- The newest version of the component among the releases of a page. -/
def newest (releases : List Release) (component : String) : Option String :=
  (releases.take perPage).findSome? (versionOf component)

theorem lookup_addRelease (latest : Versions) (rel : Release) (component : String) :
    (addRelease latest rel).lookup component =
      (latest.lookup component).or (versionOf component rel) := by
  unfold addRelease versionOf
  split_ifs with hskipped
  · rw [Option.or_none]
  · cases parseTag rel.tagName with
    | none => rw [Option.bind_none, Option.or_none]
    | some p =>
        obtain ⟨tagged, version⟩ := p
        rw [Option.bind_some]
        simp only
        by_cases hknown : (latest.lookup tagged).isSome = true
        · rw [if_pos hknown]
          split_ifs with heq
          · subst heq
            rw [Option.or_of_isSome hknown]
          · rw [Option.or_none]
        · rw [if_neg hknown, List.lookup_append]
          split_ifs with heq
          · subst heq
            simp
          · have hne : (component == tagged) = false := by
              rw [beq_eq_false_iff_ne]
              exact Ne.symm heq
            simp [hne]

theorem lookup_foldl_addRelease (releases : List Release) (latest : Versions)
    (component : String) :
    (releases.foldl addRelease latest).lookup component =
      (latest.lookup component).or (releases.findSome? (versionOf component)) := by
  induction releases generalizing latest with
  | nil => rw [List.foldl_nil, List.findSome?_nil, Option.or_none]
  | cons rel releases ih =>
      rw [List.foldl_cons, ih, lookup_addRelease, List.findSome?_cons, Option.or_assoc]
      cases versionOf component rel <;> rfl

/-- The service tells the newest version of each component. -/
theorem lookup_fetchLatest (t : ℕ) (component : String) :
    (fetchLatestFromGitHub w t).lookup component = newest (w.releases t) component := by
  rw [fetchLatestFromGitHub, latestOf, lookup_foldl_addRelease]
  rfl

/-! How old an answer can be. -/

def FetchedAt (now : ℕ) (latest : Versions) (t : ℕ) : Prop :=
  t ≤ now ∧ latest = fetchLatestFromGitHub w t

def EntryOk (now : ℕ) (e : Entry) : Prop :=
  FetchedAt w now e.latest e.fetchedAt ∧ e.storedAt ≤ e.fetchedAt + w.lifetime

/-- An answer to a request that was started then. -/
def AnswerOk (now started : ℕ) (latest : Versions) : Prop :=
  latest = [] ∨ ∃ t, FetchedAt w now latest t ∧ started < t + staleTtlSecs + w.lifetime

def PhaseOk (now started : ℕ) : Phase → Prop
  | .fetched latest t | .storedFresh latest t => FetchedAt w now latest t ∧ started ≤ t
  | .answered latest => AnswerOk w now started latest
  | _ => True

/-- The age that an answer can have when the broker notes it down. -/
def World.window : ℕ := staleTtlSecs + w.lifetime + requestTimeoutSecs

def OutcomeOk (o : CheckOutcome) : Prop :=
  o.latest = [] ∨ ∃ t, FetchedAt w o.checkedAt o.latest t ∧ o.checkedAt < t + w.window

structure Ok (s : State κ) : Prop where
  fresh : ∀ colo, ∀ e ∈ (s.caches colo).fresh, EntryOk w s.now e
  stale : ∀ colo, ∀ e ∈ (s.caches colo).stale, EntryOk w s.now e
  started : ∀ r ∈ s.requests, r.started ≤ s.now
  phases : ∀ r ∈ s.requests, PhaseOk w s.now r.started r.phase
  outcome : ∀ o ∈ s.outcome, OutcomeOk w o

variable {w}

theorem FetchedAt.later {now now' : ℕ} (h : now ≤ now') {latest : Versions} {t : ℕ}
    (hf : FetchedAt w now latest t) : FetchedAt w now' latest t :=
  ⟨hf.1.trans h, hf.2⟩

theorem EntryOk.later {now now' : ℕ} (h : now ≤ now') {e : Entry} (he : EntryOk w now e) :
    EntryOk w now' e :=
  ⟨he.1.later h, he.2⟩

theorem AnswerOk.later {now now' : ℕ} (h : now ≤ now') {started : ℕ} {latest : Versions}
    (ha : AnswerOk w now started latest) : AnswerOk w now' started latest := by
  obtain hnil | ⟨t, ht, hage⟩ := ha
  · exact Or.inl hnil
  · exact Or.inr ⟨t, ht.later h, hage⟩

theorem PhaseOk.later {now now' : ℕ} (h : now ≤ now') {started : ℕ} {phase : Phase}
    (hp : PhaseOk w now started phase) : PhaseOk w now' started phase := by
  cases phase with
  | fetched latest t => exact ⟨hp.1.later h, hp.2⟩
  | storedFresh latest t => exact ⟨hp.1.later h, hp.2⟩
  | answered latest => exact AnswerOk.later h hp
  | _ => trivial

/-- What a cache gives within the longer time is recent enough. -/
theorem answerOk_matched {ttl now started : ℕ} (httl : ttl ≤ staleTtlSecs)
    (hstarted : started ≤ now) {entry : Option Entry} (he : ∀ e ∈ entry, EntryOk w now e)
    {latest : Versions} (h : matched ttl now entry = some latest) :
    AnswerOk w now started latest := by
  obtain ⟨e, hfilter, rfl⟩ := Option.map_eq_some_iff.mp h
  obtain ⟨hmem, hage⟩ := Option.filter_eq_some_iff.mp hfilter
  have hvalid : now < e.storedAt + ttl := of_decide_eq_true hage
  obtain ⟨hfetched, hstored⟩ := he e hmem
  refine Or.inr ⟨e.fetchedAt, hfetched, ?_⟩
  omega

omit [DecidableEq κ] in
theorem running_eq_some {s : State κ} {i : ℕ} {r : Request κ} (h : s.running w i = some r) :
    s.requests[i]? = some r ∧ s.now ≤ r.started + w.lifetime := by
  obtain ⟨hr, hrunning⟩ := Option.filter_eq_some_iff.mp h
  exact ⟨hr, of_decide_eq_true hrunning⟩

omit [DecidableEq κ] in
theorem Ok.setPhase {s : State κ} (h : Ok w s) {i : ℕ} {r : Request κ}
    (hr : s.requests[i]? = some r) {phase : Phase} (hphase : PhaseOk w s.now r.started phase) :
    Ok w (s.setPhase i r phase) where
  fresh := h.fresh
  stale := h.stale
  started := by
    intro q hq
    obtain hq | rfl := List.mem_or_eq_of_mem_set hq
    · exact h.started q hq
    · exact h.started r (List.mem_of_getElem? hr)
  phases := by
    intro q hq
    obtain hq | rfl := List.mem_or_eq_of_mem_set hq
    · exact h.phases q hq
    · exact hphase
  outcome := h.outcome

theorem Ok.setCaches {s : State κ} (h : Ok w s) (colo : κ) {caches : Caches}
    (hfresh : ∀ e ∈ caches.fresh, EntryOk w s.now e)
    (hstale : ∀ e ∈ caches.stale, EntryOk w s.now e) : Ok w (s.setCaches colo caches) where
  fresh := by
    intro c e he
    by_cases hc : c = colo
    · subst hc
      simp only [State.setCaches, Function.update_self] at he
      exact hfresh e he
    · simp only [State.setCaches, Function.update_of_ne hc] at he
      exact h.fresh c e he
  stale := by
    intro c e he
    by_cases hc : c = colo
    · subst hc
      simp only [State.setCaches, Function.update_self] at he
      exact hstale e he
    · simp only [State.setCaches, Function.update_of_ne hc] at he
      exact h.stale c e he
  started := h.started
  phases := h.phases
  outcome := h.outcome

theorem Ok.looks {s s' : State κ} (h : Ok w s) {i : ℕ}
    (hstep : (machine w κ).step s (.looks i) = some s') : Ok w s' := by
  obtain ⟨r, hrunning, hnext⟩ := Option.bind_eq_some_iff.mp hstep
  obtain ⟨hr, -⟩ := running_eq_some hrunning
  split at hnext
  · split at hnext
    · rename_i latest hmatched
      obtain rfl := Option.some.inj hnext
      apply h.setPhase hr
      exact answerOk_matched (by decide) (h.started r (List.mem_of_getElem? hr))
        (h.fresh r.colo) hmatched
    · obtain rfl := Option.some.inj hnext
      exact h.setPhase hr trivial
  · cases hnext

theorem Ok.fetches {s s' : State κ} (h : Ok w s) {i : ℕ} {ok : Bool}
    (hstep : (machine w κ).step s (.fetches i ok) = some s') : Ok w s' := by
  obtain ⟨r, hrunning, hnext⟩ := Option.bind_eq_some_iff.mp hstep
  obtain ⟨hr, -⟩ := running_eq_some hrunning
  split at hnext
  · split_ifs at hnext
    · obtain rfl := Option.some.inj hnext
      apply h.setPhase hr
      exact ⟨⟨le_refl _, rfl⟩, h.started r (List.mem_of_getElem? hr)⟩
    · obtain rfl := Option.some.inj hnext
      exact h.setPhase hr trivial
  · cases hnext

theorem Ok.fallsBack {s s' : State κ} (h : Ok w s) {i : ℕ}
    (hstep : (machine w κ).step s (.fallsBack i) = some s') : Ok w s' := by
  obtain ⟨r, hrunning, hnext⟩ := Option.bind_eq_some_iff.mp hstep
  obtain ⟨hr, -⟩ := running_eq_some hrunning
  split at hnext
  · obtain rfl := Option.some.inj hnext
    apply h.setPhase hr
    cases hmatched : matched staleTtlSecs s.now (s.caches r.colo).stale with
    | none => exact Or.inl rfl
    | some latest =>
        exact answerOk_matched (le_refl _) (h.started r (List.mem_of_getElem? hr))
          (h.stale r.colo) hmatched
  · cases hnext

theorem Ok.stores {s s' : State κ} (h : Ok w s) {i : ℕ}
    (hstep : (machine w κ).step s (.stores i) = some s') : Ok w s' := by
  obtain ⟨r, hrunning, hnext⟩ := Option.bind_eq_some_iff.mp hstep
  obtain ⟨hr, htime⟩ := running_eq_some hrunning
  have hphase := h.phases r (List.mem_of_getElem? hr)
  split at hnext
  · rename_i latest t hr'
    obtain rfl := Option.some.inj hnext
    rw [hr'] at hphase
    obtain ⟨hfetched, hstarted⟩ := hphase
    have hentry : EntryOk w s.now ⟨latest, t, s.now⟩ := ⟨hfetched, by simp only; omega⟩
    have hstored : PhaseOk w s.now r.started (.storedFresh latest t) := ⟨hfetched, hstarted⟩
    apply (h.setPhase hr hstored).setCaches
    · intro e he
      obtain rfl := Option.some.inj he
      exact hentry
    · exact h.stale r.colo
  · rename_i latest t hr'
    obtain rfl := Option.some.inj hnext
    rw [hr'] at hphase
    obtain ⟨hfetched, hstarted⟩ := hphase
    have hentry : EntryOk w s.now ⟨latest, t, s.now⟩ := ⟨hfetched, by simp only; omega⟩
    have hanswer : PhaseOk w s.now r.started (.answered latest) := by
      refine Or.inr ⟨t, hfetched, ?_⟩
      have hday : 0 < staleTtlSecs := by decide
      omega
    apply (h.setPhase hr hanswer).setCaches
    · exact h.fresh r.colo
    · intro e he
      obtain rfl := Option.some.inj he
      exact hentry
  · cases hnext

theorem Ok.received {s s' : State κ} (h : Ok w s) {i : ℕ}
    (hstep : (machine w κ).step s (.received i) = some s') : Ok w s' := by
  obtain ⟨r, hr, hnext⟩ := Option.bind_eq_some_iff.mp hstep
  have hphase := h.phases r (List.mem_of_getElem? hr)
  split at hnext
  · rename_i latest hr'
    obtain ⟨htime, rfl⟩ := Machine.of_guard hnext
    rw [hr'] at hphase
    refine ⟨h.fresh, h.stale, h.started, h.phases, ?_⟩
    intro o ho
    obtain rfl := Option.some.inj ho
    obtain hnil | ⟨t, hfetched, hage⟩ := hphase
    · exact Or.inl hnil
    · refine Or.inr ⟨t, hfetched, ?_⟩
      unfold World.window
      simp only
      omega
  · cases hnext

theorem Ok.step {s s' : State κ} {e : Event κ} (h : Ok w s)
    (hstep : (machine w κ).step s e = some s') : Ok w s' := by
  cases e with
  | passed secs =>
      obtain rfl := Option.some.inj hstep
      have hlater : s.now ≤ s.now + secs := Nat.le_add_right _ _
      exact ⟨fun c e he => (h.fresh c e he).later hlater,
        fun c e he => (h.stale c e he).later hlater,
        fun r hr => (h.started r hr).trans hlater,
        fun r hr => (h.phases r hr).later hlater, h.outcome⟩
  | arrives colo =>
      obtain rfl := Option.some.inj hstep
      refine ⟨h.fresh, h.stale, ?_, ?_, h.outcome⟩
      · intro r hr
        obtain hr | hr := List.mem_append.mp hr
        · exact h.started r hr
        · obtain rfl := List.mem_singleton.mp hr
          exact le_refl _
      · intro r hr
        obtain hr | hr := List.mem_append.mp hr
        · exact h.phases r hr
        · obtain rfl := List.mem_singleton.mp hr
          trivial
  | looks i => exact h.looks hstep
  | fetches i ok => exact h.fetches hstep
  | fallsBack i => exact h.fallsBack hstep
  | stores i => exact h.stores hstep
  | evicted colo long =>
      obtain rfl := Option.some.inj hstep
      apply h.setCaches
      · intro e he
        cases long with
        | true => exact h.fresh colo e he
        | false => cases he
      · intro e he
        cases long with
        | true => cases he
        | false => exact h.stale colo e he
  | received i => exact h.received hstep

theorem ok_run {events : List (Event κ)} {s : State κ} (h : (machine w κ).run events = some s) :
    Ok w s := by
  refine Machine.invariant (P := fun _ s => Ok w s) ?_ ?_ h
  · refine ⟨?_, ?_, ?_, ?_, ?_⟩
    · intro c e he
      cases he
    · intro c e he
      cases he
    · intro r hr
      cases hr
    · intro r hr
      cases hr
    · intro o ho
      cases ho
  · intro before s₀ e s' _ hs₀ hstep
    exact hs₀.step hstep

/-! What the broker tells. -/

/-- Both are the same version but for build metadata. -/
def SameBase (v v' : String) : Prop :=
  stripBuildMetadata v.toList = stripBuildMetadata v'.toList

/-- The times that an answer of this time can be from. -/
def World.Window (w : World) (checkedAt t : ℕ) : Prop := t ≤ checkedAt ∧ checkedAt < t + w.window

/-- What `/version` says of releases after a check-in. -/
structure TellsReleases (w : World) (env : BrokerEnv) (o : CheckOutcome) : Prop where
  /-- Nothing, or all that GitHub had at one time within the window. -/
  latest : o.latest = [] ∨ ∃ t, w.Window o.checkedAt t ∧
    ∀ component, o.latest.lookup component = newest (w.releases t) component
  quiet : (∀ t, w.Window o.checkedAt t → ∀ v, newest (w.releases t) "chart" = some v →
    SameBase v (chartVersion env)) → (getVersion env (some o)).updateAvailable = false
  notified : o.latest ≠ [] → chartVersion env ≠ "unknown" →
    (∀ t, w.Window o.checkedAt t → ∃ v, newest (w.releases t) "chart" = some v ∧
      ¬ SameBase v (chartVersion env)) → (getVersion env (some o)).updateAvailable = true

theorem updateAvailable_iff (current : String) (latest : Versions) :
    updateAvailable current (some latest) = true ↔
      current ≠ "unknown" ∧ ∃ v, latest.lookup "chart" = some v ∧ ¬ SameBase v current := by
  unfold updateAvailable SameBase
  split_ifs with hunknown
  · simp [hunknown]
  · rw [Option.bind_some]
    cases latest.lookup "chart" with
    | none => simp
    | some v => simp [hunknown]

theorem tellsReleases {o : CheckOutcome} (h : OutcomeOk w o) (env : BrokerEnv) :
    TellsReleases w env o := by
  have hlatest : o.latest = [] ∨ ∃ t, w.Window o.checkedAt t ∧
      ∀ component, o.latest.lookup component = newest (w.releases t) component := by
    obtain hnil | ⟨t, ⟨ht, hfetched⟩, hage⟩ := h
    · exact Or.inl hnil
    · refine Or.inr ⟨t, ⟨ht, hage⟩, ?_⟩
      intro component
      rw [hfetched, lookup_fetchLatest]
  refine ⟨hlatest, ?_, ?_⟩
  · intro hsame
    rw [Bool.eq_false_iff]
    intro hupdate
    obtain ⟨-, v, hv, hdiffers⟩ := (updateAvailable_iff _ _).mp hupdate
    obtain hnil | ⟨t, ht, hlookup⟩ := hlatest
    · rw [hnil] at hv
      cases hv
    · rw [hlookup] at hv
      exact hdiffers (hsame t ht v hv)
  · intro hne hknown hdiffers
    obtain hnil | ⟨t, ht, hlookup⟩ := hlatest
    · exact absurd hnil hne
    · obtain ⟨v, hv, hv'⟩ := hdiffers t ht
      exact (updateAvailable_iff _ _).mpr ⟨hknown, v, (hlookup "chart").trans hv, hv'⟩

def twoReleases : World where
  releases t :=
    if t < 1000 then [⟨"chart/v1.0.0", false, false⟩]
    else [⟨"chart/v1.1.0", false, false⟩, ⟨"chart/v1.0.0", false, false⟩]
  lifetime := 30

/-- The first check-in fills the caches, and the second comes when GitHub does not answer. -/
def twoCheckIns : List (Event Unit) :=
  [.passed 900, .arrives (), .looks 0, .fetches 0 true, .stores 0, .stores 0, .received 0,
    .passed 600, .arrives (), .looks 1, .fetches 1 false, .fallsBack 1, .received 1]

end KGuardian.VersionService
