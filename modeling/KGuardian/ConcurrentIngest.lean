import Mathlib.Logic.Function.Iterate
import KGuardian.IngestRuns

/-!
Handlers of `/pod/traffic/batch` side by side. Each looks its events up one
statement at a time and inserts at the end, so another handler can act between
a lookup and the insert; the table itself only keeps identifiers apart.
-/
namespace KGuardian.ConcurrentIngest

open DedupTable BrokerTraffic IngestRuns

/-- A handler between two of its statements. `secondQuery` is a UDP event whose
first query found nothing. -/
structure Handler where
  todo : List PodTraffic
  seenInBatch : List TrafficContentKey
  secondQuery : Option PodTraffic
  eventsToInsert : List PodTraffic

def Handler.start (batch : List PodTraffic) : Handler := ⟨batch, [], none, []⟩

def Handler.idle : Handler := Handler.start []

/-- The next lookup of a handler, or the next event that it skips. -/
def Handler.look (t : Table) (h : Handler) : Handler :=
  match h.secondQuery with
  | some e =>
      match t.find? (udpByPodPort e) with
      | none => { h with secondQuery := none, eventsToInsert := h.eventsToInsert ++ [e] }
      | some _ => { h with secondQuery := none }
  | none =>
      match h.todo with
      | [] => h
      | e :: rest =>
          if trafficContentKey e ∈ h.seenInBatch then { h with todo := rest }
          else
            let h' : Handler :=
              { h with todo := rest, seenInBatch := trafficContentKey e :: h.seenInBatch }
            if e.ipProtocol = some "UDP" then
              match t.find? (udpByPeerPort e) with
              | none => { h' with secondQuery := some e }
              | some _ => h'
            else
              match t.find? (byBothPorts e) with
              | none => { h' with eventsToInsert := h.eventsToInsert ++ [e] }
              | some _ => h'

def Handler.lookedUp (h : Handler) : Bool := h.todo.isEmpty && h.secondQuery.isNone

/-- The shared table, the handlers of all connections, and what was handed to
the audit queue. -/
structure System (ι : Type*) where
  table : Table
  handlers : ι → Handler
  handed : List PodTraffic

inductive Action (ι : Type*) where
  | post (i : ι) (batch : List PodTraffic)
  | run (i : ι)

variable {ι : Type*} [DecidableEq ι]

def System.setHandler (s : System ι) (i : ι) (h : Handler) : System ι :=
  { s with handlers := Function.update s.handlers i h }

@[simp] theorem setHandler_self (s : System ι) (i : ι) (h : Handler) :
    (s.setHandler i h).handlers i = h := by
  simp [System.setHandler]

theorem setHandler_other (s : System ι) {i j : ι} (hj : j ≠ i) (h : Handler) :
    (s.setHandler i h).handlers j = s.handlers j := by
  simp [System.setHandler, hj]

/-- A connection takes a new batch when its last one is done. A handler that has
looked up all its events inserts the new ones and hands them over. -/
def step (s : System ι) : Action ι → System ι
  | .post i batch =>
      if (s.handlers i).lookedUp && (s.handlers i).eventsToInsert.isEmpty then
        s.setHandler i (.start batch)
      else s
  | .run i =>
      if (s.handlers i).lookedUp then
        match insertInto s.table (s.handlers i).eventsToInsert with
        | .ok t =>
            { s.setHandler i .idle with
              table := t, handed := s.handed ++ (s.handlers i).eventsToInsert }
        | .error _ => s.setHandler i .idle
      else s.setHandler i ((s.handlers i).look s.table)

def run (actions : List (Action ι)) : System ι := actions.foldl step ⟨[], fun _ => .idle, []⟩

/-! A handler that nobody disturbs does what `createPodTrafficBatch` does. -/

theorem look_new_udp {t : Table} {e : PodTraffic} {rest pending : List PodTraffic}
    {seen : List TrafficContentKey} (hseen : trafficContentKey e ∉ seen)
    (hudp : e.ipProtocol = some "UDP") (hnone : t.find? (udpByPeerPort e) = none) :
    (Handler.look t)^[2] ⟨e :: rest, seen, none, pending⟩ =
      ⟨rest, trafficContentKey e :: seen, none,
        pending ++ if t.any (sameLookup e) then [] else [e]⟩ := by
  have hany : t.any (sameLookup e) = (t.find? (udpByPodPort e)).isSome := by
    rw [← getRow_isSome, getRow, if_pos hudp, hnone]
  simp only [Function.iterate_succ, Function.iterate_zero, Function.comp_apply, id_eq,
    Handler.look, if_neg hseen, if_pos hudp, hnone, hany]
  cases t.find? (udpByPodPort e) with
  | none => simp
  | some row => simp

/-- One event, in one statement or two. -/
theorem look_event (t : Table) (e : PodTraffic) (rest pending : List PodTraffic)
    (seen : List TrafficContentKey) (hseen : trafficContentKey e ∉ seen) :
    ∃ n, (Handler.look t)^[n] ⟨e :: rest, seen, none, pending⟩ =
      ⟨rest, trafficContentKey e :: seen, none,
        pending ++ if t.any (sameLookup e) then [] else [e]⟩ := by
  by_cases hudp : e.ipProtocol = some "UDP"
  · cases hfirst : t.find? (udpByPeerPort e) with
    | none => exact ⟨2, look_new_udp hseen hudp hfirst⟩
    | some row =>
        have hany : t.any (sameLookup e) = true := by
          rw [← getRow_isSome, getRow, if_pos hudp, hfirst]
          rfl
        refine ⟨1, ?_⟩
        simp [Handler.look, hseen, hudp, hfirst, hany]
  · have hany : t.any (sameLookup e) = (t.find? (byBothPorts e)).isSome := by
      rw [← getRow_isSome, getRow, if_neg hudp]
    refine ⟨1, ?_⟩
    simp only [Function.iterate_one, Handler.look, if_neg hseen, if_neg hudp, hany]
    cases t.find? (byBothPorts e) with
    | none => simp
    | some row => simp

theorem look_batch (t : Table) (batch pending : List PodTraffic) (seen : List TrafficContentKey) :
    ∃ n seen', (Handler.look t)^[n] ⟨batch, seen, none, pending⟩ =
      ⟨[], seen', none,
        pending ++ newRows trafficContentKey (fun e => t.any (sameLookup e)) seen batch⟩ := by
  induction batch generalizing pending seen with
  | nil => exact ⟨0, seen, by simp [newRows]⟩
  | cons e rest ih =>
      by_cases hseen : trafficContentKey e ∈ seen
      · obtain ⟨n, seen', heq⟩ := ih pending seen
        refine ⟨n + 1, seen', ?_⟩
        rw [Function.iterate_succ_apply, newRows, if_pos hseen, ← heq]
        simp [Handler.look, hseen]
      · obtain ⟨m, hfirst⟩ := look_event t e rest pending seen hseen
        obtain ⟨n, seen', heq⟩ := ih (pending ++ if t.any (sameLookup e) then [] else [e])
          (trafficContentKey e :: seen)
        refine ⟨n + m, seen', ?_⟩
        rw [Function.iterate_add_apply, hfirst, heq, newRows, if_neg hseen]
        split <;> simp

/-- Its lookups against one table find the new events of the batch, which its
insert then stores. -/
theorem undisturbed_handler (t : Table) (batch : List PodTraffic) :
    ∃ n, ((Handler.look t)^[n] (.start batch)).lookedUp = true ∧
      ((Handler.look t)^[n] (.start batch)).eventsToInsert = newEvents t batch := by
  obtain ⟨n, seen', heq⟩ := look_batch t batch [] []
  refine ⟨n, ?_⟩
  rw [Handler.start, heq]
  exact ⟨rfl, rfl⟩

/-! What one lookup does to a handler. -/

/-- The event that the handler's next lookup does not find, if it is the last
lookup for it. -/
def Handler.adds (t : Table) (h : Handler) : Option PodTraffic :=
  match h.secondQuery with
  | some e => if (t.find? (udpByPodPort e)).isNone then some e else none
  | none =>
      match h.todo with
      | [] => none
      | e :: _ =>
          if trafficContentKey e ∉ h.seenInBatch ∧ e.ipProtocol ≠ some "UDP" ∧
              (t.find? (byBothPorts e)).isNone then some e
          else none

/-- The keys of pending events were seen once each. -/
structure Tidy (h : Handler) : Prop where
  nodup : (h.eventsToInsert.map trafficContentKey).Nodup
  seen : ∀ e ∈ h.eventsToInsert, trafficContentKey e ∈ h.seenInBatch
  second : ∀ e ∈ h.secondQuery, trafficContentKey e ∈ h.seenInBatch ∧
    trafficContentKey e ∉ h.eventsToInsert.map trafficContentKey

theorem tidy_start (batch : List PodTraffic) : Tidy (.start batch) where
  nodup := List.nodup_nil
  seen _ he := absurd he List.not_mem_nil
  second _ he := absurd he (by simp [Handler.start])

theorem eventsToInsert_look (t : Table) (h : Handler) :
    (h.look t).eventsToInsert = h.eventsToInsert ++ (h.adds t).toList := by
  rcases h with ⟨todo, seen, second, pending⟩
  cases second with
  | some e => cases hfind : t.find? (udpByPodPort e) <;> simp [Handler.look, Handler.adds, hfind]
  | none =>
      cases todo with
      | nil => simp [Handler.look, Handler.adds]
      | cons e rest =>
          by_cases hseen : trafficContentKey e ∈ seen
          · simp [Handler.look, Handler.adds, hseen]
          by_cases hudp : e.ipProtocol = some "UDP"
          · cases hfind : t.find? (udpByPeerPort e) <;>
              simp [Handler.look, Handler.adds, hseen, hudp, hfind]
          · cases hfind : t.find? (byBothPorts e) <;>
              simp [Handler.look, Handler.adds, hseen, hudp, hfind]

/-- A complete event is only added when no row has its content. -/
theorem adds_absent {t : Table} {h : Handler} {e : PodTraffic} (he : e ∈ h.adds t)
    (hcomplete : Complete e) {row : PodTraffic} (hrow : row ∈ t) :
    trafficContentKey row ≠ trafficContentKey e := by
  intro hkey
  simp only [trafficContentKey, TrafficContentKey.mk.injEq] at hkey
  obtain ⟨k1, k2, -, k4, k5, k6, k7⟩ := hkey
  obtain ⟨c1, c2, -, c4, c5, c6, c7⟩ := hcomplete
  rcases h with ⟨todo, seen, second, pending⟩
  cases second with
  | some e' =>
      simp only [Handler.adds, Option.mem_def, Option.ite_none_right_eq_some, Option.some.injEq,
        Option.isNone_iff_eq_none, List.find?_eq_none] at he
      obtain ⟨hnone, rfl⟩ := he
      refine hnone row hrow ?_
      simp [udpByPodPort, k1, k2, k4, k5, k7, sqlEq_self c1, sqlEq_self c2, sqlEq_self c4,
        sqlEq_self c5, sqlEq_self c7]
  | none =>
      cases todo with
      | nil => exact absurd he (by simp [Handler.adds])
      | cons e' rest =>
          simp only [Handler.adds, Option.mem_def, Option.ite_none_right_eq_some,
            Option.some.injEq, Option.isNone_iff_eq_none, List.find?_eq_none] at he
          obtain ⟨⟨-, -, hnone⟩, rfl⟩ := he
          refine hnone row hrow ?_
          simp [byBothPorts, k1, k2, k4, k5, k6, k7, sqlEq_self c1, sqlEq_self c2, sqlEq_self c4,
            sqlEq_self c5, sqlEq_self c6, sqlEq_self c7]

theorem Tidy.keep {h : Handler} (htidy : Tidy h) (todo : List PodTraffic)
    {seen : List TrafficContentKey} (hseen : h.seenInBatch ⊆ seen) :
    Tidy ⟨todo, seen, none, h.eventsToInsert⟩ where
  nodup := htidy.nodup
  seen e he := hseen (htidy.seen e he)
  second e he := absurd he (by simp)

theorem Tidy.add {h : Handler} (htidy : Tidy h) (todo : List PodTraffic)
    {seen : List TrafficContentKey} (hseen : h.seenInBatch ⊆ seen) {e : PodTraffic}
    (he : trafficContentKey e ∈ seen)
    (hfresh : trafficContentKey e ∉ h.eventsToInsert.map trafficContentKey) :
    Tidy ⟨todo, seen, none, h.eventsToInsert ++ [e]⟩ where
  nodup := by
    rw [List.map_append, List.nodup_append]
    refine ⟨htidy.nodup, List.nodup_singleton _, ?_⟩
    intro k hk k' hk' heq
    rw [List.map_singleton, List.mem_singleton] at hk'
    exact hfresh (hk' ▸ heq ▸ hk)
  seen e' he' := by
    rcases List.mem_append.mp he' with hold | hnew
    · exact hseen (htidy.seen e' hold)
    · rwa [List.mem_singleton.mp hnew]
  second e he := absurd he (by simp)

theorem tidy_look {h : Handler} (htidy : Tidy h) (t : Table) : Tidy (h.look t) := by
  rcases h with ⟨todo, seen, second, pending⟩
  cases second with
  | some e =>
      obtain ⟨hseen, hfresh⟩ := htidy.second e rfl
      cases hfind : t.find? (udpByPodPort e) with
      | none => simpa [Handler.look, hfind] using htidy.add todo (List.Subset.refl _) hseen hfresh
      | some row => simpa [Handler.look, hfind] using htidy.keep todo (List.Subset.refl _)
  | none =>
      cases todo with
      | nil => simpa [Handler.look] using htidy
      | cons e rest =>
          by_cases hseen : trafficContentKey e ∈ seen
          · simpa [Handler.look, hseen] using htidy.keep rest (List.Subset.refl _)
          have hsub : seen ⊆ trafficContentKey e :: seen := List.subset_cons_self _ _
          have hfresh : trafficContentKey e ∉ pending.map trafficContentKey := by
            intro hmem
            obtain ⟨e', he', hkey⟩ := List.mem_map.mp hmem
            exact hseen (hkey ▸ htidy.seen e' he')
          by_cases hudp : e.ipProtocol = some "UDP"
          · cases hfind : t.find? (udpByPeerPort e) with
            | some row => simpa [Handler.look, hseen, hudp, hfind] using htidy.keep rest hsub
            | none =>
                have hkept := htidy.keep rest hsub
                simp only [Handler.look, if_neg hseen, if_pos hudp, hfind]
                refine ⟨hkept.nodup, hkept.seen, fun e' he' => ?_⟩
                obtain rfl := Option.some.inj he'
                exact ⟨List.mem_cons_self, hfresh⟩
          · cases hfind : t.find? (byBothPorts e) with
            | some row => simpa [Handler.look, hseen, hudp, hfind] using htidy.keep rest hsub
            | none =>
                simpa [Handler.look, hseen, hudp, hfind] using
                  htidy.add rest hsub List.mem_cons_self hfresh

theorem complete_congr {e e' : PodTraffic} (h : trafficContentKey e = trafficContentKey e') :
    Complete e ↔ Complete e' := by
  simp only [trafficContentKey, TrafficContentKey.mk.injEq] at h
  obtain ⟨h1, h2, h3, h4, h5, h6, h7⟩ := h
  simp only [Complete, h1, h2, h3, h4, h5, h6, h7]

/-- No two of these events have the same fully set content. -/
def DistinctContents (events : List PodTraffic) : Prop :=
  ((events.filter fun e => Complete e).map trafficContentKey).Nodup

instance (events : List PodTraffic) : Decidable (DistinctContents events) :=
  inferInstanceAs (Decidable (List.Nodup _))

/-- No fully set content is stored twice or handed to the audit queue twice. -/
def Deduplicated (s : System ι) : Prop :=
  DistinctContents s.table ∧ DistinctContents s.handed

/-- The step adds no event to a handler's list while another handler still has
its content pending. -/
def Quiet (s : System ι) : Action ι → Prop
  | .post _ _ => True
  | .run i => ∀ e ∈ (s.handlers i).adds s.table, Complete e → ∀ j, j ≠ i →
      ∀ e' ∈ (s.handlers j).eventsToInsert, trafficContentKey e' ≠ trafficContentKey e

/-- What is stored and what is pending anywhere differs in content. -/
structure Invariant (s : System ι) : Prop where
  handed : s.handed = s.table
  table : DistinctContents s.table
  tidy : ∀ i, Tidy (s.handlers i)
  absent : ∀ i, ∀ e ∈ (s.handlers i).eventsToInsert, Complete e →
    ∀ row ∈ s.table, trafficContentKey row ≠ trafficContentKey e
  apart : ∀ i j, i ≠ j → ∀ e ∈ (s.handlers i).eventsToInsert, Complete e →
    ∀ e' ∈ (s.handlers j).eventsToInsert, trafficContentKey e' ≠ trafficContentKey e

/-- A handler may change when what becomes pending is neither stored nor pending
elsewhere. -/
theorem Invariant.replace {s : System ι} (h : Invariant s) (i : ι) {h' : Handler}
    (htidy : Tidy h')
    (hnew : ∀ e ∈ h'.eventsToInsert, e ∈ (s.handlers i).eventsToInsert ∨
      (Complete e → (∀ row ∈ s.table, trafficContentKey row ≠ trafficContentKey e) ∧
        ∀ j, j ≠ i → ∀ e' ∈ (s.handlers j).eventsToInsert,
          trafficContentKey e' ≠ trafficContentKey e)) :
    Invariant (s.setHandler i h') := by
  have habsent : ∀ e ∈ h'.eventsToInsert, Complete e →
      ∀ row ∈ s.table, trafficContentKey row ≠ trafficContentKey e := by
    intro e he hcomplete
    rcases hnew e he with hold | hfresh
    · exact h.absent i e hold hcomplete
    · exact (hfresh hcomplete).1
  have hapart : ∀ e ∈ h'.eventsToInsert, Complete e → ∀ j, j ≠ i →
      ∀ e' ∈ (s.handlers j).eventsToInsert, trafficContentKey e' ≠ trafficContentKey e := by
    intro e he hcomplete j hj
    rcases hnew e he with hold | hfresh
    · exact h.apart i j (Ne.symm hj) e hold hcomplete
    · exact (hfresh hcomplete).2 j hj
  refine ⟨h.handed, h.table, fun j => ?_, fun j => ?_, fun j k hjk => ?_⟩
  · by_cases hj : j = i
    · subst hj
      rwa [setHandler_self]
    · rw [setHandler_other s hj]
      exact h.tidy j
  · by_cases hj : j = i
    · subst hj
      rwa [setHandler_self]
    · rw [setHandler_other s hj]
      exact h.absent j
  · by_cases hj : j = i
    · subst hj
      rw [setHandler_self, setHandler_other s (Ne.symm hjk)]
      exact fun e he hcomplete => hapart e he hcomplete k (Ne.symm hjk)
    · rw [setHandler_other s hj]
      by_cases hk : k = i
      · subst hk
        rw [setHandler_self]
        intro e he hcomplete e' he' hkey
        exact hapart e' he' ((complete_congr hkey).mpr hcomplete) j hj e he hkey.symm
      · rw [setHandler_other s hk]
        exact h.apart j k hjk

theorem Invariant.look {s : System ι} (h : Invariant s) (i : ι) (hquiet : Quiet s (.run i)) :
    Invariant (s.setHandler i ((s.handlers i).look s.table)) := by
  refine h.replace i (tidy_look (h.tidy i) s.table) fun e he => ?_
  rw [eventsToInsert_look] at he
  rcases List.mem_append.mp he with hold | hnew
  · exact Or.inl hold
  · have hadds : e ∈ (s.handlers i).adds s.table := Option.mem_toList.mp hnew
    exact Or.inr fun hcomplete =>
      ⟨fun row hrow => adds_absent hadds hcomplete hrow, hquiet e hadds hcomplete⟩

theorem distinctContents_append {t rows : List PodTraffic} (ht : DistinctContents t)
    (hrows : (rows.map trafficContentKey).Nodup)
    (habsent : ∀ e ∈ rows, Complete e → ∀ row ∈ t, trafficContentKey row ≠ trafficContentKey e) :
    DistinctContents (t ++ rows) := by
  rw [DistinctContents, List.filter_append, List.map_append, List.nodup_append]
  refine ⟨ht, hrows.sublist (List.filter_sublist.map _), ?_⟩
  intro k hk k' hk' heq
  obtain ⟨row, hrow, rfl⟩ := List.mem_map.mp hk
  obtain ⟨e, he, rfl⟩ := List.mem_map.mp hk'
  obtain ⟨hmem, hcomplete⟩ := List.mem_filter.mp he
  exact habsent e hmem (of_decide_eq_true hcomplete) row (List.mem_filter.mp hrow).1 heq

/-- The insert moves what was pending to the table and to the audit queue. -/
theorem Invariant.insert {s : System ι} (h : Invariant s) (i : ι) :
    Invariant { s.setHandler i .idle with
      table := s.table ++ (s.handlers i).eventsToInsert
      handed := s.handed ++ (s.handlers i).eventsToInsert } := by
  have hidle := h.replace i (tidy_start []) fun e he => absurd he List.not_mem_nil
  refine ⟨?_, ?_, hidle.tidy, fun j e he hcomplete row hrow => ?_, hidle.apart⟩
  · rw [h.handed]
  · exact distinctContents_append h.table (h.tidy i).nodup (h.absent i)
  · rcases List.mem_append.mp hrow with hold | hnew
    · exact hidle.absent j e he hcomplete row hold
    · change e ∈ ((s.setHandler i .idle).handlers j).eventsToInsert at he
      by_cases hj : j = i
      · subst hj
        rw [setHandler_self] at he
        exact absurd he List.not_mem_nil
      · rw [setHandler_other s hj] at he
        exact h.apart j i hj e he hcomplete row hnew

theorem insertInto_ok {t rows t' : Table} (h : insertInto t rows = .ok t') : t' = t ++ rows := by
  rw [insertInto] at h
  split at h
  · exact (Except.ok.inj h).symm
  · exact absurd h (by simp)

/-- Every quiet step keeps the contents apart. -/
theorem Invariant.step {s : System ι} (h : Invariant s) {a : Action ι} (hquiet : Quiet s a) :
    Invariant (step s a) := by
  cases a with
  | post i batch =>
      rw [ConcurrentIngest.step]
      split
      · exact h.replace i (tidy_start batch) fun e he => absurd he List.not_mem_nil
      · exact h
  | run i =>
      rw [ConcurrentIngest.step]
      split
      · cases hinsert : insertInto s.table (s.handlers i).eventsToInsert with
        | ok t =>
            rw [insertInto_ok hinsert]
            exact h.insert i
        | error message => exact h.replace i (tidy_start []) fun e he => absurd he List.not_mem_nil
      · exact h.look i hquiet

/-- A run of quiet steps. -/
def QuietRun (s : System ι) : List (Action ι) → Prop
  | [] => True
  | a :: rest => Quiet s a ∧ QuietRun (step s a) rest

theorem Invariant.run {s : System ι} (h : Invariant s) {actions : List (Action ι)}
    (hquiet : QuietRun s actions) {done : List (Action ι)} (hdone : done <+: actions) :
    Invariant (done.foldl ConcurrentIngest.step s) := by
  induction done generalizing s actions with
  | nil => exact h
  | cons a done ih =>
      obtain ⟨rest, rfl⟩ := hdone
      rw [List.cons_append, QuietRun] at hquiet
      exact ih (h.step hquiet.1) hquiet.2 (List.prefix_append done rest)

omit [DecidableEq ι] in
theorem invariant_init : Invariant (⟨[], fun _ => .idle, []⟩ : System ι) where
  handed := rfl
  table := List.nodup_nil
  tidy _ := tidy_start []
  absent _ _ he := absurd he List.not_mem_nil
  apart _ _ _ _ he := absurd he List.not_mem_nil

/-- Concurrent ingest stays deduplicated in every run in which no handler adds
an event whose content another handler still has pending. -/
theorem deduplicated_run (actions : List (Action ι))
    (hquiet : QuietRun ⟨[], fun _ => .idle, []⟩ actions) :
    ∀ done, done <+: actions → Deduplicated (run done) := by
  intro done hdone
  have h : Invariant (run done) := invariant_init.run hquiet hdone
  exact ⟨h.table, h.handed ▸ h.table⟩

def webToApiEvent (uuid : String) : PodTraffic :=
  ⟨uuid, some "web-0", some "shop", some "10.0.0.7", some "0", some "TCP", some "EGRESS",
    some "10.0.0.8", some "8080", some "ALLOW"⟩

/-- Two controllers report one flow, the second after the first is done. -/
def oneAfterTheOther : List (Action Bool) :=
  [.post false [webToApiEvent "a1"], .run false, .run false, .post true [webToApiEvent "b2"],
    .run true, .run true]

theorem oneAfterTheOther_deduplicated : Deduplicated (run oneAfterTheOther) := by
  refine deduplicated_run oneAfterTheOther ?_ oneAfterTheOther List.prefix_rfl
  unfold oneAfterTheOther
  simp only [QuietRun, Quiet]
  decide

/-- Both look the flow up before either inserts it. -/
def atTheSameTime : List (Action Bool) :=
  [.post false [webToApiEvent "a1"], .post true [webToApiEvent "b2"], .run false, .run true,
    .run false, .run true]

/-- Then the flow is stored twice and handed over twice. -/
theorem atTheSameTime_duplicates :
    (run atTheSameTime).table = [webToApiEvent "a1", webToApiEvent "b2"] ∧
      (run atTheSameTime).handed = [webToApiEvent "a1", webToApiEvent "b2"] ∧
      ¬ ∀ done, done <+: atTheSameTime → Deduplicated (run done) := by
  have htable : (run atTheSameTime).table = [webToApiEvent "a1", webToApiEvent "b2"] := by decide
  refine ⟨htable, by decide, fun h => ?_⟩
  have hdistinct := (h _ List.prefix_rfl).1
  rw [htable] at hdistinct
  exact absurd hdistinct (by decide)

end KGuardian.ConcurrentIngest
