import KGuardian.KeyedTables
import KGuardian.LastWrites
import KGuardian.MergePatch
import KGuardian.Runs

/-!
The services that the broker knows by their cluster address (`svc_details`). Every
controller watches the services of the whole cluster and posts each version it comes
to (`controller/src/service_watcher.rs`), so many of them write the same rows, and one
of them may be far behind the others. What is deleted in the cluster is never deleted
in the table.
-/
namespace KGuardian.ServiceTable

open GoJson KeyedTables LastWrites MergePatch Runs

structure ServiceId where
  ns : String
  name : String
  deriving DecidableEq

structure Condition where
  type_ : String
  status : String
  message : String

/-- A version of a service, as the API server has it. The address is the one in the
spec, and the conditions are those in the status. -/
structure Service where
  id : ServiceId
  clusterIp : Option String
  conditions : Option (List Condition)
  manifest : Json

structure SvcDetail where
  svcIp : String
  svcName : Option String
  svcNamespace : Option String
  serviceSpec : Option Json
  timeStamp : NaiveDateTime

/-! The controller. -/

/-- Headless services have `None` for an address, and external names an empty one. -/
def isRoutableClusterIp (s : String) : Bool := s ≠ "" && s ≠ "None"

def svcUnready (p : Service) : Option String :=
  match p.conditions with
  | none => none
  | some conds =>
      let failed := ",".intercalate <|
        (conds.filter fun c => c.type_ = "Ready" && c.status = "False").map Condition.message
      if failed = "" then none else some ("Unready Service " ++ p.id.name ++ ": " ++ failed)

def svcDetail (svc : Service) (ip : String) (now : NaiveDateTime) : SvcDetail :=
  ⟨ip, some svc.id.name, some svc.id.ns, some svc.manifest, now⟩

def updateServiceinfo (svc : Service) (now : NaiveDateTime) : Option SvcDetail :=
  match svc.clusterIp with
  | none => none
  | some ip => if isRoutableClusterIp ip then some (svcDetail svc ip now) else none

/-- What the watcher posts for an object of its stream. -/
def watchService (p : Service) (now : NaiveDateTime) : Option SvcDetail :=
  match svcUnready p with
  | some _ => none
  | none => updateServiceinfo p now

/-! The broker. -/

def compactSvcSpec : Json → Json
  | .obj fields =>
      let fields := deleteKey fields "status"
      match fields.lookup "metadata" with
      | some (.obj metadata) =>
          .obj (setKey "metadata" (.obj (deleteKey metadata "managedFields")) fields)
      | _ => .obj fields
  | value => value

abbrev SvcTable := Table SvcDetail.svcIp

/-- The row that an insert makes of a record. -/
def inserted (detail : SvcDetail) : SvcDetail :=
  { detail with timeStamp := timestampColumn detail.timeStamp }

/-- An update from a record leaves the columns that it has no value for. -/
def changeset (detail row : SvcDetail) : SvcDetail where
  svcIp := row.svcIp
  svcName := detail.svcName.or row.svcName
  svcNamespace := detail.svcNamespace.or row.svcNamespace
  serviceSpec := detail.serviceSpec.or row.serviceSpec
  timeStamp := timestampColumn detail.timeStamp

def compacted (w : SvcDetail) : SvcDetail :=
  { w with serviceSpec := w.serviceSpec.map compactSvcSpec }

def upsertSvcDetails (t : SvcTable) (w : SvcDetail) : SvcTable :=
  let w := compacted w
  t.upsert (inserted w) (changeset w) fun _ => rfl

def isRoutableSvcIp (s : String) : Bool := s ≠ "" && s ≠ "None"

def addSvcDetails (t : SvcTable) (form : SvcDetail) : SvcTable :=
  if isRoutableSvcIp form.svcIp then upsertSvcDetails t form else t

/-- What `/svc/ip` answers. -/
def svcIp (t : SvcTable) (ip : String) : Option SvcDetail := t.lookup ip

/-! The system. -/

inductive Change where
  | applied (svc : Service)
  | deleted (id : ServiceId)

/-- A request of a watcher. -/
structure Post where
  svc : Service
  now : NaiveDateTime
  detail : SvcDetail
  watched : watchService svc now = some detail

def postOf (svc : Service) (now : NaiveDateTime) : Option Post :=
  match h : watchService svc now with
  | some detail => some ⟨svc, now, detail, h⟩
  | none => none

/-- The stream that a watcher has before it, and the request that it waits for. -/
structure Controller where
  upcoming : List Change
  posting : Option Post

/-- Requests that their watcher no longer waits for may still arrive. -/
structure State (ν : Type*) where
  services : Table Service.id
  controllers : ν → Controller
  strays : List Post
  table : SvcTable

inductive Event (ν : Type*) where
  | change (c : Change)
  | next (w : ν) (now : NaiveDateTime)
  | arrives (w : ν)
  | givesUp (w : ν)
  | strayArrives (i : ℕ)
  | restart (w : ν) (before : Service → Service → Bool)

/-- The API server gives an address to one service at a time. -/
def AddressFree (services : Table Service.id) (svc : Service) : Prop :=
  svc.clusterIp.any isRoutableClusterIp = true →
    ∀ other ∈ services.rows, other.clusterIp = svc.clusterIp → other.id = svc.id

instance (services : Table Service.id) (svc : Service) : Decidable (AddressFree services svc) :=
  inferInstanceAs (Decidable (_ → ∀ other ∈ services.rows, _ → _))

def applyTo (services : Table Service.id) (svc : Service) : Table Service.id :=
  services.upsert svc (fun old => { svc with id := old.id }) fun _ => rfl

def remove (services : Table Service.id) (id : ServiceId) : Table Service.id :=
  services.delete fun svc => svc.id = id

variable {ν : Type*}

/-- Every watcher will see the change. -/
def State.announce (s : State ν) (c : Change) (services : Table Service.id) : State ν :=
  { s with
    services := services
    controllers := fun w =>
      { s.controllers w with upcoming := (s.controllers w).upcoming ++ [c] } }

variable [DecidableEq ν]

def State.setController (s : State ν) (w : ν) (c : Controller) : State ν :=
  { s with controllers := Function.update s.controllers w c }

@[simp] theorem controllers_setController (s : State ν) (w : ν) (c : Controller) (v : ν) :
    (s.setController w c).controllers v = if v = w then c else s.controllers v :=
  Function.update_apply s.controllers w c v

def step (s : State ν) : Event ν → Option (State ν)
  | .change (.applied svc) =>
      if AddressFree s.services svc then
        some (s.announce (.applied svc) (applyTo s.services svc))
      else none
  | .change (.deleted id) => some (s.announce (.deleted id) (remove s.services id))
  | .next w now =>
      match s.controllers w with
      | ⟨.applied svc :: rest, none⟩ => some (s.setController w ⟨rest, postOf svc now⟩)
      | ⟨.deleted _ :: rest, none⟩ => some (s.setController w ⟨rest, none⟩)
      | _ => none
  | .arrives w =>
      match s.controllers w with
      | ⟨upcoming, some post⟩ =>
          some { s.setController w ⟨upcoming, none⟩ with
            table := addSvcDetails s.table post.detail }
      | _ => none
  -- a time-out, a refused request, or the end of the process
  | .givesUp w =>
      match s.controllers w with
      | ⟨upcoming, some post⟩ =>
          some { s.setController w ⟨upcoming, none⟩ with strays := post :: s.strays }
      | _ => none
  | .strayArrives i =>
      s.strays[i]?.map fun post =>
        { s with strays := s.strays.eraseIdx i, table := addSvcDetails s.table post.detail }
  -- the stream of a new watcher begins with a listing, in some order
  | .restart w before =>
      if (s.controllers w).posting.isNone then
        some (s.setController w ⟨(s.services.rows.mergeSort before).map .applied, none⟩)
      else none

def machine (ν : Type*) [DecidableEq ν] : Machine (State ν) (Event ν) where
  init := ⟨Table.empty, fun _ => ⟨[], none⟩, [], Table.empty⟩
  step := step

/-! What is promised. -/

/-- The watcher posts the version under the address. -/
def Watched (svc : Service) (ip : String) : Prop :=
  svcUnready svc = none ∧ svc.clusterIp = some ip ∧ isRoutableClusterIp ip = true

instance (svc : Service) (ip : String) : Decidable (Watched svc ip) :=
  inferInstanceAs (Decidable (_ ∧ _ ∧ _))

/-- The row of a version. -/
def stored (svc : Service) (ip : String) (now : NaiveDateTime) : SvcDetail :=
  inserted (compacted (svcDetail svc ip now))

/-- No watcher gives up a request about the address. -/
def Answered (ip : String) (_ : List (Event ν)) (s : State ν) (e : Event ν) (_ : State ν) : Prop :=
  ∀ w, e = .givesUp w → ∀ post ∈ (s.controllers w).posting, post.detail.svcIp ≠ ip

def AtRest (s : State ν) : Prop :=
  ∀ w, (s.controllers w).upcoming = [] ∧ (s.controllers w).posting = none

def Current (services : Table Service.id) (ip : String) (svc : Service) : Prop :=
  svc ∈ services.rows ∧ Watched svc ip

/-! What a watcher posts, and the row that it becomes. -/

theorem watchService_eq_some_iff {svc : Service} {now : NaiveDateTime} {detail : SvcDetail} :
    watchService svc now = some detail ↔
      ∃ ip, Watched svc ip ∧ detail = svcDetail svc ip now := by
  unfold watchService updateServiceinfo Watched
  cases hready : svcUnready svc with
  | some reason => simp
  | none =>
      cases haddress : svc.clusterIp with
      | none => simp
      | some ip =>
          by_cases hroutable : isRoutableClusterIp ip = true
          · simp only [if_pos hroutable, Option.some.injEq]
            constructor
            · intro h
              exact ⟨ip, ⟨trivial, rfl, hroutable⟩, h.symm⟩
            · rintro ⟨ip', ⟨-, rfl, -⟩, h⟩
              exact h.symm
          · simp only [if_neg hroutable, Option.some.injEq]
            constructor
            · intro h
              cases h
            · rintro ⟨ip', ⟨-, rfl, hip⟩, -⟩
              exact absurd hip hroutable

theorem Post.watched_address (p : Post) :
    Watched p.svc p.detail.svcIp ∧ p.detail = svcDetail p.svc p.detail.svcIp p.now := by
  obtain ⟨ip, hip, hdetail⟩ := watchService_eq_some_iff.mp p.watched
  have haddress : p.detail.svcIp = ip := by rw [hdetail]; rfl
  rw [haddress]
  exact ⟨hip, hdetail⟩

theorem Watched.address_eq {svc : Service} {ip ip' : String} (h : Watched svc ip)
    (h' : Watched svc ip') : ip = ip' :=
  Option.some.inj (h.2.1.symm.trans h'.2.1)

theorem postOf_eq_some {svc : Service} {now : NaiveDateTime} {p : Post}
    (h : postOf svc now = some p) :
    p.svc = svc := by
  unfold postOf at h
  split at h
  · exact (Option.some.inj h) ▸ rfl
  · cases h

theorem postOf_eq_none {svc : Service} {now : NaiveDateTime} (h : postOf svc now = none)
    (ip : String) :
    ¬ Watched svc ip := by
  intro hip
  have hsome : watchService svc now = some (svcDetail svc ip now) :=
    watchService_eq_some_iff.mpr ⟨ip, hip, rfl⟩
  unfold postOf at h
  split at h
  · cases h
  · rename_i hnone
    exact absurd (hnone.symm.trans hsome) (by simp)

/-- The record of a post replaces what its row held. -/
theorem svcIp_addSvcDetails (t : SvcTable) (p : Post) (ip : String) :
    svcIp (addSvcDetails t p.detail) ip =
      if ip = p.detail.svcIp then some (stored p.svc ip p.now) else svcIp t ip := by
  obtain ⟨hwatched, hdetail⟩ := p.watched_address
  have hroutable : isRoutableSvcIp p.detail.svcIp = true := hwatched.2.2
  have hupsert : svcIp (addSvcDetails t p.detail) ip =
      if ip = p.detail.svcIp then
        some (((t.lookup ip).map (changeset (compacted p.detail))).getD
          (inserted (compacted p.detail)))
      else t.lookup ip := by
    rw [addSvcDetails, if_pos hroutable, upsertSvcDetails]
    exact Table.lookup_upsert t _ _ _ ip
  have hcompacted : compacted p.detail = compacted (svcDetail p.svc p.detail.svcIp p.now) :=
    congrArg compacted hdetail
  rw [hupsert]
  by_cases hip : ip = p.detail.svcIp
  · rw [if_pos hip, if_pos hip, hcompacted, ← hip]
    cases hold : t.lookup ip with
    | none => rfl
    | some row =>
        obtain rfl : row.svcIp = ip := Table.key_of_lookup hold
        rfl
  · rw [if_neg hip, if_neg hip]
    rfl

/-- Of a manifest only the status and what `managedFields` holds are dropped. -/
theorem compactSvcSpec_entry (manifest : Json) {key : String} (hstatus : key ≠ "status")
    (hmetadata : key ≠ "metadata") :
    (compactSvcSpec manifest).asObj.bind (List.lookup key) =
      manifest.asObj.bind (List.lookup key) := by
  cases manifest with
  | obj fields =>
      have hdelete : (deleteKey fields "status").lookup key = fields.lookup key := by
        rw [lookup_deleteKey, if_neg hstatus]
      unfold compactSvcSpec
      dsimp only
      split
      · rw [Json.asObj, Option.bind_some, lookup_setKey, if_neg hmetadata, hdelete]
        rfl
      · rw [Json.asObj, Option.bind_some, hdelete]
        rfl
  | _ => rfl

/-- Selector and ports are those of the version. -/
theorem stored_spec (svc : Service) (ip : String) (now : NaiveDateTime) :
    (stored svc ip now).serviceSpec.bind (fun obj => obj.asObj.bind (List.lookup "spec")) =
      svc.manifest.asObj.bind (List.lookup "spec") :=
  compactSvcSpec_entry svc.manifest (by decide) (by decide)

/-! The services of the cluster. -/

/-- Services that share an address are the same. -/
def OneAddress (services : Table Service.id) : Prop :=
  ∀ ip, ∀ a b, Current services ip a → Current services ip b → a = b

theorem mem_applyTo_iff (services : Table Service.id) (svc a : Service) :
    a ∈ (applyTo services svc).rows ↔ a = svc ∨ a ∈ services.rows ∧ a.id ≠ svc.id := by
  have hlookup (k : ServiceId) : (applyTo services svc).lookup k =
      if k = svc.id then some svc else services.lookup k := by
    rw [applyTo, Table.lookup_upsert]
    by_cases hk : k = svc.id
    · subst hk
      rw [if_pos rfl, if_pos rfl]
      cases hold : services.lookup svc.id with
      | none => rfl
      | some old =>
          have hid : old.id = svc.id := Table.key_of_lookup hold
          simp [hid]
    · rw [if_neg hk, if_neg hk]
  constructor
  · intro ha
    have hself := Table.lookup_of_mem ha
    rw [hlookup] at hself
    by_cases hid : a.id = svc.id
    · rw [if_pos hid] at hself
      exact Or.inl (Option.some.inj hself).symm
    · rw [if_neg hid] at hself
      exact Or.inr ⟨Table.mem_of_lookup hself, hid⟩
  · rintro (rfl | ⟨ha, hid⟩)
    · apply Table.mem_of_lookup (k := a.id)
      rw [hlookup, if_pos rfl]
    · apply Table.mem_of_lookup (k := a.id)
      rw [hlookup, if_neg hid]
      exact Table.lookup_of_mem ha

theorem mem_remove_iff (services : Table Service.id) (id : ServiceId) (a : Service) :
    a ∈ (remove services id).rows ↔ a ∈ services.rows ∧ a.id ≠ id := by
  simp [remove, Table.delete]

theorem OneAddress.applyTo {services : Table Service.id} (h : OneAddress services) {svc : Service}
    (hfree : AddressFree services svc) : OneAddress (applyTo services svc) := by
  have hnew (ip : String) (a : Service) (hsvc : Watched svc ip) (ha : a ∈ services.rows)
      (hid : a.id ≠ svc.id) : ¬ Watched a ip := by
    intro haip
    apply hid
    apply hfree (by simp [hsvc.2.1, hsvc.2.2]) a ha
    rw [haip.2.1, hsvc.2.1]
  intro ip a b ha hb
  obtain rfl | ⟨hamem, haid⟩ := (mem_applyTo_iff services svc a).mp ha.1
  · obtain rfl | ⟨hbmem, hbid⟩ := (mem_applyTo_iff services a b).mp hb.1
    · rfl
    · exact absurd hb.2 (hnew ip b ha.2 hbmem hbid)
  · obtain rfl | ⟨hbmem, -⟩ := (mem_applyTo_iff services svc b).mp hb.1
    · exact absurd ha.2 (hnew ip a hb.2 hamem haid)
    · exact h ip a b ⟨hamem, ha.2⟩ ⟨hbmem, hb.2⟩

theorem OneAddress.remove {services : Table Service.id} (h : OneAddress services)
    (id : ServiceId) : OneAddress (remove services id) := by
  intro ip a b ha hb
  have hamem := (mem_remove_iff services id a).mp ha.1
  have hbmem := (mem_remove_iff services id b).mp hb.1
  exact h ip a b ⟨hamem.1, ha.2⟩ ⟨hbmem.1, hb.2⟩

/-! One address. -/

def Change.service : Change → Option Service
  | .applied svc => some svc
  | .deleted _ => none

/-- The versions that a watcher will still post under the address. -/
def Controller.todo (c : Controller) (ip : String) : List Service :=
  (c.posting.toList.map Post.svc ++ c.upcoming.filterMap Change.service).filter
    fun svc => Watched svc ip

/-- The row of the address is that of the service that has it. -/
def Shows (services : Table Service.id) (t : SvcTable) (ip : String) : Prop :=
  ∃ svc now, Current services ip svc ∧ svcIp t ip = some (stored svc ip now)

structure Settles (ip : String) (s : State ν) : Prop where
  oneAddress : OneAddress s.services
  strays : ∀ p ∈ s.strays, p.detail.svcIp ≠ ip
  settling : (∃ svc, Current s.services ip svc) →
    Settling (Current s.services ip) (fun w => (s.controllers w).todo ip)
      (Shows s.services s.table ip)

omit [DecidableEq ν] in
theorem todo_announce (s : State ν) (c : Change) (services : Table Service.id) (ip : String) :
    (fun w => ((s.announce c services).controllers w).todo ip) =
      fun w => (s.controllers w).todo ip ++ c.service.toList.filter fun svc => Watched svc ip := by
  funext w
  cases c <;> simp [State.announce, Controller.todo, Change.service]

theorem todo_setController (s : State ν) (w : ν) (c : Controller) (ip : String) :
    (fun v => ((s.setController w c).controllers v).todo ip) =
      Function.update (fun v => (s.controllers v).todo ip) w (c.todo ip) := by
  funext v
  by_cases hv : v = w
  · subst hv
    simp
  · simp [hv]

/-- A change that leaves the address its service leaves nothing else to do for it. -/
theorem current_eq {services services' : Table Service.id} {ip : String} {svc : Service}
    (hone : OneAddress services) (hone' : OneAddress services') (h : Current services ip svc)
    (h' : Current services' ip svc) : Current services' ip = Current services ip := by
  funext a
  apply propext
  constructor
  · intro ha
    rwa [hone' ip a svc ha h']
  · intro ha
    rwa [hone ip a svc ha h]

theorem todo_next {svc : Service} {rest : List Change} {now : NaiveDateTime} {ip : String} :
    Controller.todo ⟨rest, postOf svc now⟩ ip =
      Controller.todo ⟨.applied svc :: rest, none⟩ ip := by
  cases hpost : postOf svc now with
  | none =>
      have hnot := postOf_eq_none hpost ip
      simp [Controller.todo, Change.service, hnot]
  | some p =>
      obtain rfl := postOf_eq_some hpost
      simp [Controller.todo, Change.service]

theorem todo_answered {upcoming : List Change} {p : Post} {ip : String} (h : p.detail.svcIp ≠ ip) :
    Controller.todo ⟨upcoming, none⟩ ip = Controller.todo ⟨upcoming, some p⟩ ip := by
  have hnot : ¬ Watched p.svc ip := by
    intro hip
    exact h (p.watched_address.1.address_eq hip)
  simp [Controller.todo, hnot]

theorem todo_arrives {upcoming : List Change} {p : Post} {ip : String} (h : p.detail.svcIp = ip) :
    Controller.todo ⟨upcoming, some p⟩ ip = p.svc :: Controller.todo ⟨upcoming, none⟩ ip := by
  have hip : Watched p.svc ip := h ▸ p.watched_address.1
  simp [Controller.todo, hip]

/-- A step that changes one controller, and neither what it has to do nor the row. -/
theorem Settles.idle {ip : String} {s : State ν} (h : Settles ip s) {w : ν} {c : Controller}
    (hc : c.todo ip = (s.controllers w).todo ip) {strays : List Post}
    (hstrays : ∀ p ∈ strays, p.detail.svcIp ≠ ip) {t : SvcTable}
    (ht : svcIp t ip = svcIp s.table ip) :
    Settles ip { s.setController w c with strays := strays, table := t } where
  oneAddress := h.oneAddress
  strays := hstrays
  settling hcurrent := by
    have hsame := todo_setController s w c ip
    rw [hc, Function.update_eq_self] at hsame
    have hshows : Shows s.services t ip = Shows s.services s.table ip := by
      unfold Shows
      rw [ht]
    show Settling _ (fun v => ((s.setController w c).controllers v).todo ip)
      (Shows s.services t ip)
    rw [hsame, hshows]
    exact h.settling hcurrent

omit [DecidableEq ν] in
theorem Settles.applied [Nonempty ν] {ip : String} {s : State ν} (h : Settles ip s)
    {svc : Service} (hfree : AddressFree s.services svc) :
    Settles ip (s.announce (.applied svc) (applyTo s.services svc)) where
  oneAddress := h.oneAddress.applyTo hfree
  strays := h.strays
  settling := by
    rintro ⟨cur, hcur⟩
    rw [todo_announce]
    by_cases hip : Watched svc ip
    · have hnew : Current (applyTo s.services svc) ip svc :=
        ⟨(mem_applyTo_iff _ _ _).mpr (Or.inl rfl), hip⟩
      have htodo : (Change.applied svc).service.toList.filter (fun svc => Watched svc ip) =
          [svc] := by
        simp [Change.service, hip]
      rw [htodo]
      exact settling_append _ hnew
    · have htodo : (Change.applied svc).service.toList.filter (fun svc => Watched svc ip) =
          [] := by
        simp [Change.service, hip]
      obtain rfl | ⟨hmem, -⟩ := (mem_applyTo_iff _ _ _).mp hcur.1
      · exact absurd hcur.2 hip
      · have hold : Current s.services ip cur := ⟨hmem, hcur.2⟩
        have hsame := current_eq h.oneAddress (h.oneAddress.applyTo hfree) hold hcur
        have hshows : Shows (applyTo s.services svc) s.table ip =
            Shows s.services s.table ip := by
          unfold Shows
          rw [hsame]
        simp only [htodo, List.append_nil]
        show Settling (Current (applyTo s.services svc) ip) _
          (Shows (applyTo s.services svc) s.table ip)
        rw [hsame, hshows]
        exact h.settling ⟨cur, hold⟩

omit [DecidableEq ν] in
theorem Settles.deleted {ip : String} {s : State ν} (h : Settles ip s) (id : ServiceId) :
    Settles ip (s.announce (.deleted id) (remove s.services id)) where
  oneAddress := h.oneAddress.remove id
  strays := h.strays
  settling := by
    rintro ⟨cur, hcur⟩
    have hold : Current s.services ip cur := ⟨((mem_remove_iff _ _ _).mp hcur.1).1, hcur.2⟩
    have hsame := current_eq h.oneAddress (h.oneAddress.remove id) hold hcur
    have hshows : Shows (remove s.services id) s.table ip = Shows s.services s.table ip := by
      unfold Shows
      rw [hsame]
    rw [todo_announce]
    simp only [Change.service, Option.toList_none, List.filter_nil, List.append_nil]
    show Settling (Current (remove s.services id) ip) _ (Shows (remove s.services id) s.table ip)
    rw [hsame, hshows]
    exact h.settling ⟨cur, hold⟩

theorem Settles.arrives {ip : String} {s : State ν} (h : Settles ip s) {w : ν}
    {upcoming : List Change} {p : Post} (hw : s.controllers w = ⟨upcoming, some p⟩) :
    Settles ip { s.setController w ⟨upcoming, none⟩ with
      table := addSvcDetails s.table p.detail } := by
  have hrow := svcIp_addSvcDetails s.table p ip
  by_cases hip : p.detail.svcIp = ip
  · rw [if_pos hip.symm] at hrow
    refine ⟨h.oneAddress, h.strays, fun hcurrent => ?_⟩
    have htodo : (s.controllers w).todo ip = p.svc :: Controller.todo ⟨upcoming, none⟩ ip := by
      rw [hw, todo_arrives hip]
    have hshows : Current s.services ip p.svc →
        Shows s.services (addSvcDetails s.table p.detail) ip :=
      fun hsvc => ⟨p.svc, p.now, hsvc, hrow⟩
    have hwrite := (h.settling hcurrent).write htodo hshows
    rw [← todo_setController] at hwrite
    exact hwrite
  · rw [if_neg (Ne.symm hip)] at hrow
    apply h.idle _ h.strays hrow
    rw [hw, todo_answered hip]

theorem Settles.restart {ip : String} {s : State ν} (h : Settles ip s) (w : ν)
    (before : Service → Service → Bool) :
    Settles ip (s.setController w ⟨(s.services.rows.mergeSort before).map .applied, none⟩) where
  oneAddress := h.oneAddress
  strays := h.strays
  settling := by
    rintro ⟨cur, hcur⟩
    have htodo : Controller.todo ⟨(s.services.rows.mergeSort before).map .applied, none⟩ ip =
        (s.services.rows.mergeSort before).filter fun svc => Watched svc ip := by
      simp [Controller.todo, Change.service, Function.comp_def]
    have hall : ∀ a ∈ (s.services.rows.mergeSort before).filter (fun svc => Watched svc ip),
        Current s.services ip a := by
      intro a ha
      obtain ⟨hmem, hip⟩ := List.mem_filter.mp ha
      exact ⟨List.mem_mergeSort.mp hmem, of_decide_eq_true hip⟩
    have hne : (s.services.rows.mergeSort before).filter (fun svc => Watched svc ip) ≠ [] := by
      apply List.ne_nil_of_mem (a := cur)
      exact List.mem_filter.mpr ⟨List.mem_mergeSort.mpr hcur.1, decide_eq_true hcur.2⟩
    rw [todo_setController, htodo]
    exact (h.settling ⟨cur, hcur⟩).restart w (endsCurrent_of_forall hall) hne

theorem Settles.step [Nonempty ν] {ip : String} {s s' : State ν} {e : Event ν}
    {events : List (Event ν)} (h : Settles ip s) (hstep : (machine ν).step s e = some s')
    (hanswered : Answered ip events s e s') : Settles ip s' := by
  cases e with
  | change c =>
      cases c with
      | applied svc =>
          obtain ⟨hfree, rfl⟩ := Machine.of_guard hstep
          exact h.applied hfree
      | deleted id =>
          obtain rfl := Option.some.inj hstep
          exact h.deleted id
  | next w now =>
      simp only [machine, ServiceTable.step] at hstep
      split at hstep
      · rename_i svc rest hw
        obtain rfl := Option.some.inj hstep
        apply h.idle _ h.strays rfl
        rw [hw, todo_next]
      · rename_i id rest hw
        obtain rfl := Option.some.inj hstep
        apply h.idle _ h.strays rfl
        rw [hw]
        rfl
      · cases hstep
  | arrives w =>
      simp only [machine, ServiceTable.step] at hstep
      split at hstep
      · rename_i upcoming p hw
        obtain rfl := Option.some.inj hstep
        exact h.arrives hw
      · cases hstep
  | givesUp w =>
      simp only [machine, ServiceTable.step] at hstep
      split at hstep
      · rename_i upcoming p hw
        obtain rfl := Option.some.inj hstep
        have hp : p.detail.svcIp ≠ ip := hanswered w rfl p (by rw [hw]; rfl)
        apply h.idle _ _ rfl
        · rw [hw, todo_answered hp]
        · intro q hq
          obtain rfl | hq := List.mem_cons.mp hq
          · exact hp
          · exact h.strays q hq
      · cases hstep
  | strayArrives i =>
      obtain ⟨p, hp, rfl⟩ := Option.map_eq_some_iff.mp hstep
      have hne := h.strays p (List.mem_of_getElem? hp)
      have hrow := svcIp_addSvcDetails s.table p ip
      rw [if_neg (Ne.symm hne)] at hrow
      refine ⟨h.oneAddress, fun q hq => h.strays q (List.mem_of_mem_eraseIdx hq), ?_⟩
      have hshows : Shows s.services (addSvcDetails s.table p.detail) ip =
          Shows s.services s.table ip := by
        unfold Shows
        rw [hrow]
      intro hcurrent
      show Settling _ (fun w => (s.controllers w).todo ip)
        (Shows s.services (addSvcDetails s.table p.detail) ip)
      rw [hshows]
      exact h.settling hcurrent
  | restart w before =>
      obtain ⟨-, rfl⟩ := Machine.of_guard hstep
      exact h.restart w before

theorem settles_init (ip : String) : Settles ip (machine ν).init where
  oneAddress ip a b ha hb := by
    cases ha.1
  strays p hp := by
    cases hp
  settling := by
    rintro ⟨svc, hsvc⟩
    cases hsvc.1

/-- The invariant over runs in which the requests about the address are answered. -/
theorem settles_run [Nonempty ν] {events : List (Event ν)} {s : State ν} {ip : String}
    (h : (machine ν).run events = some s) (hanswered : (machine ν).EveryStep events (Answered ip)) :
    Settles ip s := by
  refine Machine.invariant_of_everyStep (P := fun _ s => Settles ip s) (settles_init ip) ?_ h
    hanswered
  intro before s₀ e s' _ hs₀ hstep hcond
  exact hs₀.step hstep hcond

/-! Where rows come from. -/

/-- A version that the service had at some time. -/
def Had (events : List (Event ν)) (svc : Service) : Prop :=
  Event.change (.applied svc) ∈ events

structure Told (events : List (Event ν)) (s : State ν) : Prop where
  services : ∀ svc ∈ s.services.rows, Had events svc
  upcoming : ∀ w, ∀ svc, Change.applied svc ∈ (s.controllers w).upcoming → Had events svc
  posting : ∀ w, ∀ p ∈ (s.controllers w).posting, Had events p.svc
  strays : ∀ p ∈ s.strays, Had events p.svc
  rows : ∀ ip row, svcIp s.table ip = some row →
    ∃ svc now, Had events svc ∧ Watched svc ip ∧ row = stored svc ip now

omit [DecidableEq ν] in
theorem Had.concat {events : List (Event ν)} {svc : Service} (h : Had events svc) (e : Event ν) :
    Had (events ++ [e]) svc :=
  List.mem_append_left _ h

omit [DecidableEq ν] in
theorem Told.concat {events : List (Event ν)} {s : State ν} (h : Told events s) (e : Event ν) :
    Told (events ++ [e]) s where
  services svc hsvc := (h.services svc hsvc).concat e
  upcoming w svc hsvc := (h.upcoming w svc hsvc).concat e
  posting w p hp := (h.posting w p hp).concat e
  strays p hp := (h.strays p hp).concat e
  rows ip row hrow := by
    obtain ⟨svc, now, hsvc, hip, heq⟩ := h.rows ip row hrow
    exact ⟨svc, now, hsvc.concat e, hip, heq⟩

omit [DecidableEq ν] in
theorem rows_addSvcDetails {events : List (Event ν)} {s : State ν} (h : Told events s) {p : Post}
    (hp : Had events p.svc) (ip : String) (row : SvcDetail)
    (hrow : svcIp (addSvcDetails s.table p.detail) ip = some row) :
    ∃ svc now, Had events svc ∧ Watched svc ip ∧ row = stored svc ip now := by
  rw [svcIp_addSvcDetails] at hrow
  split at hrow
  · rename_i hip
    have hwatched := p.watched_address.1
    rw [← hip] at hwatched
    exact ⟨p.svc, p.now, hp, hwatched, (Option.some.inj hrow).symm⟩
  · exact h.rows ip row hrow

/-- A step that changes one controller. -/
theorem Told.setController {events : List (Event ν)} {s : State ν} (h : Told events s) {w : ν}
    {c : Controller} (hupcoming : ∀ svc, Change.applied svc ∈ c.upcoming → Had events svc)
    (hposting : ∀ p ∈ c.posting, Had events p.svc) : Told events (s.setController w c) where
  services := h.services
  upcoming v svc hsvc := by
    by_cases hv : v = w
    · subst hv
      rw [controllers_setController, if_pos rfl] at hsvc
      exact hupcoming svc hsvc
    · rw [controllers_setController, if_neg hv] at hsvc
      exact h.upcoming v svc hsvc
  posting v p hp := by
    by_cases hv : v = w
    · subst hv
      rw [controllers_setController, if_pos rfl] at hp
      exact hposting p hp
    · rw [controllers_setController, if_neg hv] at hp
      exact h.posting v p hp
  strays := h.strays
  rows := h.rows

/-- A watcher whose request is over. -/
theorem Told.answered {events : List (Event ν)} {s : State ν} (h : Told events s) {w : ν}
    {upcoming : List Change} {p : Post} (hw : s.controllers w = ⟨upcoming, some p⟩) :
    Told events (s.setController w ⟨upcoming, none⟩) ∧ Had events p.svc := by
  have hupcoming := h.upcoming w
  have hposting := h.posting w
  rw [hw] at hupcoming hposting
  refine ⟨h.setController hupcoming ?_, hposting p rfl⟩
  intro q hq
  cases hq

theorem Told.step {events : List (Event ν)} {s s' : State ν} {e : Event ν} (h : Told events s)
    (hstep : (machine ν).step s e = some s') : Told (events ++ [e]) s' := by
  have h' := h.concat e
  cases e with
  | change c =>
      cases c with
      | applied svc =>
          obtain ⟨-, rfl⟩ := Machine.of_guard hstep
          have hnew : Had (events ++ [.change (.applied svc)]) svc :=
            List.mem_append_right _ (List.mem_singleton_self _)
          refine ⟨?_, ?_, h'.posting, h'.strays, h'.rows⟩
          · intro a ha
            obtain rfl | ⟨hmem, -⟩ := (mem_applyTo_iff _ _ _).mp ha
            · exact hnew
            · exact h'.services a hmem
          · intro w a ha
            obtain ha | ha := List.mem_append.mp ha
            · exact h'.upcoming w a ha
            · obtain rfl := Change.applied.inj (List.mem_singleton.mp ha)
              exact hnew
      | deleted id =>
          obtain rfl := Option.some.inj hstep
          refine ⟨?_, ?_, h'.posting, h'.strays, h'.rows⟩
          · intro a ha
            exact h'.services a ((mem_remove_iff _ _ _).mp ha).1
          · intro w a ha
            obtain ha | ha := List.mem_append.mp ha
            · exact h'.upcoming w a ha
            · cases List.mem_singleton.mp ha
  | next w now =>
      simp only [machine, ServiceTable.step] at hstep
      split at hstep
      · rename_i svc rest hw
        obtain rfl := Option.some.inj hstep
        have hupcoming := h'.upcoming w
        rw [hw] at hupcoming
        apply h'.setController
        · intro a ha
          exact hupcoming a (List.mem_cons_of_mem _ ha)
        · intro p hp
          obtain rfl := postOf_eq_some hp
          exact hupcoming p.svc List.mem_cons_self
      · rename_i id rest hw
        obtain rfl := Option.some.inj hstep
        have hupcoming := h'.upcoming w
        rw [hw] at hupcoming
        apply h'.setController
        · intro a ha
          exact hupcoming a (List.mem_cons_of_mem _ ha)
        · intro p hp
          cases hp
      · cases hstep
  | arrives w =>
      simp only [machine, ServiceTable.step] at hstep
      split at hstep
      · rename_i upcoming p hw
        obtain rfl := Option.some.inj hstep
        obtain ⟨hset, hhad⟩ := h'.answered hw
        exact ⟨hset.services, hset.upcoming, hset.posting, hset.strays,
          rows_addSvcDetails h' hhad⟩
      · cases hstep
  | givesUp w =>
      simp only [machine, ServiceTable.step] at hstep
      split at hstep
      · rename_i upcoming p hw
        obtain rfl := Option.some.inj hstep
        obtain ⟨hset, hhad⟩ := h'.answered hw
        refine ⟨hset.services, hset.upcoming, hset.posting, ?_, hset.rows⟩
        intro q hq
        obtain rfl | hq := List.mem_cons.mp hq
        · exact hhad
        · exact h'.strays q hq
      · cases hstep
  | strayArrives i =>
      obtain ⟨p, hp, rfl⟩ := Option.map_eq_some_iff.mp hstep
      have hhad := h'.strays p (List.mem_of_getElem? hp)
      exact ⟨h'.services, h'.upcoming, h'.posting,
        fun q hq => h'.strays q (List.mem_of_mem_eraseIdx hq), rows_addSvcDetails h' hhad⟩
  | restart w before =>
      obtain ⟨-, rfl⟩ := Machine.of_guard hstep
      apply h'.setController
      · intro svc hsvc
        obtain ⟨a, ha, heq⟩ := List.mem_map.mp hsvc
        obtain rfl := Change.applied.inj heq
        exact h'.services a (List.mem_mergeSort.mp ha)
      · intro p hp
        cases hp

theorem told_run {events : List (Event ν)} {s : State ν} (h : (machine ν).run events = some s) :
    Told events s := by
  refine Machine.invariant ?_ ?_ h
  · refine ⟨?_, ?_, ?_, ?_, ?_⟩
    · intro svc hsvc
      cases hsvc
    · intro w svc hsvc
      cases hsvc
    · intro w p hp
      cases hp
    · intro p hp
      cases hp
    · intro ip row hrow
      cases hrow
  · intro before s₀ e s' _ hs₀ hstep
    exact hs₀.step hstep

/-! The answers. -/

/-- What `/svc/ip` answers after the events. -/
structure AnswersLookups (events : List (Event ν)) (s : State ν) (ip : String) : Prop where
  /-- Only versions that a service had under the address. -/
  told : ∀ row, svcIp s.table ip = some row →
    ∃ svc now, Had events svc ∧ Watched svc ip ∧ row = stored svc ip now
  /-- The latest version, once all watchers are through and none gave up on the address. -/
  latest : Nonempty ν → (machine ν).EveryStep events (Answered ip) → AtRest s →
    ∀ svc ∈ s.services.rows, Watched svc ip → ∃ now, svcIp s.table ip = some (stored svc ip now)

/-- However many controllers watch the services, and however far they are apart. -/
theorem lookups_settle {events : List (Event ν)} {s : State ν}
    (h : (machine ν).run events = some s) (ip : String) : AnswersLookups events s ip where
  told := (told_run h).rows ip
  latest := by
    intro hnonempty hanswered hrest svc hsvc hip
    have hsettles := settles_run h hanswered
    have hcurrent : Current s.services ip svc := ⟨hsvc, hip⟩
    have hdone : ∀ w, (s.controllers w).todo ip = [] := by
      intro w
      obtain ⟨hupcoming, hposting⟩ := hrest w
      simp [Controller.todo, hupcoming, hposting]
    obtain ⟨shown, now, hshown, hrow⟩ := (hsettles.settling ⟨svc, hcurrent⟩).shown hdone
    obtain rfl := hsettles.oneAddress ip svc shown hcurrent hshown
    exact ⟨now, hrow⟩

theorem answered_of_noGivesUp {events : List (Event ν)} (h : ∀ w, .givesUp w ∉ events)
    (ip : String) : (machine ν).EveryStep events (Answered ip) := by
  rintro before e after s s' rfl - - w rfl
  exact absurd (List.mem_append_right _ List.mem_cons_self) (h w)

/-- Two versions of a service. -/
def web (version : String) : Service :=
  ⟨⟨"shop", "web"⟩, some "10.0.0.7", none, .str version⟩

/-- The second controller posts the first version when the other has posted both. -/
def rollout : List (Event Bool) :=
  [.change (.applied (web "1")), .next false 1000000000, .change (.applied (web "2")),
    .next true 2000000000, .arrives true, .next true 3000000000, .arrives true, .arrives false,
    .next false 4000000000, .arrives false]

theorem rollout_settles : ∃ s, (machine Bool).run rollout = some s ∧
    ∃ now, svcIp s.table "10.0.0.7" = some (stored (web "2") "10.0.0.7" now) := by
  have hrun : ((machine Bool).run rollout).isSome = true := rfl
  refine ⟨_, (Option.some_get hrun).symm, ?_⟩
  have hnoGivesUp : ∀ w, Event.givesUp w ∉ rollout := by
    intro w
    simp [rollout]
  apply (lookups_settle (Option.some_get hrun).symm "10.0.0.7").latest ⟨true⟩
    (answered_of_noGivesUp hnoGivesUp _)
  · intro w
    cases w <;> exact ⟨rfl, rfl⟩
  · exact List.mem_singleton_self _
  · exact ⟨rfl, rfl, rfl⟩

end KGuardian.ServiceTable
