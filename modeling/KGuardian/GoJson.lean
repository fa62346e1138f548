import KGuardian.TextScan
import Mathlib.Data.List.AList
import Mathlib.Data.List.Sort

/-!
Go's `encoding/json` as a decoder from JSON trees. A decoder gets all values that are
decoded into one target, in order, since `null` and repeated keys leave parts of it in
place, and so does a second array for the elements of the first. A failed decoder is one
that reports an error for the whole document.
-/
namespace KGuardian.GoJson

open TextScan

/-- A JSON tree. Integers are apart from other numbers, as they are in the
untyped trees of the Kubernetes client. -/
inductive Json where
  | null
  | bool (b : Bool)
  | int (n : ℤ)
  | float (text : String)
  | str (s : String)
  | arr (items : List Json)
  | obj (fields : List (String × Json))

abbrev Fields := List (String × Json)

/-- The type assertion to an object. -/
def Json.asObj : Json → Option Fields
  | .obj fields => some fields
  | _ => none

def Json.asArr : Json → Option (List Json)
  | .arr items => some items
  | _ => none

def Json.asStr : Json → Option String
  | .str s => some s
  | _ => none

/-- The statement `delete(fields, key)`. -/
def deleteKey (fields : Fields) (key : String) : Fields := fields.filter fun e => e.1 ≠ key

variable {α : Type}

/-- What the values make of a target that is zero before. -/
abbrev Decoder (α : Type) := List Json → Option α

/-- A target that is overwritten as a whole, by one value after the other. -/
def decodeEach (zero : α) (read : α → Json → Option α) : Decoder α := fun values =>
  values.foldlM read zero

def readString : String → Json → Option String
  | old, .null => some old
  | _, .str s => some s
  | _, _ => none

def decodeString : Decoder String := decodeEach "" readString

def readInt32 : ℤ → Json → Option ℤ
  | old, .null => some old
  | _, .int n => if -2 ^ 31 ≤ n ∧ n < 2 ^ 31 then some n else none
  | _, _ => none

def decodeInt32 : Decoder ℤ := decodeEach 0 readInt32

/-- A `map[string]string`. A `null` entry is stored as the empty string. -/
def readMap : (AList fun _ : String => String) → Json → Option (AList fun _ : String => String)
  | _, .null => some ∅
  | old, .obj fields =>
      fields.foldlM (fun m e => (readString "" e.2).map fun v => m.insert e.1 v) old
  | _, _ => none

def decodeMap : Decoder (AList fun _ : String => String) := decodeEach ∅ readMap

/-- The values of what a pointer points to: `null` sets it to nil, anything else is decoded into
what it points to, which is new after nil. -/
def pointTo (dec : Decoder α) : Option (List Json) → Json → Option (Option (List Json))
  | _, .null => some none
  | target, j =>
      let values := target.getD [] ++ [j]
      (dec values).map fun _ => some values

def decodePtr (dec : Decoder α) : Decoder (Option α) := fun values =>
  (values.foldlM (pointTo dec) none).bind fun
    | none => some none
    | some target => (dec target).map some

/-- The memory of a slice: the values of each element, and how many elements belong to the slice.
The others are behind its length and come back, as they are, when it grows again. -/
structure Slice where
  elements : List (List Json)
  length : ℕ

/-- Each item goes into the element of its index, which is new where there is none yet. -/
def writeItems : List (List Json) → List Json → List (List Json)
  | elements, [] => elements
  | [], j :: items => [j] :: writeItems [] items
  | values :: elements, j :: items => (values ++ [j]) :: writeItems elements items

/-- The slice is a new one after `null` and after an empty array. -/
def Slice.write (dec : Decoder α) : Slice → Json → Option Slice
  | _, .null | _, .arr [] => some ⟨[], 0⟩
  | slice, .arr (j :: items) =>
      let elements := writeItems slice.elements (j :: items)
      (elements.mapM dec).map fun _ => ⟨elements, items.length + 1⟩
  | _, _ => none

def decodeSlice (dec : Decoder α) : Decoder (List α) := fun values =>
  (values.foldlM (Slice.write dec) ⟨[], 0⟩).bind fun slice =>
    (slice.elements.take slice.length).mapM dec

/-- The values decoded into one field of a struct, in the order in which the
encoder writes a map. Keys match field names without regard to case. -/
def fieldValues (name : String) (fields : Fields) : List Json :=
  ((fields.filter fun e => equalFold e.1 name).insertionSort fun a b => a.1 ≤ b.1).map Prod.snd

/-- A field of a struct gets the values that the objects have for it. -/
def decodeField (dec : Decoder α) (name : String) (objects : List Fields) : Option α :=
  dec (objects.flatMap (fieldValues name))

def objectsOf : List Json → Option (List Fields)
  | [] => some []
  | .null :: rest => objectsOf rest
  | .obj fields :: rest => (objectsOf rest).map (fields :: ·)
  | _ :: _ => none

/-- A struct: `null` changes nothing, and an object is decoded field by field. -/
def decodeStruct (dec : List Fields → Option α) : Decoder α := fun values =>
  (objectsOf values).bind dec

/-! One value for a target that is zero before. -/

theorem decodeSlice_arr (dec : Decoder α) (items : List Json) :
    decodeSlice dec [.arr items] = items.mapM fun j => dec [j] := by
  have hitems : writeItems [] items = items.map fun j => [j] := by
    induction items with
    | nil => rfl
    | cons j items ih => rw [writeItems, ih, List.map_cons]
  cases items with
  | nil => rfl
  | cons j items =>
      simp only [decodeSlice, List.foldlM_cons, List.foldlM_nil, Slice.write, hitems]
      rw [List.mapM_map]
      cases hdec : (j :: items).mapM (dec ∘ fun j => [j]) with
      | none => exact hdec.symm
      | some decoded =>
          have htake : ((j :: items).map fun j => [j]).take (items.length + 1) =
              (j :: items).map fun j => [j] := by
            rw [List.take_of_length_le]
            simp
          simp only [Option.map_some, Option.bind_eq_bind, Option.bind_some, Option.pure_def, htake]
          rw [List.mapM_map, hdec]
          exact hdec.symm

theorem decodePtr_obj (dec : Decoder α) (fields : Fields) :
    decodePtr dec [.obj fields] = (dec [.obj fields]).map some := by
  simp only [decodePtr, List.foldlM_cons, List.foldlM_nil, pointTo, Option.getD_none,
    List.nil_append]
  cases hdec : dec [.obj fields] with
  | none => rfl
  | some a => simp [hdec]

theorem decodeStruct_obj (dec : List Fields → Option α) (fields : Fields) :
    decodeStruct dec [.obj fields] = dec [fields] := rfl

theorem decodeField_single (dec : Decoder α) (name : String) (fields : Fields) :
    decodeField dec name [fields] = dec (fieldValues name fields) := by
  rw [decodeField, List.flatMap_singleton]

theorem fieldValues_deleteKey (fields : Fields) (name key : String)
    (hkey : equalFold key name = false) :
    fieldValues name (deleteKey fields key) = fieldValues name fields := by
  have hfilter : (deleteKey fields key).filter (fun e => equalFold e.1 name) =
      fields.filter fun e => equalFold e.1 name := by
    rw [deleteKey, List.filter_filter]
    apply List.filter_congr
    intro e _
    by_cases he : e.1 = key
    · simp [he, hkey]
    · simp [he]
  rw [fieldValues, fieldValues, hfilter]

theorem decodeField_deleteKey (dec : Decoder α) (fields : Fields) (name key : String)
    (hkey : equalFold key name = false) :
    decodeField dec name [deleteKey fields key] = decodeField dec name [fields] := by
  rw [decodeField_single, decodeField_single, fieldValues_deleteKey fields name key hkey]

theorem fieldValues_append_left (name : String) (fields others : Fields)
    (hothers : ∀ e ∈ others, equalFold e.1 name = false) :
    fieldValues name (fields ++ others) = fieldValues name fields := by
  have hnil : others.filter (fun e => equalFold e.1 name) = [] := by
    rw [List.filter_eq_nil_iff]
    intro e he
    simp [hothers e he]
  rw [fieldValues, List.filter_append, hnil, List.append_nil, fieldValues]

theorem fieldValues_append_right (name : String) (others fields : Fields)
    (hothers : ∀ e ∈ others, equalFold e.1 name = false) :
    fieldValues name (others ++ fields) = fieldValues name fields := by
  have hnil : others.filter (fun e => equalFold e.1 name) = [] := by
    rw [List.filter_eq_nil_iff]
    intro e he
    simp [hothers e he]
  rw [fieldValues, List.filter_append, hnil, List.nil_append, fieldValues]

/-- Where keys are distinct and no key differs from the name by case alone, a
field has the value under its own name or none. -/
theorem fieldValues_exact (fields : Fields) (name : String)
    (hnodup : (fields.map Prod.fst).Nodup)
    (hexact : ∀ e ∈ fields, equalFold e.1 name = true → e.1 = name) :
    fieldValues name fields = (fields.lookup name).toList := by
  have hfilter : fields.filter (fun e => equalFold e.1 name) =
      ((fields.lookup name).map fun v => (name, v)).toList := by
    induction fields with
    | nil => rfl
    | cons e rest ih =>
        obtain ⟨hnot, hrest⟩ := List.nodup_cons.mp hnodup
        have hih := ih hrest fun x hx => hexact x (List.mem_cons_of_mem _ hx)
        by_cases he : e.1 = name
        · have hnone : rest.filter (fun e => equalFold e.1 name) = [] := by
            rw [List.filter_eq_nil_iff]
            intro x hx hfold
            have hxn : x.1 = name := hexact x (List.mem_cons_of_mem _ hx) hfold
            exact hnot (List.mem_map.mpr ⟨x, hx, hxn.trans he.symm⟩)
          obtain ⟨k, v⟩ := e
          have hk : k = name := he
          subst hk
          rw [List.filter_cons_of_pos (by simp), hnone]
          simp
        · have hfold : ¬ equalFold e.1 name = true := fun h =>
            he (hexact e List.mem_cons_self h)
          rw [List.filter_cons, if_neg hfold, hih]
          obtain ⟨k, v⟩ := e
          have hbeq : (name == k) = false := beq_eq_false_iff_ne.mpr (Ne.symm he)
          simp [List.lookup_cons, hbeq]
  rw [fieldValues, hfilter]
  cases fields.lookup name <;> rfl

end KGuardian.GoJson
