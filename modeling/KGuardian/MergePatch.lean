import KGuardian.GoJson

/-!
JSON merge patches. A member of the patch replaces the member of that name, or
deletes it when it is null, and objects are merged member by member. A member
that the patch leaves out stays as it was.
-/
namespace KGuardian.MergePatch

open GoJson

def setKey (key : String) (value : Json) : Fields → Fields
  | [] => [(key, value)]
  | e :: rest => if e.1 = key then (key, value) :: rest else e :: setKey key value rest

mutual

def mergePatch (target : Json) : Json → Json
  | .obj patch => .obj (mergeFields (target.asObj.getD []) patch)
  | patch => patch

def mergeFields (target : Fields) : Fields → Fields
  | [] => target
  | (key, .null) :: rest => mergeFields (deleteKey target key) rest
  | (key, value) :: rest =>
      mergeFields (setKey key (mergePatch ((target.lookup key).getD .null) value) target) rest

end

/-- What becomes of a member. -/
def merged (old : Option Json) : Option Json → Option Json
  | none => old
  | some .null => none
  | some value => some (mergePatch (old.getD .null) value)

theorem lookup_cons {β : Type} (e : String × β) (rest : List (String × β)) (key : String) :
    List.lookup key (e :: rest) = if key = e.1 then some e.2 else rest.lookup key := by
  obtain ⟨name, value⟩ := e
  rw [List.lookup_cons]
  by_cases h : key = name
  · simp [h]
  · rw [beq_false_of_ne h, if_neg h]

theorem lookup_eq_none {β : Type} {fields : List (String × β)} {key : String}
    (h : key ∉ fields.map Prod.fst) : fields.lookup key = none := by
  rw [List.lookup_eq_none_iff]
  intro p hp
  rw [bne_iff_ne]
  intro heq
  exact h (List.mem_map.mpr ⟨p, hp, heq.symm⟩)

theorem lookup_setKey (fields : Fields) (key : String) (value : Json) (key' : String) :
    (setKey key value fields).lookup key' =
      if key' = key then some value else fields.lookup key' := by
  induction fields with
  | nil => rw [setKey, lookup_cons]
  | cons e rest ih =>
      rw [setKey]
      split
      · rename_i hkey
        subst hkey
        rw [lookup_cons, lookup_cons]
        split <;> rfl
      · rename_i hkey
        rw [lookup_cons, lookup_cons, ih]
        by_cases h : key' = e.1
        · rw [if_pos h, if_pos h, if_neg (h ▸ hkey)]
        · rw [if_neg h, if_neg h]

theorem lookup_deleteKey (fields : Fields) (key key' : String) :
    (deleteKey fields key).lookup key' = if key' = key then none else fields.lookup key' := by
  induction fields with
  | nil => simp [deleteKey]
  | cons e rest ih =>
      rw [deleteKey] at ih
      rw [deleteKey, lookup_cons]
      by_cases hkey : e.1 = key
      · rw [List.filter_cons_of_neg (by simpa using hkey), ih]
        by_cases h : key' = key
        · rw [if_pos h, if_pos h]
        · rw [if_neg h, if_neg h, if_neg (hkey ▸ h)]
      · rw [List.filter_cons_of_pos (by simpa using hkey), lookup_cons, ih]
        by_cases h : key' = e.1
        · rw [if_pos h, if_pos h, if_neg (h ▸ hkey)]
        · rw [if_neg h, if_neg h]

/-- The first member of the patch, and then the others. -/
theorem lookup_mergeFields_cons (target : Fields) (e : String × Json) (rest : Fields)
    (key : String) (hrest : rest.lookup e.1 = none)
    (ih : ∀ target, (mergeFields target rest).lookup key =
      merged (target.lookup key) (rest.lookup key)) :
    (mergeFields target (e :: rest)).lookup key =
      merged (target.lookup key) (List.lookup key (e :: rest)) := by
  obtain ⟨name, value⟩ := e
  have hset (value' : Json) :
      merged ((setKey name value' target).lookup key) (rest.lookup key) =
        if key = name then some value' else merged (target.lookup key) (rest.lookup key) := by
    rw [lookup_setKey]
    by_cases h : key = name
    · subst h
      rw [if_pos rfl, if_pos rfl, hrest, merged]
    · rw [if_neg h, if_neg h]
  rw [lookup_cons]
  cases value with
  | null =>
      rw [mergeFields, ih, lookup_deleteKey]
      by_cases h : key = name
      · subst h
        rw [if_pos rfl, if_pos rfl, hrest, merged, merged]
      · rw [if_neg h, if_neg h]
  | _ =>
      rw [mergeFields, ih, hset]
      · by_cases h : key = name
        · subst h
          rw [if_pos rfl, if_pos rfl]
          rfl
        · rw [if_neg h, if_neg h]
      · exact Json.noConfusion

/-- Members are merged one by one when no name of the patch comes twice. -/
theorem lookup_mergeFields (target patch : Fields) (hnodup : (patch.map Prod.fst).Nodup)
    (key : String) :
    (mergeFields target patch).lookup key = merged (target.lookup key) (patch.lookup key) := by
  induction patch generalizing target with
  | nil => rw [mergeFields]; rfl
  | cons e rest ih =>
      obtain ⟨hnot, hrest⟩ := List.nodup_cons.mp hnodup
      exact lookup_mergeFields_cons target e rest key (lookup_eq_none hnot) fun target =>
        ih target hrest

/-! Objects with members that may be left out. -/

def members (fields : List (String × Option Json)) : Fields :=
  fields.filterMap fun f => f.2.map fun value => (f.1, value)

theorem nodup_members {fields : List (String × Option Json)}
    (h : (fields.map Prod.fst).Nodup) : ((members fields).map Prod.fst).Nodup := by
  have hsublist : ((members fields).map Prod.fst).Sublist (fields.map Prod.fst) := by
    induction fields with
    | nil => exact List.Sublist.refl _
    | cons f rest ih =>
        obtain ⟨name, value⟩ := f
        have hrest := ih (List.nodup_cons.mp h).2
        cases value with
        | none => exact List.Sublist.cons _ hrest
        | some value => exact List.Sublist.cons_cons _ hrest
  exact hsublist.nodup h

theorem lookup_members {fields : List (String × Option Json)} (h : (fields.map Prod.fst).Nodup)
    (key : String) : (members fields).lookup key = (fields.lookup key).join := by
  induction fields with
  | nil => rfl
  | cons f rest ih =>
      obtain ⟨name, value⟩ := f
      obtain ⟨hnot, hrest⟩ := List.nodup_cons.mp h
      have hcases : (members ((name, value) :: rest)).lookup key =
          if key = name then value.or ((members rest).lookup key)
          else (members rest).lookup key := by
        cases value with
        | none => exact (ite_self _).symm
        | some value =>
            change List.lookup key ((name, value) :: members rest) = _
            rw [lookup_cons]
            rfl
      rw [hcases, ih hrest, lookup_cons]
      split
      · rename_i hkey
        rw [hkey, lookup_eq_none hnot]
        cases value <;> rfl
      · rfl

end KGuardian.MergePatch
