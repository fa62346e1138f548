import Mathlib.Data.List.Nodup

/-!
A table that only grows, behind a lookup that decides which posted rows are
new. Rows have a key, and the lookup may find a row with another key: such a
posted row is shadowed and is never stored, then or later.
-/
namespace KGuardian.DedupTable

variable {ρ κ : Type*} [DecidableEq κ] (key : ρ → κ)

/-- The new rows of a batch: the first of each key, where nothing is found. -/
def newRows (found : ρ → Bool) (seen : List κ) : List ρ → List ρ
  | [] => []
  | e :: rest =>
      if key e ∈ seen then newRows found seen rest
      else if found e then newRows found (key e :: seen) rest
      else e :: newRows found (key e :: seen) rest

variable {key}

theorem mem_newRows {found : ρ → Bool} {seen : List κ} {batch : List ρ} {e : ρ}
    (he : e ∈ newRows key found seen batch) :
    e ∈ batch ∧ found e = false ∧ key e ∉ seen := by
  induction batch generalizing seen with
  | nil => exact absurd he List.not_mem_nil
  | cons a rest ih =>
      rw [newRows] at he
      split at he
      · obtain ⟨hmem, hfound, hseen⟩ := ih he
        exact ⟨List.mem_cons_of_mem _ hmem, hfound, hseen⟩
      · rename_i hnew
        split at he
        · obtain ⟨hmem, hfound, hseen⟩ := ih he
          exact ⟨List.mem_cons_of_mem _ hmem, hfound, fun h => hseen (List.mem_cons_of_mem _ h)⟩
        · rename_i hnone
          rcases List.mem_cons.mp he with rfl | hrest
          · exact ⟨List.mem_cons_self, by simpa using hnone, hnew⟩
          · obtain ⟨hmem, hfound, hseen⟩ := ih hrest
            exact ⟨List.mem_cons_of_mem _ hmem, hfound, fun h => hseen (List.mem_cons_of_mem _ h)⟩

theorem newRows_sublist (found : ρ → Bool) (seen : List κ) (batch : List ρ) :
    (newRows key found seen batch).Sublist batch := by
  induction batch generalizing seen with
  | nil => exact List.Sublist.refl _
  | cons a rest ih =>
      rw [newRows]
      split
      · exact (ih seen).cons a
      · split
        · exact (ih _).cons a
        · exact (ih _).cons_cons a

theorem nodup_newRows (found : ρ → Bool) (seen : List κ) (batch : List ρ) :
    ((newRows key found seen batch).map key).Nodup := by
  induction batch generalizing seen with
  | nil => exact List.nodup_nil
  | cons a rest ih =>
      rw [newRows]
      split
      · exact ih seen
      · split
        · exact ih (key a :: seen)
        · rw [List.map_cons, List.nodup_cons]
          refine ⟨?_, ih (key a :: seen)⟩
          intro hmem
          obtain ⟨e, he, hkey⟩ := List.mem_map.mp hmem
          exact (mem_newRows he).2.2 (hkey ▸ List.mem_cons_self)

/-- A key whose rows are not found gets a new row. -/
theorem exists_newRows (found : ρ → Bool) {seen : List κ} {batch : List ρ} {e : ρ}
    (he : e ∈ batch) (hseen : key e ∉ seen)
    (hfound : ∀ e' ∈ batch, key e' = key e → found e' = false) :
    ∃ e' ∈ newRows key found seen batch, key e' = key e := by
  induction batch generalizing seen with
  | nil => exact absurd he List.not_mem_nil
  | cons a rest ih =>
      have hrest : ∀ e' ∈ rest, key e' = key e → found e' = false := fun e' h =>
        hfound e' (List.mem_cons_of_mem _ h)
      by_cases hkey : key a = key e
      · have hnone : found a = false := hfound a List.mem_cons_self hkey
        have hnew : key a ∉ seen := hkey ▸ hseen
        refine ⟨a, ?_, hkey⟩
        simp [newRows, hnew, hnone]
      · have hmem : e ∈ rest := by
          rcases List.mem_cons.mp he with rfl | h
          · exact absurd rfl hkey
          · exact h
        have hseen' : key e ∉ key a :: seen := by
          simp [hseen, Ne.symm hkey]
        rw [newRows]
        split
        · exact ih hmem hseen hrest
        · split
          · exact ih hmem hseen' hrest
          · obtain ⟨e', he', hk⟩ := ih hmem hseen' hrest
            exact ⟨e', List.mem_cons_of_mem _ he', hk⟩

/-- The first row of its key is new when nothing is found for it. -/
theorem mem_newRows_of_first (found : ρ → Bool) {seen : List κ} {front back : List ρ} {e : ρ}
    (hfound : found e = false) (hseen : key e ∉ seen) (hfirst : ∀ x ∈ front, key x ≠ key e) :
    e ∈ newRows key found seen (front ++ e :: back) := by
  induction front generalizing seen with
  | nil => simp [newRows, hseen, hfound]
  | cons a rest ih =>
      obtain ⟨ha, hrest⟩ := List.forall_mem_cons.mp hfirst
      have hseen' : key e ∉ key a :: seen := by
        simp [hseen, Ne.symm ha]
      rw [List.cons_append, newRows]
      split
      · exact ih hseen hrest
      · split
        · exact ih hseen' hrest
        · exact List.mem_cons_of_mem _ (ih hseen' hrest)

variable (key) (hit : ρ → ρ → Bool)

/-- The table after a batch. `hit e row` says that the lookup for `e` finds
`row`. -/
def postBatch (t batch : List ρ) : List ρ :=
  t ++ newRows key (fun e => t.any (hit e)) [] batch

def Stored (t : List ρ) (e : ρ) : Prop := ∃ row ∈ t, key row = key e

/-- Not stored, but taken for a stored row. -/
def Shadowed (t : List ρ) (e : ρ) : Prop := ¬ Stored key t e ∧ ∃ row ∈ t, hit e row = true

/-- No posted row is shadowed in the table that its batch meets. -/
def Undisturbed : List ρ → List (List ρ) → Prop
  | _, [] => True
  | t, batch :: rest => (∀ e ∈ batch, ¬ Shadowed key hit t e) ∧
      Undisturbed (postBatch key hit t batch) rest

variable {key hit}

theorem Stored.post {t : List ρ} {e : ρ} (h : Stored key t e) (batch : List ρ) :
    Stored key (postBatch key hit t batch) e := by
  obtain ⟨row, hrow, hkey⟩ := h
  exact ⟨row, List.mem_append_left _ hrow, hkey⟩

theorem Stored.run {t : List ρ} {e : ρ} (h : Stored key t e) (batches : List (List ρ)) :
    Stored key (batches.foldl (postBatch key hit) t) e := by
  induction batches generalizing t with
  | nil => exact h
  | cons batch rest ih => exact ih (h.post batch)

variable (hcongr : ∀ e e', key e = key e' → hit e = hit e')
include hcongr

theorem Shadowed.post {t : List ρ} {e : ρ} (h : Shadowed key hit t e) (batch : List ρ) :
    Shadowed key hit (postBatch key hit t batch) e := by
  obtain ⟨hnot, row, hrow, hhit⟩ := h
  refine ⟨?_, row, List.mem_append_left _ hrow, hhit⟩
  intro hcase
  obtain ⟨row', hrow', hkey⟩ := hcase
  rcases List.mem_append.mp hrow' with hold | hnew
  · exact hnot ⟨row', hold, hkey⟩
  · have hfound : t.any (hit row') = true := by
      rw [hcongr row' e hkey]
      exact List.any_eq_true.mpr ⟨row, hrow, hhit⟩
    rw [(mem_newRows hnew).2.1] at hfound
    exact Bool.false_ne_true hfound

theorem Shadowed.run {t : List ρ} {e : ρ} (h : Shadowed key hit t e) (batches : List (List ρ)) :
    Shadowed key hit (batches.foldl (postBatch key hit) t) e := by
  induction batches generalizing t with
  | nil => exact h
  | cons batch rest ih => exact ih (h.post hcongr batch)

theorem stored_post {t batch : List ρ} {e : ρ} (he : e ∈ batch) (h : ¬ Shadowed key hit t e) :
    Stored key (postBatch key hit t batch) e := by
  by_cases hstored : Stored key t e
  · exact hstored.post batch
  · have hnone : t.any (hit e) = false := by
      rw [Bool.eq_false_iff]
      intro hany
      exact h ⟨hstored, List.any_eq_true.mp hany⟩
    obtain ⟨e', he', hkey⟩ := exists_newRows (fun e => t.any (hit e)) he
      List.not_mem_nil fun e' _ hk => by rw [hcongr e' e hk, hnone]
    exact ⟨e', List.mem_append_right _ he', hkey⟩

/-- After a run every posted row is stored exactly when none was shadowed. -/
theorem stored_run_iff (t : List ρ) (batches : List (List ρ)) :
    (∀ batch ∈ batches, ∀ e ∈ batch, Stored key (batches.foldl (postBatch key hit) t) e) ↔
      Undisturbed key hit t batches := by
  induction batches generalizing t with
  | nil => simp [Undisturbed]
  | cons batch rest ih =>
      rw [List.foldl_cons, Undisturbed, ← ih]
      constructor
      · intro h
        refine ⟨fun e he hshadow => ?_, fun b hb => h b (List.mem_cons_of_mem _ hb)⟩
        have hlost := (hshadow.post hcongr batch).run hcongr rest
        exact hlost.1 (h batch List.mem_cons_self e he)
      · intro hcase b hb e he
        obtain ⟨hfirst, hrest⟩ := hcase
        rcases List.mem_cons.mp hb with rfl | hb
        · exact (stored_post hcongr he (hfirst e he)).run rest
        · exact hrest b hb e he

end KGuardian.DedupTable
