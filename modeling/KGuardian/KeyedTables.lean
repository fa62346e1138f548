import Mathlib.Data.Int.Notation
import Mathlib.Data.List.Nodup

/-!
Tables with a primary key. An insert of a key that is taken is refused, an update
rewrites the rows of a filter and keeps their keys, and an upsert does the one or
the other. All of them are told by what a lookup of a key finds afterwards. A column
for times has their microseconds only.
-/
namespace KGuardian.KeyedTables

variable {α κ : Type*} [DecidableEq κ] {key : α → κ}

structure Table (key : α → κ) where
  rows : List α
  keys : (rows.map key).Nodup

namespace Table

def empty : Table key := ⟨[], List.nodup_nil⟩

def lookup (t : Table key) (k : κ) : Option α := t.rows.find? fun a => key a = k

/-- An `INSERT`. -/
def insert (t : Table key) (a : α) : Option (Table key) :=
  if h : key a ∈ t.rows.map key then none
  else some ⟨t.rows ++ [a], by
    rw [List.map_append, List.map_singleton, List.nodup_append]
    refine ⟨t.keys, List.nodup_singleton _, ?_⟩
    intro k hk k' hk' heq
    exact h (List.mem_singleton.mp hk' ▸ heq ▸ hk)⟩

/-- An `UPDATE` of the rows that a filter selects. -/
def update (t : Table key) (p : α → Bool) (f : α → α) (hf : ∀ a, key (f a) = key a) : Table key :=
  ⟨t.rows.map fun a => if p a then f a else a, by
    have hkeys : (t.rows.map fun a => if p a then f a else a).map key = t.rows.map key := by
      rw [List.map_map]
      refine List.map_congr_left fun a _ => ?_
      simp only [Function.comp]
      split
      · exact hf a
      · rfl
    rw [hkeys]
    exact t.keys⟩

/-- An `INSERT` that on a conflict updates the row of that key. -/
def upsert (t : Table key) (a : α) (f : α → α) (hf : ∀ a, key (f a) = key a) : Table key :=
  (t.insert a).getD (t.update (fun b => key b = key a) f hf)

/-- A `DELETE` of the rows that a filter selects. -/
def delete (t : Table key) (p : α → Bool) : Table key :=
  ⟨t.rows.filter fun a => !p a, t.keys.sublist ((List.filter_sublist).map key)⟩

theorem key_of_lookup {t : Table key} {k : κ} {a : α} (h : t.lookup k = some a) : key a = k := by
  simpa using List.find?_some h

theorem mem_of_lookup {t : Table key} {k : κ} {a : α} (h : t.lookup k = some a) : a ∈ t.rows :=
  List.mem_of_find?_eq_some h

/-- A key names one row. -/
theorem lookup_of_mem {t : Table key} {a : α} (h : a ∈ t.rows) : t.lookup (key a) = some a := by
  cases hfind : t.lookup (key a) with
  | none =>
      have hnone := List.find?_eq_none.mp hfind a h
      simp at hnone
  | some b =>
      have hb := List.inj_on_of_nodup_map t.keys (mem_of_lookup hfind) h (key_of_lookup hfind)
      rw [hb]

theorem lookup_eq_none_iff {t : Table key} {k : κ} :
    t.lookup k = none ↔ k ∉ t.rows.map key := by
  rw [lookup, List.find?_eq_none]
  simp

/-- A filter on the key and on other columns. -/
theorem find?_key_and (t : Table key) (k : κ) (q : α → Bool) :
    (t.rows.find? fun a => key a = k && q a) = (t.lookup k).filter q := by
  cases hlookup : t.lookup k with
  | none =>
      refine List.find?_eq_none.mpr fun a ha h => ?_
      have hnone := List.find?_eq_none.mp hlookup a ha
      simp_all
  | some b =>
      have hkey := key_of_lookup hlookup
      rw [Option.filter_some]
      split
      · rename_i hq
        cases hfind : t.rows.find? fun a => key a = k && q a with
        | none =>
            have hnone := List.find?_eq_none.mp hfind b (mem_of_lookup hlookup)
            simp [hkey, hq] at hnone
        | some a =>
            have ha := List.find?_some hfind
            simp only [Bool.and_eq_true, decide_eq_true_eq] at ha
            rw [← hlookup, ← ha.1]
            exact (lookup_of_mem (List.mem_of_find?_eq_some hfind)).symm
      · rename_i hq
        refine List.find?_eq_none.mpr fun a ha h => hq ?_
        simp only [Bool.and_eq_true, decide_eq_true_eq] at h
        have hlookup' := lookup_of_mem ha
        rw [h.1, hlookup] at hlookup'
        rw [Option.some.inj hlookup']
        exact h.2

theorem insert_eq_none_iff {t : Table key} {a : α} :
    t.insert a = none ↔ t.lookup (key a) ≠ none := by
  rw [Ne, lookup_eq_none_iff, not_not, insert]
  split <;> simp_all

theorem lookup_of_insert {t t' : Table key} {a : α} (h : t.insert a = some t') (k : κ) :
    t'.lookup k = if k = key a then some a else t.lookup k := by
  rw [insert] at h
  split at h
  · cases h
  · rename_i hnew
    obtain rfl := Option.some.inj h
    by_cases hk : k = key a
    · subst hk
      rw [if_pos rfl]
      exact lookup_of_mem (t := ⟨t.rows ++ [a], _⟩) (by simp)
    · rw [if_neg hk, lookup, List.find?_append, lookup]
      simp [Ne.symm hk]

theorem lookup_update (t : Table key) (p : α → Bool) (f : α → α) (hf : ∀ a, key (f a) = key a)
    (k : κ) :
    (t.update p f hf).lookup k = (t.lookup k).map fun a => if p a then f a else a := by
  rw [lookup, update, List.find?_map, lookup]
  congr 2
  funext a
  simp only [Function.comp]
  split
  · rw [hf]
  · rfl

theorem lookup_upsert (t : Table key) (a : α) (f : α → α) (hf : ∀ a, key (f a) = key a) (k : κ) :
    (t.upsert a f hf).lookup k =
      if k = key a then some (((t.lookup k).map f).getD a) else t.lookup k := by
  rw [upsert]
  cases hinsert : t.insert a with
  | none =>
      rw [Option.getD_none, lookup_update]
      by_cases hk : k = key a
      · subst hk
        obtain ⟨old, hold⟩ := Option.ne_none_iff_exists'.mp (insert_eq_none_iff.mp hinsert)
        rw [hold]
        simp [key_of_lookup hold]
      · rw [if_neg hk]
        cases hold : t.lookup k with
        | none => rfl
        | some old => simp [key_of_lookup hold, hk]
  | some t' =>
      rw [Option.getD_some, lookup_of_insert hinsert]
      by_cases hk : k = key a
      · subst hk
        have hnone : t.lookup (key a) = none := by
          by_contra h
          rw [insert_eq_none_iff.mpr h] at hinsert
          cases hinsert
        rw [hnone]
        rfl
      · rw [if_neg hk, if_neg hk]

theorem lookup_delete (t : Table key) (p : α → Bool) (k : κ) :
    (t.delete p).lookup k = (t.lookup k).filter fun a => !p a := by
  rw [lookup, delete, List.find?_filter, ← find?_key_and]
  congr 1
  funext a
  cases p a <;> simp

end Table

/-! Times in columns. -/

/-- A time without a zone, in nanoseconds since the epoch of the database. -/
abbrev NaiveDateTime := ℤ

/-- What a `TIMESTAMP` column keeps of a time: its whole microseconds, counted from the
epoch to either side. -/
def timestampColumn (t : NaiveDateTime) : NaiveDateTime := t.tdiv 1000 * 1000

theorem timestampColumn_eq_self_iff (t : NaiveDateTime) : timestampColumn t = t ↔ 1000 ∣ t := by
  refine ⟨fun h => ⟨t.tdiv 1000, ?_⟩, Int.tdiv_mul_cancel⟩
  rw [Int.mul_comm]
  exact h.symm

end KGuardian.KeyedTables
