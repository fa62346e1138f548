import Mathlib.Data.Multiset.AddSub

/-!
Histories in which entries are opened and closed under keys. The open entries are kept
as a multiset, and an entry can be closed only while one of its key is open.
-/
namespace KGuardian.Ledgers

inductive Entry (κ : Type*) where
  | opens (key : κ)
  | closes (key : κ)
  | other
  deriving DecidableEq

variable {κ : Type*} [DecidableEq κ]

def settle (pending : Multiset κ) : Entry κ → Option (Multiset κ)
  | .opens key => some (key ::ₘ pending)
  | .closes key => if key ∈ pending then some (pending.erase key) else none
  | .other => some pending

/-- What is open after the entries. -/
def account (pending : Multiset κ) (entries : List (Entry κ)) : Option (Multiset κ) :=
  entries.foldlM settle pending

/-- Each entry that is opened is closed once, and not before it was opened. -/
def Balanced (entries : List (Entry κ)) : Prop :=
  ∀ key, entries.count (.opens key) = entries.count (.closes key) ∧
    ∀ before, before <+: entries → before.count (.closes key) ≤ before.count (.opens key)

@[simp] theorem account_nil (pending : Multiset κ) : account pending [] = some pending := rfl

theorem account_append (pending : Multiset κ) (a b : List (Entry κ)) :
    account pending (a ++ b) = (account pending a).bind fun p => account p b :=
  List.foldlM_append

theorem account_cons (pending : Multiset κ) (e : Entry κ) (rest : List (Entry κ)) :
    account pending (e :: rest) = (settle pending e).bind fun p => account p rest :=
  List.foldlM_cons

theorem account_concat {pending p q : Multiset κ} {entries : List (Entry κ)} {e : Entry κ}
    (h : account pending entries = some p) (hlast : settle p e = some q) :
    account pending (entries ++ [e]) = some q := by
  rw [account_append, h, Option.bind_some, account_cons, hlast]
  rfl

/-- Entries that are opened together. -/
theorem account_opens (pending : Multiset κ) (keys : List κ) :
    account pending (keys.map Entry.opens) = some (pending + (keys : Multiset κ)) := by
  induction keys generalizing pending with
  | nil => simp
  | cons key keys ih =>
      rw [List.map_cons, account_cons, settle, Option.bind_some, ih]
      simp [← Multiset.cons_coe]

theorem count_settle {p q : Multiset κ} {e : Entry κ} (h : settle p e = some q) (key : κ) :
    p.count key + [e].count (.opens key) = q.count key + [e].count (.closes key) := by
  cases e with
  | opens k =>
      obtain rfl := Option.some.inj h
      by_cases hkey : k = key
      · simp [hkey]
      · simp [hkey, Multiset.count_cons_of_ne (Ne.symm hkey)]
  | closes k =>
      have hguard : (if k ∈ p then some (p.erase k) else none) = some q := h
      split at hguard
      · rename_i hmem
        obtain rfl := Option.some.inj hguard
        have hpos := Multiset.count_pos.mpr hmem
        by_cases hkey : k = key
        · subst hkey
          simp [Multiset.count_erase_self]
          omega
        · simp [Multiset.count_erase_of_ne (Ne.symm hkey), hkey]
      · cases hguard
  | other =>
      obtain rfl := Option.some.inj h
      simp

/-- What was opened is open or closed. -/
theorem count_account {p q : Multiset κ} {entries : List (Entry κ)}
    (h : account p entries = some q) (key : κ) :
    p.count key + entries.count (.opens key) = q.count key + entries.count (.closes key) := by
  induction entries generalizing p with
  | nil =>
      obtain rfl := Option.some.inj h
      rfl
  | cons e rest ih =>
      rw [account_cons, Option.bind_eq_some_iff] at h
      obtain ⟨p', hsettle, hrest⟩ := h
      have hfirst := count_settle hsettle key
      have hnext := ih hrest
      rw [← List.singleton_append, List.count_append, List.count_append]
      omega

/-- Where nothing is open at the end, each entry was settled. -/
theorem balanced_of_account {entries : List (Entry κ)} (h : account 0 entries = some 0) :
    Balanced entries := by
  intro key
  constructor
  · have hall := count_account h key
    omega
  · rintro before ⟨after, rfl⟩
    rw [account_append, Option.bind_eq_some_iff] at h
    obtain ⟨p, hbefore, -⟩ := h
    have hcount := count_account hbefore key
    rw [Multiset.count_zero] at hcount
    omega

end KGuardian.Ledgers
