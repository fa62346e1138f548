import Mathlib.Data.List.Basic

/-!
Allow rules over arbitrary kinds of peers and ports. An empty list in a rule
restricts nothing; a rule permits what both of its lists permit, and a list of
rules permits what some rule permits.
-/
namespace KGuardian.AllowLists

variable {α β : Type*}

structure Rule (α β : Type*) where
  peers : List α
  ports : List β
  deriving DecidableEq

/-- Some entry holds, or there is no entry. -/
def OpenOr (p : α → Prop) (entries : List α) : Prop := entries = [] ∨ ∃ a ∈ entries, p a

theorem openOr_singleton (p : α → Prop) (a : α) : OpenOr p [a] ↔ p a := by
  simp [OpenOr]

theorem openOr_iff_of_ne_nil (p : α → Prop) (entries : List α) (h : entries ≠ []) :
    OpenOr p entries ↔ ∃ a ∈ entries, p a := by
  simp [OpenOr, h]

theorem OpenOr.mono {p q : α → Prop} {entries : List α} (hpq : ∀ a ∈ entries, p a → q a)
    (h : OpenOr p entries) : OpenOr q entries := by
  rcases h with hnil | ⟨a, ha, hp⟩
  · exact Or.inl hnil
  · exact Or.inr ⟨a, ha, hpq a ha hp⟩

/-- The loop that decides `OpenOr`: an early answer for the empty list, then a
scan for a matching entry. -/
theorem openOr_iff_any (f : α → Bool) (entries : List α) :
    (entries.isEmpty || entries.any f) = true ↔ OpenOr (fun a => f a = true) entries := by
  simp [OpenOr]

theorem openOr_congr {p q : α → Prop} (hpq : ∀ a, p a ↔ q a) (entries : List α) :
    OpenOr p entries ↔ OpenOr q entries := by
  simp only [OpenOr, hpq]

def Permits (peer : α → Prop) (port : β → Prop) (rules : List (Rule α β)) : Prop :=
  ∃ r ∈ rules, OpenOr peer r.peers ∧ OpenOr port r.ports

theorem not_permits_nil (peer : α → Prop) (port : β → Prop) : ¬ Permits peer port [] := by
  simp [Permits]

theorem permits_congr {peer peer' : α → Prop} {port port' : β → Prop}
    (hpeer : ∀ a, peer a ↔ peer' a) (hport : ∀ b, port b ↔ port' b) (rules : List (Rule α β)) :
    Permits peer port rules ↔ Permits peer' port' rules := by
  simp only [Permits, openOr_congr hpeer, openOr_congr hport]

/-- Admitting more peers or ports permits more. -/
theorem Permits.mono {peer peer' : α → Prop} {port port' : β → Prop} {rules : List (Rule α β)}
    (hpeer : ∀ a, peer a → peer' a) (hport : ∀ b, port b → port' b)
    (h : Permits peer port rules) : Permits peer' port' rules := by
  obtain ⟨r, hr, hpeers, hports⟩ := h
  exact ⟨r, hr, hpeers.mono fun a _ => hpeer a, hports.mono fun b _ => hport b⟩

/-- Dropping entries of a list narrows it, as long as some entry stays. -/
theorem OpenOr.of_subset {p : α → Prop} {entries entries' : List α} (hsub : entries' ⊆ entries)
    (hkeep : entries' = [] → entries = []) (h : OpenOr p entries') : OpenOr p entries := by
  rcases h with hnil | ⟨a, ha, hp⟩
  · exact Or.inl (hkeep hnil)
  · exact Or.inr ⟨a, hsub ha, hp⟩

/-- A rule with fewer entries in lists that stay restricted. -/
structure Rule.Narrower (r' r : Rule α β) : Prop where
  peers : r'.peers ⊆ r.peers
  ports : r'.ports ⊆ r.ports
  peersKept : r'.peers = [] → r.peers = []
  portsKept : r'.ports = [] → r.ports = []

theorem Rule.Narrower.refl (r : Rule α β) : r.Narrower r :=
  ⟨List.Subset.refl _, List.Subset.refl _, id, id⟩

theorem Permits.of_narrower {peer : α → Prop} {port : β → Prop} {rules rules' : List (Rule α β)}
    (hrules : ∀ r' ∈ rules', ∃ r ∈ rules, r'.Narrower r) (h : Permits peer port rules') :
    Permits peer port rules := by
  obtain ⟨r', hr', hpeers, hports⟩ := h
  obtain ⟨r, hr, hnarrower⟩ := hrules r' hr'
  exact ⟨r, hr, hpeers.of_subset hnarrower.peers hnarrower.peersKept,
    hports.of_subset hnarrower.ports hnarrower.portsKept⟩

end KGuardian.AllowLists
