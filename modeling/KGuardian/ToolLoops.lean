import Mathlib.Data.List.Basic
import Mathlib.Data.List.Infix

/-!
Loops that ask a model, run the tools its reply calls and send back what they return, for
a bounded number of rounds. After the last round the model is asked once more, without
tools. What the model and the tools do is not limited.
-/
namespace KGuardian.ToolLoops

variable {τ ρ κ ο ε α : Type*}

/-- What is sent: the turns so far, and whether tools may be called. -/
structure Request (τ : Type*) where
  turns : List τ
  withTools : Bool

/-- How replies are read, and which turns a round adds. -/
structure Protocol (τ ρ κ ο ε α : Type*) where
  calls : ρ → List κ
  echo : ρ → τ
  results : List (κ × ο) → Except ε (List τ)
  answer : ρ → α

/-- What comes back for the last request, and from each call of the reply to it. -/
structure World (τ ρ ο ε : Type*) where
  model : List (Request τ) → Except ε ρ
  tool : List (Request τ) → ℕ → ο

structure Outcome (τ ε α : Type*) where
  sent : List (Request τ)
  result : Except ε α

/-- The calls of a reply with what they return. -/
def World.outcomes (w : World τ ρ ο ε) (sent : List (Request τ)) (calls : List κ) :
    List (κ × ο) := calls.zipIdx.map fun c => (c.1, w.tool sent c.2)

variable (p : Protocol τ ρ κ ο ε α) (w : World τ ρ ο ε)

def rounds : ℕ → List τ → List (Request τ) → Outcome τ ε α
  | 0, turns, sent =>
      let sent := sent ++ [⟨turns, false⟩]
      ⟨sent, (w.model sent).map p.answer⟩
  | n + 1, turns, sent =>
      let sent := sent ++ [⟨turns, true⟩]
      match w.model sent with
      | .error e => ⟨sent, .error e⟩
      | .ok reply =>
          if (p.calls reply).isEmpty then ⟨sent, .ok (p.answer reply)⟩
          else
            match p.results (w.outcomes sent (p.calls reply)) with
            | .error e => ⟨sent, .error e⟩
            | .ok results => rounds n (turns ++ p.echo reply :: results) sent

/-- A reply that calls tools, with the turns that hold their results. -/
abbrev Exchange (τ ρ : Type*) := ρ × List τ

/-- The turns that an exchange adds. -/
def added (x : Exchange τ ρ) : List τ := p.echo x.1 :: x.2

/-- The requests of a dialogue, each with the exchanges before it. -/
def requests : ℕ → List τ → List (Exchange τ ρ) → List (Request τ)
  | n, turns, [] => [⟨turns, 0 < n⟩]
  | n, turns, x :: rest => ⟨turns, 0 < n⟩ :: requests (n - 1) (turns ++ added p x) rest

/-- An exchange in which the reply came for these requests. -/
def Answers (sent : List (Request τ)) (x : Exchange τ ρ) : Prop :=
  w.model sent = .ok x.1 ∧ p.calls x.1 ≠ [] ∧
    p.results (w.outcomes sent (p.calls x.1)) = .ok x.2

/-- How a dialogue ends: with the answer of a reply that calls no tools or may not call
them, or with an error of the model or of a result. -/
inductive Ends (n : ℕ) (sent : List (Request τ)) : Except ε α → Prop
  | answered (reply : ρ) (h : w.model sent = .ok reply)
      (hlast : p.calls reply = [] ∨ sent.length = n + 1) : Ends n sent (.ok (p.answer reply))
  | refused (e : ε) (h : w.model sent = .error e) : Ends n sent (.error e)
  | failed (reply : ρ) (e : ε) (h : w.model sent = .ok reply) (hlast : sent.length ≤ n)
      (hresults : p.results (w.outcomes sent (p.calls reply)) = .error e) :
      Ends n sent (.error e)

/-- A dialogue of at most that many rounds, after some requests and from these turns
on. -/
structure Dialogue (n : ℕ) (before : List (Request τ)) (first : List τ) (o : Outcome τ ε α)
    (exchanges : List (Exchange τ ρ)) : Prop where
  sent : o.sent = before ++ requests p n first exchanges
  bounded : exchanges.length ≤ n
  answers : ∀ i x, exchanges[i]? = some x →
    Answers p w (o.sent.take (before.length + (i + 1))) x
  ends : Ends p w (before.length + n) o.sent o.result

variable {p w}

theorem length_requests (n : ℕ) (turns : List τ) (exchanges : List (Exchange τ ρ)) :
    (requests p n turns exchanges).length = exchanges.length + 1 := by
  induction exchanges generalizing n turns with
  | nil => rfl
  | cons x rest ih => rw [requests, List.length_cons, ih, List.length_cons]

/-- Each request has the turns of the exchanges before it, and only the one after the
last round comes without tools. -/
theorem getElem?_requests {n : ℕ} (turns : List τ) {exchanges : List (Exchange τ ρ)}
    (hbounded : exchanges.length ≤ n) {i : ℕ} (hi : i ≤ exchanges.length) :
    (requests p n turns exchanges)[i]? =
      some ⟨turns ++ (exchanges.take i).flatMap (added p), i < n⟩ := by
  induction exchanges generalizing n turns i with
  | nil =>
      obtain rfl := Nat.le_zero.mp hi
      simp [requests]
  | cons x rest ih =>
      rw [List.length_cons] at hbounded hi
      cases i with
      | zero => simp [requests]
      | succ i =>
          rw [requests, List.getElem?_cons_succ, ih _ (by omega) (by omega), List.take_succ_cons,
            List.flatMap_cons, List.append_assoc]
          have hless : (i < n - 1) = (i + 1 < n) := propext (by omega)
          simp only [hless]

/-- A dialogue that ends with the reply to its first request. -/
theorem Dialogue.stop {n : ℕ} {before : List (Request τ)} {turns : List τ} {result : Except ε α}
    (h : Ends p w (before.length + n) (before ++ [⟨turns, 0 < n⟩]) result) :
    Dialogue p w n before turns ⟨before ++ [⟨turns, 0 < n⟩], result⟩ [] where
  sent := rfl
  bounded := Nat.zero_le n
  answers i x hx := by cases hx
  ends := h

/-- An exchange in front of a dialogue that goes on from it. -/
theorem Dialogue.cons {n : ℕ} {before : List (Request τ)} {turns : List τ} {x : Exchange τ ρ}
    {o : Outcome τ ε α} {exchanges : List (Exchange τ ρ)}
    (hx : Answers p w (before ++ [⟨turns, true⟩]) x)
    (h : Dialogue p w n (before ++ [⟨turns, true⟩]) (turns ++ added p x) o exchanges) :
    Dialogue p w (n + 1) before turns o (x :: exchanges) := by
  have hlength : (before ++ [(⟨turns, true⟩ : Request τ)]).length = before.length + 1 := by
    rw [List.length_append, List.length_singleton]
  refine ⟨?_, Nat.succ_le_succ h.bounded, ?_, ?_⟩
  · rw [h.sent]
    simp [requests]
  · intro i y hy
    cases i with
    | zero =>
        obtain rfl := Option.some.inj hy
        rwa [h.sent, List.take_left' (by rw [hlength])]
    | succ i =>
        have hlast := h.answers i y hy
        rw [hlength] at hlast
        rwa [show before.length + (i + 1 + 1) = before.length + 1 + (i + 1) by omega]
  · have hends := h.ends
    rw [hlength] at hends
    rwa [show before.length + (n + 1) = before.length + 1 + n by omega]

/-- The loop leads a dialogue of at most that many rounds. -/
theorem dialogue_rounds (n : ℕ) (turns : List τ) (before : List (Request τ)) :
    ∃ exchanges, Dialogue p w n before turns (rounds p w n turns before) exchanges := by
  induction n generalizing turns before with
  | zero =>
      refine ⟨[], Dialogue.stop ?_⟩
      cases hmodel : w.model (before ++ [⟨turns, false⟩]) with
      | error e => exact .refused e hmodel
      | ok reply => exact .answered reply hmodel (Or.inr (by simp))
  | succ n ih =>
      rw [rounds]
      cases hmodel : w.model (before ++ [⟨turns, true⟩]) with
      | error e => exact ⟨[], Dialogue.stop (.refused e hmodel)⟩
      | ok reply =>
          by_cases hcalls : (p.calls reply).isEmpty
          · simp only [if_pos hcalls]
            exact ⟨[], Dialogue.stop (.answered reply hmodel (Or.inl (List.isEmpty_iff.mp hcalls)))⟩
          · simp only [if_neg hcalls]
            cases hresults : p.results
                (w.outcomes (before ++ [⟨turns, true⟩]) (p.calls reply)) with
            | error e =>
                refine ⟨[], Dialogue.stop (.failed reply e hmodel ?_ hresults)⟩
                rw [List.length_append, List.length_singleton]
                omega
            | ok results =>
                obtain ⟨exchanges, h⟩ := ih (turns ++ p.echo reply :: results)
                  (before ++ [⟨turns, true⟩])
                have hx : Answers p w (before ++ [⟨turns, true⟩]) (reply, results) :=
                  ⟨hmodel, fun hnil => hcalls (List.isEmpty_iff.mpr hnil), hresults⟩
                exact ⟨(reply, results) :: exchanges, h.cons hx⟩

theorem Dialogue.length_sent {n : ℕ} {first : List τ} {o : Outcome τ ε α}
    {exchanges : List (Exchange τ ρ)} (h : Dialogue p w n [] first o exchanges) :
    o.sent.length = exchanges.length + 1 := by
  rw [h.sent, List.nil_append, length_requests]

/-- A request of a dialogue holds the turns of the exchanges before it. -/
theorem Dialogue.request {n : ℕ} {first : List τ} {o : Outcome τ ε α}
    {exchanges : List (Exchange τ ρ)} (h : Dialogue p w n [] first o exchanges) {i : ℕ}
    (hi : i ≤ exchanges.length) :
    o.sent[i]? = some ⟨first ++ (exchanges.take i).flatMap (added p), i < n⟩ := by
  rw [h.sent, List.nil_append, getElem?_requests first h.bounded hi]

/-! A rule on the turns that the first turns and each exchange keep. -/

/-- The turns do not matter to the rule when they stand in front. -/
def Absorbs (accepts : List τ → Bool) (turns : List τ) : Prop :=
  ∀ rest, accepts (turns ++ rest) = accepts rest

/-- What a provider may rely on in a loop, and what its caller gets: the requests are few
and keep the rule, each one goes on from the one before with the reply to it and the
results of its calls, and the last reply or error is the result. -/
structure Obeys (p : Protocol τ ρ κ ο ε α) (w : World τ ρ ο ε) (accepts : List τ → Bool) (n : ℕ)
    (first : List τ) (o : Outcome τ ε α) : Prop where
  bounded : o.sent.length ≤ n + 1
  accepted : ∀ r ∈ o.sent, accepts r.turns = true
  tools : ∀ i r, o.sent[i]? = some r → (r.withTools = true ↔ i < n)
  starts : o.sent.head?.map Request.turns = some first
  goesOn : ∀ i r r', o.sent[i]? = some r → o.sent[i + 1]? = some r' →
    ∃ reply results, w.model (o.sent.take (i + 1)) = .ok reply ∧ p.calls reply ≠ [] ∧
      p.results (w.outcomes (o.sent.take (i + 1)) (p.calls reply)) = .ok results ∧
      r'.turns = r.turns ++ p.echo reply :: results
  ends : (∃ reply, w.model o.sent = .ok reply ∧ o.result = .ok (p.answer reply) ∧
      (p.calls reply = [] ∨ o.sent.length = n + 1)) ∨
    ∃ e, w.model o.sent = .error e ∧ o.result = .error e

theorem Absorbs.append {accepts : List τ → Bool} {a b : List τ} (ha : Absorbs accepts a)
    (hb : Absorbs accepts b) : Absorbs accepts (a ++ b) := by
  intro rest
  rw [List.append_assoc, ha, hb]

theorem Absorbs.flatMap {accepts : List τ → Bool} {β : Type*} {f : β → List τ} {l : List β}
    (h : ∀ b ∈ l, Absorbs accepts (f b)) : Absorbs accepts (l.flatMap f) := by
  induction l with
  | nil => exact fun rest => rfl
  | cons b l ih =>
      rw [List.flatMap_cons]
      exact (h b List.mem_cons_self).append (ih fun c hc => h c (List.mem_cons_of_mem _ hc))

/-- A loop whose results never fail obeys a rule that its turns keep. -/
theorem obeys_rounds {accepts : List τ → Bool} (hnil : accepts [] = true) {first : List τ}
    (hfirst : Absorbs accepts first)
    (hresults : ∀ calls : List (κ × ο), ∃ results, p.results calls = .ok results)
    (hround : ∀ (reply : ρ) (calls : List (κ × ο)) (results : List τ),
      p.calls reply ≠ [] → calls.map Prod.fst = p.calls reply → p.results calls = .ok results →
      Absorbs accepts (p.echo reply :: results)) (n : ℕ) :
    Obeys p w accepts n first (rounds p w n first []) := by
  obtain ⟨exchanges, h⟩ := @dialogue_rounds _ _ _ _ _ _ p w n first []
  have hlength := h.length_sent
  have hbounded := h.bounded
  have hcalls (sent : List (Request τ)) (calls : List κ) :
      (w.outcomes sent calls).map Prod.fst = calls := by
    rw [World.outcomes, List.map_map]
    exact List.zipIdx_map_fst 0 calls
  have hadded : ∀ x ∈ exchanges, Absorbs accepts (added p x) := by
    intro x hx
    obtain ⟨i, hi⟩ := List.mem_iff_getElem?.mp hx
    obtain ⟨-, hne, hok⟩ := h.answers i x hi
    exact hround x.1 _ x.2 hne (hcalls _ _) hok
  have hindex (i : ℕ) (r : Request τ) (hr : (rounds p w n first []).sent[i]? = some r) :
      i ≤ exchanges.length ∧ r = ⟨first ++ (exchanges.take i).flatMap (added p), i < n⟩ := by
    have hlt := (List.getElem?_eq_some_iff.mp hr).1
    have hi : i ≤ exchanges.length := by omega
    rw [h.request hi] at hr
    exact ⟨hi, (Option.some.inj hr).symm⟩
  refine ⟨by omega, ?_, ?_, ?_, ?_, ?_⟩
  · intro r hr
    obtain ⟨i, hi⟩ := List.mem_iff_getElem?.mp hr
    obtain ⟨-, rfl⟩ := hindex i r hi
    have hall : Absorbs accepts (first ++ (exchanges.take i).flatMap (added p)) :=
      hfirst.append (Absorbs.flatMap fun x hx => hadded x (List.mem_of_mem_take hx))
    have hwhole := hall []
    rw [List.append_nil] at hwhole
    exact hwhole.trans hnil
  · intro i r hr
    obtain ⟨-, rfl⟩ := hindex i r hr
    exact decide_eq_true_iff
  · rw [List.head?_eq_getElem?, h.request (Nat.zero_le _)]
    simp
  · intro i r r' hr hr'
    obtain ⟨-, rfl⟩ := hindex i r hr
    obtain ⟨hi, rfl⟩ := hindex (i + 1) r' hr'
    obtain ⟨hmodel, hne, hok⟩ := h.answers i exchanges[i] (List.getElem?_eq_getElem hi)
    rw [List.length_nil, Nat.zero_add] at hmodel hok
    refine ⟨exchanges[i].1, exchanges[i].2, hmodel, hne, hok, ?_⟩
    rw [List.take_add_one, List.getElem?_eq_getElem hi, List.flatMap_append, List.append_assoc]
    simp [added]
  · have hends := h.ends
    rw [List.length_nil, Nat.zero_add] at hends
    generalize (rounds p w n first []).result = result at hends
    cases hends with
    | answered reply hmodel hlast => exact Or.inl ⟨reply, hmodel, rfl, hlast⟩
    | refused e hmodel => exact Or.inr ⟨e, hmodel, rfl⟩
    | failed reply e hmodel hlast hfail =>
        obtain ⟨results, hok⟩ := hresults (w.outcomes (rounds p w n first []).sent (p.calls reply))
        rw [hok] at hfail
        cases hfail

end KGuardian.ToolLoops
