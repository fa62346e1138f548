import Mathlib.Data.BitVec
import Mathlib.Tactic.Linarith

/-!
Address blocks as sets of words that share their leading bits. A mask of `n`
leading ones selects exactly the first `n` bits, so comparing two masked words
compares these bits. Nothing here refers to IP addresses.
-/
namespace KGuardian.BitBlocks

variable {w : ℕ}

/-- The first `n` bits of the two words are the same. -/
def Agree (n : ℕ) (x y : BitVec w) : Prop :=
  ∀ i, i < n → x.getMsbD i = y.getMsbD i

instance (n : ℕ) (x y : BitVec w) : Decidable (Agree n x y) :=
  inferInstanceAs (Decidable (∀ i, i < n → x.getMsbD i = y.getMsbD i))

theorem agree_refl (n : ℕ) (x : BitVec w) : Agree n x x := fun _ _ => rfl

theorem Agree.symm {n : ℕ} {x y : BitVec w} (h : Agree n x y) : Agree n y x :=
  fun i hi => (h i hi).symm

theorem Agree.trans {n : ℕ} {x y z : BitVec w} (h : Agree n x y) (h' : Agree n y z) :
    Agree n x z := fun i hi => (h i hi).trans (h' i hi)

theorem Agree.mono {m n : ℕ} {x y : BitVec w} (h : Agree n x y) (hmn : m ≤ n) : Agree m x y :=
  fun i hi => h i (by omega)

/-- Fixing every bit leaves a single word. -/
theorem agree_full (x y : BitVec w) : Agree w x y ↔ x = y := by
  constructor
  · intro h
    apply BitVec.eq_of_getMsbD_eq
    exact h
  · intro heq
    subst heq
    exact agree_refl w x

/-- A word with `n` leading ones and zeros below them. -/
def leadingMask (w n : ℕ) : BitVec w := BitVec.allOnes w <<< (w - n)

theorem getMsbD_leadingMask (n i : ℕ) (hn : n ≤ w) :
    (leadingMask w n).getMsbD i = decide (i < n) := by
  simp only [leadingMask, BitVec.getMsbD_shiftLeft, BitVec.getMsbD_allOnes]
  congr 1
  apply propext
  omega

/-- Masking compares the leading bits and nothing else. -/
theorem and_leadingMask_eq_iff (n : ℕ) (hn : n ≤ w) (x y : BitVec w) :
    x &&& leadingMask w n = y &&& leadingMask w n ↔ Agree n x y := by
  constructor
  · intro h i hi
    have hbit := congrArg (fun z => z.getMsbD i) h
    simpa [getMsbD_leadingMask n i hn, hi] using hbit
  · intro h
    apply BitVec.eq_of_getMsbD_eq
    intro i _
    by_cases hin : i < n
    · simp [getMsbD_leadingMask n i hn, h i hin]
    · simp [getMsbD_leadingMask n i hn, hin]

theorem and_leadingMask_idem (n : ℕ) (x : BitVec w) :
    x &&& leadingMask w n &&& leadingMask w n = x &&& leadingMask w n := by
  rw [BitVec.and_assoc, BitVec.and_self]

end KGuardian.BitBlocks
