import Mathlib.Data.List.Basic
import Mathlib.Data.String.Basic

/-!
UTF-8 over a stream of bytes. The decoder keeps an unfinished character between two
pieces of input and replaces what is malformed, and takes one byte order mark off the
front, as the decoder of the Encoding Standard does.
-/
namespace KGuardian.Utf8Stream

def encodeChar (c : Char) : List ℕ :=
  let n := c.toNat
  if n < 0x80 then [n]
  else if n < 0x800 then [0xc0 + n / 0x40, 0x80 + n % 0x40]
  else if n < 0x10000 then [0xe0 + n / 0x1000, 0x80 + n / 0x40 % 0x40, 0x80 + n % 0x40]
  else [0xf0 + n / 0x40000, 0x80 + n / 0x1000 % 0x40, 0x80 + n / 0x40 % 0x40, 0x80 + n % 0x40]

def encode (text : List Char) : List ℕ := text.flatMap encodeChar

/-- An unfinished character: the bytes still needed, the bits so far, and the range of the
next byte. -/
structure Pending where
  needed : ℕ
  codePoint : ℕ
  lower : ℕ
  upper : ℕ

def replacement : Char := '\ufffd'

def byteOrderMark : Char := '\ufeff'

/-- The first byte of a character. -/
def decodeFirst (b : ℕ) : Option Pending × List Char :=
  if b ≤ 0x7f then (none, [Char.ofNat b])
  else if 0xc2 ≤ b ∧ b ≤ 0xdf then (some ⟨1, b % 0x20, 0x80, 0xbf⟩, [])
  else if 0xe0 ≤ b ∧ b ≤ 0xef then
    (some ⟨2, b % 0x10, if b = 0xe0 then 0xa0 else 0x80, if b = 0xed then 0x9f else 0xbf⟩, [])
  else if 0xf0 ≤ b ∧ b ≤ 0xf4 then
    (some ⟨3, b % 0x08, if b = 0xf0 then 0x90 else 0x80, if b = 0xf4 then 0x8f else 0xbf⟩, [])
  else (none, [replacement])

/-- A byte that does not go on with the character is looked at again as a first one. -/
def decodeByte (pending : Option Pending) (b : ℕ) : Option Pending × List Char :=
  match pending with
  | none => decodeFirst b
  | some p =>
      if b < p.lower ∨ p.upper < b then
        let (next, chars) := decodeFirst b
        (next, replacement :: chars)
      else
        let codePoint := p.codePoint * 0x40 + b % 0x40
        if p.needed ≤ 1 then (none, [Char.ofNat codePoint])
        else (some ⟨p.needed - 1, codePoint, 0x80, 0xbf⟩, [])

def decodeBytes (pending : Option Pending) : List ℕ → Option Pending × List Char
  | [] => (pending, [])
  | b :: rest =>
      let (next, chars) := decodeByte pending b
      let (last, more) := decodeBytes next rest
      (last, chars ++ more)

structure Decoder where
  pending : Option Pending
  markSeen : Bool

def Decoder.start : Decoder := ⟨none, false⟩

/-- One call with a piece of the stream. -/
def Decoder.decode (d : Decoder) (bytes : List ℕ) : Decoder × List Char :=
  let (pending, chars) := decodeBytes d.pending bytes
  match d.markSeen, chars with
  | true, chars => (⟨pending, true⟩, chars)
  | false, [] => (⟨pending, false⟩, [])
  | false, c :: rest => (⟨pending, true⟩, if c = byteOrderMark then rest else c :: rest)

/-- The pieces of text for the pieces of input. -/
def Decoder.decodeAll (d : Decoder) : List (List ℕ) → List (List Char)
  | [] => []
  | bytes :: rest => (d.decode bytes).2 :: (d.decode bytes).1.decodeAll rest

theorem decodeBytes_append (pending : Option Pending) (a b : List ℕ) :
    decodeBytes pending (a ++ b) =
      ((decodeBytes (decodeBytes pending a).1 b).1,
        (decodeBytes pending a).2 ++ (decodeBytes (decodeBytes pending a).1 b).2) := by
  induction a generalizing pending with
  | nil => simp [decodeBytes]
  | cons x rest ih => simp [decodeBytes, ih]

/-- A byte that goes on with the character. -/
theorem decodeByte_next {p : Pending} {b : ℕ} (hlow : p.lower ≤ b) (hhigh : b ≤ p.upper) :
    decodeByte (some p) b =
      if p.needed ≤ 1 then (none, [Char.ofNat (p.codePoint * 0x40 + b % 0x40)])
      else (some ⟨p.needed - 1, p.codePoint * 0x40 + b % 0x40, 0x80, 0xbf⟩, []) := by
  have hin : ¬ (b < p.lower ∨ p.upper < b) := by omega
  simp only [decodeByte, if_neg hin]

theorem decodeFirst_two {n : ℕ} (hlow : 0x80 ≤ n) (hhigh : n < 0x800) :
    decodeFirst (0xc0 + n / 0x40) = (some ⟨1, n / 0x40, 0x80, 0xbf⟩, []) := by
  have hbits : (0xc0 + n / 0x40) % 0x20 = n / 0x40 := by omega
  unfold decodeFirst
  rw [if_neg (by omega), if_pos (by omega), hbits]

theorem decodeFirst_three {n : ℕ} (hhigh : n < 0x10000) :
    decodeFirst (0xe0 + n / 0x1000) =
      (some ⟨2, n / 0x1000, if n / 0x1000 = 0 then 0xa0 else 0x80,
        if n / 0x1000 = 0xd then 0x9f else 0xbf⟩, []) := by
  have hbits : (0xe0 + n / 0x1000) % 0x10 = n / 0x1000 := by omega
  have hlower : (0xe0 + n / 0x1000 = 0xe0) ↔ n / 0x1000 = 0 := by omega
  have hupper : (0xe0 + n / 0x1000 = 0xed) ↔ n / 0x1000 = 0xd := by omega
  unfold decodeFirst
  rw [if_neg (by omega), if_neg (by omega), if_pos (by omega), hbits]
  simp only [hlower, hupper]

theorem decodeFirst_four {n : ℕ} (hhigh : n < 0x110000) :
    decodeFirst (0xf0 + n / 0x40000) =
      (some ⟨3, n / 0x40000, if n / 0x40000 = 0 then 0x90 else 0x80,
        if n / 0x40000 = 4 then 0x8f else 0xbf⟩, []) := by
  have hbits : (0xf0 + n / 0x40000) % 0x08 = n / 0x40000 := by omega
  have hlower : (0xf0 + n / 0x40000 = 0xf0) ↔ n / 0x40000 = 0 := by omega
  have hupper : (0xf0 + n / 0x40000 = 0xf4) ↔ n / 0x40000 = 4 := by omega
  unfold decodeFirst
  rw [if_neg (by omega), if_neg (by omega), if_neg (by omega), if_pos (by omega), hbits]
  simp only [hlower, hupper]

theorem decodeBytes_cons (pending : Option Pending) (b : ℕ) (rest : List ℕ) :
    decodeBytes pending (b :: rest) = ((decodeBytes (decodeByte pending b).1 rest).1,
      (decodeByte pending b).2 ++ (decodeBytes (decodeByte pending b).1 rest).2) := rfl

/-- Each character is decoded from its bytes. -/
theorem decodeBytes_encodeChar (c : Char) : decodeBytes none (encodeChar c) = (none, [c]) := by
  have hvalid : c.toNat < 0xd800 ∨ 0xdfff < c.toNat ∧ c.toNat < 0x110000 := c.valid
  have hc : Char.ofNat c.toNat = c := Char.ofNat_toNat c
  generalize hn : c.toNat = n at hvalid hc
  simp only [encodeChar, hn]
  split_ifs with hone htwo hthree
  · have hle : n ≤ 0x7f := by omega
    simp [decodeBytes, decodeByte, decodeFirst, hle, hc]
  · have hlast : n / 0x40 * 0x40 + (0x80 + n % 0x40) % 0x40 = n := by omega
    have hfirst : decodeByte none (0xc0 + n / 0x40) = _ := decodeFirst_two (by omega) htwo
    rw [decodeBytes_cons, hfirst, decodeBytes_cons,
      decodeByte_next (by simp only; omega) (by simp only; omega)]
    simp only [le_refl, if_true, hlast, hc]
    rfl
  · have hlast : (n / 0x1000 * 0x40 + (0x80 + n / 0x40 % 0x40) % 0x40) * 0x40 +
        (0x80 + n % 0x40) % 0x40 = n := by omega
    have hfirst : decodeByte none (0xe0 + n / 0x1000) = _ := decodeFirst_three hthree
    rw [decodeBytes_cons, hfirst, decodeBytes_cons,
      decodeByte_next (by simp only; split <;> omega) (by simp only; split <;> omega)]
    simp only [Nat.reduceLeDiff, if_false]
    rw [decodeBytes_cons, decodeByte_next (by simp only; omega) (by simp only; omega)]
    simp only [Nat.reduceSub, le_refl, if_true, hlast, hc]
    rfl
  · have hlast : ((n / 0x40000 * 0x40 + (0x80 + n / 0x1000 % 0x40) % 0x40) * 0x40 +
        (0x80 + n / 0x40 % 0x40) % 0x40) * 0x40 + (0x80 + n % 0x40) % 0x40 = n := by omega
    have hfirst : decodeByte none (0xf0 + n / 0x40000) = _ := decodeFirst_four (by omega)
    rw [decodeBytes_cons, hfirst, decodeBytes_cons,
      decodeByte_next (by simp only; split <;> omega) (by simp only; split <;> omega)]
    simp only [Nat.reduceLeDiff, if_false]
    rw [decodeBytes_cons, decodeByte_next (by simp only; omega) (by simp only; omega)]
    simp only [Nat.reduceLeDiff, Nat.reduceSub, if_false]
    rw [decodeBytes_cons, decodeByte_next (by simp only; omega) (by simp only; omega)]
    simp only [Nat.reduceSub, le_refl, if_true, hlast, hc]
    rfl

theorem decodeBytes_encode (text : List Char) : decodeBytes none (encode text) = (none, text) := by
  induction text with
  | nil => rfl
  | cons c rest ih =>
      have hcons : encode (c :: rest) = encodeChar c ++ encode rest := rfl
      rw [hcons, decodeBytes_append, decodeBytes_encodeChar, ih]
      rfl

/-- One call, when it does not meet a byte order mark at the front. -/
theorem decode_eq (d : Decoder) (bytes : List ℕ)
    (hmark : d.markSeen = true ∨ (decodeBytes d.pending bytes).2.head? ≠ some byteOrderMark) :
    (d.decode bytes).2 = (decodeBytes d.pending bytes).2 ∧
      (d.decode bytes).1.pending = (decodeBytes d.pending bytes).1 ∧
      ((d.decode bytes).1.markSeen = true ∨ (decodeBytes d.pending bytes).2 = []) := by
  unfold Decoder.decode
  cases hseen : d.markSeen with
  | true => simp
  | false =>
      cases hchars : (decodeBytes d.pending bytes).2 with
      | nil => simp [hchars]
      | cons c rest =>
          have hc : c ≠ byteOrderMark := by
            rintro rfl
            rcases hmark with hcase | hcase
            · exact absurd hcase (by simp [hseen])
            · exact hcase (by simp [hchars])
          simp [hchars, hc]

/-- What the pieces of a text decode to, one after the other, does not depend on where the
text was cut, when it does not begin with a byte order mark. -/
theorem decodeAll_flatten (d : Decoder) (pieces : List (List ℕ))
    (hmark : d.markSeen = true ∨
      (decodeBytes d.pending pieces.flatten).2.head? ≠ some byteOrderMark) :
    (d.decodeAll pieces).flatten = (decodeBytes d.pending pieces.flatten).2 := by
  induction pieces generalizing d with
  | nil => rfl
  | cons bytes rest ih =>
      rw [List.flatten_cons, decodeBytes_append] at hmark ⊢
      simp only [Decoder.decodeAll, List.flatten_cons]
      have hhere : d.markSeen = true ∨
          (decodeBytes d.pending bytes).2.head? ≠ some byteOrderMark := by
        refine hmark.imp_right fun hhead hcase => hhead ?_
        obtain ⟨chars, hchars⟩ := List.head?_eq_some_iff.mp hcase
        simp [hchars]
      obtain ⟨htext, hpending, hseen⟩ := decode_eq d bytes hhere
      have hrest : (d.decode bytes).1.markSeen = true ∨
          (decodeBytes (d.decode bytes).1.pending rest.flatten).2.head? ≠ some byteOrderMark := by
        rcases hseen with hcase | hnil
        · exact .inl hcase
        · rcases hmark with hcase | hhead
          · left
            simp [Decoder.decode, hcase]
          · right
            rw [hpending]
            simpa [hnil] using hhead
      rw [ih (d.decode bytes).1 hrest, htext, hpending]

end KGuardian.Utf8Stream
