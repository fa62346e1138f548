import KGuardian.Utf8Stream

/-!
Percent-encoded bytes. A writer leaves the bytes of a set as they are and writes the others
as a percent sign and two digits; a reader may leave the triples of protected bytes alone.
A form puts a plus sign for a space, and joins its fields by ampersands.
-/
namespace KGuardian.PercentEncoding

open Utf8Stream

def percent : ℕ := 0x25

def plus : ℕ := 0x2b

def space : ℕ := 0x20

def ampersand : ℕ := 0x26

def equalsSign : ℕ := 0x3d

def hexDigit (n : ℕ) : ℕ := if n < 10 then 0x30 + n else 0x37 + n

/-- The value of a digit in either case. -/
def hexValue (b : ℕ) : Option ℕ :=
  if 0x30 ≤ b ∧ b ≤ 0x39 then some (b - 0x30)
  else if 0x41 ≤ b ∧ b ≤ 0x46 then some (b - 0x37)
  else if 0x61 ≤ b ∧ b ≤ 0x66 then some (b - 0x57)
  else none

def isAlphanumeric (b : ℕ) : Bool :=
  (0x30 ≤ b && b ≤ 0x39) || (0x41 ≤ b && b ≤ 0x5a) || (0x61 ≤ b && b ≤ 0x7a)

def writeByte (keeps : ℕ → Bool) (b : ℕ) : List ℕ :=
  if keeps b then [b] else [percent, hexDigit (b / 16), hexDigit (b % 16)]

def write (keeps : ℕ → Bool) (bytes : List ℕ) : List ℕ := bytes.flatMap (writeByte keeps)

/-- What is not a percent sign with two digits is left as it is. -/
def read (leaves : ℕ → Bool) : List ℕ → List ℕ
  | b :: h :: l :: rest =>
      if b = percent then
        match hexValue h, hexValue l with
        | some high, some low =>
            (if leaves (16 * high + low) then [b, h, l] else [16 * high + low]) ++ read leaves rest
        | _, _ => b :: read leaves (h :: l :: rest)
      else b :: read leaves (h :: l :: rest)
  | rest => rest

def everything : ℕ → Bool := fun _ => true

def nothing : ℕ → Bool := fun _ => false

/-- The text of bytes, with what is malformed or unfinished replaced. -/
def textOf (bytes : List ℕ) : List Char :=
  let (pending, chars) := decodeBytes none bytes
  if pending.isSome then chars ++ [replacement] else chars

theorem textOf_encode (text : List Char) : textOf (encode text) = text := by
  simp [textOf, decodeBytes_encode]

theorem encode_append (a b : List Char) : encode (a ++ b) = encode a ++ encode b := by
  simp [encode]

theorem lt_of_mem_encodeChar {c : Char} {b : ℕ} (h : b ∈ encodeChar c) : b < 256 := by
  have hvalid : c.toNat < 0xd800 ∨ 0xdfff < c.toNat ∧ c.toNat < 0x110000 := c.valid
  generalize hn : c.toNat = n at hvalid
  simp only [encodeChar, hn] at h
  split_ifs at h with hone htwo hthree
  all_goals
    simp only [List.mem_cons, List.not_mem_nil, or_false] at h
    omega

theorem lt_of_mem_encode {text : List Char} {b : ℕ} (h : b ∈ encode text) : b < 256 := by
  obtain ⟨c, -, hb⟩ := List.mem_flatMap.mp h
  exact lt_of_mem_encodeChar hb

/-- A character is one byte of ASCII, or bytes that are none. -/
theorem encodeChar_cases (c : Char) :
    (c.toNat < 128 ∧ encodeChar c = [c.toNat]) ∨
      (128 ≤ c.toNat ∧ ∀ b ∈ encodeChar c, 128 ≤ b) := by
  rcases Nat.lt_or_ge c.toNat 128 with hlt | hge
  · exact Or.inl ⟨hlt, by simp [encodeChar, hlt]⟩
  · refine Or.inr ⟨hge, ?_⟩
    have hnot : ¬ c.toNat < 0x80 := by omega
    intro b hb
    simp only [encodeChar, if_neg hnot] at hb
    split_ifs at hb
    all_goals
      simp only [List.mem_cons, List.not_mem_nil, or_false] at hb
      omega

theorem encode_injective : Function.Injective encode := by
  intro a b h
  rw [← textOf_encode a, ← textOf_encode b, h]

theorem hexValue_hexDigit {n : ℕ} (h : n < 16) : hexValue (hexDigit n) = some n := by
  unfold hexDigit
  split_ifs with hten
  · have hdigit : 0x30 ≤ 0x30 + n ∧ 0x30 + n ≤ 0x39 := by omega
    simp [hexValue, hdigit]
  · have hno : ¬ (0x30 ≤ 0x37 + n ∧ 0x37 + n ≤ 0x39) := by omega
    have hletter : 0x41 ≤ 0x37 + n ∧ 0x37 + n ≤ 0x46 := by omega
    simp only [hexValue, if_neg hno, if_pos hletter]
    congr 1
    omega

theorem hexDigit_bounds {n : ℕ} (h : n < 16) :
    (0x30 ≤ hexDigit n ∧ hexDigit n ≤ 0x39) ∨ (0x41 ≤ hexDigit n ∧ hexDigit n ≤ 0x46) := by
  unfold hexDigit
  split_ifs <;> omega

theorem read_cons_of_ne (leaves : ℕ → Bool) {b : ℕ} (h : b ≠ percent) (rest : List ℕ) :
    read leaves (b :: rest) = b :: read leaves rest := by
  match rest with
  | [] => rfl
  | [_] => rfl
  | _ :: _ :: _ => rw [read, if_neg h]

theorem read_triple (leaves : ℕ → Bool) {b : ℕ} (h : b < 256) (rest : List ℕ) :
    read leaves ([percent, hexDigit (b / 16), hexDigit (b % 16)] ++ rest) =
      (if leaves b then [percent, hexDigit (b / 16), hexDigit (b % 16)] else [b]) ++
        read leaves rest := by
  have hhigh : hexValue (hexDigit (b / 16)) = some (b / 16) := hexValue_hexDigit (by omega)
  have hlow : hexValue (hexDigit (b % 16)) = some (b % 16) := hexValue_hexDigit (by omega)
  have hbyte : 16 * (b / 16) + b % 16 = b := by omega
  simp only [List.cons_append, List.nil_append]
  rw [read, if_pos rfl]
  simp only [hhigh, hlow, hbyte]

/-- A reader takes back what was written, but for the triples that it leaves. -/
theorem read_write (leaves keeps : ℕ → Bool) (hpercent : keeps percent = false) {bytes : List ℕ}
    (h : ∀ b ∈ bytes, b < 256) :
    read leaves (write keeps bytes) = write (fun b => keeps b || !leaves b) bytes := by
  induction bytes with
  | nil => rfl
  | cons b rest ih =>
    have hrest := ih fun x hx => h x (List.mem_cons_of_mem _ hx)
    have hsplit (k : ℕ → Bool) : write k (b :: rest) = writeByte k b ++ write k rest := by
      simp [write]
    rw [hsplit, hsplit, ← hrest]
    by_cases hkeep : keeps b = true
    · have hne : b ≠ percent := by
        intro hb
        rw [hb, hpercent] at hkeep
        cases hkeep
      simp only [writeByte, hkeep, if_true, Bool.true_or, List.cons_append, List.nil_append]
      exact read_cons_of_ne leaves hne _
    · have hdrop : keeps b = false := by simpa using hkeep
      simp only [writeByte, hdrop, Bool.false_eq_true, if_false, Bool.false_or]
      rw [read_triple leaves (h b List.mem_cons_self)]
      cases leaves b <;> rfl

theorem write_everything (bytes : List ℕ) : write everything bytes = bytes :=
  List.flatMap_singleton' bytes

theorem read_nothing_write (keeps : ℕ → Bool) (hpercent : keeps percent = false) {bytes : List ℕ}
    (h : ∀ b ∈ bytes, b < 256) : read nothing (write keeps bytes) = bytes := by
  rw [read_write nothing keeps hpercent h]
  have hall : (fun b => keeps b || !nothing b) = everything := by
    funext b
    simp [nothing, everything]
  rw [hall, write_everything]

/-- A written byte is a kept one, the percent sign or a digit. -/
theorem mem_write {keeps : ℕ → Bool} {bytes : List ℕ} (h : ∀ b ∈ bytes, b < 256) {x : ℕ}
    (hx : x ∈ write keeps bytes) :
    (x ∈ bytes ∧ keeps x = true) ∨ x = percent ∨ isAlphanumeric x = true := by
  obtain ⟨b, hb, hmem⟩ := List.mem_flatMap.mp hx
  have hlt := h b hb
  unfold writeByte at hmem
  split_ifs at hmem with hkeep
  · obtain rfl := List.mem_singleton.mp hmem
    exact Or.inl ⟨hb, hkeep⟩
  · have hdigit {n : ℕ} (hn : n < 16) : isAlphanumeric (hexDigit n) = true := by
      have hbounds := hexDigit_bounds hn
      simp only [isAlphanumeric, Bool.or_eq_true, Bool.and_eq_true, decide_eq_true_eq]
      omega
    simp only [List.mem_cons, List.not_mem_nil, or_false] at hmem
    obtain hsign | hhigh | hlow := hmem
    · exact Or.inr (Or.inl hsign)
    · exact Or.inr (Or.inr (hhigh ▸ hdigit (by omega)))
    · exact Or.inr (Or.inr (hlow ▸ hdigit (by omega)))

/-! The text that is left when only some triples of ASCII stand. -/

def charTriple (b : ℕ) : List Char :=
  ['%', Char.ofNat (hexDigit (b / 16)), Char.ofNat (hexDigit (b % 16))]

def writeChars (keeps : ℕ → Bool) (text : List Char) : List Char :=
  text.flatMap fun c => if 128 ≤ c.toNat ∨ keeps c.toNat = true then [c] else charTriple c.toNat

theorem encode_digit {n : ℕ} (h : n < 16) :
    encodeChar (Char.ofNat (hexDigit n)) = [hexDigit n] := by
  have hbounds := hexDigit_bounds h
  have hvalid : (hexDigit n).isValidChar := Or.inl (by omega)
  have hnat : (Char.ofNat (hexDigit n)).toNat = hexDigit n := by
    rw [Char.ofNat, dif_pos hvalid]
    rfl
  have hlt : hexDigit n < 0x80 := by omega
  simp only [encodeChar, hnat, if_pos hlt]

theorem encode_charTriple {b : ℕ} (h : b < 256) :
    encode (charTriple b) = [percent, hexDigit (b / 16), hexDigit (b % 16)] := by
  have hsign : encodeChar '%' = [percent] := rfl
  simp only [encode, charTriple, List.flatMap_cons, List.flatMap_nil, List.append_nil, hsign,
    encode_digit (show b / 16 < 16 by omega), encode_digit (show b % 16 < 16 by omega)]
  rfl

theorem write_encode (keeps : ℕ → Bool) (hkeeps : ∀ b, 128 ≤ b → keeps b = true)
    (text : List Char) : write keeps (encode text) = encode (writeChars keeps text) := by
  induction text with
  | nil => rfl
  | cons c rest ih =>
    have hwrite : write keeps (encode (c :: rest)) =
        write keeps (encodeChar c) ++ write keeps (encode rest) := by
      simp [write, encode]
    have hchars : writeChars keeps (c :: rest) =
        (if 128 ≤ c.toNat ∨ keeps c.toNat = true then [c] else charTriple c.toNat) ++
          writeChars keeps rest := by
      simp only [writeChars, List.flatMap_cons]
    rw [hwrite, hchars, encode_append, ih]
    congr 1
    obtain ⟨hlt, hone⟩ | ⟨hge, hmany⟩ := encodeChar_cases c
    · by_cases hkeep : keeps c.toNat = true
      · simp [write, writeByte, hone, hkeep, encode]
      · have hnot : ¬ (128 ≤ c.toNat ∨ keeps c.toNat = true) := by
          rintro (h | h)
          · omega
          · exact hkeep h
        rw [if_neg hnot, encode_charTriple (by omega), hone]
        simp [write, writeByte, hkeep]
    · rw [if_pos (Or.inl hge)]
      have hkept : write keeps (encodeChar c) = write everything (encodeChar c) := by
        refine List.flatMap_congr fun b hb => ?_
        simp [writeByte, everything, hkeeps b (hmany b hb)]
      rw [hkept, write_everything]
      simp [encode]

/-! Forms. -/

def formByte (keeps : ℕ → Bool) (b : ℕ) : List ℕ := if b = space then [plus] else writeByte keeps b

def formText (keeps : ℕ → Bool) (text : List Char) : List ℕ :=
  (encode text).flatMap (formByte keeps)

def formField (keeps : ℕ → Bool) (field : List Char × List Char) : List ℕ :=
  formText keeps field.1 ++ equalsSign :: formText keeps field.2

def formFields (keeps : ℕ → Bool) (fields : List (List Char × List Char)) : List ℕ :=
  [ampersand].intercalate (fields.map (formField keeps))

def readText (bytes : List ℕ) : List Char :=
  textOf (read nothing (bytes.map fun b => if b = plus then space else b))

def readField (bytes : List ℕ) : List Char × List Char :=
  (readText (bytes.takeWhile (· ≠ equalsSign)),
    readText ((bytes.dropWhile (· ≠ equalsSign)).drop 1))

def readFields (bytes : List ℕ) : List (List Char × List Char) :=
  ((bytes.splitOn ampersand).filter (· ≠ [])).map readField

/-- What the writer of a form may leave as it is. -/
structure FormSafe (keeps : ℕ → Bool) : Prop where
  percent : keeps percent = false
  plus : keeps plus = false
  ampersand : keeps ampersand = false
  equalsSign : keeps equalsSign = false

variable {keeps : ℕ → Bool}

theorem map_plus_formByte (h : FormSafe keeps) {b : ℕ} (hb : b < 256) :
    (formByte keeps b).map (fun x => if x = plus then space else x) =
      writeByte (fun x => keeps x || x == space) b := by
  unfold formByte
  split_ifs with hspace
  · simp [writeByte, hspace]
  · have hbeq : (b == space) = false := by simpa using hspace
    simp only [writeByte, hbeq, Bool.or_false]
    split_ifs with hkeep
    · have hne : b ≠ plus := by
        intro hp
        rw [hp, h.plus] at hkeep
        cases hkeep
      simp [hne]
    · have hdigit {n : ℕ} (hn : n < 16) : hexDigit n ≠ plus := by
        have hbounds := hexDigit_bounds hn
        unfold plus
        omega
      have hsign : percent ≠ plus := by decide
      simp [hsign, hdigit (show b / 16 < 16 by omega), hdigit (show b % 16 < 16 by omega)]

theorem readText_formText (h : FormSafe keeps) (text : List Char) :
    readText (formText keeps text) = text := by
  have hlt : ∀ b ∈ encode text, b < 256 := fun b hb => lt_of_mem_encode hb
  have hmap : (formText keeps text).map (fun x => if x = plus then space else x) =
      write (fun x => keeps x || x == space) (encode text) := by
    rw [formText, List.map_flatMap, write]
    exact List.flatMap_congr fun b hb => map_plus_formByte h (hlt b hb)
  have hpercent : (fun x => keeps x || x == space) percent = false := by
    simp only [h.percent, Bool.false_or]
    rfl
  rw [readText, hmap, read_nothing_write _ hpercent hlt, textOf_encode]

/-- Neither separator stands in the text of a field. -/
theorem ne_of_mem_formText (h : FormSafe keeps) {text : List Char} {x : ℕ}
    (hx : x ∈ formText keeps text) : x ≠ ampersand ∧ x ≠ equalsSign := by
  have hlt : ∀ b ∈ encode text, b < 256 := fun b hb => lt_of_mem_encode hb
  obtain ⟨b, hb, hmem⟩ := List.mem_flatMap.mp hx
  unfold formByte at hmem
  split_ifs at hmem with hspace
  · obtain rfl := List.mem_singleton.mp hmem
    decide
  · have hwritten : x ∈ write keeps (encode text) := List.mem_flatMap.mpr ⟨b, hb, hmem⟩
    obtain ⟨-, hkeep⟩ | rfl | halpha := mem_write hlt hwritten
    · constructor
      · rintro rfl
        rw [h.ampersand] at hkeep
        cases hkeep
      · rintro rfl
        rw [h.equalsSign] at hkeep
        cases hkeep
    · decide
    · constructor
      · rintro rfl
        cases halpha
      · rintro rfl
        cases halpha

theorem readField_formField (h : FormSafe keeps) (field : List Char × List Char) :
    readField (formField keeps field) = field := by
  have hkey : ∀ x ∈ formText keeps field.1, (decide (x ≠ equalsSign)) = true := by
    intro x hx
    simpa using (ne_of_mem_formText h hx).2
  simp only [readField, formField]
  rw [List.takeWhile_append_of_pos hkey, List.dropWhile_append_of_pos hkey]
  simp [readText_formText h]

/-- The fields of a form come back as they were. -/
theorem readFields_formFields (h : FormSafe keeps) (fields : List (List Char × List Char)) :
    readFields (formFields keeps fields) = fields := by
  rcases eq_or_ne fields [] with rfl | hne
  · rfl
  have hapart : ∀ l ∈ fields.map (formField keeps), ampersand ∉ l := by
    intro l hl hmem
    obtain ⟨field, -, rfl⟩ := List.mem_map.mp hl
    rcases List.mem_append.mp hmem with hkey | hvalue
    · exact (ne_of_mem_formText h hkey).1 rfl
    · rcases List.mem_cons.mp hvalue with hsign | hvalue
      · cases hsign
      · exact (ne_of_mem_formText h hvalue).1 rfl
  have hfull : ∀ l ∈ fields.map (formField keeps), decide (l ≠ []) = true := by
    intro l hl
    obtain ⟨field, -, rfl⟩ := List.mem_map.mp hl
    simp [formField]
  rw [readFields, formFields, List.splitOn_intercalate ampersand hapart (by simpa using hne),
    List.filter_eq_self.mpr hfull, List.map_map]
  have hid : readField ∘ formField keeps = id := by
    funext field
    exact readField_formField h field
  rw [hid, List.map_id]

end KGuardian.PercentEncoding
