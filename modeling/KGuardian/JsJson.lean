import KGuardian.JsText
import KGuardian.Patterns

/-!
`JSON.stringify` and `JSON.parse` of the TypeScript half of the repository. A string is its
UTF-16 code units, and a text is well-formed Unicode, as the writer makes it. The reader is
a pushdown machine that takes one character after the other; what it makes of the digits
of a number is a parameter, and a number is the text that the runtime writes for it.
-/
namespace KGuardian.JsJson

open JsText Patterns RegularExpression TextScan

abbrev JsString := List UInt16

def units (c : Char) : JsString := (codeUnits c).map UInt16.ofNat

def JsString.ofText (text : List Char) : JsString := text.flatMap units

def js (s : String) : JsString := JsString.ofText s.toList

inductive Json where
  | null
  | bool (b : Bool)
  | num (text : List Char)
  | str (s : JsString)
  | arr (items : List Json)
  | obj (fields : List (JsString × Json))

abbrev Fields := List (JsString × Json)

def property (key : JsString) (fields : Fields) : Option Json :=
  (fields.find? fun p => p.1 = key).map Prod.snd

/-- A property that is there keeps its place. -/
def setField (fields : Fields) (key : JsString) (v : Json) : Fields :=
  if fields.any fun p => p.1 = key then
    fields.map fun p => if p.1 = key then (key, v) else p
  else fields ++ [(key, v)]

/-! The writer. -/

def isHigh (u : UInt16) : Bool := 0xd800 ≤ u.toNat && u.toNat < 0xdc00

def isLow (u : UInt16) : Bool := 0xdc00 ≤ u.toNat && u.toNat < 0xe000

/-- The character of a surrogate pair. -/
def codePoint (h l : UInt16) : Char :=
  Char.ofNat (0x10000 + (h.toNat - 0xd800) * 0x400 + (l.toNat - 0xdc00))

def hexFour (n : ℕ) : List Char :=
  [Nat.digitChar (n / 4096), Nat.digitChar (n / 256 % 16), Nat.digitChar (n / 16 % 16),
    Nat.digitChar (n % 16)]

/-- The escapes of one character. -/
def shortEscapes : List (UInt16 × Char) :=
  [(8, 'b'), (9, 't'), (10, 'n'), (12, 'f'), (13, 'r'), (34, '"'), (92, '\\')]

def escapeUnit (u : UInt16) : List Char :=
  match shortEscapes.find? fun p => p.1 = u with
  | some p => ['\\', p.2]
  | none =>
      if u.toNat < 0x20 || isHigh u || isLow u then '\\' :: 'u' :: hexFour u.toNat
      else [Char.ofNat u.toNat]

/-- A surrogate that is not part of a pair is escaped. -/
def quoteUnits : JsString → List Char
  | [] => []
  | [u] => escapeUnit u
  | h :: l :: rest =>
      if isHigh h && isLow l then codePoint h l :: quoteUnits rest
      else escapeUnit h ++ quoteUnits (l :: rest)

def quote (s : JsString) : List Char := '"' :: (quoteUnits s ++ ['"'])

mutual

def stringify : Json → List Char
  | .null => "null".toList
  | .bool true => "true".toList
  | .bool false => "false".toList
  | .num text => text
  | .str s => quote s
  | .arr items => '[' :: (stringifyItems items ++ [']'])
  | .obj fields => '{' :: (stringifyFields fields ++ ['}'])

def stringifyItems : List Json → List Char
  | [] => []
  | [v] => stringify v
  | v :: w :: rest => stringify v ++ ',' :: stringifyItems (w :: rest)

def stringifyFields : List (JsString × Json) → List Char
  | [] => []
  | [(key, v)] => quote key ++ ':' :: stringify v
  | (key, v) :: p :: rest => quote key ++ ':' :: (stringify v ++ ',' :: stringifyFields (p :: rest))

end

/-! The reader. -/

/-- What encloses the value that is read. -/
inductive Frame where
  | item (items : List Json)
  | field (fields : Fields) (key : JsString)

/-- What a string is read for. -/
inductive Target where
  | value
  | key (fields : Fields)

inductive Place where
  | value
  | firstItem
  | afterItem (items : List Json)
  | key (fields : Fields) (first : Bool)
  | colon (fields : Fields) (key : JsString)
  | afterField (fields : Fields)
  | text (target : Target) (acc : JsString)
  | escape (target : Target) (acc : JsString)
  | hex (target : Target) (acc : JsString) (value left : ℕ)
  | word (left : List Char) (v : Json)
  | number (acc : List Char)
  | done (v : Json)

structure Reader where
  place : Place
  stack : List Frame

def Reader.start : Reader := ⟨.value, []⟩

def deliver (v : Json) : List Frame → Reader
  | [] => ⟨.done v, []⟩
  | .item items :: rest => ⟨.afterItem (items ++ [v]), rest⟩
  | .field fields key :: rest => ⟨.afterField (setField fields key v), rest⟩

def isBlank (c : Char) : Bool := c = ' ' || c = '\t' || c = '\n' || c = '\r'

def isNumberChar (c : Char) : Bool :=
  isDigit c || c = '-' || c = '+' || c = '.' || c = 'e' || c = 'E'

def digitChars : List Char := "0123456789".toList

/-- The pattern of a number. -/
def numeral : RegularExpression Char :=
  optional (char '-') *
    ((char '0' + oneOf "123456789".toList * (oneOf digitChars).star) *
      (optional (char '.' * atLeastOne (oneOf digitChars)) *
        optional (oneOf ['e', 'E'] *
          (optional (oneOf ['+', '-']) * atLeastOne (oneOf digitChars)))))

def startValue (c : Char) (stack : List Frame) : Option Reader :=
  if c = '"' then some ⟨.text .value [], stack⟩
  else if c = '{' then some ⟨.key [] true, stack⟩
  else if c = '[' then some ⟨.firstItem, stack⟩
  else if c = 't' then some ⟨.word "rue".toList (.bool true), stack⟩
  else if c = 'f' then some ⟨.word "alse".toList (.bool false), stack⟩
  else if c = 'n' then some ⟨.word "ull".toList .null, stack⟩
  else if isDigit c || c = '-' then some ⟨.number [c], stack⟩
  else none

def closeText (target : Target) (acc : JsString) (stack : List Frame) : Reader :=
  match target with
  | .value => deliver (.str acc) stack
  | .key fields => ⟨.colon fields acc, stack⟩

/-- The unit that a character after a backslash stands for. -/
def unescape (c : Char) : Option UInt16 :=
  if c = '/' then some 47 else (shortEscapes.find? fun p => p.2 = c).map Prod.fst

variable (canon : List Char → List Char)

def numberValue (text : List Char) : Option Json :=
  if numeral.rmatch text then some (.num (canon text)) else none

/-- A character outside strings, words and numbers. -/
def stepBetween (r : Reader) (c : Char) : Option Reader :=
  if isBlank c then some r
  else
    match r.place with
    | .value => startValue c r.stack
    | .firstItem =>
        if c = ']' then some (deliver (.arr []) r.stack)
        else startValue c (.item [] :: r.stack)
    | .afterItem items =>
        if c = ',' then some ⟨.value, .item items :: r.stack⟩
        else if c = ']' then some (deliver (.arr items) r.stack)
        else none
    | .key fields first =>
        if c = '"' then some ⟨.text (.key fields) [], r.stack⟩
        else if c = '}' && first then some (deliver (.obj fields) r.stack)
        else none
    | .colon fields key =>
        if c = ':' then some ⟨.value, .field fields key :: r.stack⟩ else none
    | .afterField fields =>
        if c = ',' then some ⟨.key fields false, r.stack⟩
        else if c = '}' then some (deliver (.obj fields) r.stack)
        else none
    | _ => none

def step (r : Reader) (c : Char) : Option Reader :=
  match r.place with
  | .text target acc =>
      if c = '"' then some (closeText target acc r.stack)
      else if c = '\\' then some ⟨.escape target acc, r.stack⟩
      else if c.toNat < 0x20 then none
      else some ⟨.text target (acc ++ units c), r.stack⟩
  | .escape target acc =>
      if c = 'u' then some ⟨.hex target acc 0 4, r.stack⟩
      else (unescape c).map fun u => ⟨.text target (acc ++ [u]), r.stack⟩
  | .hex target acc value left =>
      (hexVal c).map fun d =>
        if left ≤ 1 then ⟨.text target (acc ++ [UInt16.ofNat (value * 16 + d)]), r.stack⟩
        else ⟨.hex target acc (value * 16 + d) (left - 1), r.stack⟩
  | .word left v =>
      match left with
      | [] => none
      | x :: rest =>
          if c = x then
            some (if rest.isEmpty then deliver v r.stack else ⟨.word rest v, r.stack⟩)
          else none
  | .number acc =>
      if isNumberChar c then some ⟨.number (acc ++ [c]), r.stack⟩
      else (numberValue canon acc).bind fun v => stepBetween (deliver v r.stack) c
  | _ => stepBetween r c

def run (r : Reader) (text : List Char) : Option Reader := text.foldlM (step canon) r

def finish (r : Reader) : Option Json :=
  match r.place, r.stack with
  | .done v, [] => some v
  | .number acc, [] => numberValue canon acc
  | _, _ => none

def parse (text : List Char) : Option Json :=
  (run canon .start text).bind (finish canon)

theorem run_append (r : Reader) (a b : List Char) :
    run canon r (a ++ b) = (run canon r a).bind fun r' => run canon r' b :=
  List.foldlM_append

theorem run_cons (r : Reader) (c : Char) (rest : List Char) :
    run canon r (c :: rest) = (step canon r c).bind fun r' => run canon r' rest :=
  List.foldlM_cons

/-! Strings are read as they were before they were quoted. -/

theorem toNat_ofNat_of_isValidChar {n : ℕ} (h : n.isValidChar) : (Char.ofNat n).toNat = n := by
  rw [Char.ofNat, dif_pos h]
  rfl

theorem isValidChar_of_not_surrogate {u : UInt16} (hhigh : isHigh u = false)
    (hlow : isLow u = false) : u.toNat.isValidChar := by
  have hlt := u.toNat_lt
  simp [isHigh, isLow] at hhigh hlow
  unfold Nat.isValidChar
  omega

theorem units_unit {u : UInt16} (hhigh : isHigh u = false) (hlow : isLow u = false) :
    units (Char.ofNat u.toNat) = [u] := by
  have hlt : u.toNat < 0x10000 := u.toNat_lt
  have hn := toNat_ofNat_of_isValidChar (isValidChar_of_not_surrogate hhigh hlow)
  simp [units, codeUnits, hn, hlt]

theorem toNat_codePoint {h l : UInt16} (hh : isHigh h = true) (hl : isLow l = true) :
    (codePoint h l).toNat = 0x10000 + (h.toNat - 0xd800) * 0x400 + (l.toNat - 0xdc00) := by
  simp [isHigh, isLow] at hh hl
  apply toNat_ofNat_of_isValidChar
  unfold Nat.isValidChar
  omega

theorem units_codePoint {h l : UInt16} (hh : isHigh h = true) (hl : isLow l = true) :
    units (codePoint h l) = [h, l] := by
  have hn := toNat_codePoint hh hl
  simp [isHigh, isLow] at hh hl
  have hge : ¬ (codePoint h l).toNat < 0x10000 := by omega
  have hfirst : 0xd800 + ((codePoint h l).toNat - 0x10000) / 0x400 = h.toNat := by omega
  have hsecond : 0xdc00 + ((codePoint h l).toNat - 0x10000) % 0x400 = l.toNat := by omega
  unfold units codeUnits
  rw [if_neg hge, hfirst, hsecond]
  simp

theorem hexVal_digitChar : ∀ n < 16, hexVal (Nat.digitChar n) = some n := by decide

theorem run_hexFour {target : Target} {acc : JsString} {stack : List Frame} (u : UInt16) :
    run canon ⟨.hex target acc 0 4, stack⟩ (hexFour u.toNat) =
      some ⟨.text target (acc ++ [u]), stack⟩ := by
  have hlt := u.toNat_lt
  have hvalue : (((0 * 16 + u.toNat / 4096) * 16 + u.toNat / 256 % 16) * 16 +
      u.toNat / 16 % 16) * 16 + u.toNat % 16 = u.toNat := by omega
  simp only [hexFour, run_cons, step, hexVal_digitChar _ (by omega : u.toNat / 4096 < 16),
    hexVal_digitChar _ (Nat.mod_lt _ (by omega : 16 > 0)), Option.map_some, Option.bind_some,
    Nat.reduceLeDiff, Nat.reduceSub, if_false, if_true, hvalue, UInt16.ofNat_toNat]
  rfl

theorem unescape_shortEscapes :
    ∀ p ∈ shortEscapes, p.2 ≠ 'u' ∧ unescape p.2 = some p.1 := by decide

/-- A character that stands for itself. -/
theorem step_plain {target : Target} {acc : JsString} {stack : List Frame} {c : Char}
    (hquote : c ≠ '"') (hslash : c ≠ '\\') (hge : 0x20 ≤ c.toNat) :
    step canon ⟨.text target acc, stack⟩ c = some ⟨.text target (acc ++ units c), stack⟩ := by
  have hlt : ¬ c.toNat < 0x20 := by omega
  simp [step, hquote, hslash, hlt]

theorem run_escapeUnit {target : Target} {acc : JsString} {stack : List Frame} (u : UInt16) :
    run canon ⟨.text target acc, stack⟩ (escapeUnit u) =
      some ⟨.text target (acc ++ [u]), stack⟩ := by
  unfold escapeUnit
  split
  · rename_i p hp
    obtain ⟨hu, hunescape⟩ := unescape_shortEscapes p (List.mem_of_find?_eq_some hp)
    have hunit : p.1 = u := by simpa using List.find?_some hp
    simp [run, step, hu, hunescape, hunit]
  · rename_i hnone
    split
    · have hslash : step canon ⟨.text target acc, stack⟩ '\\' = some ⟨.escape target acc, stack⟩ :=
        rfl
      have hu : step canon ⟨.escape target acc, stack⟩ 'u' =
          some ⟨.hex target acc 0 4, stack⟩ := rfl
      rw [run_cons, hslash, Option.bind_some, run_cons, hu, Option.bind_some]
      exact run_hexFour canon u
    · rename_i hplain
      simp only [Bool.or_eq_true, decide_eq_true_eq, not_or, Bool.not_eq_true] at hplain
      obtain ⟨⟨hge, hhigh⟩, hlow⟩ := hplain
      have hn := toNat_ofNat_of_isValidChar (isValidChar_of_not_surrogate hhigh hlow)
      have hspecial : ∀ p ∈ shortEscapes, p.1 ≠ u := by
        simpa using List.find?_eq_none.mp hnone
      have hquote : Char.ofNat u.toNat ≠ '"' := by
        intro heq
        rw [heq] at hn
        exact hspecial (34, '"') (by decide) (UInt16.toNat_inj.mp hn)
      have hslash : Char.ofNat u.toNat ≠ '\\' := by
        intro heq
        rw [heq] at hn
        exact hspecial (92, '\\') (by decide) (UInt16.toNat_inj.mp hn)
      rw [run_cons, step_plain canon hquote hslash (by omega), units_unit hhigh hlow]
      rfl

theorem run_quoteUnits {target : Target} {acc : JsString} {stack : List Frame} (s : JsString) :
    run canon ⟨.text target acc, stack⟩ (quoteUnits s) =
      some ⟨.text target (acc ++ s), stack⟩ := by
  induction s using quoteUnits.induct generalizing acc with
  | case1 => simp [quoteUnits, run]
  | case2 u => exact run_escapeUnit canon u
  | case3 h l rest hpair ih =>
      obtain ⟨hh, hl⟩ := Bool.and_eq_true_iff.mp hpair
      have hn := toNat_codePoint hh hl
      have hquote : codePoint h l ≠ '"' := fun heq => by simp [heq] at hn; omega
      have hslash : codePoint h l ≠ '\\' := fun heq => by simp [heq] at hn; omega
      rw [quoteUnits, if_pos hpair, run_cons, step_plain canon hquote hslash (by omega),
        Option.bind_some, ih, units_codePoint hh hl]
      simp
  | case4 h l rest hpair ih =>
      rw [quoteUnits, if_neg hpair, run_append, run_escapeUnit, Option.bind_some, ih]
      simp

/-- A quoted string is read back. -/
theorem run_quote {target : Target} {stack : List Frame} (s : JsString) (rest : List Char) :
    run canon ⟨.text target [], stack⟩ (quoteUnits s ++ '"' :: rest) =
      run canon (closeText target s stack) rest := by
  rw [run_append, run_quoteUnits, Option.bind_some, run_cons]
  rfl

/-! Printable text is quoted as it is. -/

def isPlain (c : Char) : Bool :=
  0x20 ≤ c.toNat && c.toNat < 0x7f && c ≠ '"' && c ≠ '\\'

theorem ofText_append (a b : List Char) :
    JsString.ofText (a ++ b) = JsString.ofText a ++ JsString.ofText b := List.flatMap_append

theorem units_plain {c : Char} (h : isPlain c = true) : units c = [UInt16.ofNat c.toNat] := by
  simp only [isPlain, Bool.and_eq_true, decide_eq_true_eq] at h
  have hlt : c.toNat < 0x10000 := by omega
  simp [units, codeUnits, hlt]

theorem length_ofText_plain {text : List Char} (h : text.all isPlain = true) :
    (JsString.ofText text).length = text.length := by
  induction text with
  | nil => rfl
  | cons c text ih =>
      simp only [List.all_cons, Bool.and_eq_true] at h
      have hcons : JsString.ofText (c :: text) = units c ++ JsString.ofText text := rfl
      rw [hcons, units_plain h.1, List.length_append, ih h.2]
      simp [Nat.add_comm]

theorem shortEscapes_plain :
    ∀ p ∈ shortEscapes, p.1.toNat < 0x20 ∨ p.1.toNat = 34 ∨ p.1.toNat = 92 := by decide

theorem escapeUnit_plain {c : Char} (h : isPlain c = true) :
    escapeUnit (UInt16.ofNat c.toNat) = [c] ∧ isHigh (UInt16.ofNat c.toNat) = false := by
  simp only [isPlain, Bool.and_eq_true, decide_eq_true_eq, ne_eq] at h
  obtain ⟨⟨⟨hlow, hhigh⟩, hquote⟩, hslash⟩ := h
  have hn : (UInt16.ofNat c.toNat).toNat = c.toNat := UInt16.toNat_ofNat_of_lt' (by
    show c.toNat < 65536
    omega)
  have hnot : isHigh (UInt16.ofNat c.toNat) = false ∧ isLow (UInt16.ofNat c.toNat) = false := by
    simp only [isHigh, isLow, hn, Bool.and_eq_false_imp, decide_eq_true_eq, decide_eq_false_iff_not]
    omega
  refine ⟨?_, hnot.1⟩
  have hnone : shortEscapes.find? (fun p => p.1 = UInt16.ofNat c.toNat) = none := by
    rw [List.find?_eq_none]
    intro p hp hcase
    have hp1 : p.1 = UInt16.ofNat c.toNat := by simpa using hcase
    have hvalue := shortEscapes_plain p hp
    rw [hp1, hn] at hvalue
    rcases hvalue with hcontrol | h34 | h92
    · omega
    · exact hquote (Char.toNat_inj.mp h34)
    · exact hslash (Char.toNat_inj.mp h92)
  have hlt : ¬ c.toNat < 0x20 := by omega
  unfold escapeUnit
  rw [hnone]
  simp [hnot.1, hnot.2, hn, hlt]

theorem quoteUnits_plain {text : List Char} (h : text.all isPlain = true) :
    quoteUnits (JsString.ofText text) = text := by
  induction text with
  | nil => rfl
  | cons c text ih =>
      simp only [List.all_cons, Bool.and_eq_true] at h
      obtain ⟨hescape, hhigh⟩ := escapeUnit_plain h.1
      have hcons : JsString.ofText (c :: text) = UInt16.ofNat c.toNat :: JsString.ofText text := by
        show units c ++ JsString.ofText text = _
        rw [units_plain h.1]
        rfl
      have hrest := ih h.2
      rw [hcons]
      cases hunits : JsString.ofText text with
      | nil =>
          rw [hunits] at hrest
          rw [quoteUnits, hescape, ← hrest]
          rfl
      | cons l rest =>
          rw [hunits] at hrest
          rw [quoteUnits, hhigh, Bool.false_and, if_neg Bool.false_ne_true, hescape, hrest]
          rfl

/-! Flat objects are read back. -/

def isScalar : Json → Bool
  | .null | .bool _ | .str _ => true
  | _ => false

theorem run_scalar {v : Json} (hscalar : isScalar v = true) (stack : List Frame)
    (rest : List Char) :
    run canon ⟨.value, stack⟩ (stringify v ++ rest) = run canon (deliver v stack) rest := by
  cases v with
  | null => rfl
  | bool b => cases b <;> rfl
  | str s =>
      rw [stringify, quote, List.cons_append, List.append_assoc, run_cons]
      exact run_quote canon s rest
  | num text => exact absurd hscalar (by simp [isScalar])
  | arr items => exact absurd hscalar (by simp [isScalar])
  | obj fields => exact absurd hscalar (by simp [isScalar])

theorem setField_new {fields : Fields} {key : JsString} (h : key ∉ fields.map Prod.fst)
    (v : Json) : setField fields key v = fields ++ [(key, v)] := by
  have hnone : (fields.any fun p => p.1 = key) = false := by
    rw [List.any_eq_false]
    intro p hp
    simp only [decide_eq_true_eq]
    rintro rfl
    exact h (List.mem_map_of_mem hp)
  rw [setField, hnone, if_neg Bool.false_ne_true]

/-- A key and its value, up to what comes after them. -/
theorem run_field {before : Fields} {first : Bool} {key : JsString} {v : Json}
    (hscalar : isScalar v = true) (hnew : key ∉ before.map Prod.fst) (stack : List Frame)
    (rest : List Char) :
    run canon ⟨.key before first, stack⟩ (quote key ++ ':' :: (stringify v ++ rest)) =
      run canon ⟨.afterField (before ++ [(key, v)]), stack⟩ rest := by
  have hopen : step canon ⟨.key before first, stack⟩ '"' =
      some ⟨.text (.key before) [], stack⟩ := rfl
  have hcolon : step canon ⟨.colon before key, stack⟩ ':' =
      some ⟨.value, .field before key :: stack⟩ := rfl
  rw [quote, List.cons_append, List.append_assoc, run_cons, hopen, Option.bind_some]
  rw [List.singleton_append, run_quote]
  show run canon ⟨.colon before key, stack⟩ _ = _
  rw [run_cons, hcolon, Option.bind_some, run_scalar canon hscalar]
  simp only [deliver, setField_new hnew]

theorem run_fields (fields : Fields) (before : Fields) (first : Bool) (stack : List Frame)
    (hne : fields ≠ []) (hscalar : ∀ p ∈ fields, isScalar p.2 = true)
    (hnodup : ((before ++ fields).map Prod.fst).Nodup) (rest : List Char) :
    run canon ⟨.key before first, stack⟩ (stringifyFields fields ++ '}' :: rest) =
      run canon (deliver (.obj (before ++ fields)) stack) rest := by
  induction fields generalizing before first with
  | nil => exact absurd rfl hne
  | cons p more ih =>
      obtain ⟨key, v⟩ := p
      obtain ⟨hv, hmore⟩ := List.forall_mem_cons.mp hscalar
      have hnew : key ∉ before.map Prod.fst := by
        rw [List.map_append, List.map_cons, List.nodup_append] at hnodup
        exact fun hmem => hnodup.2.2 key hmem key List.mem_cons_self rfl
      cases more with
      | nil =>
          rw [stringifyFields, List.append_assoc, List.cons_append, run_field canon hv hnew,
            run_cons]
          rfl
      | cons p' more =>
          have hstep : step canon ⟨.afterField (before ++ [(key, v)]), stack⟩ ',' =
              some ⟨.key (before ++ [(key, v)]) false, stack⟩ := rfl
          rw [stringifyFields, List.append_assoc, List.cons_append, List.append_assoc,
            run_field canon hv hnew, List.cons_append, run_cons, hstep, Option.bind_some]
          rw [ih (before ++ [(key, v)]) false (by simp) hmore (by simpa using hnodup)]
          simp

theorem run_obj {fields : Fields} (hne : fields ≠ [])
    (hscalar : ∀ p ∈ fields, isScalar p.2 = true) (hnodup : (fields.map Prod.fst).Nodup) :
    run canon .start (stringify (.obj fields)) = some ⟨.done (.obj fields), []⟩ := by
  rw [stringify, run_cons]
  show run canon ⟨.key [] true, []⟩ (stringifyFields fields ++ '}' :: []) = _
  rw [run_fields canon fields [] true [] hne hscalar hnodup]
  rfl

theorem parse_obj {fields : Fields} (hne : fields ≠ [])
    (hscalar : ∀ p ∈ fields, isScalar p.2 = true) (hnodup : (fields.map Prod.fst).Nodup) :
    parse canon (stringify (.obj fields)) = some (.obj fields) := by
  rw [parse, run_obj canon hne hscalar hnodup]
  rfl

/-! A text that ends too early is not read. -/

/-- Nothing encloses what is read, and it may end here. -/
def Settled (r : Reader) : Prop :=
  r.stack = [] ∧ ((∃ v, r.place = .done v) ∨ ∃ acc, r.place = .number acc)

theorem step_settled {r r' : Reader} {c : Char} (hsettled : Settled r)
    (hstep : step canon r c = some r') :
    Settled r' ∧ (isNumberChar c = true ∨ isBlank c = true) := by
  have hdone : ∀ (v : Json) (r' : Reader), stepBetween ⟨.done v, []⟩ c = some r' →
      Settled r' ∧ isBlank c = true := by
    intro v r' h
    unfold stepBetween at h
    split at h
    · rename_i hblank
      obtain rfl := Option.some.inj h
      exact ⟨⟨rfl, .inl ⟨v, rfl⟩⟩, hblank⟩
    · exact absurd h (by simp)
  obtain ⟨place, stack⟩ := r
  obtain ⟨hstack, hplace⟩ := hsettled
  simp only at hstack hplace
  subst hstack
  rcases hplace with ⟨v, rfl⟩ | ⟨acc, rfl⟩
  · obtain ⟨hsettled, hblank⟩ := hdone v r' hstep
    exact ⟨hsettled, .inr hblank⟩
  · simp only [step] at hstep
    split at hstep
    · rename_i hnumber
      obtain rfl := Option.some.inj hstep
      exact ⟨⟨rfl, .inr ⟨_, rfl⟩⟩, .inl hnumber⟩
    · obtain ⟨v, -, hbetween⟩ := Option.bind_eq_some_iff.mp hstep
      obtain ⟨hsettled, hblank⟩ := hdone v r' hbetween
      exact ⟨hsettled, .inr hblank⟩

theorem run_settled {r r' : Reader} {text : List Char} (hsettled : Settled r)
    (hrun : run canon r text = some r') :
    ∀ c ∈ text, isNumberChar c = true ∨ isBlank c = true := by
  induction text generalizing r with
  | nil => simp
  | cons c rest ih =>
      rw [run_cons] at hrun
      obtain ⟨r'', hstep, hrest⟩ := Option.bind_eq_some_iff.mp hrun
      obtain ⟨hsettled', hc⟩ := step_settled canon hsettled hstep
      exact List.forall_mem_cons.mpr ⟨hc, ih hsettled' hrest⟩

theorem settled_of_finish {r : Reader} {v : Json} (h : finish canon r = some v) : Settled r := by
  unfold finish at h
  split at h
  · rename_i v' hplace hstack
    exact ⟨hstack, .inl ⟨v', hplace⟩⟩
  · rename_i acc hplace hstack
    exact ⟨hstack, .inr ⟨acc, hplace⟩⟩
  · exact absurd h (by simp)

/-- What can be read is over before a bracket of it. -/
theorem parse_eq_none_of_more {front back : List Char} {r : Reader}
    (hrun : run canon .start (front ++ back) = some r) {c : Char} (hc : c ∈ back)
    (hnumber : isNumberChar c = false) (hblank : isBlank c = false) :
    parse canon front = none := by
  rw [run_append] at hrun
  obtain ⟨r', hfront, hback⟩ := Option.bind_eq_some_iff.mp hrun
  rw [parse, hfront, Option.bind_some]
  cases hfinish : finish canon r' with
  | none => rfl
  | some v =>
      rcases run_settled canon (settled_of_finish canon hfinish) hback c hc with hcase | hcase
      · exact absurd hcase (by simp [hnumber])
      · exact absurd hcase (by simp [hblank])

/-! Control characters are escaped. -/

theorem shortEscapes_printable : ∀ p ∈ shortEscapes, 0x20 ≤ p.2.toNat := by decide

theorem digitChar_printable : ∀ n < 16, 0x20 ≤ (Nat.digitChar n).toNat := by decide

theorem escapeUnit_printable (u : UInt16) : ∀ c ∈ escapeUnit u, 0x20 ≤ c.toNat := by
  have hlt := u.toNat_lt
  unfold escapeUnit
  split
  · rename_i p hp
    intro c hc
    simp only [List.mem_cons, List.not_mem_nil, or_false] at hc
    rcases hc with rfl | rfl
    · decide
    · exact shortEscapes_printable p (List.mem_of_find?_eq_some hp)
  · split
    · intro c hc
      simp only [hexFour, List.mem_cons, List.not_mem_nil, or_false] at hc
      rcases hc with rfl | rfl | rfl | rfl | rfl | rfl
      · decide
      · decide
      all_goals exact digitChar_printable _ (by omega)
    · rename_i hplain
      simp only [Bool.or_eq_true, decide_eq_true_eq, not_or, Bool.not_eq_true] at hplain
      obtain ⟨⟨hge, hhigh⟩, hlow⟩ := hplain
      intro c hc
      rw [List.mem_singleton.mp hc,
        toNat_ofNat_of_isValidChar (isValidChar_of_not_surrogate hhigh hlow)]
      omega

theorem quoteUnits_printable (s : JsString) : ∀ c ∈ quoteUnits s, 0x20 ≤ c.toNat := by
  induction s using quoteUnits.induct with
  | case1 => simp [quoteUnits]
  | case2 u => exact escapeUnit_printable u
  | case3 h l rest hpair ih =>
      obtain ⟨hh, hl⟩ := Bool.and_eq_true_iff.mp hpair
      have hn := toNat_codePoint hh hl
      rw [quoteUnits, if_pos hpair]
      exact List.forall_mem_cons.mpr ⟨by omega, ih⟩
  | case4 h l rest hpair ih =>
      rw [quoteUnits, if_neg hpair]
      exact List.forall_mem_append.mpr ⟨escapeUnit_printable h, ih⟩

theorem quote_printable (s : JsString) : ∀ c ∈ quote s, 0x20 ≤ c.toNat := by
  refine List.forall_mem_cons.mpr ⟨by decide, ?_⟩
  exact List.forall_mem_append.mpr ⟨quoteUnits_printable s, by simp⟩

theorem scalar_printable {v : Json} (h : isScalar v = true) :
    ∀ c ∈ stringify v, 0x20 ≤ c.toNat := by
  cases v with
  | null => simp [stringify]
  | bool b => cases b <;> simp [stringify]
  | str s => exact quote_printable s
  | num text => exact absurd h (by simp [isScalar])
  | arr items => exact absurd h (by simp [isScalar])
  | obj fields => exact absurd h (by simp [isScalar])

theorem fields_printable {fields : Fields} (hscalar : ∀ p ∈ fields, isScalar p.2 = true) :
    ∀ c ∈ stringifyFields fields, 0x20 ≤ c.toNat := by
  induction fields with
  | nil => simp [stringifyFields]
  | cons p more ih =>
      obtain ⟨key, v⟩ := p
      obtain ⟨hv, hmore⟩ := List.forall_mem_cons.mp hscalar
      cases more with
      | nil =>
          rw [stringifyFields]
          exact List.forall_mem_append.mpr ⟨quote_printable key,
            List.forall_mem_cons.mpr ⟨by decide, scalar_printable hv⟩⟩
      | cons p' more =>
          rw [stringifyFields]
          refine List.forall_mem_append.mpr ⟨quote_printable key,
            List.forall_mem_cons.mpr ⟨by decide, ?_⟩⟩
          exact List.forall_mem_append.mpr ⟨scalar_printable hv,
            List.forall_mem_cons.mpr ⟨by decide, ih hmore⟩⟩

theorem obj_printable {fields : Fields} (hscalar : ∀ p ∈ fields, isScalar p.2 = true) :
    ∀ c ∈ stringify (.obj fields), 0x20 ≤ c.toNat := by
  rw [stringify]
  refine List.forall_mem_cons.mpr ⟨by decide, ?_⟩
  exact List.forall_mem_append.mpr ⟨fields_printable hscalar, by simp⟩

end KGuardian.JsJson
