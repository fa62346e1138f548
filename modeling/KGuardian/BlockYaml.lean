import KGuardian.TextScan
import Mathlib.Data.List.DropRight

/-!
The block style of YAML 1.1 with scalars on one line: lines become tokens with a column, and
a stack of open mappings and sequences makes a tree of them. What goes beyond that (scalars
over several lines, block scalars, flow collections, comments, anchors, tags, single quotes,
other escapes than those of the quote and the backslash) is refused. How plain text is
resolved is a parameter.
-/
namespace KGuardian.BlockYaml

/-- The value of a scalar. Numbers with a fraction and dates keep their text. -/
inductive Scalar where
  | null
  | bool (b : Bool)
  | int (n : ℤ)
  | other (text : List Char)
  | str (s : List Char)
  deriving DecidableEq

inductive Node where
  | scalar (s : Scalar)
  | seq (items : List Node)
  | map (entries : List (Scalar × Node))

def Node.null : Node := .scalar .null

/-- The decimal text of an integer. -/
def intText (n : ℤ) : List Char :=
  if n < 0 then '-' :: Nat.toDigits 10 n.natAbs else Nat.toDigits 10 n.natAbs

/-- The words that mean null or a truth value. -/
def reservedWords : List (List Char) :=
  ["null", "Null", "NULL", "y", "Y", "yes", "Yes", "YES", "n", "N", "no", "No", "NO",
    "true", "True", "TRUE", "false", "False", "FALSE", "on", "On", "ON", "off", "Off",
    "OFF"].map String.toList

/-- What a reader makes of plain text. -/
structure Resolution where
  plain : List Char → Scalar
  empty : plain [] = .null
  text : ∀ t s, plain t = .str s → s = t
  number : ∀ n, plain (intText n) = .int n
  truth : ∀ b : Bool, plain (toString b).toList = .bool b
  word : ∀ c t, c.isAlpha = true → (c :: t) ∉ reservedWords → plain (c :: t) = .str (c :: t)

/-! Characters and lines. -/

def isBreak (c : Char) : Bool := c = '\n' || c = '\r'

/-- The characters of a scalar on one line. -/
def isReadable (c : Char) : Bool :=
  c = '\t' || (0x20 ≤ c.toNat && c.toNat ≤ 0x7e) ||
    (0xa0 ≤ c.toNat && !([0x2028, 0x2029, 0xfeff, 0xfffe, 0xffff].contains c.toNat))

def isBlank (c : Char) : Bool := c = ' ' || c = '\t'

def trim (text : List Char) : List Char := (text.dropWhile isBlank).rdropWhile isBlank

def linesOf (text : List Char) : List (List Char) := text.splitOnP isBreak

/-! Scalars. -/

/-- The text up to the closing quote, and what comes after it. -/
def quoted : List Char → Option (List Char × List Char)
  | [] => none
  | '"' :: rest => some ([], rest)
  | ['\\'] => none
  | '\\' :: c :: rest =>
      if c = '"' || c = '\\' then (quoted rest).map fun p => (c :: p.1, p.2) else none
  | c :: rest => (quoted rest).map fun p => (c :: p.1, p.2)

def startsBlank : List Char → Bool
  | [] => true
  | c :: _ => isBlank c

def indicators : List Char := ",[]{}#&*!|>'\"%@".toList ++ [Char.ofNat 0x60]

/-- A dash, a question mark or a colon starts a plain scalar only before other text. -/
def startsPlain : List Char → Bool
  | [] => false
  | c :: rest =>
      if ['-', '?', ':'].contains c then !startsBlank rest else !indicators.contains c

/-- The text before and after the first colon that ends a key. -/
def splitKey : List Char → Option (List Char × List Char)
  | [] => none
  | c :: rest =>
      if c = ':' && startsBlank rest then some ([], rest)
      else (splitKey rest).map fun p => (c :: p.1, p.2)

def hasComment : List Char → Bool
  | [] => false
  | [_] => false
  | c :: d :: rest => (isBlank c && d = '#') || hasComment (d :: rest)

variable (r : Resolution)

/-- A scalar that takes the rest of a line. -/
def scalarOf (text : List Char) : Option Scalar :=
  match trim text with
  | [] => some .null
  | '"' :: rest => (quoted rest).bind fun p => if p.2 = [] then some (.str p.1) else none
  | c :: rest =>
      if startsPlain (c :: rest) && (splitKey (c :: rest)).isNone && !hasComment (c :: rest) then
        some (r.plain (c :: rest))
      else none

/-! Tokens. -/

inductive Item where
  | dash
  | entry (key : Scalar) (value : Option Scalar)
  | scalar (s : Scalar)
  deriving DecidableEq

structure Token where
  col : ℕ
  item : Item
  deriving DecidableEq

/-- A key has this many characters at most. -/
def keyLimit : ℕ := 1024

def entryOf (key : Scalar) (value : List Char) : Option Item :=
  if (trim value).isEmpty then some (.entry key none)
  else (scalarOf r value).map fun s => .entry key (some s)

/-- What is left of a line after its indentation and its dashes. -/
def contentOf (text : List Char) : Option Item :=
  match text with
  | '"' :: rest =>
      (quoted rest).bind fun p =>
        match p.2.dropWhile isBlank with
        | [] => some (.scalar (.str p.1))
        | ':' :: value =>
            if startsBlank value && (text.length - p.2.length ≤ keyLimit : Bool) then
              entryOf r (.str p.1) value
            else none
        | _ => none
  | _ =>
      match splitKey text with
      | some (key, value) =>
          if (key.isEmpty || startsPlain key) && !hasComment key && key.length ≤ keyLimit then
            entryOf r (r.plain (trim key)) value
          else none
      | none => (scalarOf r text).map .scalar

def tokensAt (col : ℕ) : List Char → Option (List Token)
  | [] => some []
  | ' ' :: rest => tokensAt (col + 1) rest
  | ['-'] => some [⟨col, .dash⟩]
  | '-' :: ' ' :: rest => (tokensAt (col + 2) rest).map fun tokens => ⟨col, .dash⟩ :: tokens
  | c :: rest => (contentOf r (c :: rest)).map fun item => [⟨col, item⟩]

def lineTokens (line : List Char) : Option (List Token) :=
  if line.all isReadable then tokensAt r 0 line else none

def tokensOf (lines : List (List Char)) : Option (List Token) :=
  (lines.mapM (lineTokens r)).map List.flatten

/-! The tree. -/

/-- A collection that is still open, or the document. -/
inductive Frame where
  | doc (value : Option Node)
  | map (col : ℕ) (entries : List (Scalar × Node)) (key : Option Scalar)
  | seq (col : ℕ) (items : List Node) (waiting : Bool)

def Frame.waiting : Frame → Bool
  | .doc value => value.isNone
  | .map _ _ key => key.isSome
  | .seq _ _ waiting => waiting

/-- A key or a dash without anything stands for null. -/
def Frame.flush : Frame → Frame
  | .doc value => .doc value
  | .map col entries key => .map col (entries ++ (key.map fun k => (k, Node.null)).toList) none
  | .seq col items waiting => .seq col (items ++ if waiting then [Node.null] else []) false

def Frame.node : Frame → Node
  | .doc value => value.getD .null
  | .map _ entries key => .map (entries ++ (key.map fun k => (k, Node.null)).toList)
  | .seq _ items waiting => .seq (items ++ if waiting then [Node.null] else [])

def Frame.put (v : Node) : Frame → Frame
  | .doc none => .doc (some v)
  | .map col entries (some key) => .map col (entries ++ [(key, v)]) none
  | .seq col items true => .seq col (items ++ [v]) false
  | f => f

structure Reader where
  top : Frame
  below : List Frame

def Item.isDash : Item → Bool
  | .dash => true
  | _ => false

/-- A token ends what is deeper, and a sequence at its own column if it is no dash. -/
def closedBy (t : Token) : Frame → Bool
  | .doc _ => false
  | .map col _ _ => t.col < col
  | .seq col _ _ => t.col < col || (t.col = col && !t.item.isDash)

def settle (closed : Frame → Bool) (f : Frame) : List Frame → Reader
  | [] => ⟨f, []⟩
  | g :: below =>
      if closed f then settle closed (g.put f.node) below else ⟨f, g :: below⟩

def Frame.isDoc : Frame → Bool
  | .doc _ => true
  | _ => false

def addEntry (col : ℕ) (entries : List (Scalar × Node)) (key : Scalar) : Option Scalar → Frame
  | some s => .map col (entries ++ [(key, .scalar s)]) none
  | none => .map col entries (some key)

/-- A token after what it ends is closed. -/
def advance (t : Token) (f : Frame) (below : List Frame) : Option Reader :=
  match t.item, f with
  | .dash, .seq col items waiting =>
      if col = t.col then
        some ⟨.seq col (items ++ if waiting then [Node.null] else []) true, below⟩
      else if waiting then some ⟨.seq t.col [] true, f :: below⟩ else none
  | .dash, f => if f.waiting then some ⟨.seq t.col [] true, f :: below⟩ else none
  | .entry key value, .map col entries pending =>
      if col = t.col then
        some ⟨addEntry col (entries ++ (pending.map fun k => (k, Node.null)).toList) key value,
          below⟩
      else if pending.isSome then some ⟨addEntry t.col [] key value, f :: below⟩ else none
  | .entry key value, f =>
      if f.waiting then some ⟨addEntry t.col [] key value, f :: below⟩ else none
  | .scalar s, .map col _ _ =>
      if f.waiting && (col < t.col : Bool) then some ⟨f.put (.scalar s), below⟩ else none
  | .scalar s, f => if f.waiting then some ⟨f.put (.scalar s), below⟩ else none

def step (reader : Reader) (t : Token) : Option Reader :=
  let settled := settle (closedBy t) reader.top reader.below
  advance t settled.top settled.below

def build (tokens : List Token) : Option Node :=
  (tokens.foldlM step ⟨.doc none, []⟩).map fun reader =>
    (settle (fun f => !f.isDoc) reader.top reader.below).top.node

def read (text : List Char) : Option Node := (tokensOf r (linesOf text)).bind build

/-! What is read for a collection does not depend on what is open around it. -/

/-- The collections that are deeper than what a frame is waiting for. -/
def Frame.beyond : Frame → Frame → Bool
  | _, .doc _ => false
  | .doc _, _ => true
  | .map col _ _, .map inner _ _ => col < inner
  | .map col _ _, .seq inner _ _ => col ≤ inner
  | .seq col _ _, .map inner _ _ => col < inner
  | .seq col _ _, .seq inner _ _ => col < inner

def Closes (closed beyond : Frame → Bool) : Prop := ∀ f, beyond f = true → closed f = true

/-- Two readers are the same once the deeper collections are closed. -/
def Agrees (beyond : Frame → Bool) (a b : Reader) : Prop :=
  ∀ closed, Closes closed beyond →
    settle closed a.top a.below = settle closed b.top b.below

theorem Agrees.refl (beyond : Frame → Bool) (a : Reader) : Agrees beyond a a := fun _ _ => rfl

theorem Agrees.step {beyond : Frame → Bool} {a b : Reader} (h : Agrees beyond a b) {t : Token}
    (ht : Closes (closedBy t) beyond) : step a t = step b t := by
  unfold BlockYaml.step
  rw [h (closedBy t) ht]

theorem settle_open {closed : Frame → Bool} {f : Frame} (h : closed f = false)
    (below : List Frame) : settle closed f below = ⟨f, below⟩ := by
  cases below with
  | nil => rfl
  | cons g below => rw [settle, h, if_neg Bool.false_ne_true]

theorem settle_closed {closed : Frame → Bool} {f : Frame} (h : closed f = true) (g : Frame)
    (below : List Frame) : settle closed f (g :: below) = settle closed (g.put f.node) below := by
  rw [settle, if_pos h]

/-- The tokens of a value for which a frame is waiting. -/
def Block (f : Frame) (tokens : List Token) (v : Node) : Prop :=
  ∀ below, ∃ reader, tokens.foldlM step ⟨f, below⟩ = some reader ∧
    Agrees f.beyond reader ⟨f.put v, below⟩

/-- The tokens of the entries of a mapping at a column. -/
inductive Entries (c : ℕ) : List Token → List (Scalar × Node) → Prop where
  | nil : Entries c [] []
  | leaf (key : Scalar) (value : Option Scalar) {tokens : List Token}
      {entries : List (Scalar × Node)} (rest : Entries c tokens entries) :
      Entries c (⟨c, .entry key value⟩ :: tokens) ((key, .scalar (value.getD .null)) :: entries)
  | nested (key : Scalar) {inner tokens : List Token} {v : Node}
      {entries : List (Scalar × Node)}
      (h : ∀ before, Block (.map c before (some key)) inner v) (rest : Entries c tokens entries) :
      Entries c (⟨c, .entry key none⟩ :: (inner ++ tokens)) ((key, v) :: entries)

/-- The tokens of the items of a sequence at a column. -/
inductive Items (c : ℕ) : List Token → List Node → Prop where
  | nil : Items c [] []
  | empty {tokens : List Token} {items : List Node} (rest : Items c tokens items) :
      Items c (⟨c, .dash⟩ :: tokens) (.null :: items)
  | item {inner tokens : List Token} {v : Node} {items : List Node}
      (h : ∀ before, Block (.seq c before true) inner v) (rest : Items c tokens items) :
      Items c (⟨c, .dash⟩ :: (inner ++ tokens)) (v :: items)

theorem Entries.append {c : ℕ} {a b : List Token} {x y : List (Scalar × Node)}
    (ha : Entries c a x) (hb : Entries c b y) : Entries c (a ++ b) (x ++ y) := by
  induction ha with
  | nil => exact hb
  | leaf key value rest ih => exact ih.leaf key value
  | nested key h rest ih =>
      rw [List.cons_append, List.append_assoc]
      exact ih.nested key h

theorem Items.append {c : ℕ} {a b : List Token} {x y : List Node} (ha : Items c a x)
    (hb : Items c b y) : Items c (a ++ b) (x ++ y) := by
  induction ha with
  | nil => exact hb
  | empty rest ih => exact ih.empty
  | item h rest ih =>
      rw [List.cons_append, List.append_assoc]
      exact ih.item h

theorem Entries.one {c : ℕ} {key : Scalar} {inner : List Token} {v : Node}
    (h : ∀ before, Block (.map c before (some key)) inner v) :
    Entries c (⟨c, .entry key none⟩ :: inner) [(key, v)] := by
  have hone := Entries.nested key h .nil
  rwa [List.append_nil] at hone

theorem Items.one {c : ℕ} {inner : List Token} {v : Node}
    (h : ∀ before, Block (.seq c before true) inner v) :
    Items c (⟨c, .dash⟩ :: inner) [v] := by
  have hone := Items.item h .nil
  rwa [List.append_nil] at hone

/-- A mapping that is being read, with these entries so far. -/
def ReadsMap (c : ℕ) (entries : List (Scalar × Node)) (reader : Reader) (below : List Frame) :
    Prop :=
  ∃ before key, Agrees (Frame.map c before key).beyond reader ⟨.map c before key, below⟩ ∧
    (Frame.map c before key).node = .map entries

def ReadsSeq (c : ℕ) (items : List Node) (reader : Reader) (below : List Frame) : Prop :=
  ∃ before waiting, Agrees (Frame.seq c before waiting).beyond reader
    ⟨.seq c before waiting, below⟩ ∧ (Frame.seq c before waiting).node = .seq items

theorem beyond_map (c : ℕ) (a b : List (Scalar × Node)) (k l : Option Scalar) :
    (Frame.map c a k).beyond = (Frame.map c b l).beyond := by
  funext f
  cases f <;> rfl

theorem beyond_seq (c : ℕ) (a b : List Node) (v w : Bool) :
    (Frame.seq c a v).beyond = (Frame.seq c b w).beyond := by
  funext f
  cases f <;> rfl

theorem closes_entry (c : ℕ) (key : Scalar) (value : Option Scalar)
    (before : List (Scalar × Node)) (pending : Option Scalar) :
    Closes (closedBy ⟨c, .entry key value⟩) (Frame.map c before pending).beyond := by
  intro f hf
  cases f with
  | doc v => cases hf
  | map col entries k => exact hf
  | seq col items waiting =>
      have hle : c ≤ col := of_decide_eq_true hf
      simp only [closedBy, Item.isDash, Bool.not_false, Bool.and_true, Bool.or_eq_true,
        decide_eq_true_eq]
      omega

theorem closes_dash (c : ℕ) (before : List Node) (waiting : Bool) :
    Closes (closedBy ⟨c, .dash⟩) (Frame.seq c before waiting).beyond := by
  intro f hf
  cases f with
  | doc v => cases hf
  | map col entries k => exact hf
  | seq col items w =>
      have hlt : c < col := of_decide_eq_true hf
      simp [closedBy, hlt]

/-- An entry at the column of a mapping that is being read. -/
theorem step_entry {c : ℕ} {entries : List (Scalar × Node)} {reader : Reader}
    {below : List Frame} (h : ReadsMap c entries reader below) (key : Scalar)
    (value : Option Scalar) :
    step reader ⟨c, .entry key value⟩ = some ⟨addEntry c entries key value, below⟩ := by
  obtain ⟨before, pending, hagrees, hnode⟩ := h
  have hopen : closedBy ⟨c, .entry key value⟩ (.map c before pending) = false := by
    simp [closedBy]
  rw [hagrees.step (closes_entry c key value before pending)]
  unfold step
  rw [settle_open hopen]
  simp only [advance, if_true]
  rw [Node.map.inj hnode]

theorem readsMap_addEntry (c : ℕ) (entries : List (Scalar × Node)) (key : Scalar)
    (value : Option Scalar) (below : List Frame) :
    ReadsMap c (entries ++ [(key, .scalar (value.getD .null))])
      ⟨addEntry c entries key value, below⟩ below := by
  cases value with
  | some s => exact ⟨_, _, Agrees.refl _ _, by simp [Frame.node]⟩
  | none => exact ⟨_, _, Agrees.refl _ _, by simp [Frame.node, Node.null]⟩

theorem run_entries {c : ℕ} {tokens : List Token} {entries : List (Scalar × Node)}
    (h : Entries c tokens entries) {before : List (Scalar × Node)} {reader : Reader}
    {below : List Frame} (hreader : ReadsMap c before reader below) :
    ∃ after, tokens.foldlM step reader = some after ∧
      ReadsMap c (before ++ entries) after below := by
  induction h generalizing before reader with
  | nil => exact ⟨reader, rfl, by rw [List.append_nil]; exact hreader⟩
  | leaf key value rest ih =>
      obtain ⟨after, hrun, hafter⟩ := ih (readsMap_addEntry c before key value below)
      refine ⟨after, ?_, by simpa using hafter⟩
      rw [List.foldlM_cons, step_entry hreader]
      exact hrun
  | @nested key inner tokens v entries hblock rest ih =>
      obtain ⟨middle, hinner, hagrees⟩ := hblock before below
      rw [beyond_map c before (before ++ [(key, v)]) (some key) none] at hagrees
      have hmiddle : ReadsMap c (before ++ [(key, v)]) middle below :=
        ⟨before ++ [(key, v)], none, hagrees, by simp [Frame.node]⟩
      obtain ⟨after, hrun, hafter⟩ := ih hmiddle
      refine ⟨after, ?_, by simpa using hafter⟩
      rw [List.foldlM_cons, step_entry hreader]
      show (inner ++ tokens).foldlM step ⟨.map c before (some key), below⟩ = some after
      rw [List.foldlM_append, hinner]
      exact hrun

theorem step_dash {c : ℕ} {items : List Node} {reader : Reader} {below : List Frame}
    (h : ReadsSeq c items reader below) :
    step reader ⟨c, .dash⟩ = some ⟨.seq c items true, below⟩ := by
  obtain ⟨before, waiting, hagrees, hnode⟩ := h
  have hopen : closedBy ⟨c, .dash⟩ (.seq c before waiting) = false := by
    simp [closedBy, Item.isDash]
  rw [hagrees.step (closes_dash c before waiting)]
  unfold step
  rw [settle_open hopen]
  simp only [advance, if_true]
  rw [Node.seq.inj hnode]

theorem run_items {c : ℕ} {tokens : List Token} {items : List Node} (h : Items c tokens items)
    {before : List Node} {reader : Reader} {below : List Frame}
    (hreader : ReadsSeq c before reader below) :
    ∃ after, tokens.foldlM step reader = some after ∧
      ReadsSeq c (before ++ items) after below := by
  induction h generalizing before reader with
  | nil => exact ⟨reader, rfl, by rw [List.append_nil]; exact hreader⟩
  | empty rest ih =>
      have hdash : ReadsSeq c (before ++ [.null]) ⟨.seq c before true, below⟩ below :=
        ⟨before, true, Agrees.refl _ _, by simp [Frame.node]⟩
      obtain ⟨after, hrun, hafter⟩ := ih hdash
      refine ⟨after, ?_, by simpa using hafter⟩
      rw [List.foldlM_cons, step_dash hreader]
      exact hrun
  | @item inner tokens v items hblock rest ih =>
      obtain ⟨middle, hinner, hagrees⟩ := hblock before below
      rw [beyond_seq c before (before ++ [v]) true false] at hagrees
      have hmiddle : ReadsSeq c (before ++ [v]) middle below :=
        ⟨before ++ [v], false, hagrees, by simp [Frame.node]⟩
      obtain ⟨after, hrun, hafter⟩ := ih hmiddle
      refine ⟨after, ?_, by simpa using hafter⟩
      rw [List.foldlM_cons, step_dash hreader]
      show (inner ++ tokens).foldlM step ⟨.seq c before true, below⟩ = some after
      rw [List.foldlM_append, hinner]
      exact hrun

/-- A frame can take a collection of this kind at the column. -/
def Frame.above (f inner : Frame) : Prop := f.waiting = true ∧ f.beyond inner = true

theorem closes_map {f : Frame} {c : ℕ} (hf : f.above (.map c [] none))
    {closed : Frame → Bool} (h : Closes closed f.beyond) (before : List (Scalar × Node))
    (key : Option Scalar) :
    closed (.map c before key) = true ∧ Closes closed (Frame.map c before key).beyond := by
  have hbeyond := hf.2
  constructor
  · apply h
    cases f <;> exact hbeyond
  · intro g hg
    apply h
    cases f <;> cases g <;> simp_all [Frame.beyond] <;> omega

theorem closes_seq {f : Frame} {c : ℕ} (hf : f.above (.seq c [] false))
    {closed : Frame → Bool} (h : Closes closed f.beyond) (before : List Node) (waiting : Bool) :
    closed (.seq c before waiting) = true ∧ Closes closed (Frame.seq c before waiting).beyond := by
  have hbeyond := hf.2
  constructor
  · apply h
    cases f <;> exact hbeyond
  · intro g hg
    apply h
    cases f <;> cases g <;> simp_all [Frame.beyond] <;> omega

/-- The first entry opens the mapping. -/
theorem step_firstEntry {f : Frame} {c : ℕ} (hf : f.above (.map c [] none)) (key : Scalar)
    (value : Option Scalar) (below : List Frame) :
    step ⟨f, below⟩ ⟨c, .entry key value⟩ =
      step ⟨.map c [] none, f :: below⟩ ⟨c, .entry key value⟩ := by
  obtain ⟨hwaiting, hbeyond⟩ := hf
  have hreads : ReadsMap c [] ⟨.map c [] none, f :: below⟩ (f :: below) :=
    ⟨[], none, Agrees.refl _ _, rfl⟩
  have hopen : closedBy ⟨c, .entry key value⟩ f = false := by
    cases f <;> simp_all [closedBy, Frame.beyond, Item.isDash] <;> omega
  rw [step_entry hreads]
  unfold step
  rw [settle_open hopen]
  cases f with
  | doc v => simp only [advance, hwaiting, if_true]
  | map col entries pending =>
      have hlt : col < c := of_decide_eq_true hbeyond
      have hpending : pending.isSome = true := hwaiting
      simp only [advance, if_neg (by omega : ¬ col = c), hpending, if_true]
  | seq col items waiting => simp only [advance, hwaiting, if_true]

theorem step_firstDash {f : Frame} {c : ℕ} (hf : f.above (.seq c [] false))
    (below : List Frame) :
    step ⟨f, below⟩ ⟨c, .dash⟩ = step ⟨.seq c [] false, f :: below⟩ ⟨c, .dash⟩ := by
  obtain ⟨hwaiting, hbeyond⟩ := hf
  have hreads : ReadsSeq c [] ⟨.seq c [] false, f :: below⟩ (f :: below) :=
    ⟨[], false, Agrees.refl _ _, rfl⟩
  have hopen : closedBy ⟨c, .dash⟩ f = false := by
    cases f <;> simp_all [closedBy, Frame.beyond, Item.isDash]
    omega
  rw [step_dash hreads]
  unfold step
  rw [settle_open hopen]
  cases f with
  | doc v => simp only [advance, hwaiting, if_true]
  | map col entries pending => simp only [advance, hwaiting, if_true]
  | seq col items waiting =>
      have hlt : col < c := of_decide_eq_true hbeyond
      have hw : waiting = true := hwaiting
      simp only [advance, if_neg (by omega : ¬ col = c), hw, if_true]

theorem block_map {f : Frame} {c : ℕ} (hf : f.above (.map c [] none)) {tokens : List Token}
    {entries : List (Scalar × Node)} (h : Entries c tokens entries) (hne : entries ≠ []) :
    Block f tokens (.map entries) := by
  intro below
  have hstart : ReadsMap c [] ⟨.map c [] none, f :: below⟩ (f :: below) :=
    ⟨[], none, Agrees.refl _ _, rfl⟩
  obtain ⟨after, hrun, before, key, hagrees, hnode⟩ := run_entries h hstart
  refine ⟨after, ?_, ?_⟩
  · cases h with
    | nil => exact absurd rfl hne
    | leaf key value rest =>
        rw [List.foldlM_cons, step_firstEntry hf]
        exact hrun
    | nested key hblock rest =>
        rw [List.foldlM_cons, step_firstEntry hf]
        exact hrun
  · intro closed hclosed
    obtain ⟨hmap, hdeeper⟩ := closes_map hf hclosed before key
    rw [hagrees closed hdeeper, settle_closed hmap, hnode]
    rfl

theorem block_seq {f : Frame} {c : ℕ} (hf : f.above (.seq c [] false)) {tokens : List Token}
    {items : List Node} (h : Items c tokens items) (hne : items ≠ []) :
    Block f tokens (.seq items) := by
  intro below
  have hstart : ReadsSeq c [] ⟨.seq c [] false, f :: below⟩ (f :: below) :=
    ⟨[], false, Agrees.refl _ _, rfl⟩
  obtain ⟨after, hrun, before, waiting, hagrees, hnode⟩ := run_items h hstart
  refine ⟨after, ?_, ?_⟩
  · cases h with
    | nil => exact absurd rfl hne
    | empty rest =>
        rw [List.foldlM_cons, step_firstDash hf]
        exact hrun
    | item hblock rest =>
        rw [List.foldlM_cons, step_firstDash hf]
        exact hrun
  · intro closed hclosed
    obtain ⟨hseq, hdeeper⟩ := closes_seq hf hclosed before waiting
    rw [hagrees closed hdeeper, settle_closed hseq, hnode]
    rfl

/-- A scalar on a line of its own or after a dash. -/
theorem block_scalar {c d : ℕ} (h : c < d) (s : Scalar) (before : List Node) :
    Block (.seq c before true) [⟨d, .scalar s⟩] (.scalar s) := by
  intro below
  refine ⟨⟨.seq c (before ++ [.scalar s]) false, below⟩, ?_, Agrees.refl _ _⟩
  have hopen : closedBy ⟨d, .scalar s⟩ (.seq c before true) = false := by
    simp [closedBy]
    omega
  rw [List.foldlM_cons]
  unfold step
  rw [settle_open hopen]
  rfl

theorem build_entries {tokens : List Token} {entries : List (Scalar × Node)}
    (h : Entries 0 tokens entries) (hne : entries ≠ []) :
    build tokens = some (.map entries) := by
  obtain ⟨reader, hrun, hagrees⟩ := block_map (f := .doc none) ⟨rfl, rfl⟩ h hne []
  have hend : Closes (fun f => !f.isDoc) (Frame.doc none).beyond := by
    intro f hf
    cases f with
    | doc v => cases hf
    | map col entries key => rfl
    | seq col items waiting => rfl
  unfold build
  rw [hrun, Option.map_some, hagrees _ hend]
  rfl

/-! What holds of the strings of the tokens holds of those of the tree. -/

def Scalar.Holds (P : List Char → Prop) : Scalar → Prop
  | .str s => P s
  | _ => True

/-- The strings that are values and those that are keys. -/
inductive Node.All (P Q : List Char → Prop) : Node → Prop where
  | scalar {s : Scalar} (h : s.Holds P) : Node.All P Q (.scalar s)
  | seq {items : List Node} (h : ∀ v ∈ items, Node.All P Q v) : Node.All P Q (.seq items)
  | map {entries : List (Scalar × Node)} (hkeys : ∀ e ∈ entries, e.1.Holds Q)
      (h : ∀ e ∈ entries, Node.All P Q e.2) : Node.All P Q (.map entries)

def Item.Holds (P Q : List Char → Prop) : Item → Prop
  | .dash => True
  | .entry key value => key.Holds Q ∧ ∀ s ∈ value, s.Holds P
  | .scalar s => s.Holds P

def Frame.All (P Q : List Char → Prop) : Frame → Prop
  | .doc value => ∀ v ∈ value, v.All P Q
  | .map _ entries key =>
      (∀ e ∈ entries, e.1.Holds Q ∧ e.2.All P Q) ∧ ∀ k ∈ key, k.Holds Q
  | .seq _ items _ => ∀ v ∈ items, v.All P Q

section Strings

variable {P Q : List Char → Prop}

theorem all_null : Node.null.All P Q := .scalar trivial

theorem all_pending {entries : List (Scalar × Node)} {key : Option Scalar}
    (h : ∀ e ∈ entries, e.1.Holds Q ∧ e.2.All P Q) (hkey : ∀ k ∈ key, k.Holds Q) :
    ∀ e ∈ entries ++ (key.map fun k => (k, Node.null)).toList, e.1.Holds Q ∧ e.2.All P Q := by
  intro e he
  obtain hold | hnew := List.mem_append.mp he
  · exact h e hold
  · obtain ⟨k, hk, rfl⟩ := Option.map_eq_some_iff.mp (Option.mem_toList.mp hnew)
    exact ⟨hkey k hk, all_null⟩

theorem all_waiting {items : List Node} (h : ∀ v ∈ items, v.All P Q) (waiting : Bool) :
    ∀ v ∈ items ++ (if waiting then [Node.null] else []), v.All P Q := by
  intro v hv
  obtain hold | hnew := List.mem_append.mp hv
  · exact h v hold
  · cases waiting with
    | true =>
        rw [List.mem_singleton.mp hnew]
        exact all_null
    | false => exact absurd hnew List.not_mem_nil

theorem Frame.All.node {f : Frame} (h : f.All P Q) : f.node.All P Q := by
  cases f with
  | doc value =>
      cases value with
      | none => exact all_null
      | some v => exact h v rfl
  | map col entries key =>
      have hall := all_pending h.1 h.2
      exact .map (fun e he => (hall e he).1) fun e he => (hall e he).2
  | seq col items waiting => exact .seq (all_waiting h waiting)

theorem Frame.All.put {f : Frame} (h : f.All P Q) {v : Node} (hv : v.All P Q) :
    (f.put v).All P Q := by
  cases f with
  | doc value =>
      cases value with
      | none =>
          intro w hw
          obtain rfl := Option.some.inj hw
          exact hv
      | some w => exact h
  | map col entries key =>
      cases key with
      | none => exact h
      | some k =>
          refine ⟨?_, fun k' hk' => by cases hk'⟩
          intro e he
          obtain hold | hnew := List.mem_append.mp he
          · exact h.1 e hold
          · rw [List.mem_singleton.mp hnew]
            exact ⟨h.2 k rfl, hv⟩
  | seq col items waiting =>
      cases waiting with
      | false => exact h
      | true =>
          intro w hw
          obtain hold | hnew := List.mem_append.mp hw
          · exact h w hold
          · rw [List.mem_singleton.mp hnew]
            exact hv

def Reader.All (P Q : List Char → Prop) (reader : Reader) : Prop :=
  reader.top.All P Q ∧ ∀ f ∈ reader.below, f.All P Q

theorem all_settle (closed : Frame → Bool) {f : Frame} {below : List Frame} (hf : f.All P Q)
    (hbelow : ∀ g ∈ below, g.All P Q) : (settle closed f below).All P Q := by
  induction below generalizing f with
  | nil => exact ⟨hf, hbelow⟩
  | cons g below ih =>
      rw [settle]
      split
      · exact ih ((hbelow g List.mem_cons_self).put hf.node)
          fun g' hg' => hbelow g' (List.mem_cons_of_mem g hg')
      · exact ⟨hf, hbelow⟩

theorem all_addEntry {col : ℕ} {entries : List (Scalar × Node)} {key : Scalar}
    {value : Option Scalar} (h : ∀ e ∈ entries, e.1.Holds Q ∧ e.2.All P Q)
    (hitem : (Item.entry key value).Holds P Q) : (addEntry col entries key value).All P Q := by
  cases value with
  | none =>
      refine ⟨h, fun k hk => ?_⟩
      obtain rfl := Option.some.inj hk
      exact hitem.1
  | some s =>
      refine ⟨fun e he => ?_, fun k hk => by cases hk⟩
      obtain hold | hnew := List.mem_append.mp he
      · exact h e hold
      · rw [List.mem_singleton.mp hnew]
        exact ⟨hitem.1, .scalar (hitem.2 s rfl)⟩

theorem all_push {f g : Frame} {below : List Frame} (hg : g.All P Q) (hf : f.All P Q)
    (hbelow : ∀ g ∈ below, g.All P Q) : Reader.All P Q ⟨g, f :: below⟩ :=
  ⟨hg, List.forall_mem_cons.mpr ⟨hf, hbelow⟩⟩

theorem all_nilSeq (col : ℕ) (waiting : Bool) : (Frame.seq col [] waiting).All P Q :=
  fun _ hv => absurd hv List.not_mem_nil

theorem all_advance {t : Token} {f : Frame} {below : List Frame} {reader : Reader}
    (ht : t.item.Holds P Q) (hf : f.All P Q) (hbelow : ∀ g ∈ below, g.All P Q)
    (h : advance t f below = some reader) : reader.All P Q := by
  have hnil : ∀ e ∈ ([] : List (Scalar × Node)), e.1.Holds Q ∧ e.2.All P Q :=
    fun e he => absurd he List.not_mem_nil
  obtain ⟨col, item⟩ := t
  cases item with
  | dash =>
      cases f with
      | seq c items waiting =>
          simp only [advance] at h
          split at h
          · obtain rfl := Option.some.inj h
            exact ⟨all_waiting hf _, hbelow⟩
          · obtain ⟨-, hsome⟩ := Option.ite_none_right_eq_some.mp h
            obtain rfl := Option.some.inj hsome
            exact all_push (all_nilSeq _ _) hf hbelow
      | _ =>
          obtain ⟨-, hsome⟩ := Option.ite_none_right_eq_some.mp h
          obtain rfl := Option.some.inj hsome
          exact all_push (all_nilSeq _ _) hf hbelow
  | entry key value =>
      cases f with
      | map c entries pending =>
          simp only [advance] at h
          split at h
          · obtain rfl := Option.some.inj h
            exact ⟨all_addEntry (all_pending hf.1 hf.2) ht, hbelow⟩
          · obtain ⟨-, hsome⟩ := Option.ite_none_right_eq_some.mp h
            obtain rfl := Option.some.inj hsome
            exact all_push (all_addEntry hnil ht) hf hbelow
      | _ =>
          obtain ⟨-, hsome⟩ := Option.ite_none_right_eq_some.mp h
          obtain rfl := Option.some.inj hsome
          exact all_push (all_addEntry hnil ht) hf hbelow
  | scalar s =>
      cases f with
      | _ =>
          obtain ⟨-, hsome⟩ := Option.ite_none_right_eq_some.mp h
          obtain rfl := Option.some.inj hsome
          exact ⟨hf.put (.scalar ht), hbelow⟩

theorem all_run {tokens : List Token} {reader after : Reader}
    (htokens : ∀ t ∈ tokens, t.item.Holds P Q) (hreader : reader.All P Q)
    (h : tokens.foldlM step reader = some after) : after.All P Q := by
  induction tokens generalizing reader with
  | nil =>
      obtain rfl := Option.some.inj h
      exact hreader
  | cons t tokens ih =>
      obtain ⟨ht, hrest⟩ := List.forall_mem_cons.mp htokens
      rw [List.foldlM_cons] at h
      obtain ⟨next, hstep, hrun⟩ := Option.bind_eq_some_iff.mp h
      have hsettled := all_settle (closedBy t) hreader.1 hreader.2
      exact ih hrest (all_advance ht hsettled.1 hsettled.2 hstep) hrun

theorem all_build {tokens : List Token} {v : Node} (htokens : ∀ t ∈ tokens, t.item.Holds P Q)
    (h : build tokens = some v) : v.All P Q := by
  obtain ⟨reader, hrun, rfl⟩ := Option.map_eq_some_iff.mp h
  have hstart : Reader.All P Q ⟨.doc none, []⟩ :=
    ⟨fun v hv => (Option.not_mem_none v hv).elim, fun f hf => absurd hf List.not_mem_nil⟩
  have hall := all_run htokens hstart hrun
  exact (all_settle _ hall.1 hall.2).1.node

end Strings

/-! The strings of a line are made of its characters. -/

def Readable (s : List Char) : Prop := ∀ c ∈ s, isReadable c = true

theorem mem_trim {text : List Char} {c : Char} (h : c ∈ trim text) : c ∈ text := by
  have hdrop := (List.rdropWhile_prefix isBlank (l := text.dropWhile isBlank)).subset h
  exact (List.dropWhile_sublist isBlank).subset hdrop

theorem readable_quoted {text s rest : List Char} (h : quoted text = some (s, rest))
    (htext : Readable text) : Readable s ∧ Readable rest := by
  induction text using quoted.induct generalizing s with
  | case1 => cases h
  | case2 after =>
      obtain ⟨rfl, rfl⟩ := Prod.mk.inj (Option.some.inj h)
      exact ⟨fun c hc => absurd hc List.not_mem_nil,
        fun c hc => htext c (List.mem_cons_of_mem _ hc)⟩
  | case3 => cases h
  | case4 c after hc ih =>
      rw [quoted, if_pos hc] at h
      obtain ⟨p, hp, heq⟩ := Option.map_eq_some_iff.mp h
      obtain ⟨rfl, rfl⟩ := Prod.mk.inj heq
      obtain ⟨hs, hrest⟩ := ih hp fun d hd => htext d (by simp [hd])
      exact ⟨List.forall_mem_cons.mpr ⟨htext c (by simp), hs⟩, hrest⟩
  | case5 c after hc =>
      rw [quoted, if_neg hc] at h
      cases h
  | case6 c after hquote hend hslash ih =>
      rw [quoted] at h
      · obtain ⟨p, hp, heq⟩ := Option.map_eq_some_iff.mp h
        obtain ⟨rfl, rfl⟩ := Prod.mk.inj heq
        obtain ⟨hs, hrest⟩ := ih hp fun d hd => htext d (List.mem_cons_of_mem _ hd)
        exact ⟨List.forall_mem_cons.mpr ⟨htext c List.mem_cons_self, hs⟩, hrest⟩
      all_goals assumption

theorem mem_splitKey {text key value : List Char} (h : splitKey text = some (key, value)) :
    text = key ++ ':' :: value := by
  induction text generalizing key with
  | nil => cases h
  | cons c rest ih =>
      rw [splitKey] at h
      split at h
      · rename_i hcolon
        obtain ⟨rfl, rfl⟩ := Prod.mk.inj (Option.some.inj h)
        obtain ⟨hc, -⟩ := Bool.and_eq_true_iff.mp hcolon
        rw [of_decide_eq_true hc]
        rfl
      · obtain ⟨p, hp, heq⟩ := Option.map_eq_some_iff.mp h
        obtain ⟨rfl, rfl⟩ := Prod.mk.inj heq
        rw [ih hp]
        rfl

variable {r}

theorem Resolution.holds {P : List Char → Prop} {text : List Char} (h : P text) :
    (r.plain text).Holds P := by
  cases hplain : r.plain text with
  | str s =>
      rw [r.text text s hplain]
      exact h
  | _ => trivial

theorem holds_scalarOf {text : List Char} {s : Scalar} (htext : Readable text)
    (h : scalarOf r text = some s) : s.Holds Readable := by
  have htrim : Readable (trim text) := fun c hc => htext c (mem_trim hc)
  unfold scalarOf at h
  split at h
  · obtain rfl := Option.some.inj h
    trivial
  · rename_i rest heq
    rw [heq] at htrim
    obtain ⟨p, hp, hsome⟩ := Option.bind_eq_some_iff.mp h
    obtain ⟨-, hs⟩ := Option.ite_none_right_eq_some.mp hsome
    obtain rfl := Option.some.inj hs
    exact (readable_quoted hp fun c hc => htrim c (List.mem_cons_of_mem _ hc)).1
  · rename_i c rest _ heq
    rw [heq] at htrim
    obtain ⟨-, hs⟩ := Option.ite_none_right_eq_some.mp h
    obtain rfl := Option.some.inj hs
    exact Resolution.holds htrim

theorem holds_entryOf {key : Scalar} {value : List Char} {item : Item} {Q : List Char → Prop}
    (hkey : key.Holds Q) (hvalue : Readable value) (h : entryOf r key value = some item) :
    item.Holds Readable Q := by
  unfold entryOf at h
  split at h
  · obtain rfl := Option.some.inj h
    exact ⟨hkey, fun s hs => by cases hs⟩
  · obtain ⟨s, hs, rfl⟩ := Option.map_eq_some_iff.mp h
    refine ⟨hkey, fun s' hs' => ?_⟩
    obtain rfl := Option.some.inj hs'
    exact holds_scalarOf hvalue hs

theorem holds_contentOf {text : List Char} {item : Item} (htext : Readable text)
    (h : contentOf r text = some item) : item.Holds Readable Readable := by
  unfold contentOf at h
  split at h
  · rename_i rest
    obtain ⟨p, hp, hsome⟩ := Option.bind_eq_some_iff.mp h
    obtain ⟨hs, hafter⟩ := readable_quoted hp fun c hc => htext c (List.mem_cons_of_mem _ hc)
    split at hsome
    · obtain rfl := Option.some.inj hsome
      exact hs
    · rename_i value hvalue
      obtain ⟨-, hentry⟩ := Option.ite_none_right_eq_some.mp hsome
      have hkey : (Scalar.str p.1).Holds Readable := hs
      refine holds_entryOf hkey (fun c hc => hafter c ?_) hentry
      apply (List.dropWhile_sublist isBlank).subset
      rw [hvalue]
      exact List.mem_cons_of_mem _ hc
    · cases hsome
  · split at h
    · rename_i key value hsplit
      rw [mem_splitKey hsplit] at htext
      obtain ⟨-, hentry⟩ := Option.ite_none_right_eq_some.mp h
      refine holds_entryOf (Resolution.holds fun c hc => ?_) (fun c hc => ?_) hentry
      · exact htext c (List.mem_append_left _ (mem_trim hc))
      · exact htext c (List.mem_append_right _ (List.mem_cons_of_mem _ hc))
    · obtain ⟨s, hs, rfl⟩ := Option.map_eq_some_iff.mp h
      exact holds_scalarOf htext hs

theorem holds_tokensAt {col : ℕ} {text : List Char} {tokens : List Token}
    (htext : Readable text) (h : tokensAt r col text = some tokens) :
    ∀ t ∈ tokens, t.item.Holds Readable Readable := by
  induction col, text using tokensAt.induct generalizing tokens with
  | case1 col =>
      obtain rfl := Option.some.inj h
      exact fun t ht => absurd ht List.not_mem_nil
  | case2 col rest ih => exact ih (fun c hc => htext c (List.mem_cons_of_mem _ hc)) h
  | case3 col =>
      obtain rfl := Option.some.inj h
      intro t ht
      rw [List.mem_singleton.mp ht]
      trivial
  | case4 col rest ih =>
      obtain ⟨inner, hinner, rfl⟩ := Option.map_eq_some_iff.mp h
      refine List.forall_mem_cons.mpr ⟨trivial, ih (fun c hc => htext c ?_) hinner⟩
      simp [hc]
  | case5 col c rest hspace hdash hdashes =>
      rw [tokensAt] at h
      · obtain ⟨item, hitem, rfl⟩ := Option.map_eq_some_iff.mp h
        intro t ht
        rw [List.mem_singleton.mp ht]
        exact holds_contentOf htext hitem
      all_goals assumption

theorem holds_lineTokens {line : List Char} {tokens : List Token}
    (h : lineTokens r line = some tokens) : ∀ t ∈ tokens, t.item.Holds Readable Readable := by
  obtain ⟨hreadable, htokens⟩ := Option.ite_none_right_eq_some.mp h
  exact holds_tokensAt (List.all_eq_true.mp hreadable) htokens

theorem tokensOf_nil : tokensOf r [] = some [] := rfl

theorem tokensOf_cons {line : List Char} {lines : List (List Char)} {tokens : List Token} :
    tokensOf r (line :: lines) = some tokens ↔ ∃ a b, lineTokens r line = some a ∧
      tokensOf r lines = some b ∧ tokens = a ++ b := by
  unfold tokensOf
  simp only [List.mapM_cons, Option.bind_eq_bind, Option.pure_def, Option.map_eq_some_iff,
    Option.bind_eq_some_iff, Option.some.injEq]
  constructor
  · rintro ⟨parts, ⟨a, ha, rest, hrest, rfl⟩, rfl⟩
    exact ⟨a, rest.flatten, ha, ⟨rest, hrest, rfl⟩, rfl⟩
  · rintro ⟨a, b, ha, ⟨rest, hrest, rfl⟩, rfl⟩
    exact ⟨a :: rest, ⟨a, ha, rest, hrest, rfl⟩, rfl⟩

theorem tokensOf_append {a b : List (List Char)} {tokens : List Token} :
    tokensOf r (a ++ b) = some tokens ↔ ∃ x y, tokensOf r a = some x ∧ tokensOf r b = some y ∧
      tokens = x ++ y := by
  induction a generalizing tokens with
  | nil => simp [tokensOf_nil]
  | cons line lines ih =>
      rw [List.cons_append, tokensOf_cons]
      constructor
      · rintro ⟨x, y, hline, hrest, rfl⟩
        obtain ⟨y₁, y₂, hlines, hb, rfl⟩ := ih.mp hrest
        exact ⟨x ++ y₁, y₂, tokensOf_cons.mpr ⟨x, y₁, hline, hlines, rfl⟩, hb, by simp⟩
      · rintro ⟨x, y, hx, hb, rfl⟩
        obtain ⟨x₁, x₂, hline, hlines, rfl⟩ := tokensOf_cons.mp hx
        exact ⟨x₁, x₂ ++ y, hline, ih.mpr ⟨x₂, y, hlines, hb, rfl⟩, by simp⟩

/-- All lines have tokens when each of them has. -/
theorem exists_tokensOf {lines : List (List Char)}
    (h : ∀ line ∈ lines, ∃ tokens, lineTokens r line = some tokens) :
    ∃ tokens, tokensOf r lines = some tokens := by
  induction lines with
  | nil => exact ⟨[], rfl⟩
  | cons line lines ih =>
      obtain ⟨hline, hlines⟩ := List.forall_mem_cons.mp h
      obtain ⟨a, ha⟩ := hline
      obtain ⟨b, hb⟩ := ih hlines
      exact ⟨a ++ b, tokensOf_cons.mpr ⟨a, b, ha, hb, rfl⟩⟩

theorem holds_tokensOf {P Q : List Char → Prop} {lines : List (List Char)} {tokens : List Token}
    (hlines : ∀ line ∈ lines, ∀ ts, lineTokens r line = some ts → ∀ t ∈ ts, t.item.Holds P Q)
    (h : tokensOf r lines = some tokens) : ∀ t ∈ tokens, t.item.Holds P Q := by
  induction lines generalizing tokens with
  | nil =>
      obtain rfl := Option.some.inj h
      exact fun t ht => absurd ht List.not_mem_nil
  | cons line lines ih =>
      obtain ⟨hline, hrest⟩ := List.forall_mem_cons.mp hlines
      obtain ⟨a, b, ha, hb, rfl⟩ := tokensOf_cons.mp h
      intro t ht
      obtain hfirst | hlater := List.mem_append.mp ht
      · exact hline a ha t hfirst
      · exact ih hrest hb t hlater

theorem all_read {P Q : List Char → Prop} {text : List Char} {v : Node}
    (hlines : ∀ line ∈ linesOf text, ∀ ts, lineTokens r line = some ts →
      ∀ t ∈ ts, t.item.Holds P Q)
    (h : read r text = some v) : v.All P Q := by
  obtain ⟨tokens, htokens, hbuild⟩ := Option.bind_eq_some_iff.mp h
  exact all_build (holds_tokensOf hlines htokens) hbuild

theorem readable_read {text : List Char} {v : Node} (h : read r text = some v) :
    v.All Readable Readable :=
  all_read (fun _ _ _ hline => holds_lineTokens hline) h

/-! Lines by their parts. -/

def indent (n : ℕ) : List Char := List.replicate n ' '

theorem isBreak_of_isReadable {c : Char} (h : isReadable c = true) : isBreak c = false := by
  cases hbreak : isBreak c with
  | false => rfl
  | true =>
      obtain hlf | hcr := Bool.or_eq_true_iff.mp hbreak
      · rw [of_decide_eq_true hlf] at h
        exact absurd h (by decide)
      · rw [of_decide_eq_true hcr] at h
        exact absurd h (by decide)

theorem linesOf_readable {line : List Char} (h : Readable line) : linesOf line = [line] :=
  List.splitOnP_eq_singleton fun c hc => isBreak_of_isReadable (h c hc)

/-- Readable lines that are joined are found again. -/
theorem linesOf_join {lines : List (List Char)} (h : ∀ line ∈ lines, Readable line)
    (hne : lines ≠ []) : linesOf (['\n'].intercalate lines) = lines := by
  induction lines with
  | nil => exact absurd rfl hne
  | cons line lines ih =>
      obtain ⟨hline, hlines⟩ := List.forall_mem_cons.mp h
      cases lines with
      | nil =>
          rw [List.intercalate_singleton]
          exact linesOf_readable hline
      | cons next rest =>
          rw [List.intercalate_cons_cons]
          have hsplit := List.splitOnP_append_cons_of_forall_mem
            (fun c hc => isBreak_of_isReadable (hline c hc)) '\n' (by decide)
            (['\n'].intercalate (next :: rest))
          rw [List.append_assoc]
          exact hsplit.trans (congrArg (line :: ·) (ih hlines (List.cons_ne_nil _ _)))

theorem tokensAt_indent (col n : ℕ) (text : List Char) :
    tokensAt r col (indent n ++ text) = tokensAt r (col + n) text := by
  induction n generalizing col with
  | zero => rfl
  | succ n ih =>
      show tokensAt r (col + 1) (indent n ++ text) = _
      rw [ih, Nat.add_right_comm, Nat.add_assoc]

theorem readable_indent (n : ℕ) : Readable (indent n) := by
  intro c hc
  rw [List.eq_of_mem_replicate hc]
  decide

theorem readable_append {a b : List Char} : Readable (a ++ b) ↔ Readable a ∧ Readable b := by
  unfold Readable
  simp only [List.mem_append]
  exact ⟨fun h => ⟨fun c hc => h c (.inl hc), fun c hc => h c (.inr hc)⟩,
    fun h c hc => hc.elim (h.1 c) (h.2 c)⟩

theorem lineTokens_eq {line : List Char} (h : Readable line) :
    lineTokens r line = tokensAt r 0 line := by
  rw [lineTokens, if_pos (List.all_eq_true.mpr h)]

theorem lineTokens_indent {n : ℕ} {text : List Char} (h : Readable text) :
    lineTokens r (indent n ++ text) = tokensAt r n text := by
  rw [lineTokens_eq (readable_append.mpr ⟨readable_indent n, h⟩), tokensAt_indent, Nat.zero_add]

/-- A dash with something after it is a dash and the same line with more indentation. -/
theorem lineTokens_dash {n : ℕ} {text : List Char} (h : Readable text) :
    lineTokens r (indent n ++ '-' :: ' ' :: text) =
      (lineTokens r (indent (n + 2) ++ text)).map fun tokens => ⟨n, .dash⟩ :: tokens := by
  have hdash : Readable ('-' :: ' ' :: text) := by
    refine List.forall_mem_cons.mpr ⟨by decide, List.forall_mem_cons.mpr ⟨by decide, h⟩⟩
  rw [lineTokens_indent hdash, lineTokens_indent h, tokensAt]

theorem lineTokens_dashAlone (n : ℕ) :
    lineTokens r (indent n ++ ['-']) = some [⟨n, .dash⟩] := by
  have hdash : Readable ['-'] := by
    intro c hc
    rw [List.mem_singleton.mp hc]
    decide
  rw [lineTokens_indent hdash]
  rfl

/-! Trimmed text. -/

theorem trim_space (text : List Char) : trim (' ' :: text) = trim text := rfl

/-- Text without a blank at either end is trimmed. -/
theorem trim_eq_self {c d : Char} {text : List Char} (hc : isBlank c = false)
    (hd : isBlank d = false) : trim (c :: (text ++ [d])) = c :: (text ++ [d]) := by
  have hdrop : (c :: (text ++ [d])).dropWhile isBlank = (c :: text) ++ [d] := by
    simp [hc]
  unfold trim
  rw [hdrop, List.rdropWhile_concat_neg _ _ _ (by simp [hd])]
  rfl

theorem trim_trim (text : List Char) : trim (trim text) = trim text := by
  have hdrop : (trim text).dropWhile isBlank = trim text := by
    cases htrim : trim text with
    | nil => rfl
    | cons c rest =>
        have hprefix : trim text <+: text.dropWhile isBlank := List.rdropWhile_prefix isBlank _
        rw [htrim] at hprefix
        obtain ⟨after, hafter⟩ := hprefix
        have hne : text.dropWhile isBlank ≠ [] := by
          rw [← hafter]
          exact List.cons_ne_nil _ _
        have hhead := List.head_dropWhile_not isBlank hne
        simp only [← hafter, List.cons_append, List.head_cons] at hhead
        simp [hhead]
  have hagain : trim (trim text) = (trim text).rdropWhile isBlank := by
    conv_lhs => rw [trim, hdrop]
  rw [hagain, trim, List.rdropWhile_idempotent]

theorem scalarOf_blank {text : List Char} (h : trim text = []) : scalarOf r text = some .null := by
  rw [scalarOf, h]

/-- Text without a character that could mean something else. -/
def Inert (text : List Char) : Prop :=
  ∀ c ∈ text, indicators.contains c = false ∧ ['-', '?', ':'].contains c = false

theorem Inert.trim {text : List Char} (h : Inert text) : Inert (trim text) :=
  fun c hc => h c (mem_trim hc)

theorem Inert.tail {c : Char} {rest : List Char} (h : Inert (c :: rest)) : Inert rest :=
  fun d hd => h d (List.mem_cons_of_mem c hd)

theorem startsPlain_inert {c : Char} {rest : List Char} (h : Inert (c :: rest)) :
    startsPlain (c :: rest) = true := by
  obtain ⟨hindicator, hother⟩ := h c List.mem_cons_self
  rw [startsPlain, hother, if_neg Bool.false_ne_true, hindicator]
  rfl

theorem ne_of_inert {c : Char} {rest : List Char} (h : Inert (c :: rest)) :
    c ≠ '"' ∧ c ≠ '#' ∧ c ≠ ':' ∧ c ≠ '-' := by
  obtain ⟨hindicator, hother⟩ := h c List.mem_cons_self
  refine ⟨?_, ?_, ?_, ?_⟩ <;> rintro rfl
  · exact absurd hindicator (by decide)
  · exact absurd hindicator (by decide)
  · exact absurd hother (by decide)
  · exact absurd hother (by decide)

theorem hasComment_inert {text : List Char} (h : Inert text) : hasComment text = false := by
  induction text using hasComment.induct with
  | case1 => rfl
  | case2 c => rfl
  | case3 c d rest ih =>
      have hd := (ne_of_inert h.tail).2.1
      rw [hasComment, ih h.tail]
      simp [hd]

/-- A key is found where it ends. -/
theorem splitKey_inert {text value : List Char} (h : Inert text)
    (hvalue : startsBlank value = true) :
    splitKey (text ++ ':' :: value) = some (text, value) := by
  induction text with
  | nil => simp [splitKey, hvalue]
  | cons c rest ih =>
      have hc := (ne_of_inert h).2.2.1
      rw [List.cons_append, splitKey, ih h.tail]
      simp [hc]

theorem splitKey_none {text : List Char} (h : Inert text) : splitKey text = none := by
  induction text with
  | nil => rfl
  | cons c rest ih =>
      have hc := (ne_of_inert h).2.2.1
      rw [splitKey, ih h.tail]
      simp [hc]

/-- Plain text that neither ends a key nor starts a comment is resolved. -/
theorem scalarOf_plain {text : List Char} {c : Char} {rest : List Char}
    (htrim : BlockYaml.trim text = c :: rest) (hquote : c ≠ '"')
    (hstart : startsPlain (c :: rest) = true) (hsplit : splitKey (c :: rest) = none)
    (hcomment : hasComment (c :: rest) = false) :
    scalarOf r text = some (r.plain (c :: rest)) := by
  unfold scalarOf
  rw [htrim]
  split
  · rename_i heq
    cases heq
  · rename_i heq
    obtain ⟨rfl, -⟩ := List.cons.inj heq
    exact absurd rfl hquote
  · rename_i c' rest' _ heq
    obtain ⟨rfl, rfl⟩ := List.cons.inj heq
    rw [hstart, hsplit, hcomment]
    rfl

theorem scalarOf_inert {text : List Char} (h : Inert text) :
    scalarOf r text = some (r.plain (BlockYaml.trim text)) := by
  have htrim := h.trim
  cases hcase : BlockYaml.trim text with
  | nil => rw [scalarOf_blank hcase, r.empty]
  | cons c rest =>
      rw [hcase] at htrim
      exact scalarOf_plain hcase (ne_of_inert htrim).1 (startsPlain_inert htrim)
        (splitKey_none htrim) (hasComment_inert htrim)

/-- A plain key and what stands after its colon. -/
theorem contentOf_inert {key value : List Char} (h : Inert key)
    (hvalue : startsBlank value = true) :
    contentOf r (key ++ ':' :: value) =
      if key.length ≤ keyLimit then entryOf r (r.plain (BlockYaml.trim key)) value else none := by
  have hstart : (key.isEmpty || startsPlain key) = true := by
    cases key with
    | nil => rfl
    | cons c rest => simp [startsPlain_inert h]
  have hsplit := splitKey_inert h hvalue
  unfold contentOf
  split
  · rename_i rest heq
    cases key with
    | nil => cases heq
    | cons c after =>
        obtain ⟨rfl, -⟩ := List.cons.inj heq
        exact absurd rfl (ne_of_inert h).1
  · rw [hsplit]
    simp [hstart, hasComment_inert h]

theorem entryOf_some (key : Scalar) {value : List Char} {s : Scalar}
    (h : scalarOf r value = some s) :
    ∃ v, entryOf r key value = some (.entry key v) ∧ v.getD .null = s := by
  unfold entryOf
  split
  · rename_i hempty
    rw [scalarOf_blank (List.isEmpty_iff.mp hempty)] at h
    exact ⟨none, rfl, Option.some.inj h⟩
  · exact ⟨some s, by rw [h, Option.map_some], rfl⟩

theorem of_entryOf {key : Scalar} {value : List Char} {item : Item}
    (h : entryOf r key value = some item) :
    ∃ v, item = .entry key v ∧ scalarOf r value = some (v.getD .null) := by
  unfold entryOf at h
  split at h
  · rename_i hempty
    obtain rfl := Option.some.inj h
    exact ⟨none, rfl, scalarOf_blank (List.isEmpty_iff.mp hempty)⟩
  · obtain ⟨s, hs, rfl⟩ := Option.map_eq_some_iff.mp h
    exact ⟨some s, rfl, hs⟩

/-- Letters that a reader takes for themselves, as a key and as a value. -/
def isWord (w : List Char) : Bool :=
  w.all Char.isAlpha && !w.isEmpty && w.length ≤ keyLimit && !reservedWords.contains w

/-- A character that is neither a blank nor an indicator means nothing else. -/
theorem plainChar_of_ne {c : Char}
    (hne : ∀ d ∈ [' ', '\t'] ++ indicators ++ ['-', '?', ':'], c ≠ d) :
    isBlank c = false ∧ indicators.contains c = false ∧ ['-', '?', ':'].contains c = false := by
  refine ⟨?_, ?_, ?_⟩
  · have hspace := hne ' ' (by simp)
    have htab := hne '\t' (by simp)
    simp [isBlank, hspace, htab]
  · rw [List.contains_eq_mem, decide_eq_false_iff_not]
    exact fun hmem => hne c (by simp [hmem]) rfl
  · rw [List.contains_eq_mem, decide_eq_false_iff_not]
    exact fun hmem => hne c (List.mem_append_right _ hmem) rfl

theorem of_isAlpha {c : Char} (h : c.isAlpha = true) :
    isBlank c = false ∧ indicators.contains c = false ∧ ['-', '?', ':'].contains c = false := by
  have hothers : ([' ', '\t'] ++ indicators ++ ['-', '?', ':']).all (fun d => !d.isAlpha) =
      true := by decide
  apply plainChar_of_ne
  intro d hd heq
  have hd' := List.all_eq_true.mp hothers d hd
  rw [← heq, h] at hd'
  cases hd'

theorem trim_of_not_blank {text : List Char} (h : ∀ c ∈ text, isBlank c = false) :
    BlockYaml.trim text = text := by
  have hdrop : text.dropWhile isBlank = text := by
    cases text with
    | nil => rfl
    | cons c rest => simp [h c List.mem_cons_self]
  unfold BlockYaml.trim
  rw [hdrop, List.rdropWhile_eq_self_iff]
  intro hne
  simp [h _ (List.getLast_mem hne)]

section Words

variable {w : List Char}

theorem letters_of_isWord (h : isWord w = true) : ∀ c ∈ w, c.isAlpha = true := by
  simp only [isWord, Bool.and_eq_true] at h
  exact List.all_eq_true.mp h.1.1.1

theorem inert_of_isWord (h : isWord w = true) : Inert w :=
  fun c hc => (of_isAlpha (letters_of_isWord h c hc)).2

theorem trim_of_isWord (h : isWord w = true) : BlockYaml.trim w = w :=
  trim_of_not_blank fun c hc => (of_isAlpha (letters_of_isWord h c hc)).1

theorem plain_of_isWord (h : isWord w = true) : r.plain w = .str w := by
  have hletters := letters_of_isWord h
  simp only [isWord, Bool.and_eq_true, Bool.not_eq_true', List.contains_eq_mem,
    decide_eq_false_iff_not] at h
  cases w with
  | nil => simp at h
  | cons c rest => exact r.word c rest (hletters c List.mem_cons_self) h.2

/-- The codes of the letters. -/
theorem toNat_of_isAlpha {c : Char} (h : c.isAlpha = true) :
    65 ≤ c.toNat ∧ c.toNat ≤ 90 ∨ 97 ≤ c.toNat ∧ c.toNat ≤ 122 := by
  have hcases : (c.isUpper || c.isLower) = true := h
  rw [Bool.or_eq_true] at hcases
  obtain hupper | hlower := hcases
  · have hrange : 'A'.val ≤ c.val ∧ c.val ≤ 'Z'.val := of_decide_eq_true hupper
    exact .inl ⟨UInt32.le_iff_toNat_le.mp hrange.1, UInt32.le_iff_toNat_le.mp hrange.2⟩
  · have hrange : (decide ('a'.val ≤ c.val) && decide (c.val ≤ 'z'.val)) = true := hlower
    rw [Bool.and_eq_true, decide_eq_true_eq, decide_eq_true_eq] at hrange
    exact .inr ⟨UInt32.le_iff_toNat_le.mp hrange.1, UInt32.le_iff_toNat_le.mp hrange.2⟩

theorem readable_of_isWord (h : isWord w = true) : Readable w := by
  intro c hc
  have hle : 0x20 ≤ c.toNat ∧ c.toNat ≤ 0x7e := by
    have hletter := toNat_of_isAlpha (letters_of_isWord h c hc)
    omega
  simp [isReadable, hle]

theorem contentOf_word (h : isWord w = true) {value : List Char}
    (hvalue : startsBlank value = true) :
    contentOf r (w ++ ':' :: value) = entryOf r (.str w) value := by
  have hshort : w.length ≤ keyLimit := by
    simp only [isWord, Bool.and_eq_true, decide_eq_true_eq] at h
    exact h.1.2
  rw [contentOf_inert (inert_of_isWord h) hvalue, if_pos hshort, trim_of_isWord h,
    plain_of_isWord h]

theorem tokensAt_other {c : Char} (hspace : c ≠ ' ') (hdash : c ≠ '-') (n : ℕ)
    (rest : List Char) :
    tokensAt r n (c :: rest) = (contentOf r (c :: rest)).map fun item => [⟨n, item⟩] := by
  rw [tokensAt]
  · exact fun heq => hspace heq
  · exact fun heq _ => hdash heq
  · exact fun after heq _ => hdash heq

/-- A line that starts with such a word. -/
theorem tokensAt_word (h : isWord w = true) (n : ℕ) (after : List Char) :
    tokensAt r n (w ++ after) = (contentOf r (w ++ after)).map fun item => [⟨n, item⟩] := by
  have hletters := letters_of_isWord h
  cases w with
  | nil => simp [isWord] at h
  | cons c rest =>
      have hblank := (of_isAlpha (hletters c List.mem_cons_self)).1
      have hdash := (ne_of_inert (inert_of_isWord h)).2.2.2
      have hspace : c ≠ ' ' := by
        rintro rfl
        cases hblank
      exact tokensAt_other hspace hdash n _

end Words

/-! Integers. -/

theorem of_mem_digits {n : ℕ} {c : Char} (h : c ∈ Nat.toDigits 10 n) :
    isBlank c = false ∧ isReadable c = true ∧ indicators.contains c = false ∧
      ['-', '?', ':'].contains c = false := by
  have hdigit := Nat.isDigit_of_mem_toDigits (by omega) (by omega) h
  have hrange : 48 ≤ c.toNat ∧ c.toNat ≤ 57 := Char.isDigit_iff_toNat.mp hdigit
  have hothers : ([' ', '\t'] ++ indicators ++ ['-', '?', ':']).all (fun d => !d.isDigit) =
      true := by decide
  obtain ⟨hblank, hindicator, hmark⟩ := plainChar_of_ne fun d hd heq => by
    have hd' := List.all_eq_true.mp hothers d hd
    rw [← heq, hdigit] at hd'
    cases hd'
  refine ⟨hblank, ?_, hindicator, hmark⟩
  have hle : 0x20 ≤ c.toNat ∧ c.toNat ≤ 0x7e := by omega
  simp [isReadable, hle]

theorem toDigits_ne_nil (n : ℕ) : Nat.toDigits 10 n ≠ [] := by
  rw [← List.length_pos_iff]
  exact Nat.length_toDigits_pos

theorem inert_digits (n : ℕ) : Inert (Nat.toDigits 10 n) :=
  fun _ hc => (of_mem_digits hc).2.2

theorem readable_digits (n : ℕ) : Readable (Nat.toDigits 10 n) :=
  fun _ hc => (of_mem_digits hc).2.1

theorem readable_intText (n : ℤ) : Readable (intText n) := by
  unfold intText
  split
  · exact List.forall_mem_cons.mpr ⟨by decide, readable_digits _⟩
  · exact readable_digits _

theorem trim_intText (n : ℤ) : BlockYaml.trim (intText n) = intText n := by
  apply trim_of_not_blank
  unfold intText
  split
  · exact List.forall_mem_cons.mpr ⟨by decide, fun c hc => (of_mem_digits hc).1⟩
  · exact fun c hc => (of_mem_digits hc).1

/-- A number that is written is read as that number. -/
theorem scalarOf_intText (n : ℤ) : scalarOf r (intText n) = some (.int n) := by
  by_cases hneg : n < 0
  · have htext : intText n = '-' :: Nat.toDigits 10 n.natAbs := if_pos hneg
    have hinert := inert_digits n.natAbs
    obtain ⟨d, rest, hdigits⟩ := List.exists_cons_of_ne_nil (toDigits_ne_nil n.natAbs)
    have htrim := trim_intText n
    have hnumber := r.number n
    rw [htext, hdigits] at htrim hnumber ⊢
    rw [hdigits] at hinert
    have hblank : isBlank d = false := by
      refine (of_mem_digits (n := n.natAbs) ?_).1
      rw [hdigits]
      exact List.mem_cons_self
    have hhash := (ne_of_inert hinert).2.1
    have hstart : startsPlain ('-' :: d :: rest) = true := by
      simp [startsPlain, startsBlank, hblank]
    have hsplit : splitKey ('-' :: d :: rest) = none := by
      rw [splitKey, splitKey_none hinert]
      rfl
    have hcomment : hasComment ('-' :: d :: rest) = false := by
      rw [hasComment, hasComment_inert hinert]
      simp [hhash]
    rw [scalarOf_plain htrim (by decide) hstart hsplit hcomment, hnumber]
  · have htext : intText n = Nat.toDigits 10 n.natAbs := if_neg hneg
    have htrim := trim_intText n
    have hnumber := r.number n
    rw [htext] at htrim hnumber ⊢
    rw [scalarOf_inert (inert_digits _), htrim, hnumber]

end KGuardian.BlockYaml
