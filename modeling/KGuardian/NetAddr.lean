import KGuardian.BitBlocks
import KGuardian.TextScan

/-!
The part of Go's `net` and `net/netip` that the evaluator's ipBlock check and
the generated CIDRs rest on: textual addresses, CIDR notation and containment.
Strings are read as lists of characters; a non-ASCII character is rejected
here exactly where its bytes are rejected there.
-/
namespace KGuardian.NetAddr

open BitBlocks TextScan

def hexVal (c : Char) : Option ℕ :=
  if '0' ≤ c && c ≤ '9' then some (c.toNat - '0'.toNat)
  else if 'a' ≤ c && c ≤ 'f' then some (c.toNat - 'a'.toNat + 10)
  else if 'A' ≤ c && c ≤ 'F' then some (c.toNat - 'A'.toNat + 10)
  else none

/-- The loop of `parseIPv4Fields`: the octets stored so far, the current value
and its number of digits, and the character just read. -/
def parseIPv4Loop (fields : List ℕ) (val digLen : ℕ) (prev : Option Char) :
    List Char → Option (List ℕ)
  | [] => if fields.length < 3 then none else some (fields ++ [val])
  | c :: rest =>
      if isDigit c then
        if digLen = 1 ∧ val = 0 then none
        else if val * 10 + digitVal c > 255 then none
        else parseIPv4Loop fields (val * 10 + digitVal c) (digLen + 1) (some c) rest
      else if c = '.' then
        if prev = none ∨ rest = [] ∨ prev = some '.' then none
        else if fields.length = 3 then none
        else parseIPv4Loop (fields ++ [val]) 0 0 (some c) rest
      else none

def parseIPv4Fields (s : List Char) : Option (List ℕ) := parseIPv4Loop [] 0 0 none s

/-- Big-endian value of a byte string. -/
def ofBytes (w : ℕ) (bytes : List ℕ) : BitVec w :=
  BitVec.ofNat w (bytes.foldl (fun acc b => acc * 256 + b) 0)

/-- One group of hexadecimal digits: its value, its length and what follows. -/
def scanHex (acc off : ℕ) : List Char → Option (ℕ × ℕ × List Char)
  | [] => some (acc, off, [])
  | c :: rest =>
      match hexVal c with
      | none => some (acc, off, c :: rest)
      | some d =>
          if off > 3 then none
          else if acc * 16 + d > 65535 then none
          else scanHex (acc * 16 + d) (off + 1) rest

/-- The group loop of `parseIPv6`. Each turn stores two bytes, so the eight
turns of `room` are the bound `i < 16`. -/
def parseIPv6Loop : ℕ → List ℕ → Option ℕ → List Char →
    Option (List ℕ × Option ℕ × List Char)
  | 0, ip, ellipsis, s => some (ip, ellipsis, s)
  | room + 1, ip, ellipsis, s =>
      match scanHex 0 0 s with
      | none => none
      | some (acc, off, rest) =>
          if off = 0 then none
          else if rest.head? = some '.' then
            if ellipsis = none ∧ ip.length ≠ 12 then none
            else if ip.length + 4 > 16 then none
            else (parseIPv4Fields s).map fun fields => (ip ++ fields, ellipsis, [])
          else
            let stored := ip ++ [acc / 256, acc % 256]
            match rest with
            | [] => some (stored, ellipsis, [])
            | [_] => none
            | sep :: c :: more =>
                if sep ≠ ':' then none
                else if c = ':' then
                  if ellipsis.isSome then none
                  else if more = [] then some (stored, some stored.length, [])
                  else parseIPv6Loop room stored (some stored.length) more
                else parseIPv6Loop room stored ellipsis (c :: more)

/-- Fill the gap of the ellipsis, which must stand for at least one zero group. -/
def expandEllipsis (ip : List ℕ) (ellipsis : Option ℕ) : Option (List ℕ) :=
  if ip.length < 16 then
    ellipsis.map fun e => ip.take e ++ List.replicate (16 - ip.length) 0 ++ ip.drop e
  else if ellipsis.isSome then none
  else some ip

inductive Addr where
  | v4 (bits : BitVec 32)
  | v6 (bits : BitVec 128) (zone : List Char)
  deriving DecidableEq, Repr

def parseIPv6Groups (s : List Char) : Option (List ℕ) :=
  match s with
  | [':', ':'] => some (List.replicate 16 0)
  | ':' :: ':' :: rest =>
      match parseIPv6Loop 8 [] (some 0) rest with
      | some (ip, ellipsis, []) => expandEllipsis ip ellipsis
      | _ => none
  | _ =>
      match parseIPv6Loop 8 [] none s with
      | some (ip, ellipsis, []) => expandEllipsis ip ellipsis
      | _ => none

def parseIPv6 (s : List Char) : Option Addr :=
  let addr := s.takeWhile (· ≠ '%')
  match s.dropWhile (· ≠ '%') with
  | [] => (parseIPv6Groups addr).map fun ip => .v6 (ofBytes 128 ip) []
  | [_] => none
  | _ :: zone => (parseIPv6Groups addr).map fun ip => .v6 (ofBytes 128 ip) zone

/-- `netip.ParseAddr`: the first of the characters dot, colon and percent
decides which form is expected. -/
def parseAddr (s : List Char) : Option Addr :=
  match s.find? fun c => c = '.' ∨ c = ':' ∨ c = '%' with
  | some '.' => (parseIPv4Fields s).map fun fields => .v4 (ofBytes 32 fields)
  | some ':' => parseIPv6 s
  | _ => none

/-- A `net.IP` as `ParseIP` returns it: sixteen bytes, an IPv4 address in its
IPv4-mapped form. -/
abbrev IP := BitVec 128

def v4InV6 : BitVec 96 := 0xFFFF#96

def as16 : Addr → IP
  | .v4 a => v4InV6 ++ a
  | .v6 a _ => a

def to4 (ip : IP) : Option (BitVec 32) :=
  if ip.extractLsb' 32 96 = v4InV6 then some (ip.extractLsb' 0 32) else none

def parseIP (s : String) : Option IP :=
  match parseAddr s.toList with
  | some (.v4 a) => some (as16 (.v4 a))
  | some (.v6 a []) => some a
  | _ => none

/-- `dtoi`, which gives up at `0xFFFFFF`. -/
def dtoiLoop (n : ℕ) : List Char → Option (ℕ × List Char)
  | [] => some (n, [])
  | c :: rest =>
      if isDigit c then
        if n * 10 + digitVal c ≥ 0xFFFFFF then none
        else dtoiLoop (n * 10 + digitVal c) rest
      else some (n, c :: rest)

/-- The mask after the slash: at least one digit and nothing else. -/
def parseMask (s : List Char) : Option ℕ :=
  match s with
  | [] => none
  | c :: rest =>
      if isDigit c then
        match dtoiLoop 0 (c :: rest) with
        | some (n, []) => some n
        | _ => none
      else none

def Addr.bitLen : Addr → ℕ
  | .v4 _ => 32
  | .v6 _ _ => 128

/-- An address without a zone and a mask length that fits it. -/
def checkCIDR : Option Addr → Option ℕ → Option (Addr × ℕ)
  | some (.v4 a), some n => if n ≤ 32 then some (.v4 a, n) else none
  | some (.v6 a []), some n => if n ≤ 128 then some (.v6 a [], n) else none
  | _, _ => none

/-- The two halves of a CIDR string, split at its first slash. -/
def splitCIDR (s : String) : Option (Addr × ℕ) :=
  match s.toList.dropWhile (· ≠ '/') with
  | [] => none
  | _ :: mask => checkCIDR (parseAddr (s.toList.takeWhile (· ≠ '/'))) (parseMask mask)

/-- A `net.IPNet`: the masked base and the mask, four or sixteen bytes long. -/
inductive IPNet where
  | net4 (ip mask : BitVec 32)
  | net6 (ip mask : BitVec 128)
  deriving DecidableEq, Repr

def networkOf : Addr → ℕ → IPNet
  | .v4 a, n => .net4 (a &&& leadingMask 32 n) (leadingMask 32 n)
  | .v6 a _, n => .net6 (a &&& leadingMask 128 n) (leadingMask 128 n)

def parseCIDR (s : String) : Option IPNet :=
  (splitCIDR s).map fun p => networkOf p.1 p.2

/-- `IPNet.Contains`, after `networkNumberAndMask` has shortened an IPv4-mapped
network to four bytes. Addresses of different lengths never match. -/
def IPNet.contains (net : IPNet) (ip : IP) : Bool :=
  match net with
  | .net4 nn m =>
      match to4 ip with
      | some x => nn &&& m = x &&& m
      | none => false
  | .net6 nn m =>
      match to4 nn, to4 ip with
      | some nn4, some x =>
          nn4 &&& m.extractLsb' 0 32 = x &&& m.extractLsb' 0 32
      | none, none => nn &&& m = ip &&& m
      | _, _ => false

/-! Mapped IPv4 addresses inside the sixteen-byte form. -/

theorem append_extract (ip : IP) :
    ip.extractLsb' 32 96 ++ ip.extractLsb' 0 32 = ip := by
  apply BitVec.eq_of_getLsbD_eq
  intro i hi
  simp only [BitVec.getLsbD_append, BitVec.getLsbD_extractLsb']
  by_cases h : i < 32
  · simp [h]
  · have hlt : i - 32 < 96 := by omega
    simp [h, hlt, show 32 + (i - 32) = i by omega]

theorem to4_as16 (x : BitVec 32) : to4 (as16 (.v4 x)) = some x := by
  simp only [to4, as16, BitVec.extractLsb'_append_eq_left,
    BitVec.extractLsb'_append_eq_right, if_true]

theorem to4_eq_some_iff (ip : IP) (x : BitVec 32) :
    to4 ip = some x ↔ ip = as16 (.v4 x) := by
  constructor
  · intro h
    unfold to4 at h
    split at h
    · next hhi =>
      rw [← append_extract ip, hhi, Option.some.inj h]
      rfl
    · cases h
  · intro heq
    subst heq
    exact to4_as16 x

theorem getMsbD_as16_high (x : BitVec 32) (i : ℕ) (hi : i < 96) :
    (as16 (.v4 x)).getMsbD i = v4InV6.getMsbD i := by
  simp only [as16, BitVec.getMsbD_append, show ¬ 96 ≤ i by omega, if_false]

theorem getMsbD_as16_low (x : BitVec 32) (i : ℕ) :
    (as16 (.v4 x)).getMsbD (96 + i) = x.getMsbD i := by
  simp only [as16, BitVec.getMsbD_append, show 96 ≤ 96 + i by omega, if_true,
    Nat.add_sub_cancel_left]

/-- An address is IPv4 exactly when its first 96 bits are the mapped form. -/
theorem agree_as16_iff (x : BitVec 32) (ip : IP) :
    Agree 96 (as16 (.v4 x)) ip ↔ ∃ y, to4 ip = some y := by
  constructor
  · intro h
    refine ⟨ip.extractLsb' 0 32, (to4_eq_some_iff _ _).mpr ?_⟩
    apply BitVec.eq_of_getMsbD_eq
    intro i hi
    by_cases hlow : i < 96
    · rw [← h i hlow, getMsbD_as16_high _ _ hlow, getMsbD_as16_high _ _ hlow]
    · obtain ⟨j, rfl⟩ := Nat.exists_eq_add_of_le (Nat.le_of_not_lt hlow)
      have hj : j < 32 := by omega
      rw [getMsbD_as16_low]
      simp only [BitVec.getMsbD, BitVec.getLsbD_extractLsb']
      simp [hj, show 96 + j < 128 by omega, show 128 - 1 - (96 + j) = 32 - 1 - j by omega]
      omega
  · intro hcase
    obtain ⟨y, hy⟩ := hcase
    rw [(to4_eq_some_iff _ _).mp hy]
    intro i hi
    rw [getMsbD_as16_high _ _ hi, getMsbD_as16_high _ _ hi]

/-- Two IPv4 addresses agree on `96 + n` bits when their own first `n` bits do. -/
theorem agree_as16_add (n : ℕ) (x y : BitVec 32) :
    Agree (96 + n) (as16 (.v4 x)) (as16 (.v4 y)) ↔ Agree n x y := by
  constructor
  · intro h i hi
    have hbit := h (96 + i) (by omega)
    simpa only [getMsbD_as16_low] using hbit
  · intro h i hi
    by_cases hlow : i < 96
    · rw [getMsbD_as16_high _ _ hlow, getMsbD_as16_high _ _ hlow]
    · obtain ⟨j, rfl⟩ := Nat.exists_eq_add_of_le (Nat.le_of_not_lt hlow)
      rw [getMsbD_as16_low, getMsbD_as16_low]
      exact h j (by omega)

/-- Comparing the last four bytes under a mask is comparing the mapped
addresses under the whole mask. -/
theorem mapped_and_iff (x y : BitVec 32) (m : IP) :
    x &&& m.extractLsb' 0 32 = y &&& m.extractLsb' 0 32 ↔
      as16 (.v4 x) &&& m = as16 (.v4 y) &&& m := by
  have hsplit : ∀ z : BitVec 32, as16 (.v4 z) &&& m =
      (v4InV6 &&& m.extractLsb' 32 96) ++ (z &&& m.extractLsb' 0 32) := by
    intro z
    rw [← BitVec.and_append, append_extract]
    rfl
  rw [hsplit x, hsplit y, BitVec.append_right_inj]

theorem to4_masked_short (a : IP) (n : ℕ) (hn : n < 96) :
    to4 (a &&& leadingMask 128 n) = none := by
  cases h : to4 (a &&& leadingMask 128 n) with
  | none => rfl
  | some x =>
    have hbit : (a &&& leadingMask 128 n).getMsbD 95 = v4InV6.getMsbD 95 := by
      rw [(to4_eq_some_iff _ _).mp h, getMsbD_as16_high _ _ (by omega)]
    have hone : v4InV6.getMsbD 95 = true := by decide
    rw [hone] at hbit
    simp [getMsbD_leadingMask n 95 (by omega : n ≤ 128), show ¬ 95 < n by omega] at hbit

def fixedBits : Addr → ℕ → ℕ
  | .v4 _, n => 96 + n
  | .v6 _ _, n => n

/-- The addresses of a block: those that begin with the fixed bits of its base.
A block that fixes fewer than 96 bits holds no IPv4 address. -/
def Covers (base : Addr) (n : ℕ) (ip : IP) : Prop :=
  Agree (fixedBits base n) (as16 base) ip ∧ (to4 ip ≠ none → 96 ≤ fixedBits base n)

theorem contains_net4_iff (a : BitVec 32) (n : ℕ) (hn : n ≤ 32) (ip : IP) :
    (networkOf (.v4 a) n).contains ip = true ↔ Covers (.v4 a) n ip := by
  simp only [networkOf, IPNet.contains, Covers, fixedBits]
  cases hip : to4 ip with
  | none =>
    have hno : ¬ Agree (96 + n) (as16 (.v4 a)) ip := by
      intro h
      obtain ⟨y, hy⟩ := (agree_as16_iff a ip).mp (h.mono (by omega))
      simp [hip] at hy
    simp [hno]
  | some x =>
    rw [(to4_eq_some_iff _ _).mp hip, agree_as16_add]
    simp only [and_leadingMask_idem, decide_eq_true_eq, and_leadingMask_eq_iff n hn]
    exact ⟨fun h => ⟨h, fun _ => by omega⟩, fun h => h.1⟩

theorem contains_net6_iff (a : BitVec 128) (zone : List Char) (n : ℕ) (hn : n ≤ 128) (ip : IP) :
    (networkOf (.v6 a zone) n).contains ip = true ↔ Covers (.v6 a zone) n ip := by
  have hmasked : Agree n (a &&& leadingMask 128 n) a :=
    (and_leadingMask_eq_iff n hn _ _).mp (and_leadingMask_idem n a)
  simp only [networkOf, Covers, fixedBits, as16]
  unfold IPNet.contains
  dsimp only
  cases hnn : to4 (a &&& leadingMask 128 n) with
  | none =>
    cases hip : to4 ip with
    | none =>
      dsimp only
      rw [decide_eq_true_eq, and_leadingMask_idem, and_leadingMask_eq_iff n hn]
      exact ⟨fun h => ⟨h, fun hne => absurd rfl hne⟩, fun h => h.1⟩
    | some x =>
      have hno : ¬ (Agree n a ip ∧ 96 ≤ n) := by
        intro hcase
        obtain ⟨hag, hlong⟩ := hcase
        have hsame : Agree 96 (as16 (.v4 x)) (a &&& leadingMask 128 n) := by
          rw [← (to4_eq_some_iff _ _).mp hip]
          exact (hag.symm.trans hmasked.symm).mono hlong
        obtain ⟨y, hy⟩ := (agree_as16_iff x _).mp hsame
        simp [hnn] at hy
      exact ⟨fun h => Bool.noConfusion h,
        fun h => absurd ⟨h.1, h.2 (Option.some_ne_none x)⟩ hno⟩
  | some nn4 =>
    have hlong : 96 ≤ n := by
      by_contra hshort
      rw [to4_masked_short a n (by omega)] at hnn
      cases hnn
    cases hip : to4 ip with
    | none =>
      have hno : ¬ Agree n a ip := by
        intro hag
        have hsame : Agree 96 (as16 (.v4 nn4)) ip := by
          rw [← (to4_eq_some_iff _ _).mp hnn]
          exact (hmasked.trans hag).mono hlong
        obtain ⟨y, hy⟩ := (agree_as16_iff nn4 ip).mp hsame
        simp [hip] at hy
      exact ⟨fun h => Bool.noConfusion h, fun h => absurd h.1 hno⟩
    | some x =>
      dsimp only
      rw [decide_eq_true_eq, mapped_and_iff, ← (to4_eq_some_iff _ _).mp hnn,
        ← (to4_eq_some_iff _ _).mp hip, and_leadingMask_idem, and_leadingMask_eq_iff n hn]
      exact ⟨fun h => ⟨h, fun _ => hlong⟩, fun h => h.1⟩

theorem splitCIDR_bits_le (s : String) (a : Addr) (n : ℕ) (h : splitCIDR s = some (a, n)) :
    n ≤ a.bitLen := by
  unfold splitCIDR at h
  split at h
  · cases h
  · unfold checkCIDR at h
    split at h
    · split at h
      · cases h; assumption
      · cases h
    · split at h
      · cases h; assumption
      · cases h
    · cases h

/-- The addresses that a CIDR string denotes; none when it is malformed. -/
def CIDRCovers (cidr : String) (ip : IP) : Prop :=
  ∃ a n, splitCIDR cidr = some (a, n) ∧ Covers a n ip

theorem contains_parseCIDR_iff (cidr : String) (ip : IP) :
    (∃ net, parseCIDR cidr = some net ∧ net.contains ip = true) ↔ CIDRCovers cidr ip := by
  unfold parseCIDR CIDRCovers
  cases h : splitCIDR cidr with
  | none => simp
  | some p =>
    obtain ⟨a, n⟩ := p
    have hn := splitCIDR_bits_le cidr a n h
    have hcontains : (networkOf a n).contains ip = true ↔ Covers a n ip := by
      cases a with
      | v4 bits => exact contains_net4_iff bits n hn ip
      | v6 bits zone => exact contains_net6_iff bits zone n hn ip
    simp [hcontains]

/-! Host routes. -/

theorem parseIPv4Loop_chars (s : List Char) (fields : List ℕ) (val digLen : ℕ)
    (prev : Option Char) (r : List ℕ) (h : parseIPv4Loop fields val digLen prev s = some r) :
    ∀ c ∈ s, isDigit c = true ∨ c = '.' := by
  induction s generalizing fields val digLen prev with
  | nil => simp
  | cons c rest ih =>
    intro d hd
    unfold parseIPv4Loop at h
    split at h
    · next hdigit =>
      split at h
      · cases h
      · split at h
        · cases h
        · rcases List.mem_cons.mp hd with rfl | hd
          · exact Or.inl hdigit
          · exact ih _ _ _ _ h d hd
    · split at h
      · next hdot =>
        split at h
        · cases h
        · split at h
          · cases h
          · rcases List.mem_cons.mp hd with rfl | hd
            · exact Or.inr hdot
            · exact ih _ _ _ _ h d hd
      · cases h

/-- The text of an IPv4 address is made of digits and dots. -/
theorem digits_and_dots (s : List Char) (a : BitVec 32) (h : parseAddr s = some (.v4 a)) :
    ∀ c ∈ s, isDigit c = true ∨ c = '.' := by
  unfold parseAddr at h
  split at h
  · cases hfields : parseIPv4Fields s with
    | none => simp [hfields] at h
    | some fields => exact parseIPv4Loop_chars s [] 0 0 none fields hfields
  · unfold parseIPv6 at h
    split at h <;> simp at h
  · cases h

theorem ne_slash_of_parseAddr (s : List Char) (a : BitVec 32) (h : parseAddr s = some (.v4 a)) :
    ∀ c ∈ s, c ≠ '/' := by
  intro c hc hslash
  have hchars := digits_and_dots s a h c hc
  subst hslash
  revert hchars
  decide

theorem splitCIDR_host (s : String) (a : BitVec 32) (h : parseAddr s.toList = some (.v4 a)) :
    splitCIDR (s ++ "/32") = some (.v4 a, 32) := by
  have hno : ∀ c ∈ s.toList, decide (c ≠ '/') = true := by
    intro c hc
    exact decide_eq_true (ne_slash_of_parseAddr _ a h c hc)
  have hmask : parseMask ['3', '2'] = some 32 := by decide
  simp only [splitCIDR, String.toList_append]
  rw [List.dropWhile_append_of_pos hno, List.takeWhile_append_of_pos hno]
  change checkCIDR (parseAddr (s.toList ++ [])) (parseMask ['3', '2']) = _
  rw [List.append_nil, h, hmask]
  rfl

/-- A generated `/32` block holds the one address it was made from. -/
theorem cidrCovers_host_iff (s : String) (a : BitVec 32) (ip : IP)
    (h : parseAddr s.toList = some (.v4 a)) :
    CIDRCovers (s ++ "/32") ip ↔ ip = as16 (.v4 a) := by
  simp only [CIDRCovers, splitCIDR_host s a h, Option.some.injEq, Prod.mk.injEq]
  constructor
  · intro hcase
    obtain ⟨b, n, ⟨rfl, rfl⟩, hcover⟩ := hcase
    exact ((agree_full _ _).mp hcover.1).symm
  · intro heq
    subst heq
    exact ⟨.v4 a, 32, ⟨rfl, rfl⟩, agree_refl _ _, fun _ => by simp [fixedBits]⟩

theorem parseIP_of_v4 (s : String) (a : BitVec 32) (h : parseAddr s.toList = some (.v4 a)) :
    parseIP s = some (as16 (.v4 a)) := by
  simp only [parseIP, h]

end KGuardian.NetAddr
