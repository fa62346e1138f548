import KGuardian.BridgeNetworkPolicy
import KGuardian.ObservedTraffic

/-!
The addresses that the four generators could not resolve, and the CIDRs written for
them. All of them append the same prefix length, so the family of the address decides
what the matcher makes of the block.
-/
namespace KGuardian.PinnedPeers

open AllowLists BitBlocks NetAddr Selectors Matcher PolicySemantics SortedGroups

/-- The matcher finds this address in the block and no other one. -/
def Pins (cidr : String) (addr : IP) : Prop :=
  ∀ ip other, parseIP ip = some other → (ipBlockMatches ip ⟨cidr, []⟩ = true ↔ other = addr)

/-- The address is written as four decimal numbers. -/
def IPv4Text (ip : String) : Prop := ∃ a, parseAddr ip.toList = some (.v4 a)

theorem ipBlockMatches_cidr_iff {ip : String} {other : IP} (hip : parseIP ip = some other)
    (cidr : String) : ipBlockMatches ip ⟨cidr, []⟩ = true ↔ CIDRCovers cidr other := by
  rw [ipBlockMatches_iff]
  simp [BlockHolds, hip]

theorem pins_iff (cidr : String) (addr : IP) :
    Pins cidr addr ↔ ∀ ip other, parseIP ip = some other →
      (CIDRCovers cidr other ↔ other = addr) := by
  constructor
  · intro h ip other hip
    rw [← ipBlockMatches_cidr_iff hip]
    exact h ip other hip
  · intro h ip other hip
    rw [ipBlockMatches_cidr_iff hip]
    exact h ip other hip

theorem pins_of_ipv4 {ip : String} {addr : IP} (hip : parseIP ip = some addr)
    (hv4 : IPv4Text ip) : Pins (ip ++ "/32") addr := by
  obtain ⟨a, ha⟩ := hv4
  rw [pins_iff]
  intro text other _
  rw [cidrCovers_host_iff ip a other ha]
  rw [parseIP_of_v4 ip a ha] at hip
  rw [Option.some.inj hip]

/-! The text of an IPv6 address has no slash, so the mask stays apart from it. -/

def isHex (c : Char) : Bool := (hexVal c).isSome

theorem scanHex_split (s : List Char) (acc off v n : ℕ) (rest : List Char)
    (h : scanHex acc off s = some (v, n, rest)) :
    ∃ digits, s = digits ++ rest ∧ ∀ c ∈ digits, isHex c = true := by
  induction s generalizing acc off with
  | nil =>
      simp only [scanHex, Option.some.injEq, Prod.mk.injEq] at h
      exact ⟨[], by simp [h.2.2], by simp⟩
  | cons c s ih =>
      unfold scanHex at h
      cases hc : hexVal c with
      | none =>
          simp only [hc, Option.some.injEq, Prod.mk.injEq] at h
          exact ⟨[], by simp [h.2.2], by simp⟩
      | some d =>
          simp only [hc] at h
          split at h
          · cases h
          · split at h
            · cases h
            · obtain ⟨digits, hs, hdigits⟩ := ih _ _ h
              refine ⟨c :: digits, by rw [hs]; rfl, ?_⟩
              intro x hx
              rcases List.mem_cons.mp hx with rfl | hx
              · simp [isHex, hc]
              · exact hdigits x hx

/-- A character that an IPv6 address can be written with. -/
def AddrChar (c : Char) : Prop := isHex c = true ∨ c = ':' ∨ c = '.'

theorem addrChar_of_isDigit {c : Char} (h : TextScan.isDigit c = true) : AddrChar c := by
  left
  simp only [TextScan.isDigit, Bool.and_eq_true, decide_eq_true_eq] at h
  simp [isHex, hexVal, h]

theorem addrChar_of_parseIPv4Fields {s : List Char} {fields : List ℕ}
    (h : parseIPv4Fields s = some fields) : ∀ c ∈ s, AddrChar c := by
  intro c hc
  rcases parseIPv4Loop_chars s [] 0 0 none fields h c hc with hdigit | hdot
  · exact addrChar_of_isDigit hdigit
  · exact Or.inr (Or.inr hdot)

theorem addrChar_of_parseIPv6Loop (room : ℕ) (ip : List ℕ) (ellipsis : Option ℕ)
    (s : List Char) (out : List ℕ) (ellipsis' : Option ℕ)
    (h : parseIPv6Loop room ip ellipsis s = some (out, ellipsis', [])) :
    ∀ c ∈ s, AddrChar c := by
  induction room generalizing ip ellipsis s with
  | zero =>
      simp only [parseIPv6Loop, Option.some.injEq, Prod.mk.injEq] at h
      simp [h.2.2]
  | succ room ih =>
      unfold parseIPv6Loop at h
      cases hscan : scanHex 0 0 s with
      | none => simp [hscan] at h
      | some p =>
          obtain ⟨acc, off, rest⟩ := p
          obtain ⟨digits, hs, hdigits⟩ := scanHex_split s 0 0 acc off rest hscan
          have hfront : ∀ c ∈ digits, AddrChar c := fun c hc => Or.inl (hdigits c hc)
          simp only [hscan] at h
          split at h
          · cases h
          split at h
          · split at h
            · cases h
            split at h
            · cases h
            cases hfields : parseIPv4Fields s with
            | none => simp [hfields] at h
            | some fields => exact addrChar_of_parseIPv4Fields hfields
          rw [hs]
          intro c hc
          rcases List.mem_append.mp hc with hc | hc
          · exact hfront c hc
          match rest, h with
          | [], _ => cases hc
          | [_], h => simp at h
          | sep :: d :: more, h =>
              simp only at h
              split at h
              · cases h
              rename_i hsep
              have hsep' : AddrChar sep := Or.inr (Or.inl (not_not.mp hsep))
              rcases List.mem_cons.mp hc with rfl | hc
              · exact hsep'
              split at h
              · rename_i hd
                split at h
                · cases h
                rcases List.mem_cons.mp hc with rfl | hc
                · exact Or.inr (Or.inl hd)
                split at h
                · rename_i hmore
                  simp [hmore] at hc
                · exact ih _ _ _ h c hc
              · exact ih _ _ _ h c hc

theorem addrChar_of_parseIPv6Groups {s : List Char} {bytes : List ℕ}
    (h : parseIPv6Groups s = some bytes) : ∀ c ∈ s, AddrChar c := by
  have hcolon : AddrChar ':' := Or.inr (Or.inl rfl)
  unfold parseIPv6Groups at h
  split at h
  · simp [hcolon]
  · split at h
    · rename_i hloop
      intro c hc
      simp only [List.mem_cons] at hc
      rcases hc with rfl | rfl | hc
      · exact hcolon
      · exact hcolon
      · exact addrChar_of_parseIPv6Loop _ _ _ _ _ _ hloop c hc
    · cases h
  · split at h
    · rename_i hloop
      exact addrChar_of_parseIPv6Loop _ _ _ _ _ _ hloop
    · cases h

/-- An address that parses is IPv4, or it is IPv6 without a zone and with no slash in
its text. -/
theorem parseIP_cases {ip : String} {addr : IP} (hip : parseIP ip = some addr)
    (hv4 : ¬ IPv4Text ip) :
    parseAddr ip.toList = some (.v6 addr []) ∧ ∀ c ∈ ip.toList, c ≠ '/' := by
  have hparse : parseAddr ip.toList = some (.v6 addr []) := by
    unfold parseIP at hip
    split at hip
    · rename_i a ha
      exact absurd ⟨a, ha⟩ hv4
    · rename_i a ha
      rw [ha, Option.some.inj hip]
    · cases hip
  refine ⟨hparse, ?_⟩
  -- The first of the characters that decide the form is the colon.
  unfold parseAddr at hparse
  split at hparse
  · cases hfields : parseIPv4Fields ip.toList <;> simp [hfields] at hparse
  · unfold parseIPv6 at hparse
    dsimp only at hparse
    split at hparse
    · rename_i hzone
      cases hbytes : parseIPv6Groups (ip.toList.takeWhile (· ≠ '%')) with
      | none =>
          rw [hbytes] at hparse
          cases hparse
      | some bytes =>
          have hall : ip.toList.takeWhile (· ≠ '%') = ip.toList := by
            have hsplit := List.takeWhile_append_dropWhile
              (p := fun c : Char => decide (c ≠ '%')) (l := ip.toList)
            rwa [hzone, List.append_nil] at hsplit
          rw [hall] at hbytes
          intro c hc hslash
          have hchar := addrChar_of_parseIPv6Groups hbytes c hc
          rw [hslash] at hchar
          revert hchar
          unfold AddrChar
          decide
    · cases hparse
    · rename_i zone hzone _
      cases hbytes : parseIPv6Groups (ip.toList.takeWhile (· ≠ '%')) with
      | none =>
          rw [hbytes] at hparse
          cases hparse
      | some bytes =>
          rw [hbytes] at hparse
          simp only [Option.map_some, Option.some.injEq, Addr.v6.injEq] at hparse
          exact absurd hparse.2 hzone
  · cases hparse

theorem cidrCovers_v6_iff {ip : String} {addr : IP} (hip : parseIP ip = some addr)
    (hv4 : ¬ IPv4Text ip) (other : IP) :
    CIDRCovers (ip ++ "/32") other ↔ Agree 32 addr other ∧ to4 other = none := by
  obtain ⟨hparse, hslash⟩ := parseIP_cases hip hv4
  have hno : ∀ c ∈ ip.toList, decide (c ≠ '/') = true :=
    fun c hc => decide_eq_true (hslash c hc)
  have hsplit : splitCIDR (ip ++ "/32") = some (.v6 addr [], 32) := by
    have hmask : parseMask ['3', '2'] = some 32 := by decide
    simp only [splitCIDR, String.toList_append]
    rw [List.dropWhile_append_of_pos hno, List.takeWhile_append_of_pos hno]
    change checkCIDR (parseAddr (ip.toList ++ [])) (parseMask ['3', '2']) = _
    rw [List.append_nil, hparse, hmask]
    rfl
  simp only [CIDRCovers, hsplit, Option.some.injEq, Prod.mk.injEq]
  constructor
  · rintro ⟨_, _, ⟨rfl, rfl⟩, hagree, hmapped⟩
    refine ⟨hagree, ?_⟩
    by_contra hne
    exact absurd (hmapped hne) (by simp [fixedBits])
  · rintro ⟨hagree, hnone⟩
    exact ⟨_, _, ⟨rfl, rfl⟩, hagree, fun hne => absurd hnone hne⟩

/-! Some other address of the block that can be written down. -/

def hexText (x : ℕ) : List Char :=
  [Nat.digitChar (x / 4096), Nat.digitChar (x / 256 % 16), Nat.digitChar (x / 16 % 16),
    Nat.digitChar (x % 16)]

theorem hexVal_digitChar (d : ℕ) (hd : d < 16) : hexVal (Nat.digitChar d) = some d := by
  interval_cases d <;> decide

theorem scanHex_hexText (x : ℕ) (hx : x < 65536) (rest : List Char) :
    scanHex 0 0 (hexText x ++ ':' :: rest) = some (x, 4, ':' :: rest) := by
  have hcolon : hexVal ':' = none := by decide
  have h3 := hexVal_digitChar (x / 4096) (by omega)
  have h2 := hexVal_digitChar (x / 256 % 16) (by omega)
  have h1 := hexVal_digitChar (x / 16 % 16) (by omega)
  have h0 := hexVal_digitChar (x % 16) (by omega)
  simp only [hexText, List.cons_append, List.nil_append, scanHex, h3, h2, h1, h0, hcolon]
  have e1 : ¬ 0 * 16 + x / 4096 > 65535 := by omega
  have e2 : ¬ (0 * 16 + x / 4096) * 16 + x / 256 % 16 > 65535 := by omega
  have e3 : ¬ ((0 * 16 + x / 4096) * 16 + x / 256 % 16) * 16 + x / 16 % 16 > 65535 := by omega
  have e4 : ¬ (((0 * 16 + x / 4096) * 16 + x / 256 % 16) * 16 + x / 16 % 16) * 16 + x % 16 >
      65535 := by omega
  simp only [e1, e2, e3, e4, if_false]
  norm_num
  omega

/-- The first two groups of an address, and zeros up to the last group. -/
def blockText (x y : ℕ) (last : List Char) : List Char :=
  hexText x ++ ':' :: hexText y ++ ':' :: ':' :: last

theorem parseIPv6Groups_blockText (x y : ℕ) (hx : x < 65536) (hy : y < 65536) :
    parseIPv6Groups (blockText x y []) =
      some ([x / 256, x % 256, y / 256, y % 256] ++ List.replicate 12 0) ∧
    parseIPv6Groups (blockText x y ['1']) =
      some ([x / 256, x % 256, y / 256, y % 256] ++ List.replicate 11 0 ++ [1]) := by
  have hone : scanHex 0 0 ['1'] = some (1, 1, []) := by decide
  have hne : Nat.digitChar (x / 4096) ≠ ':' := by
    intro h
    have hval := hexVal_digitChar (x / 4096) (by omega)
    rw [h] at hval
    exact absurd hval (by simp [hexVal])
  have hgroups {last : List Char} {ip : List ℕ} {ellipsis : Option ℕ}
      (hloop : parseIPv6Loop 8 [] none (blockText x y last) = some (ip, ellipsis, [])) :
      parseIPv6Groups (blockText x y last) = expandEllipsis ip ellipsis := by
    unfold parseIPv6Groups
    split
    · rename_i heq
      exact absurd (List.cons.inj heq).1 hne
    · rename_i heq
      exact absurd (List.cons.inj heq).1 hne
    · rw [hloop]
  have hfirst (last : List Char) : parseIPv6Loop 8 [] none (blockText x y last) =
      parseIPv6Loop 7 [x / 256, x % 256] none (hexText y ++ ':' :: ':' :: last) := by
    rw [blockText, List.append_assoc, List.cons_append, parseIPv6Loop, scanHex_hexText x hx]
    simp [hexText]
  have hsecond (last : List Char) :
      parseIPv6Loop 7 [x / 256, x % 256] none (hexText y ++ ':' :: ':' :: last) =
        if last = [] then some ([x / 256, x % 256, y / 256, y % 256], some 4, [])
        else parseIPv6Loop 6 [x / 256, x % 256, y / 256, y % 256] (some 4) last := by
    rw [parseIPv6Loop, scanHex_hexText y hy]
    simp
  constructor
  · have hloop : parseIPv6Loop 8 [] none (blockText x y []) =
        some ([x / 256, x % 256, y / 256, y % 256], some 4, []) := by
      rw [hfirst, hsecond, if_pos rfl]
    rw [hgroups hloop]
    simp [expandEllipsis]
  · have hloop : parseIPv6Loop 8 [] none (blockText x y ['1']) =
        some ([x / 256, x % 256, y / 256, y % 256, 0, 1], some 4, []) := by
      rw [hfirst, hsecond, if_neg (List.cons_ne_nil _ _)]
      simp [parseIPv6Loop, hone]
    rw [hgroups hloop]
    simp [expandEllipsis]

theorem parseIP_blockText {x y : ℕ} {last : List Char} {bytes : List ℕ}
    (hlast : last = [] ∨ last = ['1'])
    (hbytes : parseIPv6Groups (blockText x y last) = some bytes) (hx : x < 65536)
    (hy : y < 65536) :
    parseIP (String.ofList (blockText x y last)) = some (ofBytes 128 bytes) := by
  have hdigit (d : ℕ) (hd : d < 16) :
      Nat.digitChar d ≠ '.' ∧ Nat.digitChar d ≠ ':' ∧ Nat.digitChar d ≠ '%' := by
    interval_cases d <;> decide
  have hhex (z : ℕ) (hz : z < 65536) : ∀ c ∈ hexText z, c ≠ '.' ∧ c ≠ ':' ∧ c ≠ '%' := by
    simp only [hexText, List.forall_mem_cons]
    exact ⟨hdigit _ (by omega), hdigit _ (by omega), hdigit _ (by omega), hdigit _ (by omega),
      by simp⟩
  have hlast' : ∀ c ∈ last, c ≠ '%' := by
    rcases hlast with rfl | rfl <;> simp
  have hzone : ∀ c ∈ blockText x y last, c ≠ '%' := by
    intro c hc
    simp only [blockText, List.mem_append, List.mem_cons] at hc
    rcases hc with (hc | rfl | hc) | rfl | rfl | hc
    · exact (hhex x hx c hc).2.2
    · decide
    · exact (hhex y hy c hc).2.2
    · decide
    · decide
    · exact hlast' c hc
  have hform : (blockText x y last).find? (fun c => c = '.' ∨ c = ':' ∨ c = '%') =
      some ':' := by
    have hnone : (hexText x).find? (fun c => c = '.' ∨ c = ':' ∨ c = '%') = none := by
      rw [List.find?_eq_none]
      intro c hc
      simp [hhex x hx c hc]
    rw [blockText, List.append_assoc, List.find?_append, hnone]
    rfl
  have hall : (blockText x y last).takeWhile (· ≠ '%') = blockText x y last :=
    List.takeWhile_eq_self_iff.mpr fun c hc => decide_eq_true (hzone c hc)
  have hrest : (blockText x y last).dropWhile (· ≠ '%') = [] :=
    List.dropWhile_eq_nil_iff.mpr fun c hc => decide_eq_true (hzone c hc)
  have haddr : parseAddr (blockText x y last) = some (.v6 (ofBytes 128 bytes) []) := by
    unfold parseAddr
    rw [hform]
    change parseIPv6 (blockText x y last) = _
    unfold parseIPv6
    rw [hrest, hall]
    dsimp only
    rw [hbytes]
    rfl
  simp only [parseIP, String.toList_ofList, haddr]

theorem toNat_ofBytes_block (x y c : ℕ) (hx : x < 65536) (hy : y < 65536) (hc : c < 256) :
    (ofBytes 128 ([x / 256, x % 256, y / 256, y % 256] ++ List.replicate 11 0 ++ [c])).toNat =
      (x * 65536 + y) * 2 ^ 96 + c := by
  simp only [ofBytes, List.replicate, List.cons_append, List.nil_append,
    List.foldl_cons, List.foldl_nil, BitVec.toNat_ofNat]
  omega

/-- An address of the block that is not IPv4, is not the given one and can be written. -/
theorem exists_other (addr : IP) : ∃ ip other, parseIP ip = some other ∧
    Agree 32 addr other ∧ to4 other = none ∧ other ≠ addr := by
  obtain ⟨x, y, hx, hy, hxy⟩ : ∃ x y, x < 65536 ∧ y < 65536 ∧
      x * 65536 + y = addr.toNat / 2 ^ 96 := by
    have hlt := addr.isLt
    exact ⟨addr.toNat / 2 ^ 112, addr.toNat / 2 ^ 96 % 65536, by omega, by omega, by omega⟩
  have hzero : ([x / 256, x % 256, y / 256, y % 256] ++ List.replicate 12 0 : List ℕ) =
      [x / 256, x % 256, y / 256, y % 256] ++ List.replicate 11 0 ++ [0] := rfl
  obtain ⟨htext0, htext1⟩ := parseIPv6Groups_blockText x y hx hy
  rw [hzero] at htext0
  have hin (c : ℕ) (hc : c < 256) (other : IP)
      (hother : other.toNat = (x * 65536 + y) * 2 ^ 96 + c) :
      Agree 32 addr other ∧ to4 other = none := by
    constructor
    · intro i hi
      have hquot : addr.toNat / 2 ^ 96 = other.toNat / 2 ^ 96 := by omega
      have hbit (z : IP) : z.getMsbD i = (z.toNat / 2 ^ 96).testBit (31 - i) := by
        rw [Nat.testBit_div_two_pow, BitVec.getMsbD, BitVec.getLsbD,
          decide_eq_true (show i < 128 by omega), Bool.true_and]
        congr 1
        omega
      rw [hbit, hbit, hquot]
    · unfold to4
      rw [if_neg]
      intro heq
      have hval := congrArg BitVec.toNat heq
      simp only [BitVec.extractLsb'_toNat, v4InV6, Nat.shiftRight_eq_div_pow] at hval
      simp at hval
      omega
  have hval0 := toNat_ofBytes_block x y 0 hx hy (by omega)
  have hval1 := toNat_ofBytes_block x y 1 hx hy (by omega)
  obtain ⟨hagree0, hnone0⟩ := hin 0 (by omega) _ hval0
  obtain ⟨hagree1, hnone1⟩ := hin 1 (by omega) _ hval1
  by_cases hsame : addr.toNat = (x * 65536 + y) * 2 ^ 96
  · refine ⟨_, _, parseIP_blockText (Or.inr rfl) htext1 hx hy, hagree1, hnone1, ?_⟩
    intro heq
    rw [heq] at hval1
    omega
  · refine ⟨_, _, parseIP_blockText (Or.inl rfl) htext0 hx hy, hagree0, hnone0, ?_⟩
    intro heq
    rw [heq] at hval0
    omega

/-- The prefix length of the generators is right for one family only. -/
theorem pins_host_iff {ip : String} {addr : IP} (hip : parseIP ip = some addr) :
    Pins (ip ++ "/32") addr ↔ IPv4Text ip := by
  constructor
  · intro hpins
    by_contra hv4
    obtain ⟨text, other, htext, hagree, hnone, hne⟩ := exists_other addr
    rw [pins_iff] at hpins
    exact hne ((hpins text other htext).mp
      ((cidrCovers_v6_iff hip hv4 other).mpr ⟨hagree, hnone⟩))
  · exact pins_of_ipv4 hip

/-! The addresses that a generator leaves unresolved, and what it writes for them. -/

/-- In each direction every unresolved address has one CIDR, and it pins the address. -/
def PinsUnresolved (unresolved : Direction → String → Prop)
    (writes : Direction → String → String → Prop) : Prop :=
  ∀ d ip addr, unresolved d ip → parseIP ip = some addr →
    ∃ cidr, (∀ c, writes d ip c ↔ c = cidr) ∧ Pins cidr addr

/-- All of the unresolved addresses are IPv4. -/
def OnlyIPv4 (unresolved : Direction → String → Prop) : Prop :=
  ∀ d ip addr, unresolved d ip → parseIP ip = some addr → IPv4Text ip

theorem pinsUnresolved_iff {unresolved : Direction → String → Prop}
    {writes : Direction → String → String → Prop}
    (hwrites : ∀ d ip, unresolved d ip → ∀ c, writes d ip c ↔ c = ip ++ "/32") :
    PinsUnresolved unresolved writes ↔ OnlyIPv4 unresolved := by
  constructor
  · intro h d ip addr hun hip
    obtain ⟨cidr, hcidr, hpins⟩ := h d ip addr hun hip
    have heq : cidr = ip ++ "/32" := (hwrites d ip hun cidr).mp ((hcidr cidr).mpr rfl)
    rw [heq] at hpins
    exact (pins_host_iff hip).mp hpins
  · intro h d ip addr hun hip
    exact ⟨_, hwrites d ip hun, (pins_host_iff hip).mpr (h d ip addr hun hip)⟩

/-- The rule for the address has this CIDR. -/
def standardWrites (peerOf : String → NetworkPolicyPeer) (spec : NetworkPolicySpec)
    (d : Direction) (ip cidr : String) : Prop :=
  ∃ rule ∈ rulesFor spec d, rule.peers = [peerOf ip] ∧ peerOf ip = ⟨none, none, some ⟨cidr, []⟩⟩

/-- The same of a Cilium policy. -/
def ciliumWrites (peerOf : String → List CiliumPolicy.CiliumEndpointSelector × List String)
    (spec : CiliumPolicy.CiliumRule) (d : Direction) (ip cidr : String) : Prop :=
  ∃ rule ∈ CiliumPolicy.rulesFor spec d,
    (rule.endpoints, rule.cidr) = peerOf ip ∧ peerOf ip = ([], [cidr])

theorem standardWrites_iff {β : Type} {peerOf : String → NetworkPolicyPeer}
    {spec : NetworkPolicySpec} {d : Direction} {groups : List (String × List β)}
    (ports : List β → List NetworkPolicyPort) {ip : String}
    (hspec : rulesFor spec d = groups.map fun g => ⟨[peerOf g.1], ports g.2⟩)
    (hgroup : ∃ g ∈ groups, g.1 = ip)
    (hpeer : peerOf ip = ⟨none, none, some ⟨ip ++ "/32", []⟩⟩) (c : String) :
    standardWrites peerOf spec d ip c ↔ c = ip ++ "/32" := by
  obtain ⟨g, hg, rfl⟩ := hgroup
  constructor
  · rintro ⟨rule, -, -, hc⟩
    rw [hpeer] at hc
    simpa using hc.symm
  · rintro rfl
    refine ⟨⟨[peerOf g.1], ports g.2⟩, ?_, rfl, hpeer⟩
    rw [hspec]
    exact List.mem_map.mpr ⟨g, hg, rfl⟩

theorem ciliumWrites_iff {β : Type}
    {peerOf : String → List CiliumPolicy.CiliumEndpointSelector × List String}
    {spec : CiliumPolicy.CiliumRule} {d : Direction} {groups : List (String × List β)}
    (ports : List β → List CiliumPolicy.CiliumPortRule) {ip : String}
    (hspec : CiliumPolicy.rulesFor spec d =
      groups.map fun g => ⟨(peerOf g.1).1, (peerOf g.1).2, ports g.2⟩)
    (hgroup : ∃ g ∈ groups, g.1 = ip) (hpeer : peerOf ip = ([], [ip ++ "/32"])) (c : String) :
    ciliumWrites peerOf spec d ip c ↔ c = ip ++ "/32" := by
  obtain ⟨g, hg, rfl⟩ := hgroup
  constructor
  · rintro ⟨rule, -, -, hc⟩
    rw [hpeer] at hc
    simpa using hc.symm
  · rintro rfl
    refine ⟨⟨(peerOf g.1).1, (peerOf g.1).2, ports g.2⟩, ?_, rfl, hpeer⟩
    rw [hspec]
    exact List.mem_map.mpr ⟨g, hg, rfl⟩

/-- The peer of a row that makes it into a rule, when the broker knows neither a service
with a selector nor a pod with labels for it. -/
def advisorUnresolved (broker : StandardPolicy.BrokerData)
    (podTraffic : List StandardPolicy.PodTraffic) (podDetail : StandardPolicy.PodDetail)
    (d : Direction) (ip : String) : Prop :=
  (∃ row ∈ podTraffic, ∃ v, StandardPolicy.Survives podDetail row d v ∧ ip = row.dstIP) ∧
    StandardPolicy.resolvePeer broker ip = .address ip

/-- The peer of a row that makes it into a rule, when it has no identity with a selector. -/
def bridgeUnresolved (js : JsText.Runtime) (pod : BridgeNetworkPolicy.PodInfo)
    (traffic : List BridgeNetworkPolicy.TrafficRow)
    (resolve : BridgeNetworkPolicy.PeerResolver) (d : Direction) (ip : String) : Prop :=
  (∃ port, (ip, port) ∈ BridgeNetworkPolicy.entries js pod d traffic) ∧
    BridgeNetworkPolicy.selected (resolve ip) = none

section Advisor

open StandardPolicy PeerGroups

variable (broker : BrokerData) (podName : String) (podTraffic : List PodTraffic)
  (podDetail : PodDetail)

theorem exists_group_of_advisorUnresolved {d : Direction} {ip : String}
    (h : advisorUnresolved broker podTraffic podDetail d ip) :
    ∃ g ∈ trafficGroups podTraffic podDetail d, g.1 = ip := by
  obtain ⟨⟨row, hrow, v, hsurvives, rfl⟩, -⟩ := h
  obtain ⟨g, hg, hkey, -⟩ := (inGroup_trafficGroups podTraffic podDetail d row.dstIP _).mpr
    ⟨row, hrow, v, hsurvives, rfl, rfl⟩
  exact ⟨g, hg, hkey⟩

theorem generate_pins_iff :
    ∃ policy, generate broker podName podTraffic (some podDetail) = .ok policy ∧
      (PinsUnresolved (advisorUnresolved broker podTraffic podDetail)
        (standardWrites (createNetworkPolicyPeer broker) policy.spec) ↔
      OnlyIPv4 (advisorUnresolved broker podTraffic podDetail)) := by
  obtain ⟨policy, hgen, -, hspec⟩ := PeerGroups.generate_eq broker podName podTraffic podDetail
  refine ⟨policy, hgen, pinsUnresolved_iff fun d ip hun => ?_⟩
  refine standardWrites_iff id ?_
    (exists_group_of_advisorUnresolved broker podTraffic podDetail hun) ?_
  · rw [hspec]
    exact rulesFor_standardSpec _ _ _ d fun _ => rfl
  · simp only [createNetworkPolicyPeer, hun.2]

theorem generate_cilium_pins_iff :
    ∃ policy, CiliumPolicy.generate broker podName podTraffic (some podDetail) = .ok policy ∧
      (PinsUnresolved (advisorUnresolved broker podTraffic podDetail)
        (ciliumWrites (CiliumPolicy.resolvePeerForCilium broker) policy.spec) ↔
      OnlyIPv4 (advisorUnresolved broker podTraffic podDetail)) := by
  obtain ⟨policy, hgen, -, hspec⟩ := CiliumPolicy.generate_eq broker podName podTraffic podDetail
  refine ⟨policy, hgen, pinsUnresolved_iff fun d ip hun => ?_⟩
  refine ciliumWrites_iff (fun ports => ports.map fun p => ⟨[CiliumPolicy.ciliumPort p]⟩) ?_
    (exists_group_of_advisorUnresolved broker podTraffic podDetail hun) ?_
  · rw [hspec]
    exact CiliumPolicy.rulesFor_ciliumSpec _ _ _ _ d fun _ => rfl
  · simp only [CiliumPolicy.resolvePeerForCilium, hun.2]

end Advisor

section Bridge

open JsText BridgeNetworkPolicy

variable (js : Runtime) (pod : PodInfo) (traffic : List TrafficRow) (resolve : PeerResolver)

theorem exists_group_of_bridgeUnresolved {d : Direction} {ip : String}
    (h : bridgeUnresolved js pod traffic resolve d ip) :
    ∃ g ∈ trafficGroups js traffic pod d, g.1 = ip := by
  obtain ⟨⟨port, hport⟩, -⟩ := h
  obtain ⟨g, hg, hkey, -⟩ := (inGroup_trafficGroups js traffic pod d ip port).mpr hport
  exact ⟨g, hg, hkey⟩

theorem generateNetworkPolicy_pins_iff :
    PinsUnresolved (bridgeUnresolved js pod traffic resolve)
      (standardWrites (standardPeer · resolve)
        (generateNetworkPolicy js pod traffic resolve).spec) ↔
    OnlyIPv4 (bridgeUnresolved js pod traffic resolve) := by
  refine pinsUnresolved_iff fun d ip hun => ?_
  refine standardWrites_iff (fun ports => ports.map standardPort) ?_
    (exists_group_of_bridgeUnresolved js pod traffic resolve hun) ?_
  · rw [(generateNetworkPolicy_eq js pod traffic resolve).2]
    exact PeerGroups.rulesFor_standardSpec _ _ _ d fun _ => rfl
  · simp only [standardPeer, hun.2]

theorem generateCiliumPolicy_pins_iff :
    PinsUnresolved (bridgeUnresolved js pod traffic resolve)
      (ciliumWrites (ciliumPeer · resolve)
        (generateCiliumPolicy js pod traffic resolve).spec) ↔
    OnlyIPv4 (bridgeUnresolved js pod traffic resolve) := by
  refine pinsUnresolved_iff fun d ip hun => ?_
  refine ciliumWrites_iff (fun ports => [⟨ports.map ciliumPort⟩]) ?_
    (exists_group_of_bridgeUnresolved js pod traffic resolve hun) ?_
  · rw [(generateCiliumPolicy_eq js pod traffic resolve).2]
    exact CiliumPolicy.rulesFor_ciliumSpec _ _ _ _ d fun _ => rfl
  · simp only [ciliumPeer, hun.2]

end Bridge

/-- Each of the generators pins all unresolved peers of its rows exactly when these are IPv4
addresses. -/
theorem generators_pin_iff (broker : StandardPolicy.BrokerData) (podName : String)
    (podTraffic : List StandardPolicy.PodTraffic) (podDetail : StandardPolicy.PodDetail)
    (js : JsText.Runtime) (pod : BridgeNetworkPolicy.PodInfo)
    (traffic : List BridgeNetworkPolicy.TrafficRow)
    (resolve : BridgeNetworkPolicy.PeerResolver) :
    ((∃ policy, StandardPolicy.generate broker podName podTraffic (some podDetail) =
          .ok policy ∧
        (PinsUnresolved (advisorUnresolved broker podTraffic podDetail)
          (standardWrites (StandardPolicy.createNetworkPolicyPeer broker) policy.spec) ↔
        OnlyIPv4 (advisorUnresolved broker podTraffic podDetail))) ∧
      ∃ policy, CiliumPolicy.generate broker podName podTraffic (some podDetail) =
          .ok policy ∧
        (PinsUnresolved (advisorUnresolved broker podTraffic podDetail)
          (ciliumWrites (CiliumPolicy.resolvePeerForCilium broker) policy.spec) ↔
        OnlyIPv4 (advisorUnresolved broker podTraffic podDetail))) ∧
      (PinsUnresolved (bridgeUnresolved js pod traffic resolve)
        (standardWrites (BridgeNetworkPolicy.standardPeer · resolve)
          (BridgeNetworkPolicy.generateNetworkPolicy js pod traffic resolve).spec) ↔
      OnlyIPv4 (bridgeUnresolved js pod traffic resolve)) ∧
      (PinsUnresolved (bridgeUnresolved js pod traffic resolve)
        (ciliumWrites (BridgeNetworkPolicy.ciliumPeer · resolve)
          (BridgeNetworkPolicy.generateCiliumPolicy js pod traffic resolve).spec) ↔
      OnlyIPv4 (bridgeUnresolved js pod traffic resolve)) :=
  ⟨⟨generate_pins_iff broker podName podTraffic podDetail,
      generate_cilium_pins_iff broker podName podTraffic podDetail⟩,
    generateNetworkPolicy_pins_iff js pod traffic resolve,
    generateCiliumPolicy_pins_iff js pod traffic resolve⟩

/-! A connection of the web pod to an IPv6 address that the broker does not know. -/

def emptyBroker : StandardPolicy.BrokerData := ⟨fun _ => .ok none, fun _ => .ok none⟩

def ipv6Row : StandardPolicy.PodTraffic := ⟨"0", "EGRESS", "2001:db8::1", "443", "TCP"⟩

def ipv6Pod : StandardPolicy.PodDetail :=
  ⟨"10.0.0.7", "web-0", "shop", Labels.ofList [("app", "web")]⟩

/-- The one egress rule is a block that holds other addresses too. -/
theorem ipv6Row_not_pinned :
    ∃ policy, StandardPolicy.generate emptyBroker "web-0" [ipv6Row] (some ipv6Pod) =
        .ok policy ∧
      (policy.spec.egress.map fun rule => rule.peers) =
        [[⟨none, none, some ⟨"2001:db8::1/32", []⟩⟩]] ∧
      ipBlockMatches "2001:db8:ffff::9" ⟨"2001:db8::1/32", []⟩ = true ∧
      ¬ PinsUnresolved (advisorUnresolved emptyBroker [ipv6Row] ipv6Pod)
        (standardWrites (StandardPolicy.createNetworkPolicyPeer emptyBroker) policy.spec) := by
  refine ⟨_, rfl, rfl, by decide, fun h => ?_⟩
  have hun : advisorUnresolved emptyBroker [ipv6Row] ipv6Pod .egress "2001:db8::1" :=
    ⟨⟨ipv6Row, by simp, 443, ⟨by decide, by decide, by decide, by decide⟩, rfl⟩, rfl⟩
  have haddr : parseIP "2001:db8::1" = some 0x20010db8000000000000000000000001#128 := by decide
  obtain ⟨cidr, hcidr, hpins⟩ := h .egress _ _ hun haddr
  have hwritten : cidr = "2001:db8::1/32" :=
    ((hcidr "2001:db8::1/32").mp ⟨_, List.mem_singleton.mpr rfl, rfl, rfl⟩).symm
  rw [hwritten] at hpins
  have hother : parseIP "2001:db8:ffff::9" = some 0x20010db8ffff00000000000000000009#128 := by
    decide
  exact absurd ((hpins _ _ hother).mp (by decide)) (by decide)

end KGuardian.PinnedPeers
