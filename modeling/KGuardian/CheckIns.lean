import KGuardian.JsText
import KGuardian.Patterns

/-!
Check-ins between the broker (`broker/src/version_check.rs`) and the version service
(`cloudflare/version-service/src/index.js`). The sender's fields are semantic versions as
the specification has them; the receiver tests them with patterns of its own. The query
string between the two is taken at its parameters, which both libraries code alike.
-/
namespace KGuardian.CheckIns

open JsText Patterns RegularExpression TextScan

/-! The receiver. -/

/-- The parameters of the URL, in order. -/
abbrev Query := List (String × String)

def get (name : String) (q : Query) : Option String :=
  (q.find? fun p => p.1 = name).map Prod.snd

def digitChars : List Char := "0123456789".toList

def letterChars : List Char := "ABCDEFGHIJKLMNOPQRSTUVWXYZabcdefghijklmnopqrstuvwxyz".toList

def suffixChars : List Char := digitChars ++ letterChars ++ ['.', '-']

def hexChars : List Char := "0123456789abcdefABCDEF".toList

def digits : RegularExpression Char := atLeastOne (oneOf digitChars)

def versionSuffix : RegularExpression Char :=
  optional (oneOf ['+', '-'] * between 1 48 (oneOf suffixChars))

/-- The pattern `INSTALL_UUID`. -/
def installUuid : RegularExpression Char :=
  oneOf hexChars ^ 8 * (char '-' * (oneOf hexChars ^ 4 * (char '-' * (oneOf hexChars ^ 4 *
    (char '-' * (oneOf hexChars ^ 4 * (char '-' * oneOf hexChars ^ 12)))))))

/-- The pattern `SEMVER`. -/
def semver : RegularExpression Char :=
  digits * (char '.' * (digits * (char '.' * (digits * versionSuffix))))

/-- The pattern `K8S_VERSION`. -/
def k8sVersion : RegularExpression Char := char 'v' * semver

/-- The pattern `ARCH`. -/
def archName : RegularExpression Char :=
  between 1 16 (oneOf (digitChars ++ letterChars ++ ['_']))

/-- An anchored pattern on the whole text. -/
def test (P : RegularExpression Char) (s : String) : Bool := P.rmatch s.toList

def maxNodes : ℕ := 10000

/-- The least positive double is two parts of this many. -/
def doubleParts : ℕ := 2 ^ 1075

/-- The double nearest to the numeral is zero, with either sign: it is no more than half
of the least positive one. -/
def roundsToZero (v : Numeral) : Bool :=
  v.mantissa * 10 ^ v.exponent.toNat * doubleParts ≤ 10 ^ (-v.exponent).toNat

/-- The integer that the numeral rounds to, among those from zero on and below `2 ^ 17`. -/
def integerOf (v : Numeral) : Option ℕ := if roundsToZero v then some 0 else v.toInteger

/-- The conversion `Number(value)`, where it gives such an integer. A parameter that is not
there is `null`, which counts as zero. -/
def numberOf : Option String → Option ℕ
  | none => some 0
  | some s => (stringToNumber s).bind integerOf

structure Checkin where
  install : String
  broker : String
  chart : String
  k8s : String
  arch : String
  nodes : ℕ
  deriving DecidableEq

/-- The tests on the five parameters that are text. -/
def textsValid (install broker chart k8s arch : String) : Bool :=
  test installUuid install && test semver broker && (chart = "unknown" || test semver chart) &&
    (k8s = "unknown" || test k8sVersion k8s) && test archName arch

def parseCheckin (q : Query) : Option Checkin :=
  let install := (get "install" q).getD ""
  let broker := (get "broker" q).getD ""
  let chart := (get "chart" q).getD ""
  let k8s := (get "k8s" q).getD ""
  let arch := (get "arch" q).getD ""
  if textsValid install broker chart k8s arch then
    match numberOf (get "nodes" q) with
    | none => none
    | some nodes =>
        if nodes > maxNodes then none else some ⟨install, broker, chart, k8s, arch, nodes⟩
  else none

/-! The sender. -/

structure BrokerEnv where
  cargoPkgVersion : String
  chartVersion : Option String
  kubeVersion : Option String
  arch : String

def stripBuildMetadata (version : List Char) : List Char := version.takeWhile fun c => c ≠ '+'

def chartVersion (env : BrokerEnv) : String :=
  ((env.chartVersion.map fun v => String.ofList (stripBuildMetadata (trim v.toList))).filter
    fun v => v ≠ "").getD "unknown"

def kubeVersion (env : BrokerEnv) : String :=
  ((env.kubeVersion.map fun v => String.ofList (trim v.toList)).filter
    fun v => v ≠ "").getD "unknown"

def checkParams (env : BrokerEnv) (install : String) (nodes : ℤ) : Query :=
  [("install", install), ("broker", env.cargoPkgVersion), ("chart", chartVersion env),
    ("k8s", kubeVersion env), ("nodes", toString nodes), ("arch", env.arch)]

/-- The values that `std::env::consts::ARCH` is documented with. -/
def archValues : List String :=
  ["x86", "x86_64", "arm", "aarch64", "m68k", "mips", "mips32r6", "mips64", "mips64r6", "csky",
    "powerpc", "powerpc64", "riscv32", "riscv64", "s390x", "sparc", "sparc64", "hexagon",
    "loongarch32", "loongarch64"]

/-! What the two are about: install ids and semantic versions. -/

/-- An install id, by its hexadecimal digits. -/
abbrev Uuid := Fin 32 → Fin 16

def Uuid.hex (u : Uuid) : List Char := (List.ofFn u).map fun d : Fin 16 => Nat.digitChar d.val

def Uuid.text (u : Uuid) : List Char :=
  u.hex.take 8 ++ '-' :: ((u.hex.drop 8).take 4 ++ '-' :: ((u.hex.drop 12).take 4 ++
    '-' :: ((u.hex.drop 16).take 4 ++ '-' :: u.hex.drop 20)))

structure Identifier where
  text : List Char
  nonempty : text ≠ []
  allowed : text.all (fun c => (digitChars ++ letterChars ++ ['-']).contains c) = true

/-- A semantic version. A numeric identifier of a pre-release has no leading zero. -/
structure Semver where
  major : ℕ
  minor : ℕ
  patch : ℕ
  pre : List Identifier
  build : List Identifier
  numeric : ∀ i ∈ pre, i.text.all (fun c => digitChars.contains c) = true →
    i.text = ['0'] ∨ i.text.head? ≠ some '0'

def dotted (identifiers : List Identifier) : List Char :=
  ['.'].intercalate (identifiers.map Identifier.text)

def marked (mark : Char) (identifiers : List Identifier) : List Char :=
  if identifiers.isEmpty then [] else mark :: dotted identifiers

def Semver.text (v : Semver) : List Char :=
  Nat.toDigits 10 v.major ++ '.' :: (Nat.toDigits 10 v.minor ++ '.' ::
    (Nat.toDigits 10 v.patch ++ (marked '-' v.pre ++ marked '+' v.build)))

/-- What a broker can send: its own version, the chart's and the cluster's, which may be
unknown, and the nodes that it counts. -/
structure Sender where
  env : BrokerEnv
  install : Uuid
  broker : Semver
  chart : Option Semver
  k8s : Option Semver
  nodes : ℕ
  broker_eq : env.cargoPkgVersion.toList = broker.text
  chart_eq : (chartVersion env).toList = (chart.map Semver.text).getD "unknown".toList
  k8s_eq : (kubeVersion env).toList =
    (k8s.map fun v => 'v' :: v.text).getD "unknown".toList
  arch_mem : env.arch ∈ archValues
  nodes_le : nodes ≤ 10000

def Sender.query (s : Sender) : Query := checkParams s.env (String.ofList s.install.text) s.nodes

def Sender.checkin (s : Sender) : Checkin :=
  ⟨String.ofList s.install.text, s.env.cargoPkgVersion, chartVersion s.env, kubeVersion s.env,
    s.env.arch, s.nodes⟩

/-- A recorded check-in is what the query says, with all six parameters there and not
empty and the nodes in plain decimal. -/
def WellFormed (q : Query) (c : Checkin) : Prop :=
  (get "install" q = some c.install ∧ c.install ≠ "") ∧
  (get "broker" q = some c.broker ∧ c.broker ≠ "") ∧
  (get "chart" q = some c.chart ∧ c.chart ≠ "") ∧
  (get "k8s" q = some c.k8s ∧ c.k8s ≠ "") ∧
  (get "arch" q = some c.arch ∧ c.arch ≠ "") ∧
  ∃ raw, get "nodes" q = some raw ∧ parseDigits raw.toList = some c.nodes ∧ c.nodes ≤ 10000

/-- The nodes are in plain decimal, or no integer in range is made of them. -/
def PlainNodes (q : Query) : Prop :=
  ∀ n ∈ numberOf (get "nodes" q), n ≤ 10000 →
    ∃ raw, get "nodes" q = some raw ∧ parseDigits raw.toList = some n

/-- The texts of a query that pass the tests of the receiver. -/
def textsPass (q : Query) : Bool :=
  textsValid ((get "install" q).getD "") ((get "broker" q).getD "") ((get "chart" q).getD "")
    ((get "k8s" q).getD "") ((get "arch" q).getD "")

/-- The version has one suffix at most, of up to 48 characters. -/
def Fits (v : Semver) : Prop :=
  (v.pre = [] ∨ v.build = []) ∧ (dotted v.pre).length ≤ 48 ∧ (dotted v.build).length ≤ 48

/-! Queries. -/

theorem getD_ne_empty {P : RegularExpression Char} (hempty : P.rmatch [] = false)
    {value : Option String} (h : test P (value.getD "") = true) :
    value = some (value.getD "") ∧ value.getD "" ≠ "" := by
  have hne : value.getD "" ≠ "" := by
    intro hcase
    rw [hcase, test, String.toList_empty, hempty] at h
    exact Bool.false_ne_true h
  cases value with
  | none => exact absurd rfl hne
  | some s => exact ⟨rfl, hne⟩

theorem getD_ne_empty_or_unknown {P : RegularExpression Char} (hempty : P.rmatch [] = false)
    {value : Option String} (h : value.getD "" = "unknown" ∨ test P (value.getD "") = true) :
    value = some (value.getD "") ∧ value.getD "" ≠ "" := by
  rcases h with hunknown | htest
  · cases value with
    | none => exact absurd hunknown (by decide)
    | some s =>
        have hs : s = "unknown" := hunknown
        exact ⟨rfl, by simp [hs]⟩
  · exact getD_ne_empty hempty htest

theorem parseCheckin_eq_some_iff {q : Query} {c : Checkin} :
    parseCheckin q = some c ↔ textsPass q = true ∧ numberOf (get "nodes" q) = some c.nodes ∧
      c.nodes ≤ 10000 ∧ c = ⟨(get "install" q).getD "", (get "broker" q).getD "",
        (get "chart" q).getD "", (get "k8s" q).getD "", (get "arch" q).getD "", c.nodes⟩ := by
  unfold parseCheckin
  show (if textsPass q then _ else _) = some c ↔ _
  by_cases htexts : textsPass q = true
  · rw [if_pos htexts]
    cases hnodes : numberOf (get "nodes" q) with
    | none => simp
    | some n =>
        simp only [htexts, Option.some.injEq, true_and]
        have hmax : maxNodes = 10000 := rfl
        by_cases hle : n ≤ 10000
        · rw [if_neg (by omega)]
          constructor
          · intro h
            obtain rfl := Option.some.inj h
            exact ⟨rfl, hle, rfl⟩
          · rintro ⟨rfl, -, hc⟩
            exact congrArg some hc.symm
        · rw [if_pos (by omega)]
          constructor
          · intro h
            exact absurd h (by simp)
          · rintro ⟨rfl, hcase, -⟩
            exact absurd hcase hle
  · rw [if_neg htexts]
    constructor
    · intro h
      exact absurd h (by simp)
    · exact fun h => absurd h.1 htexts

/-- The five texts of a recorded check-in are there. -/
theorem texts_present {q : Query} (h : textsPass q = true) :
    ∀ name ∈ ["install", "broker", "chart", "k8s", "arch"],
      get name q = some ((get name q).getD "") ∧ (get name q).getD "" ≠ "" := by
  unfold textsPass textsValid at h
  simp only [Bool.and_eq_true, Bool.or_eq_true, decide_eq_true_eq] at h
  obtain ⟨⟨⟨⟨hinstall, hbroker⟩, hchart⟩, hk8s⟩, harch⟩ := h
  intro name hname
  simp only [List.mem_cons, List.not_mem_nil, or_false] at hname
  rcases hname with rfl | rfl | rfl | rfl | rfl
  · exact getD_ne_empty (by decide) hinstall
  · exact getD_ne_empty (by decide) hbroker
  · exact getD_ne_empty_or_unknown (by decide) hchart
  · exact getD_ne_empty_or_unknown (by decide) hk8s
  · exact getD_ne_empty (by decide) harch

theorem recorded_wellFormed_iff (q : Query) :
    (∀ c, parseCheckin q = some c → WellFormed q c) ↔ (textsPass q = true → PlainNodes q) := by
  constructor
  · intro h htexts n hnodes hle
    have hrecord := h ⟨_, _, _, _, _, n⟩ (parseCheckin_eq_some_iff.mpr ⟨htexts, hnodes, hle, rfl⟩)
    obtain ⟨-, -, -, -, -, raw, hraw, hdigits, -⟩ := hrecord
    exact ⟨raw, hraw, hdigits⟩
  · intro h c hc
    obtain ⟨htexts, hnodes, hle, heq⟩ := parseCheckin_eq_some_iff.mp hc
    obtain ⟨raw, hraw, hdigits⟩ := h htexts c.nodes hnodes hle
    have hpresent := texts_present htexts
    rw [heq]
    exact ⟨hpresent "install" (by simp), hpresent "broker" (by simp), hpresent "chart" (by simp),
      hpresent "k8s" (by simp), hpresent "arch" (by simp), raw, hraw, hdigits, hle⟩

/-! Versions under the patterns. -/

theorem mem_digitChars {c : Char} : c ∈ digitChars ↔ c.isDigit = true := by
  constructor
  · intro h
    have hall : digitChars.all Char.isDigit = true := by decide
    exact List.all_eq_true.mp hall c h
  · intro h
    obtain ⟨hlow, hhigh⟩ := Char.isDigit_iff_toNat.mp h
    have hnumbers : ∀ n < 58, 48 ≤ n → Char.ofNat n ∈ digitChars := by decide
    have hc := hnumbers c.toNat (by simpa [Nat.lt_succ_iff] using hhigh) hlow
    rwa [Char.ofNat_toNat] at hc

theorem toDigits_digitChars (n : ℕ) : ∀ c ∈ Nat.toDigits 10 n, c ∈ digitChars := by
  intro c hc
  exact mem_digitChars.mpr (Nat.isDigit_of_mem_toDigits (by decide) (by decide) hc)

theorem mem_digits {s : List Char} :
    s ∈ digits.matches' ↔ s ≠ [] ∧ ∀ c ∈ s, c ∈ digitChars := mem_atLeastOne_oneOf

theorem mem_versionSuffix {t : List Char} :
    t ∈ versionSuffix.matches' ↔ t = [] ∨ ∃ mark ∈ ['+', '-'], ∃ u, t = mark :: u ∧
      1 ≤ u.length ∧ u.length ≤ 48 ∧ ∀ c ∈ u, c ∈ suffixChars := by
  rw [versionSuffix, mem_optional, mem_mul]
  apply or_congr_right
  constructor
  · rintro ⟨a, ha, u, hu, rfl⟩
    obtain ⟨mark, hmark, rfl⟩ := mem_oneOf.mp ha
    exact ⟨mark, hmark, u, rfl, (mem_between_oneOf (by omega)).mp hu⟩
  · rintro ⟨mark, hmark, u, rfl, hu⟩
    exact ⟨[mark], mem_oneOf.mpr ⟨mark, hmark, rfl⟩, u, (mem_between_oneOf (by omega)).mpr hu, rfl⟩

theorem mem_semver {s : List Char} :
    s ∈ semver.matches' ↔ ∃ a ∈ digits.matches', ∃ b ∈ digits.matches', ∃ c ∈ digits.matches',
      ∃ t ∈ versionSuffix.matches', s = a ++ '.' :: (b ++ '.' :: (c ++ t)) := by
  simp only [semver, mem_mul (P := digits), mem_char_mul]
  constructor
  · rintro ⟨a, ha, -, ⟨-, ⟨b, hb, -, ⟨-, ⟨c, hc, t, ht, rfl⟩, rfl⟩, rfl⟩, rfl⟩, rfl⟩
    exact ⟨a, ha, b, hb, c, hc, t, ht, rfl⟩
  · rintro ⟨a, ha, b, hb, c, hc, t, ht, rfl⟩
    exact ⟨a, ha, _, ⟨_, ⟨b, hb, _, ⟨_, ⟨c, hc, t, ht, rfl⟩, rfl⟩, rfl⟩, rfl⟩, rfl⟩

theorem head?_versionSuffix {t : List Char} (h : t ∈ versionSuffix.matches') :
    ∀ c ∈ t.head?, c ∉ digitChars := by
  rcases mem_versionSuffix.mp h with rfl | ⟨mark, hmark, u, rfl, -⟩
  · simp
  · intro c hc
    obtain rfl := Option.some.inj hc
    revert hmark
    simp only [List.mem_cons, List.not_mem_nil, or_false]
    rintro (rfl | rfl) <;> decide

/-- A text that starts like a version passes when the rest of it does. -/
theorem mem_semver_core (major minor patch : ℕ) {t : List Char}
    (ht : ∀ c ∈ t.head?, c ∉ digitChars) :
    Nat.toDigits 10 major ++ '.' :: (Nat.toDigits 10 minor ++ '.' ::
      (Nat.toDigits 10 patch ++ t)) ∈ semver.matches' ↔ t ∈ versionSuffix.matches' := by
  have hdot : ∀ (rest : List Char), ∀ c ∈ ('.' :: rest).head?, c ∉ digitChars := by
    intro rest c hc
    obtain rfl := Option.some.inj hc
    decide
  rw [mem_semver]
  constructor
  · rintro ⟨a, ha, b, hb, c, hc, u, hu, heq⟩
    obtain ⟨-, heq⟩ := append_inj_of_class (p := (· ∈ digitChars)) (toDigits_digitChars major)
      (mem_digits.mp ha).2 (hdot _) (hdot _) heq
    obtain ⟨-, heq⟩ := append_inj_of_class (p := (· ∈ digitChars)) (toDigits_digitChars minor)
      (mem_digits.mp hb).2 (hdot _) (hdot _) (List.cons.inj heq).2
    obtain ⟨-, rfl⟩ := append_inj_of_class (p := (· ∈ digitChars)) (toDigits_digitChars patch)
      (mem_digits.mp hc).2 ht (head?_versionSuffix hu) (List.cons.inj heq).2
    exact hu
  · intro ht
    have hnumber : ∀ n, Nat.toDigits 10 n ∈ digits.matches' := fun n =>
      mem_digits.mpr ⟨Nat.toDigits_ne_nil, toDigits_digitChars n⟩
    exact ⟨_, hnumber major, _, hnumber minor, _, hnumber patch, t, ht, rfl⟩

theorem dotted_nil : dotted [] = [] := rfl

theorem dotted_cons_cons (i j : Identifier) (rest : List Identifier) :
    dotted (i :: j :: rest) = i.text ++ '.' :: dotted (j :: rest) := by
  simp [dotted, List.intercalate]

theorem dotted_ne_nil {identifiers : List Identifier} (h : identifiers ≠ []) :
    dotted identifiers ≠ [] := by
  match identifiers with
  | [] => exact absurd rfl h
  | [i] => simpa [dotted, List.intercalate] using i.nonempty
  | i :: j :: rest =>
      rw [dotted_cons_cons]
      simp

theorem dotted_suffixChars (identifiers : List Identifier) :
    ∀ c ∈ dotted identifiers, c ∈ suffixChars := by
  have hallowed : ∀ i : Identifier, ∀ c ∈ i.text, c ∈ suffixChars := by
    intro i c hc
    have hc := List.all_eq_true.mp i.allowed c hc
    simp only [List.contains_eq_mem, decide_eq_true_eq, List.mem_append] at hc
    unfold suffixChars
    simp only [List.mem_append, List.mem_cons] at hc ⊢
    tauto
  induction identifiers with
  | nil => simp [dotted_nil]
  | cons i rest ih =>
      cases rest with
      | nil => simpa [dotted, List.intercalate] using hallowed i
      | cons j rest =>
          rw [dotted_cons_cons]
          intro c hc
          rcases List.mem_append.mp hc with hleft | hright
          · exact hallowed i c hleft
          · rcases List.mem_cons.mp hright with rfl | hrest
            · decide
            · exact ih c hrest

theorem mem_versionSuffix_marked {mark : Char} (hmark : mark ∈ ['+', '-'])
    (identifiers : List Identifier) :
    marked mark identifiers ∈ versionSuffix.matches' ↔ (dotted identifiers).length ≤ 48 := by
  rw [mem_versionSuffix]
  unfold marked
  cases hcase : identifiers with
  | nil => simp [dotted_nil]
  | cons i rest =>
      have hne : dotted (i :: rest) ≠ [] := dotted_ne_nil (by simp)
      have hlength := List.length_pos_iff.mpr hne
      simp only [List.isEmpty_cons, Bool.false_eq_true, if_false]
      constructor
      · rintro (hnil | ⟨mark', -, u, heq, -, hle, -⟩)
        · exact absurd hnil (by simp)
        · rwa [(List.cons.inj heq).2]
      · intro hle
        exact .inr ⟨mark, hmark, dotted (i :: rest), rfl, hlength, hle,
          dotted_suffixChars (i :: rest)⟩

/-- With both a pre-release and build metadata there is a plus sign inside the suffix. -/
theorem both_not_versionSuffix {pre build : List Identifier} (hpre : pre ≠ [])
    (hbuild : build ≠ []) : marked '-' pre ++ marked '+' build ∉ versionSuffix.matches' := by
  have hpre' : marked '-' pre = '-' :: dotted pre := by simp [marked, hpre]
  have hbuild' : marked '+' build = '+' :: dotted build := by simp [marked, hbuild]
  rw [hpre', hbuild', mem_versionSuffix]
  rintro (hnil | ⟨mark, -, u, heq, -, -, hall⟩)
  · exact absurd hnil (by simp)
  · have hu : dotted pre ++ '+' :: dotted build = u := (List.cons.inj heq).2
    exact absurd (hall '+' (by simp [← hu])) (by decide)

theorem head?_marked {mark : Char} (hmark : mark ∉ digitChars) (identifiers : List Identifier)
    {rest : List Char} (hrest : ∀ c ∈ rest.head?, c ∉ digitChars) :
    ∀ c ∈ (marked mark identifiers ++ rest).head?, c ∉ digitChars := by
  unfold marked
  cases identifiers with
  | nil => simpa using hrest
  | cons i is =>
      intro c hc
      obtain rfl := Option.some.inj hc
      exact hmark

theorem mem_semver_text (v : Semver) : v.text ∈ semver.matches' ↔ Fits v := by
  have hbuild : ∀ c ∈ (marked '+' v.build ++ []).head?, c ∉ digitChars :=
    head?_marked (by decide) v.build (by simp)
  rw [List.append_nil] at hbuild
  rw [Semver.text, mem_semver_core _ _ _ (head?_marked (by decide) v.pre hbuild)]
  unfold Fits
  by_cases hpre : v.pre = []
  · have hnil : marked '-' v.pre = [] := by simp [marked, hpre]
    rw [hnil, List.nil_append, mem_versionSuffix_marked (by simp)]
    simp [hpre, dotted_nil]
  · by_cases hbuild : v.build = []
    · have hnil : marked '+' v.build = [] := by simp [marked, hbuild]
      rw [hnil, List.append_nil, mem_versionSuffix_marked (by simp)]
      simp [hbuild, dotted_nil]
    · refine iff_of_false (both_not_versionSuffix hpre hbuild) ?_
      rintro ⟨hcase, -⟩
      exact hcase.elim hpre hbuild

/-! Check-ins of the broker. -/

theorem test_iff {P : RegularExpression Char} {s : String} :
    test P s = true ↔ s.toList ∈ P.matches' := by
  unfold test
  exact rmatch_iff_matches' P s.toList

theorem mem_k8sVersion {s : List Char} :
    'v' :: s ∈ k8sVersion.matches' ↔ s ∈ semver.matches' := by
  rw [k8sVersion, mem_char_mul]
  constructor
  · rintro ⟨b, hb, heq⟩
    rwa [(List.cons.inj heq).2]
  · exact fun h => ⟨s, h, rfl⟩

theorem hex_hexChars (u : Uuid) : ∀ c ∈ u.hex, c ∈ hexChars := by
  intro c hc
  obtain ⟨d, -, rfl⟩ := List.mem_map.mp hc
  have hdigit : ∀ d : Fin 16, Nat.digitChar d.val ∈ hexChars := by decide
  exact hdigit d

theorem length_hex (u : Uuid) : u.hex.length = 32 := by simp [Uuid.hex]

theorem mem_installUuid (u : Uuid) : u.text ∈ installUuid.matches' := by
  have hlength := length_hex u
  have hgroup : ∀ start size, start + size ≤ 32 →
      (u.hex.drop start).take size ∈ (oneOf hexChars ^ size).matches' := by
    intro start size hle
    refine (mem_pow_oneOf size).mpr ⟨by simp; omega, fun c hc => ?_⟩
    exact hex_hexChars u c (List.mem_of_mem_drop (List.mem_of_mem_take hc))
  have hlast : u.hex.drop 20 ∈ (oneOf hexChars ^ 12).matches' := by
    have hfull : (u.hex.drop 20).take 12 = u.hex.drop 20 :=
      List.take_of_length_le (by simp [hlength])
    exact hfull ▸ hgroup 20 12 (by omega)
  unfold Uuid.text installUuid
  apply append_mem_mul_char (hgroup 0 8 (by omega))
  apply append_mem_mul_char (hgroup 8 4 (by omega))
  apply append_mem_mul_char (hgroup 12 4 (by omega))
  exact append_mem_mul_char (hgroup 16 4 (by omega)) hlast

theorem test_archValues : ∀ arch ∈ archValues, test archName arch = true := by
  intro arch harch
  have hall : (archValues.all fun a => 1 ≤ a.toList.length && a.toList.length ≤ 16 &&
      a.toList.all fun c => (digitChars ++ letterChars ++ ['_']).contains c) = true := by decide
  have hone := List.all_eq_true.mp hall arch harch
  simp only [Bool.and_eq_true, decide_eq_true_eq, List.all_eq_true, List.contains_eq_mem] at hone
  obtain ⟨⟨hlow, hhigh⟩, hchars⟩ := hone
  rw [test_iff, archName, mem_between_oneOf (by omega)]
  exact ⟨hlow, hhigh, hchars⟩

theorem one_lt_doubleParts : 1 < doubleParts := by
  unfold doubleParts
  exact Nat.one_lt_two_pow (by decide)

theorem roundsToZero_integer (n : ℕ) : roundsToZero ⟨false, n, 0⟩ = decide (n = 0) := by
  have hbig := one_lt_doubleParts
  simp only [roundsToZero, Int.toNat_zero, pow_zero, mul_one, neg_zero, decide_eq_decide]
  constructor
  · intro hle
    by_contra hne
    have hmore : doubleParts ≤ n * doubleParts := Nat.le_mul_of_pos_left _ (by omega)
    omega
  · rintro rfl
    simp

theorem integerOf_digits {n : ℕ} (h : n ≤ 10000) : integerOf ⟨false, n, 0⟩ = some n := by
  unfold integerOf
  rw [roundsToZero_integer]
  by_cases hzero : n = 0
  · rw [if_pos (decide_eq_true hzero), hzero]
  · rw [if_neg (fun hcase => hzero (of_decide_eq_true hcase))]
    exact toInteger_digits (by omega) (by omega)

theorem numberOf_digits {s : String} {n : ℕ} (h : parseDigits s.toList = some n)
    (hle : n ≤ 10000) : numberOf (some s) = some n := by
  have hbind : numberOf (some s) = (stringToNumber s).bind integerOf := rfl
  rw [hbind, Option.bind_eq_some_iff]
  exact ⟨_, stringToNumber_digits h, integerOf_digits hle⟩

theorem text_ne_unknown (v : Semver) : v.text ≠ "unknown".toList := by
  intro h
  unfold Semver.text at h
  cases hdigits : Nat.toDigits 10 v.major with
  | nil => exact Nat.toDigits_ne_nil hdigits
  | cons c rest =>
      have hc : c ∈ digitChars := toDigits_digitChars v.major c (by simp [hdigits])
      rw [hdigits] at h
      rw [(List.cons.inj h).1] at hc
      exact absurd hc (by decide)

theorem chart_valid_iff (s : Sender) :
    chartVersion s.env = "unknown" ∨ test semver (chartVersion s.env) = true ↔
      ∀ v ∈ s.chart, Fits v := by
  have heq := s.chart_eq
  rw [test_iff, ← String.toList_inj, heq]
  cases s.chart with
  | none => simp
  | some v =>
      have hne := text_ne_unknown v
      simp_all [mem_semver_text]

theorem k8s_valid_iff (s : Sender) :
    kubeVersion s.env = "unknown" ∨ test k8sVersion (kubeVersion s.env) = true ↔
      ∀ v ∈ s.k8s, Fits v := by
  have heq := s.k8s_eq
  rw [test_iff, ← String.toList_inj, heq]
  cases s.k8s with
  | none => simp
  | some v => simp [mem_k8sVersion, mem_semver_text]

theorem textsPass_query (s : Sender) :
    textsPass s.query = true ↔ Fits s.broker ∧ (∀ v ∈ s.chart, Fits v) ∧ ∀ v ∈ s.k8s, Fits v := by
  have hinstall : test installUuid (String.ofList s.install.text) = true := by
    rw [test_iff, String.toList_ofList]
    exact mem_installUuid s.install
  have hbroker : test semver s.env.cargoPkgVersion = true ↔ Fits s.broker := by
    rw [test_iff, s.broker_eq]
    exact mem_semver_text s.broker
  have harch := test_archValues s.env.arch s.arch_mem
  show textsValid (String.ofList s.install.text) s.env.cargoPkgVersion (chartVersion s.env)
    (kubeVersion s.env) s.env.arch = true ↔ _
  simp only [textsValid, hinstall, harch, Bool.true_and, Bool.and_true, Bool.and_eq_true,
    Bool.or_eq_true, decide_eq_true_eq, hbroker, chart_valid_iff s, k8s_valid_iff s, and_assoc]

/-- A check-in of the broker is recorded with its values exactly when each version in it
has one short suffix at most. -/
theorem checkParams_recorded_iff (s : Sender) :
    parseCheckin s.query = some s.checkin ↔
      Fits s.broker ∧ (∀ v ∈ s.chart, Fits v) ∧ ∀ v ∈ s.k8s, Fits v := by
  rw [parseCheckin_eq_some_iff, textsPass_query]
  constructor
  · exact And.left
  · intro h
    refine ⟨h, ?_, s.nodes_le, rfl⟩
    exact numberOf_digits (parseDigits_toString s.nodes) s.nodes_le

/-! A broker outside the chart, and one on a cluster whose version has both suffixes. -/

def release : Semver := ⟨1, 14, 1, [], [], by simp⟩

def bareSender : Sender where
  env := ⟨"1.14.1", none, none, "x86_64"⟩
  install := fun _ => 0
  broker := release
  chart := none
  k8s := none
  nodes := 3
  broker_eq := rfl
  chart_eq := rfl
  k8s_eq := rfl
  arch_mem := by decide
  nodes_le := by omega

def distroVersion : Semver where
  major := 1
  minor := 31
  patch := 0
  pre := [⟨"rc".toList, by decide, by decide⟩]
  build := [⟨"k3s1".toList, by decide, by decide⟩]
  numeric := by decide

def distroSender : Sender where
  env := ⟨"1.14.1", none, some "v1.31.0-rc+k3s1", "x86_64"⟩
  install := fun _ => 0
  broker := release
  chart := none
  k8s := some distroVersion
  nodes := 3
  broker_eq := rfl
  chart_eq := rfl
  k8s_eq := rfl
  arch_mem := by decide
  nodes_le := by omega

theorem fits_release : Fits release := ⟨.inl rfl, by decide, by decide⟩

/-- Without the nodes the check-in is recorded with zero of them, and the check-in from
the other cluster is not recorded. -/
theorem checkins_inexact :
    (∃ q c, get "nodes" q = none ∧ parseCheckin q = some c) ∧
      parseCheckin distroSender.query ≠ some distroSender.checkin := by
  constructor
  · have htexts : textsPass bareSender.query = true :=
      (textsPass_query bareSender).mpr ⟨fits_release, by simp [bareSender], by simp [bareSender]⟩
    exact ⟨bareSender.query.filter fun p => p.1 ≠ "nodes", ⟨_, _, _, _, _, 0⟩, rfl,
      parseCheckin_eq_some_iff.mpr ⟨htexts, rfl, Nat.zero_le _, rfl⟩⟩
  · intro h
    have hfits := ((checkParams_recorded_iff distroSender).mp h).2.2 distroVersion rfl
    exact hfits.1.elim (by decide) (by decide)

/-- What is recorded is well formed exactly when the nodes are in plain decimal where all
else passes, and the broker's check-ins are recorded exactly when their versions have one
short suffix at most. -/
theorem checkins_exact (q : Query) (s : Sender) :
    ((∀ c, parseCheckin q = some c → WellFormed q c) ↔ (textsPass q = true → PlainNodes q)) ∧
    (parseCheckin s.query = some s.checkin ↔
      Fits s.broker ∧ (∀ v ∈ s.chart, Fits v) ∧ ∀ v ∈ s.k8s, Fits v) :=
  ⟨recorded_wellFormed_iff q, checkParams_recorded_iff s⟩

end KGuardian.CheckIns
