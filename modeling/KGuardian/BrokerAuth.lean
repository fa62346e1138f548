import KGuardian.BrokerRoutes
import KGuardian.JsText
import Mathlib.Data.List.DropRight
import Mathlib.Data.LawfulXor.Basic

/-!
The optional bearer token of the broker. Preflight requests are answered before it is asked
for, and a request that is neither exempt nor carries the token is refused before it is
routed, so a run of any requests leaves the tables as the requests with the token do. The
clients read the token from the same variable as the broker, each in its own way.
-/
namespace KGuardian.BrokerAuth

open Utf8Stream PercentEncoding BrokerRoutes TextScan JsText

structure AuthConfig where
  token : Option (List Char)

/-- A blank variable is no token. -/
def readToken (trims : List Char → List Char) (setting : Option (List Char)) :
    Option (List Char) :=
  (setting.map trims).filter fun t => decide (t ≠ [])

def AuthConfig.fromEnv (setting : Option (List Char)) : AuthConfig := ⟨readToken trim setting⟩

def ctEq (a b : List Char) : Bool :=
  if (encode a).length ≠ (encode b).length then false
  else ((encode a).zip (encode b)).foldl (fun diff p => diff ||| (p.1 ^^^ p.2)) 0 = 0

/-- The query and the body of a request are its content. Of its headers the tokens are read
and `Access-Control-Request-Method`. -/
structure Request (β : Type) where
  method : Method
  target : List ℕ
  authorization : List (List ℕ)
  requestMethod : Option (List ℕ)
  content : β

def isVisible (b : ℕ) : Bool := (32 ≤ b && b < 127) || b = 9

def bearer : List Char := "Bearer ".toList

/-- The text of a header value, which is visible ASCII. -/
def toStr (value : List ℕ) : Option (List Char) :=
  if value.all isVisible then some (value.map Char.ofNat) else none

def bearerOk (authorization : List (List ℕ)) (expected : List Char) : Bool :=
  match authorization.head?.bind toStr with
  | some text =>
      if bearer <+: text then ctEq (trim (text.drop bearer.length)) expected else false
  | none => false

section Requests

variable {β σ ρ : Type}

/-- The path is compared as it was sent, before the router decodes it. -/
def isExempt (r : Request β) : Bool :=
  r.method = .options || r.target = encode "/health".toList ||
    r.target = encode "/metrics".toList

def carriesToken (expected : List Char) (r : Request β) : Bool :=
  bearerOk r.authorization expected

def passes (config : AuthConfig) (r : Request β) : Bool :=
  match config.token with
  | some expected => isExempt r || carriesToken expected r
  | none => true

/-- The libraries of the server: the router, and which header values name a method. -/
structure Libraries where
  router : Router
  isMethod : List ℕ → Bool

/-- The requests that the outermost layer answers, since it allows any origin. -/
def isRequestPreflight (libraries : Libraries) (r : Request β) : Bool :=
  r.method = .options && r.requestMethod.any libraries.isMethod

/-- The services that change the tables. -/
def posts : ServiceName → Bool
  | .addPodsBatch | .addPodDetails | .addPodsSyscalls | .addSvcDetails | .markPodDead => true
  | _ => false

/-- What the services do on the tables. -/
structure Handlers (β σ ρ : Type) where
  write : ServiceName → β → σ → σ × ρ
  read : ServiceName → List (List Char) → β → σ → ρ

inductive Response (ρ : Type) where
  | preflight
  | unauthorized
  | notFound
  | answered (response : ρ)

/-- The service and what it answers, once the request has passed. -/
def dispatch (libraries : Libraries) (h : Handlers β σ ρ) (s : σ) (r : Request β) :
    σ × Response ρ :=
  match route libraries.router r.method r.target with
  | none => (s, .notFound)
  | some (name, values) =>
      if posts name then ((h.write name r.content s).1, .answered (h.write name r.content s).2)
      else (s, .answered (h.read name values r.content s))

def serve (libraries : Libraries) (h : Handlers β σ ρ) (config : AuthConfig) (s : σ)
    (r : Request β) : σ × Response ρ :=
  if isRequestPreflight libraries r then (s, .preflight)
  else if passes config r then dispatch libraries h s r
  else (s, .unauthorized)

/-- The tables after a run, and each request with its response. -/
def serveAll (libraries : Libraries) (h : Handlers β σ ρ) (config : AuthConfig) (s : σ) :
    List (Request β) → σ × List (Request β × Response ρ)
  | [] => (s, [])
  | r :: rest =>
      let (next, response) := serve libraries h config s r
      let (last, responses) := serveAll libraries h config next rest
      (last, (r, response) :: responses)

end Requests

/-! The clients. -/

/-- A header value that the controller's library takes. -/
def isValidByte (b : ℕ) : Bool := (32 ≤ b && b ≠ 127) || b = 9

/-- The headers of a call of the controller, or none where the call fails before it is sent. -/
def controllerHeaders (setting : Option (List Char)) : Option (List (List ℕ)) :=
  match readToken trim setting with
  | none => some []
  | some token =>
      if (encode (bearer ++ token)).all isValidByte then some [encode (bearer ++ token)] else none

/-- The characters that `fetch` sends in a header, one byte each. -/
def isHeaderChar (c : Char) : Bool :=
  c.toNat = 9 || (32 ≤ c.toNat && c.toNat ≤ 126) || (128 ≤ c.toNat && c.toNat ≤ 255)

def brokerAuthHeaders (setting : Option (List Char)) : Option (List (List ℕ)) :=
  match readToken trimSpace setting with
  | none => some []
  | some token =>
      if token.all isHeaderChar then some [(bearer ++ token).map Char.toNat] else none

/-- No command of the advisor sets the token that its requests would carry. -/
def advisorHeaders : Option (List (List ℕ)) := some []

/-- A call with these headers is sent, and passes on any path. -/
def Accepted (config : AuthConfig) (headers : Option (List (List ℕ))) : Prop :=
  ∃ sent, headers = some sent ∧
    ∀ expected, config.token = some expected → bearerOk sent expected = true

/-! Equality in constant time. -/

theorem foldl_diff_eq_zero_iff (pairs : List (ℕ × ℕ)) (diff : ℕ) :
    pairs.foldl (fun diff p => diff ||| (p.1 ^^^ p.2)) diff = 0 ↔
      diff = 0 ∧ ∀ p ∈ pairs, p.1 = p.2 := by
  induction pairs generalizing diff with
  | nil => simp
  | cons p rest ih =>
    rw [List.foldl_cons, ih, Nat.or_eq_zero_iff, xor_eq_zero_iff, List.forall_mem_cons,
      and_assoc]

theorem eq_of_zip {a b : List ℕ} (hlength : a.length = b.length)
    (h : ∀ p ∈ a.zip b, p.1 = p.2) : a = b := by
  induction a generalizing b with
  | nil => exact (List.length_eq_zero_iff.mp hlength.symm).symm
  | cons x rest ih =>
    cases b with
    | nil => cases hlength
    | cons y more =>
      rw [List.zip_cons_cons, List.forall_mem_cons] at h
      obtain ⟨hhead, htail⟩ := h
      have hrest := ih (by simpa using hlength) htail
      rw [hrest]
      exact congrArg (· :: more) hhead

/-- The comparison that looks at every byte is equality. -/
theorem ctEq_iff (a b : List Char) : ctEq a b = true ↔ a = b := by
  unfold ctEq
  constructor
  · intro h
    split_ifs at h with hlength
    have hzip := ((foldl_diff_eq_zero_iff _ _).mp (of_decide_eq_true h)).2
    exact encode_injective (eq_of_zip (not_not.mp hlength) hzip)
  · rintro rfl
    have hsame : ∀ p ∈ (encode a).zip (encode a), p.1 = p.2 := by
      intro p hp
      rw [List.zip_eq_zipWith, List.zipWith_self] at hp
      obtain ⟨x, -, rfl⟩ := List.mem_map.mp hp
      rfl
    rw [if_neg (by simp)]
    exact decide_eq_true ((foldl_diff_eq_zero_iff _ _).mpr ⟨rfl, hsame⟩)

/-! What a run leaves. -/

section Runs

variable {β σ ρ : Type} (libraries : Libraries) (h : Handlers β σ ρ) {config : AuthConfig}
  {expected : List Char}

theorem route_options (router : Router) (target : List ℕ) :
    route router .options target = none := by
  unfold route
  split
  · simp [services]
  · rfl

/-- An exempt request reaches the probe, the metrics or nothing. -/
theorem route_of_isExempt (router : Router) {r : Request β} (hexempt : isExempt r = true) :
    route router r.method r.target = none ∨
      ∃ name, route router r.method r.target = some (name, []) ∧
        name ∈ [.healthCheck, .metrics] := by
  rw [route_eq]
  simp only [isExempt, Bool.or_eq_true, decide_eq_true_eq] at hexempt
  obtain (hoptions | hhealth) | hmetrics := hexempt
  · rw [hoptions]
    exact Or.inl (route_options actixRouter r.target)
  · rw [hhealth]
    generalize r.method = m
    cases m
    · exact Or.inr ⟨.healthCheck, by decide, by decide⟩
    all_goals exact Or.inl (by decide)
  · rw [hmetrics]
    generalize r.method = m
    cases m
    · exact Or.inr ⟨.metrics, by decide, by decide⟩
    all_goals exact Or.inl (by decide)

/-- What a request without the token is answered. -/
inductive AnsweredOpenly (r : Request β) : Response ρ → Prop
  | preflight : isRequestPreflight libraries r = true → AnsweredOpenly r .preflight
  | unauthorized : AnsweredOpenly r .unauthorized
  | notFound : AnsweredOpenly r .notFound
  | told (name : ServiceName) (t : σ) : name ∈ [.healthCheck, .metrics] →
      AnsweredOpenly r (.answered (h.read name [] r.content t))

/-- Without the token a request changes nothing, and learns no more than the probe and the
metrics tell. -/
theorem serve_of_not_carriesToken (hconfig : config.token = some expected) (s : σ)
    {r : Request β} (hcarries : carriesToken expected r = false) :
    (serve libraries h config s r).1 = s ∧
      AnsweredOpenly libraries h r (serve libraries h config s r).2 := by
  unfold serve
  by_cases hpreflight : isRequestPreflight libraries r = true
  · rw [if_pos hpreflight]
    exact ⟨rfl, .preflight hpreflight⟩
  rw [if_neg hpreflight]
  by_cases hexempt : isExempt r = true
  · have hpasses : passes config r = true := by simp [passes, hconfig, hexempt]
    rw [if_pos hpasses]
    obtain hnone | ⟨name, hroute, hname⟩ := route_of_isExempt libraries.router hexempt
    · rw [dispatch, hnone]
      exact ⟨rfl, .notFound⟩
    · have hposts : posts name = false := by
        simp only [List.mem_cons, List.not_mem_nil, or_false] at hname
        obtain rfl | rfl := hname
        · rfl
        · rfl
      rw [dispatch, hroute]
      dsimp only
      rw [if_neg (by simp [hposts])]
      exact ⟨rfl, .told name s hname⟩
  · have hpasses : ¬ passes config r = true := by simp [passes, hconfig, hexempt, hcarries]
    rw [if_neg hpasses]
    exact ⟨rfl, .unauthorized⟩

theorem serveAll_cons (s : σ) (r : Request β) (rest : List (Request β)) :
    serveAll libraries h config s (r :: rest) =
      ((serveAll libraries h config (serve libraries h config s r).1 rest).1,
        (r, (serve libraries h config s r).2) ::
          (serveAll libraries h config (serve libraries h config s r).1 rest).2) := rfl

/-- With a token set, a run of any requests leaves the tables as its requests with the token
do and answers these alike; every other request is a preflight, refused, not found, or a
probe. -/
theorem token_guards (libraries : Libraries) (h : Handlers β σ ρ) (expected : List Char) (s : σ)
    (requests : List (Request β)) :
    (serveAll libraries h ⟨some expected⟩ s requests).1 =
        (serveAll libraries h ⟨some expected⟩ s (requests.filter (carriesToken expected))).1 ∧
      (serveAll libraries h ⟨some expected⟩ s requests).2.filter
          (fun p => carriesToken expected p.1) =
        (serveAll libraries h ⟨some expected⟩ s (requests.filter (carriesToken expected))).2 ∧
      ∀ p ∈ (serveAll libraries h ⟨some expected⟩ s requests).2,
        carriesToken expected p.1 = false → AnsweredOpenly libraries h p.1 p.2 := by
  induction requests generalizing s with
  | nil => simp [serveAll]
  | cons r rest ih =>
    rw [serveAll_cons]
    obtain ⟨htables, hanswers, hothers⟩ := ih (serve libraries h ⟨some expected⟩ s r).1
    by_cases hcarries : carriesToken expected r = true
    · rw [List.filter_cons_of_pos hcarries, serveAll_cons]
      simp only [List.filter_cons, hcarries, if_true]
      refine ⟨htables, congrArg _ hanswers, ?_⟩
      intro p hp hnot
      obtain rfl | hp := List.mem_cons.mp hp
      · rw [hcarries] at hnot
        cases hnot
      · exact hothers p hp hnot
    · have hfalse : carriesToken expected r = false := by simpa using hcarries
      obtain ⟨hsame, hresponse⟩ := serve_of_not_carriesToken libraries h rfl s hfalse
      rw [hsame] at htables hanswers hothers ⊢
      simp only [List.filter_cons, hfalse, Bool.false_eq_true, if_false]
      refine ⟨htables, hanswers, ?_⟩
      intro p hp hnot
      obtain rfl | hp := List.mem_cons.mp hp
      · exact hresponse
      · exact hothers p hp hnot

/-- Methods of letters and digits. -/
def actixLibraries : Libraries where
  router := actixRouter
  isMethod value := decide (value ≠ []) && value.all isAlphanumeric

/-- Handlers that count the requests that write. -/
def counting : Handlers Unit ℕ ℕ where
  write _ _ n := (n + 1, n)
  read _ _ _ n := n

def postSpec (authorization : List (List ℕ)) : Request Unit where
  method := .post
  target := encode "/pod/spec".toList
  authorization := authorization
  requestMethod := none
  content := ()

def asksFirst : Request Unit :=
  { postSpec [] with method := .options, requestMethod := some (encode "POST".toList) }

/-- Of a preflight and two posts, the one with the token is served. -/
theorem counting_guarded :
    (serveAll actixLibraries counting ⟨some ['s']⟩ 0
        [asksFirst, postSpec [], postSpec [encode "Bearer s".toList]]).1 = 1 ∧
      ∀ p ∈ (serveAll actixLibraries counting ⟨some ['s']⟩ 0
          [asksFirst, postSpec [], postSpec [encode "Bearer s".toList]]).2,
        carriesToken ['s'] p.1 = false → AnsweredOpenly actixLibraries counting p.1 p.2 := by
  obtain ⟨htables, -, hothers⟩ := token_guards actixLibraries counting ['s'] 0
    [asksFirst, postSpec [], postSpec [encode "Bearer s".toList]]
  exact ⟨htables.trans (by decide), hothers⟩

end Runs

/-! Which tokens the clients can present. -/

section Trimming

variable {p : Char → Bool} {s : List Char}

/-- A text without its blank ends. -/
def trimEnds (p : Char → Bool) (s : List Char) : List Char := (s.dropWhile p).rdropWhile p

theorem trim_eq (s : List Char) : trim s = trimEnds isWhitespace s := rfl

theorem trimSpace_eq (s : List Char) : trimSpace s = trimEnds isSpace s := rfl

/-- A text whose ends are not blank. -/
structure Trimmed (p : Char → Bool) (s : List Char) : Prop where
  first : ∀ c, s.head? = some c → p c = false
  last : ∀ c, s.getLast? = some c → p c = false

theorem trimmed_trimEnds (p : Char → Bool) (s : List Char) : Trimmed p (trimEnds p s) where
  first := by
    intro c hc
    obtain ⟨back, hback⟩ := List.rdropWhile_prefix p (s.dropWhile p)
    have hhead : (s.dropWhile p).head? = some c := by
      rw [← hback, List.head?_append,
        show (List.rdropWhile p (s.dropWhile p)).head? = some c from hc]
      rfl
    have hnot := List.head?_dropWhile_not p s
    rw [hhead] at hnot
    simpa using hnot
  last := by
    intro c hc
    have hne : (s.dropWhile p).rdropWhile p ≠ [] := by
      intro hnil
      rw [trimEnds, hnil] at hc
      cases hc
    have hlast : ((s.dropWhile p).rdropWhile p).getLast hne = c :=
      Option.some.inj ((List.getLast?_eq_some_getLast hne).symm.trans hc)
    have hnot := List.rdropWhile_last_not p (s.dropWhile p) hne
    rw [hlast] at hnot
    simpa using hnot

theorem Trimmed.trimEnds_eq (h : Trimmed p s) : trimEnds p s = s := by
  have hfront : s.dropWhile p = s := by
    cases s with
    | nil => rfl
    | cons c rest => exact List.dropWhile_cons_of_neg (by simp [h.first c rfl])
  rw [trimEnds, hfront]
  rcases eq_or_ne s [] with rfl | hne
  · rfl
  · refine (List.rdropWhile_eq_self_iff).mpr fun hne => ?_
    simpa using h.last _ (List.getLast?_eq_some_getLast hne)

theorem trim_trim (s : List Char) : trim (trim s) = trim s :=
  (trimmed_trimEnds isWhitespace s).trimEnds_eq

end Trimming

def isVisibleChar (c : Char) : Bool := isVisible c.toNat

/-- The bytes of a text are visible when its characters are. -/
theorem all_isVisible_encode (text : List Char) :
    (encode text).all isVisible = text.all isVisibleChar := by
  induction text with
  | nil => rfl
  | cons c rest ih =>
    have hsplit : encode (c :: rest) = encodeChar c ++ encode rest := rfl
    rw [hsplit, List.all_append, ih, List.all_cons]
    congr 1
    obtain ⟨-, hone⟩ | ⟨hge, hmany⟩ := encodeChar_cases c
    · rw [hone]
      simp [isVisibleChar]
    · have hnot : isVisibleChar c = false := by
        simp only [isVisibleChar, isVisible, Bool.or_eq_false_iff, Bool.and_eq_false_iff,
          decide_eq_false_iff_not]
        omega
      rw [hnot]
      obtain ⟨b, hb⟩ : ∃ b, b ∈ encodeChar c := by
        simp only [encodeChar]
        split_ifs
        all_goals exact ⟨_, List.mem_cons_self⟩
      refine List.all_eq_false.mpr ⟨b, hb, ?_⟩
      have hb128 := hmany b hb
      simp only [isVisible, Bool.or_eq_true, Bool.and_eq_true, decide_eq_true_eq]
      omega

theorem map_toNat_of_visible {text : List Char} (h : text.all isVisibleChar = true) :
    encode text = text.map Char.toNat := by
  induction text with
  | nil => rfl
  | cons c rest ih =>
    obtain ⟨hc, hrest⟩ := List.all_cons ▸ h |> (Bool.and_eq_true _ _).mp
    have hlt : c.toNat < 0x80 := by
      simp only [isVisibleChar, isVisible, Bool.or_eq_true, Bool.and_eq_true,
        decide_eq_true_eq] at hc
      omega
    have hsplit : encode (c :: rest) = encodeChar c ++ encode rest := rfl
    rw [hsplit, ih hrest]
    simp [encodeChar, hlt]

theorem toStr_map_toNat (text : List Char) :
    toStr (text.map Char.toNat) = if text.all isVisibleChar then some text else none := by
  have hall : (text.map Char.toNat).all isVisible = text.all isVisibleChar := by
    rw [List.all_map]
    rfl
  have hback : (text.map Char.toNat).map Char.ofNat = text := by
    rw [List.map_map]
    conv_rhs => rw [← List.map_id text]
    exact List.map_congr_left fun c _ => Char.ofNat_toNat c
  rw [toStr, hall, hback]

theorem toStr_encode (text : List Char) :
    toStr (encode text) = if text.all isVisibleChar then some text else none := by
  by_cases h : text.all isVisibleChar = true
  · rw [map_toNat_of_visible h, toStr_map_toNat]
  · have hbytes : ¬ (encode text).all isVisible = true := by rwa [all_isVisible_encode]
    rw [toStr, if_neg hbytes, if_neg h]

/-- The broker takes the text after the scheme, trimmed, for the token. -/
theorem bearerOk_of_toStr {value : List ℕ} {presented expected : List Char}
    (h : toStr value = if (bearer ++ presented).all isVisibleChar then some (bearer ++ presented)
      else none) :
    bearerOk [value] expected = true ↔
      presented.all isVisibleChar = true ∧ trim presented = expected := by
  have hscheme : (bearer ++ presented).all isVisibleChar = presented.all isVisibleChar := by
    rw [List.all_append]
    rfl
  rw [hscheme] at h
  unfold bearerOk
  rw [List.head?_cons, Option.bind_some, h]
  by_cases hvisible : presented.all isVisibleChar = true
  · rw [if_pos hvisible]
    simp only [List.prefix_append, if_true, List.drop_left, ctEq_iff, hvisible, true_and]
  · rw [if_neg hvisible]
    simp [hvisible]

theorem readToken_eq_none_iff (trims : List Char → List Char) (raw : List Char) :
    readToken trims (some raw) = none ↔ trims raw = [] := by
  simp [readToken]

theorem readToken_of_ne {trims : List Char → List Char} {raw : List Char} (h : trims raw ≠ []) :
    readToken trims (some raw) = some (trims raw) := by
  simp [readToken, Option.filter, h]

theorem isValidByte_of_isVisible {b : ℕ} (h : isVisible b = true) : isValidByte b = true := by
  simp only [isVisible, isValidByte, Bool.or_eq_true, Bool.and_eq_true, decide_eq_true_eq] at h ⊢
  omega

theorem isHeaderChar_of_isVisibleChar {c : Char} (h : isVisibleChar c = true) :
    isHeaderChar c = true := by
  simp only [isVisibleChar, isVisible, isHeaderChar, Bool.or_eq_true, Bool.and_eq_true,
    decide_eq_true_eq] at h ⊢
  omega

theorem accepted_of_open {config : AuthConfig} (hopen : config.token = none)
    (headers : Option (List (List ℕ))) : Accepted config headers ↔ headers ≠ none := by
  constructor
  · rintro ⟨sent, rfl, -⟩
    simp
  · intro h
    obtain ⟨sent, rfl⟩ := Option.ne_none_iff_exists'.mp h
    refine ⟨sent, rfl, fun expected hexpected => ?_⟩
    rw [hopen] at hexpected
    cases hexpected

theorem accepted_some_iff {config : AuthConfig} {expected : List Char}
    (hconfig : config.token = some expected) (sent : List (List ℕ)) :
    Accepted config (some sent) ↔ bearerOk sent expected = true := by
  constructor
  · rintro ⟨_, hsent, h⟩
    obtain rfl := Option.some.inj hsent
    exact h expected hconfig
  · intro h
    refine ⟨sent, rfl, fun other hother => ?_⟩
    obtain rfl := Option.some.inj (hconfig.symm.trans hother)
    exact h

theorem not_accepted_none (config : AuthConfig) : ¬ Accepted config none := by
  rintro ⟨sent, hsent, -⟩
  cases hsent

theorem controller_accepted_iff (raw : List Char) :
    Accepted (.fromEnv (some raw)) (controllerHeaders (some raw)) ↔
      (trim raw).all isVisibleChar = true := by
  by_cases hblank : trim raw = []
  · have hnone : (AuthConfig.fromEnv (some raw)).token = none :=
      (readToken_eq_none_iff trim raw).mpr hblank
    rw [accepted_of_open hnone, controllerHeaders, (readToken_eq_none_iff trim raw).mpr hblank,
      hblank]
    simp
  have htoken : (AuthConfig.fromEnv (some raw)).token = some (trim raw) := readToken_of_ne hblank
  rw [controllerHeaders, readToken_of_ne hblank]
  dsimp only
  split_ifs with hvalid
  · rw [accepted_some_iff htoken, bearerOk_of_toStr (toStr_encode _), trim_trim]
    simp
  · refine iff_of_false (not_accepted_none _) fun hvisible => hvalid ?_
    refine List.all_eq_true.mpr fun b hb => isValidByte_of_isVisible ?_
    have hall : (encode (bearer ++ trim raw)).all isVisible = true := by
      rw [all_isVisible_encode, List.all_append, hvisible]
      rfl
    exact List.all_eq_true.mp hall b hb

/-- What is visible and blank to Rust is blank to JavaScript. -/
theorem isSpace_of_visible {c : Char} (hvisible : isVisibleChar c = true)
    (hblank : isWhitespace c = true) : isSpace c = true := by
  have hne : c ≠ '\u0085' := by
    rintro rfl
    cases hvisible
  simp [isSpace, hblank, hne]

theorem trim_of_trimmed {text : List Char} (h : Trimmed isSpace text)
    (hvisible : text.all isVisibleChar = true) : trim text = text := by
  have hkeep {c : Char} (hmem : c ∈ text) (hspace : isSpace c = false) :
      isWhitespace c = false := by
    by_contra hblank
    rw [isSpace_of_visible (List.all_eq_true.mp hvisible c hmem) (by simpa using hblank)] at hspace
    cases hspace
  have htrimmed : Trimmed isWhitespace text :=
    ⟨fun c hc => hkeep (List.mem_of_head? hc) (h.first c hc),
      fun c hc => hkeep (List.mem_of_getLast? hc) (h.last c hc)⟩
  exact htrimmed.trimEnds_eq

theorem bridge_accepted_iff (raw : List Char) :
    Accepted (.fromEnv (some raw)) (brokerAuthHeaders (some raw)) ↔
      (trim raw = [] ∧ (trimSpace raw).all isHeaderChar = true) ∨
        (trim raw ≠ [] ∧ trimSpace raw = trim raw ∧ (trim raw).all isVisibleChar = true) := by
  have hempty : trimSpace raw = [] → brokerAuthHeaders (some raw) = some [] := by
    intro h
    rw [brokerAuthHeaders, (readToken_eq_none_iff trimSpace raw).mpr h]
  have hfull : trimSpace raw ≠ [] → brokerAuthHeaders (some raw) =
      if (trimSpace raw).all isHeaderChar then some [(bearer ++ trimSpace raw).map Char.toNat]
      else none := by
    intro h
    rw [brokerAuthHeaders, readToken_of_ne h]
  by_cases hopen : trim raw = []
  · have hnone : (AuthConfig.fromEnv (some raw)).token = none :=
      (readToken_eq_none_iff trim raw).mpr hopen
    rw [accepted_of_open hnone]
    rcases eq_or_ne (trimSpace raw) [] with hspace | hspace
    · simp [hempty hspace, hopen, hspace]
    · rw [hfull hspace]
      by_cases hvalid : (trimSpace raw).all isHeaderChar = true
      · simp [hvalid, hopen]
      · simp [hvalid, hopen]
  have htoken : (AuthConfig.fromEnv (some raw)).token = some (trim raw) := readToken_of_ne hopen
  have hiff : ((trim raw = [] ∧ (trimSpace raw).all isHeaderChar = true) ∨
      (trim raw ≠ [] ∧ trimSpace raw = trim raw ∧ (trim raw).all isVisibleChar = true)) ↔
        trimSpace raw = trim raw ∧ (trim raw).all isVisibleChar = true := by
    simp [hopen]
  rw [hiff]
  rcases eq_or_ne (trimSpace raw) [] with hspace | hspace
  · rw [hempty hspace, accepted_some_iff htoken]
    refine iff_of_false (by simp [bearerOk]) fun h => hopen ?_
    rw [← h.1, hspace]
  rw [hfull hspace]
  split_ifs with hvalid
  · rw [accepted_some_iff htoken, bearerOk_of_toStr (toStr_map_toNat _)]
    constructor
    · rintro ⟨hvisible, hsame⟩
      have hself := trim_of_trimmed (trimmed_trimEnds isSpace raw) hvisible
      have heq : trimSpace raw = trim raw := hself.symm.trans hsame
      exact ⟨heq, heq ▸ hvisible⟩
    · rintro ⟨heq, hvisible⟩
      rw [heq, trim_trim]
      exact ⟨hvisible, rfl⟩
  · refine iff_of_false (not_accepted_none _) fun h => hvalid ?_
    rw [h.1]
    refine List.all_eq_true.mpr fun c hc => isHeaderChar_of_isVisibleChar ?_
    exact List.all_eq_true.mp h.2 c hc

/-- Given the broker's own variable, the controller passes exactly when the trimmed token is
visible ASCII, the assistant when also both languages trim it alike, and the advisor only
where no token is set. -/
theorem clients_accepted_iff (raw : List Char) :
    (Accepted (.fromEnv (some raw)) (controllerHeaders (some raw)) ↔
        (trim raw).all isVisibleChar = true) ∧
      (Accepted (.fromEnv (some raw)) (brokerAuthHeaders (some raw)) ↔
        (trim raw = [] ∧ (trimSpace raw).all isHeaderChar = true) ∨
          (trim raw ≠ [] ∧ trimSpace raw = trim raw ∧
            (trim raw).all isVisibleChar = true)) ∧
      (Accepted (.fromEnv (some raw)) advisorHeaders ↔ trim raw = []) := by
  refine ⟨controller_accepted_iff raw, bridge_accepted_iff raw, ?_⟩
  by_cases hopen : trim raw = []
  · have hnone : (AuthConfig.fromEnv (some raw)).token = none :=
      (readToken_eq_none_iff trim raw).mpr hopen
    rw [accepted_of_open hnone]
    simp [advisorHeaders, hopen]
  · have htoken : (AuthConfig.fromEnv (some raw)).token = some (trim raw) := readToken_of_ne hopen
    rw [advisorHeaders, accepted_some_iff htoken]
    simp [bearerOk, hopen]

end KGuardian.BrokerAuth
