import KGuardian.PercentEncoding

/-!
The router of the broker, and the requests by which the assistant and the advisor look
something up by a name or an address. The text of the argument stands in the path of the
request; the URL parser of the assistant resolves dots, and the router decodes twice, once
before it matches and once for the value of a segment.
-/
namespace KGuardian.BrokerRoutes

open Utf8Stream PercentEncoding

inductive Method where
  | get
  | post
  | options
  | other
  deriving DecidableEq

inductive ServiceName where
  | addPodsBatch
  | addPodDetails
  | addPodsSyscalls
  | getPodTraffic
  | getPodDetails
  | addSvcDetails
  | getPodByIp
  | getPodByName
  | getSvcDetails
  | getSvcByIp
  | getPodTrafficName
  | getPodSyscallName
  | getPodsByNode
  | getAuditVerdicts
  | markPodDead
  | getVersion
  | healthCheck
  | metrics
  deriving DecidableEq

inductive Segment where
  | literal (text : String)
  | value

structure Service where
  name : ServiceName
  method : Method
  pattern : List Segment

/-- The services of the application, in the order of their registration. -/
def services : List Service :=
  [⟨.addPodsBatch, .post, [.literal "pod", .literal "traffic", .literal "batch"]⟩,
    ⟨.addPodDetails, .post, [.literal "pod", .literal "spec"]⟩,
    ⟨.addPodsSyscalls, .post, [.literal "pod", .literal "syscalls"]⟩,
    ⟨.getPodTraffic, .get, [.literal "pod", .literal "traffic"]⟩,
    ⟨.getPodDetails, .get, [.literal "pod", .literal "info"]⟩,
    ⟨.addSvcDetails, .post, [.literal "svc", .literal "spec"]⟩,
    ⟨.getPodByIp, .get, [.literal "pod", .literal "ip", .value]⟩,
    ⟨.getPodByName, .get, [.literal "pod", .literal "name", .value]⟩,
    ⟨.getSvcDetails, .get, [.literal "svc", .literal "info"]⟩,
    ⟨.getSvcByIp, .get, [.literal "svc", .literal "ip", .value]⟩,
    ⟨.getPodTrafficName, .get, [.literal "pod", .literal "traffic", .value]⟩,
    ⟨.getPodSyscallName, .get, [.literal "pod", .literal "syscalls", .value]⟩,
    ⟨.getPodsByNode, .get, [.literal "pod", .literal "list", .value]⟩,
    ⟨.getAuditVerdicts, .get, [.literal "audit", .literal "verdicts"]⟩,
    ⟨.markPodDead, .post, [.literal "pod", .literal "mark_dead"]⟩,
    ⟨.getVersion, .get, [.literal "version"]⟩,
    ⟨.healthCheck, .get, [.literal "health"]⟩,
    ⟨.metrics, .get, [.literal "metrics"]⟩]

def slash : ℕ := 0x2f

/-- The triples that stand until a segment is read. -/
def isProtected (b : ℕ) : Bool := b = percent || b = slash || b = plus

/-- The segments of a path fit a pattern. A value is any segment but an empty one. -/
inductive Matches : List Segment → List (List Char) → List (List Char) → Prop
  | nil : Matches [] [] []
  | literal {pattern segments values} (text : String) : Matches pattern segments values →
      Matches (.literal text :: pattern) (text.toList :: segments) values
  | value {pattern segments values} {s : List Char} : s ≠ [] → Matches pattern segments values →
      Matches (.value :: pattern) (s :: segments) (s :: values)

/-- The library that routes. It decodes the path of a request before it matches it, but not
the triples that are protected, and each value after that. -/
structure Router where
  requestPath : List ℕ → List Char
  segmentValue : List Char → List Char
  matchPath : List Segment → List Char → Option (List (List Char))
  requestPath_eq : ∀ target, requestPath target = textOf (read isProtected target)
  segmentValue_eq : ∀ segment, segmentValue segment = textOf (read nothing (encode segment))
  matchPath_iff : ∀ pattern path values, matchPath pattern path = some values ↔
    Matches pattern (path.splitOn '/') values

/-- The service of a request with its values; any other request is not found. -/
def route (router : Router) (method : Method) (target : List ℕ) :
    Option (ServiceName × List (List Char)) :=
  match router.requestPath target with
  | '/' :: path => services.findSome? fun service =>
      if service.method = method then
        (router.matchPath service.pattern path).map fun values =>
          (service.name, values.map router.segmentValue)
      else none
  | _ => none

/-- The values of a pattern. -/
def matchSegments : List Segment → List (List Char) → Option (List (List Char))
  | [], [] => some []
  | .literal text :: pattern, s :: segments =>
      if s = text.toList then matchSegments pattern segments else none
  | .value :: pattern, s :: segments =>
      if s = [] then none else (matchSegments pattern segments).map (s :: ·)
  | _, _ => none

theorem matchSegments_of_matches {pattern : List Segment} {segments values : List (List Char)}
    (h : Matches pattern segments values) : matchSegments pattern segments = some values := by
  induction h with
  | nil => rfl
  | literal text h ih => rw [matchSegments, if_pos rfl, ih]
  | value hs h ih => rw [matchSegments, if_neg hs, ih, Option.map_some]

theorem matches_of_matchSegments {pattern : List Segment} {segments values : List (List Char)}
    (h : matchSegments pattern segments = some values) : Matches pattern segments values := by
  induction pattern generalizing segments values with
  | nil =>
      cases segments with
      | nil =>
          obtain rfl := Option.some.inj h
          exact .nil
      | cons s segments => cases h
  | cons first pattern ih =>
      cases segments with
      | nil => cases first <;> cases h
      | cons s segments =>
          cases first with
          | literal text =>
              obtain ⟨rfl, hrest⟩ := Option.ite_none_right_eq_some.mp h
              exact .literal text (ih hrest)
          | value =>
              obtain ⟨hs, hrest⟩ := Option.ite_none_left_eq_some.mp h
              obtain ⟨more, hmore, rfl⟩ := Option.map_eq_some_iff.mp hrest
              exact .value hs (ih hmore)

/-- A router that works as the library's does. -/
def actixRouter : Router where
  requestPath target := textOf (read isProtected target)
  segmentValue segment := textOf (read nothing (encode segment))
  matchPath pattern path := matchSegments pattern (path.splitOn '/')
  requestPath_eq _ := rfl
  segmentValue_eq _ := rfl
  matchPath_iff _ _ _ := ⟨matches_of_matchSegments, matchSegments_of_matches⟩

theorem Router.matchPath_eq (router : Router) (pattern : List Segment) (path : List Char) :
    router.matchPath pattern path = matchSegments pattern (path.splitOn '/') := by
  ext values
  rw [router.matchPath_iff]
  exact ⟨matchSegments_of_matches, matches_of_matchSegments⟩

/-- All routers find the same services. -/
theorem route_eq (router : Router) (method : Method) (target : List ℕ) :
    route router method target = route actixRouter method target := by
  have hvalue : router.segmentValue = actixRouter.segmentValue :=
    funext fun segment => router.segmentValue_eq segment
  have hpath : router.requestPath target = actixRouter.requestPath target :=
    router.requestPath_eq target
  have hmatch : router.matchPath = actixRouter.matchPath :=
    funext₂ fun pattern path => router.matchPath_eq pattern path
  rw [route, route, hpath, hvalue, hmatch]

/-! The requests. -/

inductive Lookup where
  | podTraffic
  | podSyscalls
  | podByIp
  | podByName
  | podsOnNode
  | svcByIp
  deriving DecidableEq

def Lookup.segments : Lookup → String × String
  | podTraffic => ("pod", "traffic")
  | podSyscalls => ("pod", "syscalls")
  | podByIp => ("pod", "ip")
  | podByName => ("pod", "name")
  | podsOnNode => ("pod", "list")
  | svcByIp => ("svc", "ip")

def Lookup.service : Lookup → ServiceName
  | podTraffic => .getPodTrafficName
  | podSyscalls => .getPodSyscallName
  | podByIp => .getPodByIp
  | podByName => .getPodByName
  | podsOnNode => .getPodsByNode
  | svcByIp => .getSvcByIp

def joinSegments (segments : List (List ℕ)) : List ℕ := segments.flatMap (slash :: ·)

def lookupPath (lookup : Lookup) (value : List ℕ) : List ℕ :=
  joinSegments [encode lookup.segments.1.toList, encode lookup.segments.2.toList, value]

def encodeURIComponent (text : List Char) : List ℕ :=
  write (fun b => isAlphanumeric b || (encode "-_.!~*'()".toList).contains b) (encode text)

/-- `url.PathEscape` of the Go library. -/
def pathEscape (text : List Char) : List ℕ :=
  write (fun b => isAlphanumeric b || (encode "-_.~$&+=:@".toList).contains b) (encode text)

def singleDots : List (List ℕ) := [".", "%2e", "%2E"].map fun s => encode s.toList

def doubleDots : List (List ℕ) :=
  ["..", ".%2e", ".%2E", "%2e.", "%2E.", "%2e%2e", "%2e%2E", "%2E%2e", "%2E%2E"].map
    fun s => encode s.toList

/-- The segments of a path after those that are taken; a dot at the end leaves an empty one. -/
def resolveSegments (taken : List (List ℕ)) : List (List ℕ) → List (List ℕ)
  | [] => taken
  | s :: rest =>
      let last := if rest = [] then [[]] else []
      if s ∈ doubleDots then resolveSegments (taken.dropLast ++ last) rest
      else if s ∈ singleDots then resolveSegments (taken ++ last) rest
      else resolveSegments (taken ++ [s]) rest

/-- The path that `fetch` asks for. -/
def fetchPath (path : List ℕ) : List ℕ :=
  joinSegments (resolveSegments [] ((path.drop 1).splitOn slash))

def bridgeTarget (lookup : Lookup) (argument : List Char) : List ℕ :=
  fetchPath (lookupPath lookup (encodeURIComponent argument))

def advisorTarget (lookup : Lookup) (argument : List Char) : List ℕ :=
  lookupPath lookup (pathEscape argument)

theorem read_append_of_ne (leaves : ℕ → Bool) {a : List ℕ} (h : ∀ b ∈ a, b ≠ percent)
    (rest : List ℕ) : read leaves (a ++ rest) = a ++ read leaves rest := by
  induction a with
  | nil => rfl
  | cons b a ih =>
    have hrest := ih fun x hx => h x (List.mem_cons_of_mem _ hx)
    rw [List.cons_append, read_cons_of_ne leaves (h b List.mem_cons_self), hrest, List.cons_append]

/-- What stands in the place of a value. -/
structure Writes (keeps : ℕ → Bool) : Prop where
  percent : keeps percent = false
  slash : keeps slash = false

/-- The bytes that are not triples when the path is matched. -/
def standing (keeps : ℕ → Bool) (b : ℕ) : Bool := keeps b || !isProtected b

variable {keeps : ℕ → Bool}

theorem standing_percent (h : Writes keeps) : standing keeps percent = false := by
  simp [standing, h.percent, isProtected]

theorem standing_slash (h : Writes keeps) : standing keeps slash = false := by
  simp [standing, h.slash, isProtected]

theorem standing_of_ge {b : ℕ} (h : 128 ≤ b) : standing keeps b = true := by
  have hpercent : b ≠ percent := by
    unfold percent
    omega
  have hslash : b ≠ slash := by
    unfold slash
    omega
  have hplus : b ≠ plus := by
    unfold plus
    omega
  simp [standing, isProtected, hpercent, hslash, hplus]

theorem slash_notMem_writeChars (h : Writes keeps) (text : List Char) :
    '/' ∉ writeChars (standing keeps) text := by
  intro hmem
  obtain ⟨c, -, hc⟩ := List.mem_flatMap.mp hmem
  split_ifs at hc with hkept
  · obtain rfl := List.mem_singleton.mp hc
    have hstands : standing keeps slash = true := hkept.resolve_left (by decide)
    rw [standing_slash h] at hstands
    cases hstands
  · have hdigit {n : ℕ} (hn : n < 16) : '/' ≠ Char.ofNat (hexDigit n) := by
      intro heq
      have hbytes := congrArg encodeChar heq
      rw [encode_digit hn] at hbytes
      have hbounds := hexDigit_bounds hn
      have hslash : hexDigit n = 0x2f := (List.cons.inj hbytes).1.symm
      omega
    have hlt : c.toNat < 128 := by
      by_contra hge
      exact hkept (Or.inl (by omega))
    simp only [charTriple, List.mem_cons, List.not_mem_nil, or_false] at hc
    obtain hsign | hhigh | hlow := hc
    · cases hsign
    · exact hdigit (by omega) hhigh
    · exact hdigit (by omega) hlow

theorem writeChars_eq_nil_iff (text : List Char) : writeChars keeps text = [] ↔ text = [] := by
  constructor
  · intro h
    cases text with
    | nil => rfl
    | cons c rest =>
      simp only [writeChars, List.flatMap_cons, List.append_eq_nil_iff] at h
      have hfirst := h.1
      split_ifs at hfirst
      cases hfirst
  · rintro rfl
    rfl

/-- The value of a segment is the text that was written. -/
theorem segmentValue_writeChars (router : Router) (h : Writes keeps) (text : List Char) :
    router.segmentValue (writeChars (standing keeps) text) = text := by
  have hlt : ∀ b ∈ encode text, b < 256 := fun b hb => lt_of_mem_encode hb
  rw [router.segmentValue_eq, ← write_encode _ fun b hb => standing_of_ge hb,
    read_nothing_write _ (standing_percent h) hlt, textOf_encode]

theorem requestPath_lookupPath (router : Router) (h : Writes keeps) (lookup : Lookup)
    (argument : List Char) :
    router.requestPath (lookupPath lookup (write keeps (encode argument))) =
      '/' :: (lookup.segments.1.toList ++ '/' :: (lookup.segments.2.toList ++
        '/' :: writeChars (standing keeps) argument)) := by
  have hlt : ∀ b ∈ encode argument, b < 256 := fun b hb => lt_of_mem_encode hb
  have hread : read isProtected (write keeps (encode argument)) =
      encode (writeChars (standing keeps) argument) := by
    rw [read_write isProtected keeps h.percent hlt, ← write_encode _ fun b hb => standing_of_ge hb]
    rfl
  have hsplit : lookupPath lookup (write keeps (encode argument)) =
      joinSegments [encode lookup.segments.1.toList, encode lookup.segments.2.toList, []] ++
        write keeps (encode argument) := by
    simp [lookupPath, joinSegments]
  have hclean : ∀ b ∈ joinSegments
      [encode lookup.segments.1.toList, encode lookup.segments.2.toList, []], b ≠ percent := by
    cases lookup <;> decide
  have htext : joinSegments [encode lookup.segments.1.toList, encode lookup.segments.2.toList, []] =
      encode ('/' :: (lookup.segments.1.toList ++ '/' :: (lookup.segments.2.toList ++ ['/']))) := by
    simp [joinSegments, encode]
    rfl
  rw [router.requestPath_eq, hsplit, read_append_of_ne _ hclean, hread, htext, ← encode_append,
    textOf_encode]
  simp

theorem splitOn_three {α : Type} [DecidableEq α] {sep : α} {first second last : List α}
    (hfirst : sep ∉ first) (hsecond : sep ∉ second) (hlast : sep ∉ last) :
    (first ++ sep :: (second ++ sep :: last)).splitOn sep = [first, second, last] := by
  have hapart : ∀ s ∈ [first, second, last], sep ∉ s := by
    intro s hs
    simp only [List.mem_cons, List.not_mem_nil, or_false] at hs
    obtain rfl | rfl | rfl := hs
    · exact hfirst
    · exact hsecond
    · exact hlast
  have hjoin := List.splitOn_intercalate sep hapart (by simp)
  simpa [List.intercalate, List.intersperse] using hjoin

theorem splitOn_lookup (lookup : Lookup) {last : List Char} (h : '/' ∉ last) :
    (lookup.segments.1.toList ++ '/' :: (lookup.segments.2.toList ++ '/' :: last)).splitOn '/' =
      [lookup.segments.1.toList, lookup.segments.2.toList, last] :=
  splitOn_three (by cases lookup <;> decide) (by cases lookup <;> decide) h

theorem route_lookupPath (router : Router) (h : Writes keeps) (lookup : Lookup)
    (argument : List Char) :
    route router .get (lookupPath lookup (write keeps (encode argument))) =
      if argument = [] then none else some (lookup.service, [argument]) := by
  rw [route_eq]
  have hvalue := segmentValue_writeChars actixRouter h argument
  have hempty : writeChars (standing keeps) argument = [] ↔ argument = [] :=
    writeChars_eq_nil_iff argument
  simp only [route, requestPath_lookupPath actixRouter h, actixRouter.matchPath_eq,
    splitOn_lookup lookup (slash_notMem_writeChars h argument)]
  generalize writeChars (standing keeps) argument = segment at hvalue hempty
  by_cases hargument : argument = []
  · obtain rfl := hempty.mpr hargument
    subst hargument
    cases lookup <;> decide
  · have hsegment : segment ≠ [] := fun hs => hargument (hempty.mp hs)
    rw [if_neg hargument]
    cases lookup <;>
      simp [services, matchSegments, Lookup.segments, Lookup.service, hsegment, hvalue]

theorem resolveSegments_of_plain (taken : List (List ℕ)) {segments : List (List ℕ)}
    (h : ∀ s ∈ segments, s ∉ doubleDots ∧ s ∉ singleDots) :
    resolveSegments taken segments = taken ++ segments := by
  induction segments generalizing taken with
  | nil => simp [resolveSegments]
  | cons s rest ih =>
    obtain ⟨hdouble, hsingle⟩ := h s List.mem_cons_self
    rw [resolveSegments, if_neg hdouble, if_neg hsingle,
      ih _ fun x hx => h x (List.mem_cons_of_mem _ hx)]
    simp

/-- A written text is a dot or two only as itself. -/
theorem notMem_dots (hpercent : keeps percent = false) {text : List Char}
    (hone : text ≠ ['.']) (htwo : text ≠ ['.', '.']) :
    write keeps (encode text) ∉ doubleDots ∧ write keeps (encode text) ∉ singleDots := by
  have hlt : ∀ b ∈ encode text, b < 256 := fun b hb => lt_of_mem_encode hb
  have hread := read_nothing_write keeps hpercent hlt
  have hdouble : ∀ s ∈ doubleDots, textOf (read nothing s) = ['.', '.'] := by decide
  have hsingle : ∀ s ∈ singleDots, textOf (read nothing s) = ['.'] := by decide
  constructor
  · intro hmem
    have htext := hdouble _ hmem
    rw [hread, textOf_encode] at htext
    exact htwo htext
  · intro hmem
    have htext := hsingle _ hmem
    rw [hread, textOf_encode] at htext
    exact hone htext

theorem splitOn_lookupPath (lookup : Lookup) {value : List ℕ} (h : slash ∉ value) :
    ((lookupPath lookup value).drop 1).splitOn slash =
      [encode lookup.segments.1.toList, encode lookup.segments.2.toList, value] := by
  have hpath : (lookupPath lookup value).drop 1 = encode lookup.segments.1.toList ++
      slash :: (encode lookup.segments.2.toList ++ slash :: value) := by
    simp [lookupPath, joinSegments]
  rw [hpath]
  exact splitOn_three (by cases lookup <;> decide) (by cases lookup <;> decide) h

theorem slash_notMem_write (h : Writes keeps) (text : List Char) :
    slash ∉ write keeps (encode text) := by
  have hlt : ∀ b ∈ encode text, b < 256 := fun b hb => lt_of_mem_encode hb
  intro hmem
  obtain ⟨-, hkeep⟩ | hsign | halpha := mem_write hlt hmem
  · rw [h.slash] at hkeep
    cases hkeep
  · cases hsign
  · cases halpha

/-- Where the argument is not made of dots, the path is asked for as it was written. -/
theorem fetchPath_lookupPath (h : Writes keeps) (lookup : Lookup) {argument : List Char}
    (hone : argument ≠ ['.']) (htwo : argument ≠ ['.', '.']) :
    fetchPath (lookupPath lookup (write keeps (encode argument))) =
      lookupPath lookup (write keeps (encode argument)) := by
  have hplain : ∀ s ∈ [encode lookup.segments.1.toList, encode lookup.segments.2.toList,
      write keeps (encode argument)], s ∉ doubleDots ∧ s ∉ singleDots := by
    intro s hs
    simp only [List.mem_cons, List.not_mem_nil, or_false] at hs
    obtain rfl | rfl | rfl := hs
    · cases lookup <;> decide
    · cases lookup <;> decide
    · exact notMem_dots h.percent hone htwo
  rw [fetchPath, splitOn_lookupPath lookup (slash_notMem_write h argument),
    resolveSegments_of_plain [] hplain]
  rfl

/-- A lookup reaches its service with the very argument, whatever its characters; the
assistant's is not found where the argument is empty, a dot or two, the advisor's only
where it is empty. -/
theorem lookups_reach (router : Router) (lookup : Lookup) (argument : List Char) :
    route router .get (bridgeTarget lookup argument) =
        (if argument = [] ∨ argument = ['.'] ∨ argument = ['.', '.'] then none
          else some (lookup.service, [argument])) ∧
      route router .get (advisorTarget lookup argument) =
        if argument = [] then none else some (lookup.service, [argument]) := by
  have hbridge : Writes fun b => isAlphanumeric b || (encode "-_.!~*'()".toList).contains b :=
    ⟨by decide, by decide⟩
  have hadvisor : Writes fun b => isAlphanumeric b || (encode "-_.~$&+=:@".toList).contains b :=
    ⟨by decide, by decide⟩
  refine ⟨?_, route_lookupPath router hadvisor lookup argument⟩
  by_cases hone : argument = ['.']
  · subst hone
    rw [route_eq]
    cases lookup <;> decide
  by_cases htwo : argument = ['.', '.']
  · subst htwo
    rw [route_eq]
    cases lookup <;> decide
  simp only [hone, htwo, or_false]
  rw [bridgeTarget, encodeURIComponent, fetchPath_lookupPath hbridge lookup hone htwo]
  exact route_lookupPath router hbridge lookup argument

/-- A slash in the argument does not part the path. -/
theorem slashed_reached :
    route actixRouter .get (bridgeTarget .podByName ['a', '/', 'b']) =
        some (.getPodByName, [['a', '/', 'b']]) ∧
      route actixRouter .get (advisorTarget .podByName ['a', '/', 'b']) =
        some (.getPodByName, [['a', '/', 'b']]) := by
  have hreach := lookups_reach actixRouter .podByName ['a', '/', 'b']
  rwa [if_neg (by decide), if_neg (by decide)] at hreach

end KGuardian.BrokerRoutes
