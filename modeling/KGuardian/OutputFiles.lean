import KGuardian.JoinedNames
import Mathlib.Data.List.AList
import Mathlib.Data.List.Lemmas

/-!
The files that the advisor writes for a batch of resources: policies by `saveToFile` in
`pkg/common/util.go`, profiles by `GenerateSeccompProfile` in `pkg/k8s/seccomp.go`, and promoted
policies by `promoteList` in `cmd/audit.go`. A file name joins a namespace and a name by a dash,
or has the name alone. The files of a batch are kept apart exactly when no two of its resources
are confused by this.
-/
namespace KGuardian.OutputFiles

open JoinedNames

/-! Paths as `path/filepath` makes them. -/

/-- The elements of a cleaned path, the last one first. -/
def cleanStep (rooted : Bool) (out : List (List Char)) (elem : List Char) : List (List Char) :=
  if elem = [] ∨ elem = ['.'] then out
  else if elem = ['.', '.'] then
    match out with
    | [] => if rooted then [] else [elem]
    | top :: rest => if top = ['.', '.'] then elem :: out else rest
  else elem :: out

def cleanElements (rooted : Bool) (elements : List (List Char)) : List Char :=
  let out := (elements.foldl (cleanStep rooted) []).reverse
  if rooted then '/' :: ['/'].intercalate out
  else if out = [] then ['.']
  else ['/'].intercalate out

def clean (path : List Char) : List Char :=
  cleanElements (path.head? = some '/') (path.splitOn '/')

/-- `filepath.Join` of a directory and a file name. -/
def joinPath (dir base : List Char) : List Char :=
  if dir = [] then clean base else clean (dir ++ '/' :: base)

/-! Resources and their files. -/

def isNameChar (c : Char) : Bool := c.isLower || c.isDigit || c = '-' || c = '.'

/-- A namespace and a name of characters that the API server allows. -/
structure ResourceId where
  ns : List Char
  name : List Char
  valid : (ns ++ name).all isNameChar = true
  deriving DecidableEq

structure Resource where
  id : ResourceId
  content : List Char

inductive PolicyType where
  | standard
  | cilium

def PolicyType.text : PolicyType → List Char
  | .standard => "standard".toList
  | .cilium => "cilium".toList

/-- The files by their paths. A file that is there is overwritten. -/
abbrev Disk := AList fun _ : List Char => List Char

/-- The file name of `saveToFile`: namespace, name and resource type. -/
def resourcePath (outputDir resourceType : List Char) (id : ResourceId) : List Char :=
  joinPath outputDir
    (id.ns ++ '-' :: (id.name ++ '-' :: (resourceType ++ ".yaml".toList)))

def policyPath (outputDir : List Char) (type : PolicyType) (id : ResourceId) : List Char :=
  resourcePath outputDir (type.text ++ "-networkpolicy".toList) id

def profilePath (outputDir : List Char) (id : ResourceId) : List Char :=
  joinPath outputDir (id.name ++ "-seccomp.json".toList)

def promotedPath (promoteOutputDir : List Char) (id : ResourceId) : List Char :=
  promoteOutputDir ++ '/' :: (id.ns ++ '-' :: (id.name ++ ".yaml".toList))

def write (path : ResourceId → List Char) (disk : Disk) (r : Resource) : Disk :=
  disk.insert (path r.id) r.content

/-- Pods for which nothing was generated are passed over. Without a directory nothing is
saved. -/
def batchGenerateAndHandlePolicies (outputDir : List Char) (type : PolicyType)
    (outputs : List (Option Resource)) (disk : Disk) : Disk :=
  if outputDir = [] then disk
  else
    outputs.foldl (fun disk output => output.elim disk (write (policyPath outputDir type) disk))
      disk

/-- Pods without syscalls are passed over. -/
def generateSeccompProfile (outputDir : List Char) (profiles : List (Option Resource))
    (disk : Disk) : Disk :=
  let outputDir := if outputDir = [] then "seccomp-profiles".toList else outputDir
  profiles.foldl (fun disk profile => profile.elim disk (write (profilePath outputDir) disk)) disk

/-- Without a directory the policies go to the standard output. -/
def promoteList (promoteOutputDir : List Char) (items : List Resource) (disk : Disk) : Disk :=
  if promoteOutputDir = [] then disk
  else items.foldl (write (promotedPath promoteOutputDir)) disk

/-! What a batch should leave. -/

inductive Kind where
  | networkPolicy (type : PolicyType)
  | seccompProfile
  | promotedPolicy

/-- A directory that was asked for. -/
abbrev OutputDir := {dir : List Char // dir ≠ []}

def Kind.path (kind : Kind) (dir : OutputDir) : ResourceId → List Char :=
  match kind with
  | .networkPolicy type => policyPath dir type
  | .seccompProfile => profilePath dir
  | .promotedPolicy => promotedPath dir

/-- The outputs of one run: those that were generated have different namespaces or names. -/
structure Batch where
  outputs : List (Option Resource)
  distinct : (outputs.reduceOption.map Resource.id).Nodup

def Batch.resources (batch : Batch) : List Resource := batch.outputs.reduceOption

def Kind.run (kind : Kind) (dir : OutputDir) (batch : Batch) : Disk :=
  match kind with
  | .networkPolicy type => batchGenerateAndHandlePolicies dir type batch.outputs ∅
  | .seccompProfile => generateSeccompProfile dir batch.outputs ∅
  | .promotedPolicy => promoteList dir batch.resources ∅

/-- Different resources have different files, each resource has one, and none is overwritten. -/
structure Separate (kind : Kind) (dir : OutputDir) (batch : Batch) : Prop where
  injective : ∀ r ∈ batch.resources, ∀ r' ∈ batch.resources, r.id ≠ r'.id →
    kind.path dir r.id ≠ kind.path dir r'.id
  files : (kind.run dir batch).keys.length = batch.resources.length
  kept : ∀ r ∈ batch.resources, (kind.run dir batch).lookup (kind.path dir r.id) = some r.content

def ResourceId.parts (id : ResourceId) : List Char × List Char := (id.ns, id.name)

/-- Two resources whose files would be one: pods of one name in two namespaces for a profile, and
for a policy a namespace that goes on where another one ends, with what the other's name starts
with. -/
def Kind.Confused (kind : Kind) (a b : ResourceId) : Prop :=
  match kind with
  | .seccompProfile => a.ns ≠ b.ns ∧ a.name = b.name
  | _ => Shifted '-' a.parts b.parts

/-! Paths of one directory. -/

/-- A file name that a cleaned path keeps as its last element. -/
structure Simple (base : List Char) : Prop where
  noSlash : '/' ∉ base
  nonempty : base ≠ []
  noDot : base ≠ ['.']
  noDots : base ≠ ['.', '.']

theorem exists_intercalate (sep : List Char) (l : List (List Char)) :
    ∃ before, ∀ last, sep.intercalate (l ++ [last]) = before ++ last := by
  induction l with
  | nil => exact ⟨[], fun last => List.intercalate_singleton⟩
  | cons x l ih =>
      obtain ⟨before, hbefore⟩ := ih
      refine ⟨x ++ sep ++ before, fun last => ?_⟩
      rw [List.cons_append, List.intercalate_cons_of_ne_nil (by simp), hbefore]
      simp only [List.append_assoc]

/-- Paths that differ in a simple last element have one beginning. -/
theorem exists_cleanElements (rooted : Bool) (elements : List (List Char)) :
    ∃ before, ∀ base, Simple base → cleanElements rooted (elements ++ [base]) = before ++ base := by
  obtain ⟨before, hbefore⟩ :=
    exists_intercalate ['/'] (elements.foldl (cleanStep rooted) []).reverse
  refine ⟨if rooted then '/' :: before else before, fun base h => ?_⟩
  have hstep (out : List (List Char)) : cleanStep rooted out base = base :: out := by
    unfold cleanStep
    rw [if_neg (not_or.mpr ⟨h.nonempty, h.noDot⟩), if_neg h.noDots]
  unfold cleanElements
  dsimp only
  rw [List.foldl_concat, hstep, List.reverse_cons, hbefore]
  cases rooted with
  | true => rfl
  | false => simp

theorem exists_joinPath {dir : List Char} (hdir : dir ≠ []) :
    ∃ before, ∀ base, Simple base → joinPath dir base = before ++ base := by
  obtain ⟨before, hbefore⟩ := exists_cleanElements (dir.head? = some '/') (dir.splitOn '/')
  refine ⟨before, fun base h => ?_⟩
  have hhead : (dir ++ '/' :: base).head? = dir.head? := by
    cases dir with
    | nil => exact absurd rfl hdir
    | cons c rest => rfl
  have hbase : base.splitOn '/' = [base] := by
    apply List.splitOnP_eq_singleton
    intro c hc
    rw [beq_eq_false_iff_ne]
    rintro rfl
    exact h.noSlash hc
  have hsplit : (dir ++ '/' :: base).splitOn '/' = dir.splitOn '/' ++ [base] := by
    rw [← hbase]
    exact List.splitOnP_append_cons dir base (by simp)
  rw [joinPath, if_neg hdir, clean, hhead, hsplit, hbefore base h]

theorem joinPath_inj {dir base base' : List Char} (hdir : dir ≠ []) (h : Simple base)
    (h' : Simple base') : joinPath dir base = joinPath dir base' ↔ base = base' := by
  obtain ⟨before, hbefore⟩ := exists_joinPath hdir
  rw [hbefore base h, hbefore base' h', List.append_cancel_left_eq]

theorem noSlash_of_nameChars {text : List Char} (h : text.all isNameChar = true) :
    '/' ∉ text := by
  intro hslash
  exact absurd (List.all_eq_true.mp h '/' hslash) (by decide)

/-- Names and a fixed end with a dash make a simple file name. -/
theorem simple_append {names ending : List Char} (h : names.all isNameChar = true)
    (hslash : '/' ∉ ending) (hdash : '-' ∈ ending) : Simple (names ++ ending) := by
  have hmem : '-' ∈ names ++ ending := List.mem_append_right names hdash
  refine ⟨?_, ?_, ?_, ?_⟩
  · rw [List.mem_append]
    exact not_or.mpr ⟨noSlash_of_nameChars h, hslash⟩
  · exact List.ne_nil_of_mem hmem
  · intro hdot
    rw [hdot] at hmem
    exact absurd hmem (by decide)
  · intro hdots
    rw [hdots] at hmem
    exact absurd hmem (by decide)

/-! Files of one kind. -/

theorem ResourceId.ext_iff {a b : ResourceId} : a = b ↔ a.ns = b.ns ∧ a.name = b.name := by
  cases a
  cases b
  simp

theorem parts_eq_iff {a b : ResourceId} : a.parts = b.parts ↔ a = b := by
  rw [ResourceId.ext_iff, ResourceId.parts, ResourceId.parts, Prod.mk.injEq]

theorem join_append (id : ResourceId) (ending : List Char) :
    join '-' id.parts ++ ending = id.ns ++ '-' :: (id.name ++ ending) := by
  rw [join, List.append_assoc, List.cons_append]
  rfl

theorem all_join (id : ResourceId) : (join '-' id.parts).all isNameChar = true := by
  have hvalid := id.valid
  rw [List.all_append, Bool.and_eq_true] at hvalid
  rw [join, List.all_append, List.all_cons, Bool.and_eq_true]
  exact ⟨hvalid.1, by simpa [isNameChar, ResourceId.parts] using hvalid.2⟩

theorem policyPath_eq_iff {dir : List Char} (hdir : dir ≠ []) (type : PolicyType)
    (a b : ResourceId) :
    policyPath dir type a = policyPath dir type b ↔ join '-' a.parts = join '-' b.parts := by
  have hslash : '/' ∉ '-' :: (type.text ++ "-networkpolicy".toList ++ ".yaml".toList) := by
    cases type <;> decide
  have hsimple (id : ResourceId) := simple_append (all_join id) hslash List.mem_cons_self
  unfold policyPath resourcePath
  rw [← join_append, ← join_append, joinPath_inj hdir (hsimple a) (hsimple b),
    List.append_cancel_right_eq]

theorem profilePath_eq_iff {dir : List Char} (hdir : dir ≠ []) (a b : ResourceId) :
    profilePath dir a = profilePath dir b ↔ a.name = b.name := by
  have hname (id : ResourceId) : id.name.all isNameChar = true := by
    have hvalid := id.valid
    rw [List.all_append, Bool.and_eq_true] at hvalid
    exact hvalid.2
  have hsimple (id : ResourceId) : Simple (id.name ++ "-seccomp.json".toList) :=
    simple_append (hname id) (by decide) (by decide)
  rw [profilePath, profilePath, joinPath_inj hdir (hsimple a) (hsimple b),
    List.append_cancel_right_eq]

theorem promotedPath_eq_iff (dir : List Char) (a b : ResourceId) :
    promotedPath dir a = promotedPath dir b ↔ join '-' a.parts = join '-' b.parts := by
  unfold promotedPath
  rw [← join_append, ← join_append, List.append_cancel_left_eq, List.cons.injEq,
    and_iff_right rfl, List.append_cancel_right_eq]

/-- Two resources of one kind have one file exactly when they are equal or confused. -/
theorem path_eq_iff (kind : Kind) (dir : OutputDir) (a b : ResourceId) :
    kind.path dir a = kind.path dir b ↔ a = b ∨ kind.Confused a b ∨ kind.Confused b a := by
  have hjoin : join '-' a.parts = join '-' b.parts ↔
      a = b ∨ Shifted '-' a.parts b.parts ∨ Shifted '-' b.parts a.parts := by
    rw [join_eq_iff, parts_eq_iff]
  cases kind with
  | networkPolicy type => exact (policyPath_eq_iff dir.2 type a b).trans hjoin
  | promotedPolicy => exact (promotedPath_eq_iff dir a b).trans hjoin
  | seccompProfile =>
      refine (profilePath_eq_iff dir.2 a b).trans ?_
      constructor
      · intro hname
        by_cases hns : a.ns = b.ns
        · exact .inl (ResourceId.ext_iff.mpr ⟨hns, hname⟩)
        · exact .inr (.inl ⟨hns, hname⟩)
      · rintro (rfl | ⟨-, hname⟩ | ⟨-, hname⟩)
        · rfl
        · exact hname
        · exact hname.symm

theorem ne_of_confused {kind : Kind} {a b : ResourceId} (h : kind.Confused a b) : a ≠ b := by
  rintro rfl
  cases kind with
  | networkPolicy type => exact Shifted.ne h rfl
  | promotedPolicy => exact Shifted.ne h rfl
  | seccompProfile => exact h.1 rfl

/-! What is on the disk after a batch. -/

section Disk

variable {path : ResourceId → List Char}

/-- Passing over a pod is leaving it out. -/
theorem foldl_elim (outputs : List (Option Resource)) (disk : Disk) :
    outputs.foldl (fun disk output => output.elim disk (write path disk)) disk =
      outputs.reduceOption.foldl (write path) disk := by
  induction outputs generalizing disk with
  | nil => rfl
  | cons output outputs ih =>
      cases output with
      | none => exact ih disk
      | some r => exact ih (write path disk r)

theorem lookup_writes_of_notMem {resources : List Resource} {file : List Char}
    (h : file ∉ resources.map fun r => path r.id) (disk : Disk) :
    (resources.foldl (write path) disk).lookup file = disk.lookup file := by
  induction resources generalizing disk with
  | nil => rfl
  | cons r resources ih =>
      rw [List.map_cons, List.mem_cons, not_or] at h
      rw [List.foldl_cons, ih h.2, write, AList.lookup_insert_ne h.1]

/-- With different paths each resource keeps its file. -/
theorem lookup_writes {resources : List Resource}
    (h : (resources.map fun r => path r.id).Nodup) (disk : Disk) :
    ∀ r ∈ resources, (resources.foldl (write path) disk).lookup (path r.id) = some r.content := by
  induction resources generalizing disk with
  | nil => exact fun r hr => absurd hr List.not_mem_nil
  | cons first resources ih =>
      rw [List.map_cons, List.nodup_cons] at h
      intro r hr
      obtain rfl | hlater := List.mem_cons.mp hr
      · rw [List.foldl_cons, lookup_writes_of_notMem h.1, write, AList.lookup_insert]
      · exact ih h.2 _ r hlater

theorem length_writes {resources : List Resource} {disk : Disk}
    (h : (resources.map fun r => path r.id).Nodup) (hnew : ∀ r ∈ resources, path r.id ∉ disk) :
    (resources.foldl (write path) disk).keys.length = disk.keys.length + resources.length := by
  induction resources generalizing disk with
  | nil => rfl
  | cons first resources ih =>
      rw [List.map_cons, List.nodup_cons] at h
      obtain ⟨hfirst, hrest⟩ := List.forall_mem_cons.mp hnew
      have hnext : ∀ r ∈ resources, path r.id ∉ write path disk first := by
        intro r hr
        rw [write, AList.mem_insert, not_or]
        exact ⟨fun heq => h.1 (heq ▸ List.mem_map_of_mem hr), hrest r hr⟩
      have hlength : (write path disk first).keys.length = disk.keys.length + 1 := by
        show ((disk.insert _ _).entries.map _).length = _
        rw [AList.entries_insert_of_notMem hfirst, List.map_cons, List.length_cons]
        rfl
      rw [List.foldl_cons, ih h.2 hnext, hlength, List.length_cons]
      omega

end Disk

theorem run_eq (kind : Kind) (dir : OutputDir) (batch : Batch) :
    kind.run dir batch = batch.resources.foldl (write (kind.path dir)) ∅ := by
  obtain ⟨dir, hdir⟩ := dir
  cases kind with
  | networkPolicy type =>
      show batchGenerateAndHandlePolicies _ _ _ _ = _
      rw [batchGenerateAndHandlePolicies, if_neg hdir, foldl_elim]
      rfl
  | seccompProfile =>
      show generateSeccompProfile _ _ _ = _
      rw [generateSeccompProfile, if_neg hdir, foldl_elim]
      rfl
  | promotedPolicy =>
      show promoteList _ _ _ = _
      rw [promoteList, if_neg hdir]
      rfl

def teamResource (ns name content : String)
    (valid : (ns.toList ++ name.toList).all isNameChar = true) : Resource :=
  ⟨⟨ns.toList, name.toList, valid⟩, content.toList⟩

def teamBatch : Batch where
  outputs := [some (teamResource "team" "a-web" "first" (by decide)),
    some (teamResource "team-a" "web" "second" (by decide))]
  distinct := by decide

end KGuardian.OutputFiles
