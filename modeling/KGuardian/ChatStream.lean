import KGuardian.ChatFrames
import KGuardian.Ledgers
import KGuardian.Runs
import KGuardian.ToolResults

/-!
The chat stream (`llm-bridge/src/index.ts` and `providers/anthropic.ts`): the rounds of the
model, the tools that run side by side between them, and what the route makes of an
exception. The client can go away between any two steps.
-/
namespace KGuardian.ChatStream

open JsJson ToolResults Ledgers Runs
open ChatFrames (StreamEvent)

def maxToolRounds : ℕ := 10

def defaultModel : JsString := js "claude-opus-4-8"

def streamMaxTokens : ℕ := 16000

/-! Requests and messages. -/

inductive Role where
  | user
  | assistant
  | system
  deriving DecidableEq

structure ChatRequest where
  message : JsString
  model : Option JsString
  history : List (Role × JsString)

structure ToolUse where
  id : JsString
  name : JsString

inductive Block where
  | text (text : JsString)
  | thinking (text : JsString)
  | toolUse (use : ToolUse)

inductive StopReason where
  | refusal
  | maxTokens
  | other

/-- A completed message of the model. -/
structure Message where
  content : List Block
  stopReason : StopReason
  model : JsString

structure ToolResultBlock where
  toolUseId : JsString
  content : JsString
  isError : Bool

/-- A turn is a text, an answer of the model as it was, or the results of its tools. -/
inductive Turn where
  | text (role : Role) (content : JsString)
  | answer (content : List Block)
  | results (blocks : List ToolResultBlock)

/-- What is sent to the model, beside the system prompt. Thinking is adaptive or not asked for. -/
structure ModelRequest where
  model : JsString
  maxTokens : ℕ
  messages : List Turn
  thinking : Bool
  withTools : Bool

def buildMessages (request : ChatRequest) : List Turn :=
  (request.history.filter fun p => p.1 ≠ .system).map (fun p => .text p.1 p.2) ++
    [.text .user request.message]

def modelOf (request : ChatRequest) : JsString :=
  if (request.model.getD []).isEmpty then defaultModel else request.model.getD []

def toolUsesOf (content : List Block) : List ToolUse :=
  content.filterMap fun
    | .toolUse use => some use
    | _ => none

def isSpaceUnit (u : UInt16) : Bool := JsText.isSpace (Char.ofNat u.toNat)

def trim (s : JsString) : JsString :=
  ((s.dropWhile isSpaceUnit).reverse.dropWhile isSpaceUnit).reverse

def textOf (message : Message) : JsString :=
  trim ((js "\n").intercalate (message.content.filterMap fun
    | .text text => some text
    | _ => none))

def fallbackFor (message : Message) : JsString :=
  match message.stopReason with
  | .refusal => js "I can't help with that request."
  | .maxTokens =>
      js "The response was cut off because it hit the length limit. " ++
        js "Please narrow the question or ask for a shorter answer."
  | .other => js "No response from Claude"

/-! The tools. -/

def toolNames : List JsString :=
  [js "get_pod_network_traffic", js "get_pod_syscalls", js "get_pod_details",
    js "get_service_details", js "get_cluster_traffic", js "get_cluster_pods",
    js "get_pod_details_by_name", js "list_services", js "get_pods_on_node",
    js "get_audit_verdicts", js "generate_network_policy", js "generate_seccomp_profile"]

def isNamespace : Option Json → Bool
  | none => true
  | some .null => true
  | some (.str _) => true
  | _ => false

/-- A row of the broker: an object in which a namespace is a text or missing. -/
def isRow : Json → Bool
  | .obj fields =>
      isNamespace (property (js "pod_namespace") fields) &&
        isNamespace (property (js "svc_namespace") fields)
  | _ => false

/-- What a handler makes of the answers of the broker, whose lists are rows of its tables. -/
structure Served where
  data : Json
  bounded : (rawText data).length < 2 ^ 53
  rows : ∀ items, data = .arr items → items.all isRow = true

inductive Outcome where
  | threw (message : JsString)
  | returned (served : Served)

theorem bounded_null : (rawText .null).length < 2 ^ 53 := by decide

/-- A tool that fails has a result, too. -/
def failed (error : JsString) : ToolResult := ⟨.null, some error, bounded_null⟩

def executeTool (name : JsString) (outcome : Outcome) : ToolResult :=
  if toolNames.contains name then
    match outcome with
    | .threw message =>
        failed (js "error executing " ++ name ++ js ": " ++ message)
    | .returned served => ⟨served.data, none, served.bounded⟩
  else failed (js "unknown tool: " ++ name)

/-! Exceptions. -/

/-- The message is missing where something else than an error is thrown. -/
structure Thrown where
  message : Option JsString
  status : Option ℕ

inductive SdkError where
  | api (message : JsString) (status : Option ℕ)
  | other (message : JsString)

def toCleanError : SdkError → Thrown
  | .api message status =>
      let detail :=
        if message.isEmpty then
          js "status " ++
            match status with
            | none => js "undefined"
            | some n => JsString.ofText (natText n)
        else message
      ⟨some (js "Anthropic API error: " ++ detail), status⟩
  | .other message => ⟨some (js "Anthropic request failed: " ++ message), none⟩

def Thrown.detail (error : Thrown) : JsString :=
  if error.status = some 429 then
    js "The AI provider is rate-limiting requests right now. Please retry in a few seconds."
  else if error.status = some 529 || error.status = some 503 then
    js "The AI provider is temporarily overloaded. Please retry in a few seconds."
  else error.message.getD (js "An internal error occurred")

/-! The route. -/

/-- A call of a tool, with its block once it has come back. -/
structure ToolCall where
  use : ToolUse
  block : Option ToolResultBlock

inductive Phase where
  | setup
  | head (round : ℕ)
  | streaming (round : ℕ)
  | tools (round : ℕ) (calls : List ToolCall)
  | throwing (error : Thrown) (calls : List ToolCall)
  | ended

structure Stream where
  events : List StreamEvent
  messages : List Turn
  requests : List ModelRequest
  aborted : Bool
  phase : Phase

def Stream.emit (s : Stream) (events : List StreamEvent) : Stream :=
  { s with events := s.events ++ events }

def Stream.goto (s : Stream) (phase : Phase) : Stream := { s with phase := phase }

def Stream.push (s : Stream) (turn : Turn) : Stream :=
  { s with messages := s.messages ++ [turn] }

def Stream.ask (s : Stream) (asked : ModelRequest) : Stream :=
  { s with requests := s.requests ++ [asked] }

inductive Delta where
  | text (delta : JsString)
  | thinking (delta : JsString)

def Delta.event : Delta → StreamEvent
  | .text delta => .text delta
  | .thinking delta => .thinking delta

/-- What happens next, each as one step. -/
inductive Input where
  | abort
  | setupFails (error : Thrown)
  | setupDone
  | check
  | delta (d : Delta)
  | sdkError (error : SdkError)
  | finish (message : Message)
  | toolDone (index : ℕ) (outcome : Outcome)
  | roundDone
  | caught

/-- The end of a message without tools. -/
def Stream.conclude (s : Stream) (message : Message) : Stream :=
  (s.emit ((if (textOf message).isEmpty then [.text (fallbackFor message)] else []) ++
    [.done message.model])).goto .ended

/-- The start of a round of tools. -/
def Stream.startTools (s : Stream) (round : ℕ) (content : List Block) : Stream :=
  ((s.push (.answer content)).emit ((toolUsesOf content).map fun use =>
    .toolUse use.name use.id)).goto (.tools round ((toolUsesOf content).map fun use => ⟨use, none⟩))

def succeeded (result : ToolResult) : Bool := (result.error.getD []).isEmpty

def Stream.announce (s : Stream) (use : ToolUse) (result : ToolResult) : Stream :=
  s.emit [.toolResult use.name (succeeded result)]

def blockOf (use : ToolUse) (result : ToolResult) (out : Serialized) : ToolResultBlock :=
  ⟨use.id, out.string, !succeeded result⟩

/-- The results, if all calls have come back. -/
def blocksOf (calls : List ToolCall) : Option (List ToolResultBlock) :=
  calls.mapM ToolCall.block

-- What the runtime throws when a result cannot be made a string.
variable (typeError : ToolResult → Thrown)

/-- A tool that has come back in its round. -/
def afterTool (round : ℕ) (calls : List ToolCall) (index : ℕ) (use : ToolUse)
    (result : ToolResult) : Phase :=
  match serializeToolResult result with
  | some out => .tools round (calls.set index ⟨use, some (blockOf use result out)⟩)
  | none => .throwing (typeError result) (calls.eraseIdx index)

def step (request : ChatRequest) (s : Stream) (input : Input) : Option Stream :=
  match s.phase, input with
  | .ended, _ => none
  | _, .abort => some { s with aborted := true }
  | .setup, .setupFails error => some (s.goto (.throwing error []))
  | .setup, .setupDone => some ({ s with messages := buildMessages request }.goto (.head 0))
  | .head round, .check =>
      if s.aborted then some (s.goto .ended)
      else
        let asked := ⟨modelOf request, streamMaxTokens, s.messages, true, round < maxToolRounds⟩
        some ((s.ask asked).goto (.streaming round))
  | .streaming _, .delta d => some (s.emit [d.event])
  | .streaming _, .sdkError error =>
      some (if s.aborted then s.goto .ended else s.goto (.throwing (toCleanError error) []))
  | .streaming round, .finish message =>
      if round < maxToolRounds && !(toolUsesOf message.content).isEmpty then
        some (s.startTools round message.content)
      else some (s.conclude message)
  | .tools round calls, .toolDone index outcome =>
      match calls[index]? with
      | some ⟨use, none⟩ =>
          let result := executeTool use.name outcome
          some ((s.announce use result).goto (afterTool typeError round calls index use result))
      | _ => none
  | .tools round calls, .roundDone =>
      (blocksOf calls).map fun blocks => (s.push (.results blocks)).goto (.head (round + 1))
  | .throwing error calls, .toolDone index outcome =>
      match calls[index]? with
      | some ⟨use, none⟩ =>
          some ((s.announce use (executeTool use.name outcome)).goto
            (.throwing error (calls.eraseIdx index)))
      | _ => none
  | .throwing error _, .caught => some ((s.emit [.error error.detail]).goto .ended)
  | _, _ => none

def route (request : ChatRequest) : Machine Stream Input where
  init := ⟨[], [], [], false, .setup⟩
  step := step typeError request

/-! What the client and the model may rely on. -/

def isEnd : StreamEvent → Bool
  | .done _ => true
  | .error _ => true
  | _ => false

def entryOf : StreamEvent → Entry JsString
  | .toolUse name _ => .opens name
  | .toolResult name _ => .closes name
  | _ => .other

/-- One end after everything else, and each use of a tool has its result before it. -/
def Complete (events : List StreamEvent) : Prop :=
  ∃ body last, events = body ++ [last] ∧ isEnd last = true ∧ (∀ e ∈ body, isEnd e = false) ∧
    Balanced (body.map entryOf)

/-- The results of the tools come right after the answer that uses them. -/
def Answered (messages : List Turn) : Prop :=
  ∀ (i : ℕ) (content : List Block), messages[i]? = some (.answer content) →
    toolUsesOf content ≠ [] → ∃ blocks, messages[i + 1]? = some (.results blocks) ∧
      blocks.map ToolResultBlock.toolUseId = (toolUsesOf content).map ToolUse.id

/-- What holds of a stream, also while it goes on: then some step other than the client's
going away is possible. -/
structure Obeys (request : ChatRequest) (s : Stream) : Prop where
  complete : s.phase = .ended → s.aborted = false → Complete s.events
  goesOn : s.phase ≠ .ended →
    ∃ input, input ≠ .abort ∧ (step typeError request s input).isSome
  answered : ∀ asked ∈ s.requests, Answered asked.messages
  requests : s.requests.length ≤ maxToolRounds + 1

/-! A row always has a namespace, so a result of the broker is made a string. -/

theorem toText_isNamespace {v : Json} (h : isNamespace (some v) = true) :
    ∃ ns, toText v = some ns := by
  cases v with
  | null => exact ⟨_, by rw [toText]⟩
  | str s => exact ⟨s, by rw [toText]⟩
  | bool b => simp [isNamespace] at h
  | num text => simp [isNamespace] at h
  | arr items => simp [isNamespace] at h
  | obj fields => simp [isNamespace] at h

theorem isNamespace_getD {v : Option Json} (h : isNamespace v = true) :
    isNamespace (some (v.getD .null)) = true := by
  cases v with
  | none => rfl
  | some v => exact h

theorem namespaceOf_isRow {v : Json} (h : isRow v = true) : ∃ ns, namespaceOf v = some ns := by
  cases v with
  | obj fields =>
      obtain ⟨hpod, hsvc⟩ := Bool.and_eq_true_iff.mp h
      unfold namespaceOf
      apply toText_isNamespace
      split
      · split
        · rfl
        · exact isNamespace_getD hsvc
      · exact isNamespace_getD hpod
  | _ => simp [isRow] at h

theorem mapM_namespaceOf {items : List Json} (h : items.all isRow = true) :
    ∃ namespaces, items.mapM namespaceOf = some namespaces := by
  induction items with
  | nil => exact ⟨[], rfl⟩
  | cons v items ih =>
      obtain ⟨hv, hitems⟩ := Bool.and_eq_true_iff.mp (List.all_cons ▸ h)
      obtain ⟨ns, hns⟩ := namespaceOf_isRow hv
      obtain ⟨rest, hrest⟩ := ih hitems
      exact ⟨ns :: rest, by simp [hns, hrest]⟩

theorem summarize_rows {items : List Json} (h : items.all isRow = true) :
    ∃ e, summarize items = some e := by
  obtain ⟨namespaces, hmap⟩ := mapM_namespaceOf h
  unfold summarize
  rw [hmap]
  split
  · exact ⟨_, rfl⟩
  · exact ⟨_, rfl⟩

theorem serialize_rows {result : ToolResult}
    (h : ∀ items, result.data = .arr items → items.all isRow = true) :
    ∃ out, serializeToolResult result = some out := by
  unfold serializeToolResult
  split
  · split
    · exact ⟨_, rfl⟩
    · split
      · exact ⟨_, rfl⟩
      · split
        · rename_i items hdata
          obtain ⟨e, he⟩ := summarize_rows (h items hdata)
          exact ⟨_, by rw [he, Option.map_some]⟩
        · exact ⟨_, rfl⟩
  · exact ⟨_, rfl⟩

theorem serialize_executeTool (name : JsString) (outcome : Outcome) :
    ∃ out, serializeToolResult (executeTool name outcome) = some out := by
  apply serialize_rows
  intro items hdata
  unfold executeTool at hdata
  split at hdata
  · split at hdata
    · cases hdata
    · rename_i served
      exact served.rows items hdata
  · cases hdata

theorem afterTool_executeTool (round : ℕ) (calls : List ToolCall) (index : ℕ) (use : ToolUse)
    (outcome : Outcome) :
    ∃ out, afterTool typeError round calls index use (executeTool use.name outcome) =
      .tools round (calls.set index
        ⟨use, some (blockOf use (executeTool use.name outcome) out)⟩) := by
  obtain ⟨out, hout⟩ := serialize_executeTool use.name outcome
  exact ⟨out, by rw [afterTool, hout]⟩

/-! What one step can do. -/

inductive Step (request : ChatRequest) (s : Stream) : Stream → Prop where
  | abort (hphase : s.phase ≠ .ended) : Step request s { s with aborted := true }
  | setupFails (error : Thrown) (hphase : s.phase = .setup) :
      Step request s (s.goto (.throwing error []))
  | setupDone (hphase : s.phase = .setup) :
      Step request s ({ s with messages := buildMessages request }.goto (.head 0))
  | gone (round : ℕ) (hphase : s.phase = .head round) (haborted : s.aborted = true) :
      Step request s (s.goto .ended)
  | ask (round : ℕ) (hphase : s.phase = .head round) :
      Step request s
        ((s.ask ⟨modelOf request, streamMaxTokens, s.messages, true, round < maxToolRounds⟩).goto
          (.streaming round))
  | delta (round : ℕ) (d : Delta) (hphase : s.phase = .streaming round) :
      Step request s (s.emit [d.event])
  | cut (round : ℕ) (hphase : s.phase = .streaming round) (haborted : s.aborted = true) :
      Step request s (s.goto .ended)
  | sdkError (round : ℕ) (error : SdkError) (hphase : s.phase = .streaming round) :
      Step request s (s.goto (.throwing (toCleanError error) []))
  | startTools (round : ℕ) (content : List Block) (hphase : s.phase = .streaming round)
      (hround : round < maxToolRounds) : Step request s (s.startTools round content)
  | conclude (round : ℕ) (message : Message) (hphase : s.phase = .streaming round) :
      Step request s (s.conclude message)
  | toolDone (round : ℕ) (calls : List ToolCall) (index : ℕ) (use : ToolUse) (outcome : Outcome)
      (hphase : s.phase = .tools round calls) (hcall : calls[index]? = some ⟨use, none⟩) :
      Step request s ((s.announce use (executeTool use.name outcome)).goto
        (afterTool typeError round calls index use (executeTool use.name outcome)))
  | roundDone (round : ℕ) (calls : List ToolCall) (blocks : List ToolResultBlock)
      (hphase : s.phase = .tools round calls) (hblocks : blocksOf calls = some blocks) :
      Step request s ((s.push (.results blocks)).goto (.head (round + 1)))
  | late (error : Thrown) (calls : List ToolCall) (index : ℕ) (use : ToolUse) (outcome : Outcome)
      (hphase : s.phase = .throwing error calls) (hcall : calls[index]? = some ⟨use, none⟩) :
      Step request s ((s.announce use (executeTool use.name outcome)).goto
        (.throwing error (calls.eraseIdx index)))
  | caught (error : Thrown) (calls : List ToolCall) (hphase : s.phase = .throwing error calls) :
      Step request s ((s.emit [.error error.detail]).goto .ended)

theorem step_cases {request : ChatRequest} {s s' : Stream} {input : Input}
    (h : step typeError request s input = some s') : Step typeError request s s' := by
  unfold step at h
  split at h
  · cases h
  · rename_i hphase
    obtain rfl := Option.some.inj h
    exact .abort hphase
  · rename_i error hphase
    obtain rfl := Option.some.inj h
    exact .setupFails error hphase
  · rename_i hphase
    obtain rfl := Option.some.inj h
    exact .setupDone hphase
  · rename_i round hphase
    split at h
    · rename_i haborted
      obtain rfl := Option.some.inj h
      exact .gone round hphase haborted
    · obtain rfl := Option.some.inj h
      exact .ask round hphase
  · rename_i round d hphase
    obtain rfl := Option.some.inj h
    exact .delta round d hphase
  · rename_i round error hphase
    obtain rfl := Option.some.inj h
    split
    · rename_i haborted
      exact .cut round hphase haborted
    · exact .sdkError round error hphase
  · rename_i round message hphase
    split at h
    · rename_i htools
      obtain rfl := Option.some.inj h
      exact .startTools round message.content hphase
        (of_decide_eq_true (Bool.and_eq_true_iff.mp htools).1)
    · obtain rfl := Option.some.inj h
      exact .conclude round message hphase
  · rename_i round calls index outcome hphase
    split at h
    · rename_i use hcall
      obtain rfl := Option.some.inj h
      exact .toolDone round calls index use outcome hphase hcall
    · cases h
  · rename_i round calls hphase
    obtain ⟨blocks, hblocks, rfl⟩ := Option.map_eq_some_iff.mp h
    exact .roundDone round calls blocks hphase hblocks
  · rename_i error calls index outcome hphase
    split at h
    · rename_i use hcall
      obtain rfl := Option.some.inj h
      exact .late error calls index use outcome hphase hcall
    · cases h
  · rename_i error calls hphase
    obtain rfl := Option.some.inj h
    exact .caught error calls hphase
  · cases h

/-! The model is asked once in each round. -/

def RoundsAsked : Phase → ℕ → Prop
  | .setup, asked => asked = 0
  | .head round, asked => asked = round ∧ round ≤ maxToolRounds
  | .streaming round, asked => asked = round + 1 ∧ round ≤ maxToolRounds
  | .tools round _, asked => asked = round + 1 ∧ round < maxToolRounds
  | .throwing _ _, asked => asked ≤ maxToolRounds + 1
  | .ended, asked => asked ≤ maxToolRounds + 1

theorem RoundsAsked.le {phase : Phase} {asked : ℕ} (h : RoundsAsked phase asked) :
    asked ≤ maxToolRounds + 1 := by
  cases phase with
  | setup =>
      have hasked : asked = 0 := h
      omega
  | head round =>
      obtain ⟨hasked, hround⟩ := h
      omega
  | streaming round =>
      obtain ⟨hasked, hround⟩ := h
      omega
  | tools round calls =>
      obtain ⟨hasked, hround⟩ := h
      omega
  | throwing error calls => exact h
  | ended => exact h

variable {typeError} {request : ChatRequest}

theorem roundsAsked_step {s s' : Stream} (hstep : Step typeError request s s')
    (h : RoundsAsked s.phase s.requests.length) :
    RoundsAsked s'.phase s'.requests.length := by
  have hle := h.le
  cases hstep with
  | abort hphase => exact h
  | setupFails error hphase => exact hle
  | setupDone hphase =>
      rw [hphase] at h
      exact ⟨h, Nat.zero_le _⟩
  | gone round hphase haborted => exact hle
  | ask round hphase =>
      rw [hphase] at h
      obtain ⟨hasked, hround⟩ := h
      refine ⟨?_, hround⟩
      show (s.requests ++ [_]).length = round + 1
      rw [List.length_append, hasked]
      rfl
  | delta round d hphase => exact h
  | cut round hphase haborted => exact hle
  | sdkError round error hphase => exact hle
  | startTools round content hphase hround =>
      rw [hphase] at h
      exact ⟨h.1, hround⟩
  | conclude round message hphase => exact hle
  | toolDone round calls index use outcome hphase hcall =>
      obtain ⟨out, hafter⟩ := afterTool_executeTool typeError round calls index use outcome
      rw [hphase] at h
      rw [hafter]
      exact h
  | roundDone round calls blocks hphase hblocks =>
      rw [hphase] at h
      obtain ⟨hasked, hround⟩ := h
      exact ⟨hasked, hround⟩
  | late error calls index use outcome hphase hcall => exact hle
  | caught error calls hphase => exact hle

/-! The calls of a round. -/

def openCalls (calls : List ToolCall) : Multiset JsString :=
  ((calls.filter fun call => call.block.isNone).map fun call => call.use.name : List JsString)

theorem openCalls_set {calls : List ToolCall} {index : ℕ} {use : ToolUse}
    (h : calls[index]? = some ⟨use, none⟩) (block : ToolResultBlock) :
    openCalls calls = use.name ::ₘ openCalls (calls.set index ⟨use, some block⟩) := by
  induction calls generalizing index with
  | nil => cases h
  | cons call calls ih =>
      cases index with
      | zero =>
          obtain rfl := Option.some.inj h
          simp [openCalls]
      | succ index =>
          have hrest := @ih index h
          unfold openCalls at hrest ⊢
          rw [List.set_cons_succ, List.filter_cons, List.filter_cons]
          split
          · rw [List.map_cons, List.map_cons, ← Multiset.cons_coe, ← Multiset.cons_coe, hrest]
            exact Multiset.cons_swap _ _ _
          · exact hrest

theorem map_block {calls : List ToolCall} {blocks : List ToolResultBlock}
    (h : blocksOf calls = some blocks) : calls.map ToolCall.block = blocks.map some := by
  induction calls generalizing blocks with
  | nil =>
      obtain rfl := Option.some.inj h
      rfl
  | cons call calls ih =>
      simp only [blocksOf, List.mapM_cons, Option.bind_eq_bind, Option.bind_eq_some_iff,
        Option.pure_def, Option.some.injEq] at h
      obtain ⟨block, hblock, rest, hrest, rfl⟩ := h
      rw [List.map_cons, List.map_cons, hblock, ih hrest]

theorem openCalls_done {calls : List ToolCall} {blocks : List ToolResultBlock}
    (h : blocksOf calls = some blocks) : openCalls calls = 0 := by
  have hnone : (calls.filter fun call => call.block.isNone) = [] := by
    rw [List.filter_eq_nil_iff]
    intro call hcall hblock
    have hmem : call.block ∈ blocks.map some := map_block h ▸ List.mem_map_of_mem hcall
    obtain ⟨block, -, heq⟩ := List.mem_map.mp hmem
    simp [← heq] at hblock
  rw [openCalls, hnone]
  rfl

/-- Each call that has come back has a block under its own identifier. -/
def Labelled (calls : List ToolCall) : Prop :=
  ∀ call ∈ calls, ∀ block ∈ call.block, block.toolUseId = call.use.id

theorem labelled_start (uses : List ToolUse) : Labelled (uses.map fun use => ⟨use, none⟩) := by
  intro call hcall block hblock
  obtain ⟨use, -, rfl⟩ := List.mem_map.mp hcall
  cases hblock

theorem Labelled.set {calls : List ToolCall} (h : Labelled calls) (index : ℕ) (use : ToolUse)
    (result : ToolResult) (out : Serialized) :
    Labelled (calls.set index ⟨use, some (blockOf use result out)⟩) := by
  intro call hcall block hblock
  obtain hold | rfl := List.mem_or_eq_of_mem_set hcall
  · exact h call hold block hblock
  · obtain rfl := Option.some.inj hblock
    rfl

theorem map_use_set {calls : List ToolCall} {index : ℕ} {use : ToolUse}
    (h : calls[index]? = some ⟨use, none⟩) (block : ToolResultBlock) :
    (calls.set index ⟨use, some block⟩).map ToolCall.use = calls.map ToolCall.use := by
  have hindex : (calls.map ToolCall.use)[index]? = some use := by
    rw [List.getElem?_map, h]
    rfl
  obtain ⟨hlt, heq⟩ := List.getElem?_eq_some_iff.mp hindex
  rw [List.map_set]
  show (calls.map ToolCall.use).set index use = calls.map ToolCall.use
  rw [← heq, List.set_getElem_self]

theorem Labelled.blocks {calls : List ToolCall} (h : Labelled calls)
    {blocks : List ToolResultBlock} (hblocks : blocksOf calls = some blocks) :
    blocks.map ToolResultBlock.toolUseId = (calls.map ToolCall.use).map ToolUse.id := by
  have hmap := map_block hblocks
  have hids : calls.map (fun call => some call.use.id) =
      calls.map fun call => call.block.map ToolResultBlock.toolUseId := by
    apply List.map_congr_left
    intro call hcall
    have hmem : call.block ∈ blocks.map some := hmap ▸ List.mem_map_of_mem hcall
    obtain ⟨block, -, hblock⟩ := List.mem_map.mp hmem
    rw [← hblock, Option.map_some, h call hcall block (Option.mem_def.mpr hblock.symm)]
  have hblockIds : calls.map (fun call => call.block.map ToolResultBlock.toolUseId) =
      blocks.map fun block => some block.toolUseId := by
    have hcompose := congrArg (List.map (Option.map ToolResultBlock.toolUseId)) hmap
    rw [List.map_map, List.map_map] at hcompose
    exact hcompose
  apply List.map_injective_iff.mpr (Option.some_injective JsString)
  rw [List.map_map, List.map_map, List.map_map]
  exact (hids.trans hblockIds).symm

/-! The turns that are sent to the model. -/

theorem Answered.append {before after : List Turn} (hbefore : Answered before)
    (hafter : Answered after) : Answered (before ++ after) := by
  intro i content hi huses
  by_cases hlt : i < before.length
  · rw [List.getElem?_append_left hlt] at hi
    obtain ⟨blocks, hnext, hids⟩ := hbefore i content hi huses
    have hnextLt := (List.getElem?_eq_some_iff.mp hnext).1
    exact ⟨blocks, by rw [List.getElem?_append_left hnextLt, hnext], hids⟩
  · rw [List.getElem?_append_right (by omega)] at hi
    obtain ⟨blocks, hnext, hids⟩ := hafter _ content hi huses
    refine ⟨blocks, ?_, hids⟩
    rw [List.getElem?_append_right (by omega), ← hnext]
    congr 1
    omega

theorem answered_of_texts {messages : List Turn}
    (h : ∀ turn ∈ messages, ∃ role content, turn = .text role content) : Answered messages := by
  intro i content hi
  obtain ⟨role, text, hturn⟩ := h _ (List.mem_of_getElem? hi)
  cases hturn

theorem answered_buildMessages (request : ChatRequest) : Answered (buildMessages request) := by
  apply answered_of_texts
  intro turn hturn
  obtain hold | hnew := List.mem_append.mp hturn
  · obtain ⟨p, -, rfl⟩ := List.mem_map.mp hold
    exact ⟨p.1, p.2, rfl⟩
  · exact ⟨.user, request.message, List.mem_singleton.mp hnew⟩

/-- One round: an answer and the results of its tools. -/
theorem answered_round {content : List Block} {blocks : List ToolResultBlock}
    (h : blocks.map ToolResultBlock.toolUseId = (toolUsesOf content).map ToolUse.id) :
    Answered [.answer content, .results blocks] := by
  intro i content' hi huses
  cases i with
  | zero =>
      obtain rfl := Turn.answer.inj (Option.some.inj hi)
      exact ⟨blocks, rfl, h⟩
  | succ i =>
      cases i with
      | zero => cases hi
      | succ i => cases hi

/-- The messages while the tools of the last answer are called. -/
def Asking (calls : List ToolCall) (messages : List Turn) : Prop :=
  ∃ before content, messages = before ++ [.answer content] ∧ Answered before ∧
    calls.map ToolCall.use = toolUsesOf content ∧ Labelled calls

def HistoryKept : Phase → List Turn → Prop
  | .head _, messages => Answered messages
  | .streaming _, messages => Answered messages
  | .tools _ calls, messages => Asking calls messages
  | _, _ => True

theorem Asking.set {calls : List ToolCall} {messages : List Turn} (h : Asking calls messages)
    {index : ℕ} {use : ToolUse} (hcall : calls[index]? = some ⟨use, none⟩) (result : ToolResult)
    (out : Serialized) :
    Asking (calls.set index ⟨use, some (blockOf use result out)⟩) messages := by
  obtain ⟨before, content, hmessages, hbefore, huses, hlabelled⟩ := h
  refine ⟨before, content, hmessages, hbefore, ?_, hlabelled.set index use result out⟩
  rw [map_use_set hcall, huses]

theorem Asking.results {calls : List ToolCall} {messages : List Turn} (h : Asking calls messages)
    {blocks : List ToolResultBlock} (hblocks : blocksOf calls = some blocks) :
    Answered (messages ++ [.results blocks]) := by
  obtain ⟨before, content, rfl, hbefore, huses, hlabelled⟩ := h
  rw [List.append_assoc]
  apply hbefore.append
  apply answered_round
  rw [hlabelled.blocks hblocks, huses]

theorem historyKept_step {s s' : Stream} (hstep : Step typeError request s s')
    (h : HistoryKept s.phase s.messages) : HistoryKept s'.phase s'.messages := by
  cases hstep with
  | abort hphase => exact h
  | setupFails error hphase => trivial
  | setupDone hphase => exact answered_buildMessages request
  | gone round hphase haborted => trivial
  | ask round hphase =>
      rw [hphase] at h
      exact h
  | delta round d hphase => exact h
  | cut round hphase haborted => trivial
  | sdkError round error hphase => trivial
  | startTools round content hphase hround =>
      rw [hphase] at h
      refine ⟨s.messages, content, rfl, h, ?_, labelled_start _⟩
      rw [List.map_map]
      exact List.map_id _
  | conclude round message hphase => trivial
  | toolDone round calls index use outcome hphase hcall =>
      obtain ⟨out, hafter⟩ := afterTool_executeTool typeError round calls index use outcome
      rw [hphase] at h
      rw [hafter]
      exact h.set hcall _ out
  | roundDone round calls blocks hphase hblocks =>
      rw [hphase] at h
      exact h.results hblocks
  | late error calls index use outcome hphase hcall => trivial
  | caught error calls hphase => trivial

theorem answered_step {s s' : Stream} (hstep : Step typeError request s s')
    (hhistory : HistoryKept s.phase s.messages)
    (h : ∀ asked ∈ s.requests, Answered asked.messages) :
    ∀ asked ∈ s'.requests, Answered asked.messages := by
  cases hstep with
  | ask round hphase =>
      rw [hphase] at hhistory
      intro asked hasked
      obtain hold | hnew := List.mem_append.mp hasked
      · exact h asked hold
      · rw [List.mem_singleton.mp hnew]
        exact hhistory
  | _ => exact h

/-! The events. -/

/-- The events before the end, with the uses of tools that are not answered yet. -/
structure Open (events : List StreamEvent) (pending : Multiset JsString) : Prop where
  account : account 0 (events.map entryOf) = some pending
  goesOn : ∀ e ∈ events, isEnd e = false

theorem Open.emit {events : List StreamEvent} {p q : Multiset JsString} (h : Open events p)
    {e : StreamEvent} (hsettle : settle p (entryOf e) = some q) (he : isEnd e = false) :
    Open (events ++ [e]) q := by
  constructor
  · rw [List.map_append]
    exact account_concat h.account hsettle
  · intro e' he'
    obtain hold | hnew := List.mem_append.mp he'
    · exact h.goesOn e' hold
    · rw [List.mem_singleton.mp hnew, he]

theorem Open.emitUses {events : List StreamEvent} (h : Open events 0) (uses : List ToolUse) :
    Open (events ++ uses.map fun use => .toolUse use.name use.id)
      (openCalls (uses.map fun use => ⟨use, none⟩)) := by
  constructor
  · have huses : (uses.map fun use => StreamEvent.toolUse use.name use.id).map entryOf =
        (uses.map ToolUse.name).map Entry.opens := by
      rw [List.map_map, List.map_map]
      rfl
    have hopen : openCalls (uses.map fun use => ⟨use, none⟩) =
        ((uses.map ToolUse.name : List JsString) : Multiset JsString) := by
      simp [openCalls, List.filter_map, Function.comp_def]
    rw [List.map_append, account_append, h.account, Option.bind_some, huses, account_opens, hopen,
      zero_add]
  · intro e he
    obtain hold | hnew := List.mem_append.mp he
    · exact h.goesOn e hold
    · obtain ⟨use, -, rfl⟩ := List.mem_map.mp hnew
      rfl

theorem Open.complete {events : List StreamEvent} (h : Open events 0) {e : StreamEvent}
    (he : isEnd e = true) : Complete (events ++ [e]) :=
  ⟨events, e, rfl, he, h.goesOn, balanced_of_account h.account⟩

def EventsKept : Phase → Bool → List StreamEvent → Prop
  | .tools _ calls, _, events => Open events (openCalls calls)
  | .throwing _ calls, _, events => Open events 0 ∧ calls = []
  | .ended, aborted, events => aborted = false → Complete events
  | _, _, events => Open events 0

theorem complete_conclude {s : Stream} (h : Open s.events 0) (message : Message) :
    Complete (s.conclude message).events := by
  have hbody : Open (s.events ++
      if (textOf message).isEmpty then [.text (fallbackFor message)] else []) 0 := by
    split
    · exact h.emit rfl rfl
    · rw [List.append_nil]
      exact h
  show Complete (s.events ++ (_ ++ [_]))
  rw [← List.append_assoc]
  exact hbody.complete rfl

theorem eventsKept_step {s s' : Stream} (hstep : Step typeError request s s')
    (h : EventsKept s.phase s.aborted s.events) :
    EventsKept s'.phase s'.aborted s'.events := by
  cases hstep with
  | abort hphase =>
      show EventsKept s.phase true s.events
      cases hs : s.phase with
      | ended => exact absurd hs hphase
      | _ =>
          rw [hs] at h
          exact h
  | setupFails error hphase =>
      rw [hphase] at h
      exact ⟨h, rfl⟩
  | setupDone hphase =>
      rw [hphase] at h
      exact h
  | gone round hphase haborted =>
      intro hopen
      exact absurd (haborted.symm.trans hopen) Bool.noConfusion
  | ask round hphase =>
      rw [hphase] at h
      exact h
  | delta round d hphase =>
      show EventsKept s.phase s.aborted _
      rw [hphase] at h ⊢
      exact h.emit (by cases d <;> rfl) (by cases d <;> rfl)
  | cut round hphase haborted =>
      intro hopen
      exact absurd (haborted.symm.trans hopen) Bool.noConfusion
  | sdkError round error hphase =>
      rw [hphase] at h
      exact ⟨h, rfl⟩
  | startTools round content hphase hround =>
      rw [hphase] at h
      exact h.emitUses (toolUsesOf content)
  | conclude round message hphase =>
      rw [hphase] at h
      intro _
      exact complete_conclude h message
  | toolDone round calls index use outcome hphase hcall =>
      obtain ⟨out, hafter⟩ := afterTool_executeTool typeError round calls index use outcome
      rw [hphase] at h
      rw [hafter]
      have hset := openCalls_set hcall
        (blockOf use (executeTool use.name outcome) out)
      refine h.emit ?_ rfl
      show (if use.name ∈ _ then _ else _) = _
      rw [hset, if_pos (Multiset.mem_cons_self _ _), Multiset.erase_cons_head]
  | roundDone round calls blocks hphase hblocks =>
      rw [hphase] at h
      have hopen : Open s.events (openCalls calls) := h
      rw [openCalls_done hblocks] at hopen
      exact hopen
  | late error calls index use outcome hphase hcall =>
      rw [hphase] at h
      obtain ⟨-, rfl⟩ := h
      cases hcall
  | caught error calls hphase =>
      rw [hphase] at h
      intro _
      exact h.1.complete rfl

/-! A stream that has not ended can go on. -/

theorem exists_toolDone {calls : List ToolCall} (h : blocksOf calls = none) :
    ∃ (index : ℕ) (use : ToolUse), calls[index]? = some ⟨use, none⟩ := by
  induction calls with
  | nil => cases h
  | cons call calls ih =>
      obtain ⟨use, block⟩ := call
      cases block with
      | none => exact ⟨0, use, rfl⟩
      | some block =>
          have hrest : blocksOf calls = none := by
            cases hblocks : blocksOf calls with
            | none => rfl
            | some blocks =>
                unfold blocksOf at h hblocks
                simp [hblocks] at h
          obtain ⟨index, use', hcall⟩ := ih hrest
          exact ⟨index + 1, use', hcall⟩

variable (typeError) in
theorem exists_step (request : ChatRequest) {s : Stream} (h : s.phase ≠ .ended) :
    ∃ input, input ≠ .abort ∧ (step typeError request s input).isSome := by
  obtain ⟨events, messages, requests, aborted, phase⟩ := s
  cases phase with
  | setup => exact ⟨.setupDone, Input.noConfusion, rfl⟩
  | head round =>
      cases aborted with
      | true => exact ⟨.check, Input.noConfusion, rfl⟩
      | false => exact ⟨.check, Input.noConfusion, rfl⟩
  | streaming round => exact ⟨.sdkError (.other []), Input.noConfusion, rfl⟩
  | tools round calls =>
      cases hblocks : blocksOf calls with
      | none =>
          obtain ⟨index, use, hcall⟩ := exists_toolDone hblocks
          exact ⟨.toolDone index (.threw []), Input.noConfusion, by simp [step, hcall]⟩
      | some blocks =>
          exact ⟨.roundDone, Input.noConfusion, by simp [step, hblocks]⟩
  | throwing error calls => exact ⟨.caught, Input.noConfusion, rfl⟩
  | ended => exact absurd rfl h

/-! Every run. -/

structure Kept (s : Stream) : Prop where
  rounds : RoundsAsked s.phase s.requests.length
  history : HistoryKept s.phase s.messages
  answered : ∀ asked ∈ s.requests, Answered asked.messages
  events : EventsKept s.phase s.aborted s.events

theorem kept_step {s s' : Stream} {input : Input}
    (h : step typeError request s input = some s') (hkept : Kept s) : Kept s' := by
  have hstep := step_cases typeError h
  exact ⟨roundsAsked_step hstep hkept.rounds, historyKept_step hstep hkept.history,
    answered_step hstep hkept.history hkept.answered, eventsKept_step hstep hkept.events⟩

theorem kept_run {inputs : List Input} {s : Stream}
    (h : (route typeError request).run inputs = some s) : Kept s := by
  refine Machine.invariant (P := fun _ s => Kept s) ?_ ?_ h
  · have hopen : Open [] 0 := ⟨rfl, fun e he => by cases he⟩
    exact ⟨rfl, trivial, fun asked hasked => (List.not_mem_nil hasked).elim, hopen⟩
  · intro inputs s input s' _ hkept hstep
    exact kept_step hstep hkept

variable (typeError) in
theorem chatStream_obeys (request : ChatRequest) (inputs : List Input) (s : Stream)
    (h : (route typeError request).run inputs = some s) : Obeys typeError request s := by
  have hkept := kept_run h
  refine ⟨?_, exists_step typeError request, hkept.answered, hkept.rounds.le⟩
  intro hended haborted
  have hevents := hkept.events
  rw [hended] at hevents
  exact hevents haborted

def twoUses : Message where
  content := [.toolUse ⟨js "a", js "list_services"⟩, .toolUse ⟨js "b", js "list_pods"⟩]
  stopReason := .other
  model := js "m"

def noServices : Served :=
  ⟨.arr [], by decide, fun items h => by obtain rfl := Json.arr.inj h; rfl⟩

/-- Two tools that come back in the other order, and an answer. -/
def twoTools : List Input :=
  [.setupDone, .check, .delta (.thinking (js "t")), .finish twoUses, .toolDone 1 (.threw []),
    .toolDone 0 (.returned noServices), .roundDone, .check, .delta (.text (js "x")),
    .finish ⟨[.text (js "x")], .other, js "m"⟩]

def noTypeError : ToolResult → Thrown := fun _ => ⟨none, none⟩

theorem twoTools_obeys : ∃ s, (route noTypeError ⟨js "q", none, []⟩).run twoTools = some s ∧
    s.phase = .ended ∧ s.events.length = 7 ∧ Obeys noTypeError ⟨js "q", none, []⟩ s :=
  ⟨_, rfl, rfl, rfl, chatStream_obeys noTypeError ⟨js "q", none, []⟩ twoTools _ rfl⟩

end KGuardian.ChatStream
