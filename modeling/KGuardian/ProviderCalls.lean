import KGuardian.ChatStream
import KGuardian.ToolLoops

/-!
The calls of the providers that answer at once (`llm-bridge/src/providers`): OpenAI and
Copilot, Gemini, and Claude without a stream. They share one loop and differ in how a
conversation is written. Each provider has a rule about tool calls and their results,
which every request is shown to keep.
-/
namespace KGuardian.ProviderCalls

open JsJson ToolResults ToolLoops
open ChatStream (ChatRequest Role Turn ToolUse ToolResultBlock Thrown SdkError executeTool
  maxToolRounds buildMessages toolUsesOf toCleanError textOf fallbackFor blockOf succeeded)

inductive LLMProvider where
  | openai
  | anthropic
  | gemini
  | copilot
  deriving DecidableEq

structure ChatResponse where
  message : Option JsString
  provider : LLMProvider
  model : JsString

/-- The variables that hold the keys. -/
structure Env where
  openaiApiKey : Option JsString
  anthropicApiKey : Option JsString
  googleApiKey : Option JsString
  githubToken : Option JsString

/-- A key, when it is more than white space. -/
def configured (key : Option JsString) : Option JsString :=
  (key.map ChatStream.trim).filter fun k => !k.isEmpty

def notConfigured (keyName : JsString) : Thrown := ⟨some (keyName ++ js " not configured"), none⟩

/-- What a request throws that was not answered with success. -/
structure AxiosError where
  message : JsString
  apiMessage : Option JsString
  status : Option ℕ

/-- The operator `||` on texts. -/
def orElse (text : Option JsString) (other : JsString) : JsString :=
  if (text.getD []).isEmpty then other else text.getD []

/-- In the rounds the error is thrown again with a label, and at the end as it was. -/
def AxiosError.thrown (label : JsString) (withTools : Bool) (e : AxiosError) : Thrown :=
  if withTools then ⟨some (label ++ js " API error: " ++ orElse e.apiMessage e.message), none⟩
  else ⟨some e.message, e.status⟩

/-- Whether the last request comes with tools. -/
def asksWithTools {τ : Type} (sent : List (Request τ)) : Bool :=
  (sent.getLast?.map Request.withTools).getD false

/-- The characters of a text. Half of a surrogate pair has none of its own. -/
def chars : JsString → List Char
  | [] => []
  | [u] => [if isHigh u || isLow u then '\uFFFD' else Char.ofNat u.toNat]
  | h :: l :: rest =>
      if isHigh h && isLow l then codePoint h l :: chars rest
      else (if isHigh h || isLow h then '\uFFFD' else Char.ofNat h.toNat) :: chars (l :: rest)

-- How the runtime writes a number, and what it throws.
variable (canon : List Char → List Char) (typeError : ToolResult → Thrown) (noReply : Thrown)

/-- The text of a result, unless it cannot be made a string. -/
def serialized (result : ToolResult) : Except Thrown JsString :=
  match serializeToolResult result with
  | some out => .ok out.string
  | none => .error (typeError result)

theorem serialized_executeTool (name : JsString) (outcome : ChatStream.Outcome) :
    ∃ text, serialized typeError (executeTool name outcome) = .ok text := by
  obtain ⟨out, hout⟩ := ChatStream.serialize_executeTool name outcome
  exact ⟨out.string, by rw [serialized, hout]⟩

/-- A map of which no part throws. -/
theorem mapM_ok {α β ε : Type} {f : α → Except ε β} (h : ∀ a, ∃ b, f a = .ok b) (l : List α) :
    ∃ bs, l.mapM f = .ok bs ∧ List.Forall₂ (fun a b => f a = .ok b) l bs := by
  induction l with
  | nil => exact ⟨[], rfl, .nil⟩
  | cons a rest ih =>
      obtain ⟨b, hb⟩ := h a
      obtain ⟨bs, hbs, hall⟩ := ih
      exact ⟨b :: bs, by rw [List.mapM_cons, hb, hbs]; rfl, .cons hb hall⟩

/-! OpenAI and Copilot. -/

structure OpenAIToolCall where
  id : JsString
  name : JsString
  arguments : JsString

inductive OpenAIMessage where
  | text (role : Role) (content : JsString)
  | assistant (role : JsString) (content : Option JsString) (toolCalls : List OpenAIToolCall)
  | tool (toolCallId name content : JsString)

/-- A message of a reply. Calls that are missing are none. -/
structure OpenAIChoice where
  role : JsString
  content : Option JsString
  toolCalls : List OpenAIToolCall

structure OpenAIReply where
  choices : List OpenAIChoice
  model : JsString

structure OpenAICompatConfig where
  provider : LLMProvider
  label : JsString
  apiKey : Option JsString
  keyName : JsString
  defaultModel : JsString

def openai (env : Env) : OpenAICompatConfig :=
  ⟨.openai, js "OpenAI", configured env.openaiApiKey, js "OPENAI_API_KEY", js "gpt-4o"⟩

def copilot (env : Env) : OpenAICompatConfig :=
  ⟨.copilot, js "Copilot", configured env.githubToken, js "GITHUB_TOKEN", js "gpt-4o"⟩

def openAIMessages (systemPrompt : JsString) (request : ChatRequest) : List OpenAIMessage :=
  .text .system systemPrompt :: (request.history.map fun m => .text m.1 m.2) ++
    [.text .user request.message]

/-- The content of a result. Arguments that are not JSON do not reach the tool. -/
def toolContent (call : OpenAIToolCall) (outcome : ChatStream.Outcome) : Except Thrown JsString :=
  if (parse canon (chars call.arguments)).isSome then
    serialized typeError (executeTool call.name outcome)
  else .ok (js "Failed to parse tool arguments")

def toolMessage (c : OpenAIToolCall × ChatStream.Outcome) : Except Thrown OpenAIMessage :=
  (toolContent canon typeError c.1 c.2).map fun content => .tool c.1.id c.1.name content

/-- A reply is its first choice with the model that it names. -/
def openAIProtocol (provider : LLMProvider) :
    Protocol OpenAIMessage (OpenAIChoice × JsString) OpenAIToolCall ChatStream.Outcome Thrown
      ChatResponse where
  calls reply := reply.1.toolCalls
  echo reply :=
    .assistant reply.1.role (reply.1.content.filter fun c => !c.isEmpty) reply.1.toolCalls
  results calls := calls.mapM (toolMessage canon typeError)
  answer reply := ⟨reply.1.content, provider, reply.2⟩

def readOpenAI (label : JsString) (withTools : Bool) :
    Except AxiosError OpenAIReply → Except Thrown (OpenAIChoice × JsString)
  | .error e => .error (e.thrown label withTools)
  | .ok reply =>
      match reply.choices with
      | [] => .error noReply
      | choice :: _ => .ok (choice, reply.model)

def openAIWorld (label : JsString)
    (w : World OpenAIMessage OpenAIReply ChatStream.Outcome AxiosError) :
    World OpenAIMessage (OpenAIChoice × JsString) ChatStream.Outcome Thrown where
  model sent := readOpenAI noReply label (asksWithTools sent) (w.model sent)
  tool := w.tool

def callOpenAICompatible (cfg : OpenAICompatConfig) (systemPrompt : JsString)
    (request : ChatRequest) (w : World OpenAIMessage OpenAIReply ChatStream.Outcome AxiosError) :
    Outcome OpenAIMessage Thrown ChatResponse :=
  match cfg.apiKey with
  | none => ⟨[], .error (notConfigured cfg.keyName)⟩
  | some _ =>
      rounds (openAIProtocol canon typeError cfg.provider) (openAIWorld noReply cfg.label w)
        maxToolRounds (openAIMessages systemPrompt request) []

/-- The rule of the interface: calls are answered at once, each by one message with its
identifier, in their order, and nothing else answers a call. -/
def openAIAccepts : List OpenAIToolCall → List OpenAIMessage → Bool
  | [], [] => true
  | [], .text _ _ :: rest => openAIAccepts [] rest
  | [], .assistant _ _ calls :: rest => openAIAccepts calls rest
  | [], .tool _ _ _ :: _ => false
  | call :: pending, .tool id name _ :: rest =>
      id = call.id && name = call.name && openAIAccepts pending rest
  | _ :: _, _ => false

theorem openAIAccepts_texts (turns : List (Role × JsString)) (rest : List OpenAIMessage) :
    openAIAccepts [] ((turns.map fun m => .text m.1 m.2) ++ rest) = openAIAccepts [] rest := by
  induction turns with
  | nil => rfl
  | cons m turns ih => exact ih

theorem absorbs_openAIMessages (systemPrompt : JsString) (request : ChatRequest) :
    Absorbs (openAIAccepts []) (openAIMessages systemPrompt request) := by
  intro rest
  rw [openAIMessages, List.append_assoc, List.cons_append, openAIAccepts, openAIAccepts_texts]
  rfl

/-- The results of the calls, in their order. -/
theorem openAIAccepts_results {calls : List (OpenAIToolCall × ChatStream.Outcome)}
    {results : List OpenAIMessage}
    (h : List.Forall₂ (fun c m => toolMessage canon typeError c = .ok m) calls results)
    (rest : List OpenAIMessage) :
    openAIAccepts (calls.map Prod.fst) (results ++ rest) = openAIAccepts [] rest := by
  induction h with
  | nil => rfl
  | @cons c m calls results hm _ ih =>
      rw [toolMessage] at hm
      cases hcontent : toolContent canon typeError c.1 c.2 with
      | error e => simp [hcontent, Except.map] at hm
      | ok content =>
          simp only [hcontent, Except.map, Except.ok.injEq] at hm
          subst hm
          simpa [openAIAccepts] using ih

theorem toolMessage_ok (c : OpenAIToolCall × ChatStream.Outcome) :
    ∃ m, toolMessage canon typeError c = .ok m := by
  rw [toolMessage, toolContent]
  split
  · obtain ⟨text, htext⟩ := serialized_executeTool typeError c.1.name c.2
    exact ⟨_, by rw [htext]; rfl⟩
  · exact ⟨_, rfl⟩

/-- A call with OpenAI or Copilot obeys the rule, whatever the model and the tools do. -/
theorem callOpenAICompatible_obeys (cfg : OpenAICompatConfig) (systemPrompt : JsString)
    (request : ChatRequest) (w : World OpenAIMessage OpenAIReply ChatStream.Outcome AxiosError) :
    match cfg.apiKey with
    | none => callOpenAICompatible canon typeError noReply cfg systemPrompt request w =
        ⟨[], .error (notConfigured cfg.keyName)⟩
    | some _ => Obeys (openAIProtocol canon typeError cfg.provider)
        (openAIWorld noReply cfg.label w) (openAIAccepts []) maxToolRounds
        (openAIMessages systemPrompt request)
        (callOpenAICompatible canon typeError noReply cfg systemPrompt request w) := by
  rw [callOpenAICompatible]
  cases cfg.apiKey with
  | none => rfl
  | some key =>
      refine obeys_rounds rfl (absorbs_openAIMessages systemPrompt request) ?_ ?_ maxToolRounds
      · intro calls
        obtain ⟨results, hok, -⟩ := mapM_ok (toolMessage_ok canon typeError) calls
        exact ⟨results, hok⟩
      · intro reply calls results _ hcalls hok rest
        obtain ⟨results', hok', hall⟩ := mapM_ok (toolMessage_ok canon typeError) calls
        obtain rfl := Except.ok.inj (hok'.symm.trans hok)
        have hresults := openAIAccepts_results canon typeError hall rest
        rw [hcalls] at hresults
        exact hresults

/-! Gemini. -/

structure GeminiPart where
  text : Option JsString
  functionCall : Option (JsString × Json)

/-- A result that is JSON is sent as what it stands for. -/
inductive GeminiResponse where
  | parsed (v : Json)
  | data (text : JsString)

inductive GeminiTurn where
  | text (role : JsString) (text : JsString)
  | model (parts : List GeminiPart)
  | responses (parts : List (JsString × GeminiResponse))

/-- Each candidate by the parts of its content, which can be missing. -/
structure GeminiReply where
  candidates : List (Option (List GeminiPart))

def geminiRole : Role → JsString
  | .assistant => js "model"
  | _ => js "user"

def geminiContents (request : ChatRequest) : List GeminiTurn :=
  ((request.history.filter fun m => m.1 ≠ .system).map fun m => .text (geminiRole m.1) m.2) ++
    [.text (js "user") request.message]

def geminiModel (request : ChatRequest) : JsString := orElse request.model (js "gemini-2.0-flash")

def functionCalls (parts : List GeminiPart) : List (JsString × Json) :=
  parts.filterMap GeminiPart.functionCall

def geminiText (parts : List GeminiPart) : JsString :=
  orElse ((parts.find? fun part => !(part.text.getD []).isEmpty).bind GeminiPart.text)
    (js "No response from Gemini")

def geminiResponse (text : JsString) : GeminiResponse :=
  match parse canon (chars text) with
  | some v => .parsed v
  | none => .data text

def functionResponse (c : (JsString × Json) × ChatStream.Outcome) :
    Except Thrown (JsString × GeminiResponse) :=
  (serialized typeError (executeTool c.1.1 c.2)).map fun text => (c.1.1, geminiResponse canon text)

def geminiProtocol (model : JsString) :
    Protocol GeminiTurn (List GeminiPart) (JsString × Json) ChatStream.Outcome Thrown
      ChatResponse where
  calls parts := functionCalls parts
  echo parts := .model parts
  results calls := (calls.mapM (functionResponse canon typeError)).map fun parts =>
    [.responses parts]
  answer parts := ⟨some (geminiText parts), .gemini, model⟩

def readGemini (withTools : Bool) :
    Except AxiosError GeminiReply → Except Thrown (List GeminiPart)
  | .error e => .error (e.thrown (js "Gemini") withTools)
  | .ok reply =>
      match reply.candidates with
      | some parts :: _ => .ok parts
      | _ => .error noReply

def geminiWorld (w : World GeminiTurn GeminiReply ChatStream.Outcome AxiosError) :
    World GeminiTurn (List GeminiPart) ChatStream.Outcome Thrown where
  model sent := readGemini noReply (asksWithTools sent) (w.model sent)
  tool := w.tool

def callGemini (env : Env) (request : ChatRequest)
    (w : World GeminiTurn GeminiReply ChatStream.Outcome AxiosError) :
    Outcome GeminiTurn Thrown ChatResponse :=
  match configured env.googleApiKey with
  | none => ⟨[], .error (notConfigured (js "GOOGLE_API_KEY"))⟩
  | some _ =>
      rounds (geminiProtocol canon typeError (geminiModel request)) (geminiWorld noReply w)
        maxToolRounds (geminiContents request) []

/-- The rule of the interface: a turn with function calls is followed by one with a
response for each of them, by name and in their order. -/
def geminiAccepts : List (JsString × Json) → List GeminiTurn → Bool
  | [], [] => true
  | [], .text _ _ :: rest => geminiAccepts [] rest
  | [], .model parts :: rest => geminiAccepts (functionCalls parts) rest
  | [], .responses _ :: _ => false
  | call :: calls, .responses parts :: rest =>
      parts.map Prod.fst = (call :: calls).map Prod.fst && geminiAccepts [] rest
  | _ :: _, _ => false

theorem geminiAccepts_texts (turns : List (JsString × JsString)) (rest : List GeminiTurn) :
    geminiAccepts [] ((turns.map fun m => .text m.1 m.2) ++ rest) = geminiAccepts [] rest := by
  induction turns with
  | nil => rfl
  | cons m turns ih => exact ih

theorem absorbs_geminiContents (request : ChatRequest) :
    Absorbs (geminiAccepts []) (geminiContents request) := by
  intro rest
  have htexts := geminiAccepts_texts
    ((request.history.filter fun m => m.1 ≠ .system).map fun m => (geminiRole m.1, m.2))
    ([.text (js "user") request.message] ++ rest)
  rw [List.map_map] at htexts
  rw [geminiContents, List.append_assoc]
  exact htexts

theorem functionResponse_ok (c : (JsString × Json) × ChatStream.Outcome) :
    ∃ part, functionResponse canon typeError c = .ok part := by
  obtain ⟨text, htext⟩ := serialized_executeTool typeError c.1.1 c.2
  exact ⟨_, by rw [functionResponse, htext]; rfl⟩

theorem names_responses {calls : List ((JsString × Json) × ChatStream.Outcome)}
    {parts : List (JsString × GeminiResponse)}
    (h : List.Forall₂ (fun c part => functionResponse canon typeError c = .ok part) calls parts) :
    parts.map Prod.fst = (calls.map Prod.fst).map Prod.fst := by
  induction h with
  | nil => rfl
  | @cons c part calls parts hpart _ ih =>
      obtain ⟨text, htext⟩ := serialized_executeTool typeError c.1.1 c.2
      rw [functionResponse, htext] at hpart
      obtain rfl := Except.ok.inj hpart
      rw [List.map_cons, List.map_cons, List.map_cons, ih]

/-- A call with Gemini obeys the rule, whatever the model and the tools do. -/
theorem callGemini_obeys (env : Env) (request : ChatRequest)
    (w : World GeminiTurn GeminiReply ChatStream.Outcome AxiosError) :
    match configured env.googleApiKey with
    | none => callGemini canon typeError noReply env request w =
        ⟨[], .error (notConfigured (js "GOOGLE_API_KEY"))⟩
    | some _ => Obeys (geminiProtocol canon typeError (geminiModel request))
        (geminiWorld noReply w) (geminiAccepts []) maxToolRounds (geminiContents request)
        (callGemini canon typeError noReply env request w) := by
  rw [callGemini]
  cases configured env.googleApiKey with
  | none => rfl
  | some key =>
      refine obeys_rounds rfl (absorbs_geminiContents request) ?_ ?_ maxToolRounds
      · intro calls
        obtain ⟨parts, hok, -⟩ := mapM_ok (functionResponse_ok canon typeError) calls
        exact ⟨[.responses parts], by simp only [geminiProtocol, hok, Except.map]⟩
      · intro parts calls results hne hcalls hok rest
        obtain ⟨responses, hresponses, hall⟩ :=
          mapM_ok (functionResponse_ok canon typeError) calls
        simp only [geminiProtocol, hresponses, Except.map, Except.ok.injEq] at hok hcalls hne
        subst hok
        have hnames := names_responses canon typeError hall
        rw [hcalls] at hnames
        show geminiAccepts (functionCalls parts) (.responses responses :: rest) =
          geminiAccepts [] rest
        obtain ⟨call, more, hcons⟩ := List.exists_cons_of_ne_nil hne
        rw [hcons] at hnames ⊢
        simp [geminiAccepts, hnames]

/-! Claude, without a stream. -/

def resultBlock (c : ToolUse × ChatStream.Outcome) : Except Thrown ToolResultBlock :=
  match serializeToolResult (executeTool c.1.name c.2) with
  | some out => .ok (blockOf c.1 (executeTool c.1.name c.2) out)
  | none => .error (typeError (executeTool c.1.name c.2))

def finalize (message : ChatStream.Message) : ChatResponse :=
  ⟨some (if (textOf message).isEmpty then fallbackFor message else textOf message), .anthropic,
    message.model⟩

def anthropicProtocol :
    Protocol Turn ChatStream.Message ToolUse ChatStream.Outcome Thrown ChatResponse where
  calls message := toolUsesOf message.content
  echo message := .answer message.content
  results calls := (calls.mapM (resultBlock typeError)).map fun blocks => [.results blocks]
  answer := finalize

def anthropicWorld (w : World Turn ChatStream.Message ChatStream.Outcome SdkError) :
    World Turn ChatStream.Message ChatStream.Outcome Thrown where
  model sent := (w.model sent).mapError toCleanError
  tool := w.tool

def callAnthropic (env : Env) (request : ChatRequest)
    (w : World Turn ChatStream.Message ChatStream.Outcome SdkError) :
    Outcome Turn Thrown ChatResponse :=
  match configured env.anthropicApiKey with
  | none => ⟨[], .error (notConfigured (js "ANTHROPIC_API_KEY"))⟩
  | some _ =>
      rounds (anthropicProtocol typeError) (anthropicWorld w) maxToolRounds
        (buildMessages request) []

/-- The rule of the interface: a turn with tool uses is followed by one with a result for
each of them, by identifier and in their order. -/
def anthropicAccepts : List ToolUse → List Turn → Bool
  | [], [] => true
  | [], .text _ _ :: rest => anthropicAccepts [] rest
  | [], .answer content :: rest => anthropicAccepts (toolUsesOf content) rest
  | [], .results _ :: _ => false
  | use :: uses, .results blocks :: rest =>
      blocks.map ToolResultBlock.toolUseId = (use :: uses).map ToolUse.id &&
        anthropicAccepts [] rest
  | _ :: _, _ => false

theorem anthropicAccepts_texts (turns : List (Role × JsString)) (rest : List Turn) :
    anthropicAccepts [] ((turns.map fun m => .text m.1 m.2) ++ rest) =
      anthropicAccepts [] rest := by
  induction turns with
  | nil => rfl
  | cons m turns ih => exact ih

theorem absorbs_buildMessages (request : ChatRequest) :
    Absorbs (anthropicAccepts []) (buildMessages request) := by
  intro rest
  rw [buildMessages, List.append_assoc, anthropicAccepts_texts]
  rfl

/-- A result is that of its call and has its identifier. -/
theorem resultBlock_ok (c : ToolUse × ChatStream.Outcome) : ∃ out,
    serializeToolResult (executeTool c.1.name c.2) = some out ∧
      resultBlock typeError c = .ok (blockOf c.1 (executeTool c.1.name c.2) out) := by
  obtain ⟨out, hout⟩ := ChatStream.serialize_executeTool c.1.name c.2
  exact ⟨out, hout, by rw [resultBlock, hout]⟩

theorem ids_blocks {calls : List (ToolUse × ChatStream.Outcome)} {blocks : List ToolResultBlock}
    (h : List.Forall₂ (fun c block => resultBlock typeError c = .ok block) calls blocks) :
    blocks.map ToolResultBlock.toolUseId = (calls.map Prod.fst).map ToolUse.id := by
  induction h with
  | nil => rfl
  | @cons c block calls blocks hblock _ ih =>
      obtain ⟨out, -, hout⟩ := resultBlock_ok typeError c
      obtain rfl := Except.ok.inj (hout.symm.trans hblock)
      rw [List.map_cons, List.map_cons, List.map_cons, ih]
      rfl

theorem anthropic_results (calls : List (ToolUse × ChatStream.Outcome)) : ∃ blocks,
    (anthropicProtocol typeError).results calls = .ok [.results blocks] ∧
      List.Forall₂ (fun c block => resultBlock typeError c = .ok block) calls blocks := by
  obtain ⟨blocks, hok, hall⟩ := mapM_ok
    (fun c => ⟨_, (resultBlock_ok typeError c).choose_spec.2⟩) calls
  exact ⟨blocks, by simp only [anthropicProtocol, hok, Except.map], hall⟩

/-- A call with Claude obeys the rule, whatever the model and the tools do. -/
theorem callAnthropic_obeys (env : Env) (request : ChatRequest)
    (w : World Turn ChatStream.Message ChatStream.Outcome SdkError) :
    match configured env.anthropicApiKey with
    | none => callAnthropic typeError env request w =
        ⟨[], .error (notConfigured (js "ANTHROPIC_API_KEY"))⟩
    | some _ => Obeys (anthropicProtocol typeError) (anthropicWorld w) (anthropicAccepts [])
        maxToolRounds (buildMessages request) (callAnthropic typeError env request w) := by
  rw [callAnthropic]
  cases configured env.anthropicApiKey with
  | none => rfl
  | some key =>
      refine obeys_rounds rfl (absorbs_buildMessages request) ?_ ?_ maxToolRounds
      · intro calls
        obtain ⟨blocks, hok, -⟩ := anthropic_results typeError calls
        exact ⟨[.results blocks], hok⟩
      · intro message calls results hne hcalls hok rest
        obtain ⟨blocks, hblocks, hall⟩ := anthropic_results typeError calls
        obtain rfl := Except.ok.inj (hblocks.symm.trans hok)
        have hids := ids_blocks typeError hall
        rw [hcalls] at hids
        show anthropicAccepts (toolUsesOf message.content) (.results blocks :: rest) =
          anthropicAccepts [] rest
        obtain ⟨use, more, hcons⟩ :=
          List.exists_cons_of_ne_nil (show toolUsesOf message.content ≠ [] from hne)
        have hsame : (toolUsesOf message.content).map ToolUse.id =
            blocks.map ToolResultBlock.toolUseId := hids.symm
        rw [hcons] at hsame ⊢
        simp [anthropicAccepts, hsame]

end KGuardian.ProviderCalls
