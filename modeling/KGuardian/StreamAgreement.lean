import KGuardian.ProviderCalls

/-!
The two ways to ask Claude (`llm-bridge/src/providers/anthropic.ts`). The stream route and
the call without a stream are compared on one model and the same tools: whatever order
the tools come back in, the stream sends what the call sends, but for the limit of tokens
and the thinking, and ends as the call does.
-/
namespace KGuardian.StreamAgreement

open JsJson ToolResults ToolLoops Runs ProviderCalls
open ChatStream (ChatRequest Turn ToolUse ToolResultBlock Thrown SdkError ModelRequest Stream
  ToolCall Input Step executeTool maxToolRounds buildMessages toolUsesOf toCleanError textOf
  fallbackFor blockOf blocksOf afterTool route)
open ChatFrames (StreamEvent)

/-- The requests of a stream without what both ways have in common. -/
def asked (requests : List ModelRequest) : List (Request Turn) :=
  requests.map fun r => ⟨r.messages, r.withTools⟩

/-- The inputs of a stream are what this model and these tools do, and the key is there
or not. -/
def Follows (env : Env) (w : World Turn ChatStream.Message ChatStream.Outcome SdkError)
    (s : Stream) (input : Input) : Prop :=
  match s.phase, input with
  | .setup, .setupFails error =>
      configured env.anthropicApiKey = none ∧ error = notConfigured (js "ANTHROPIC_API_KEY")
  | .setup, .setupDone => (configured env.anthropicApiKey).isSome
  | .streaming _, .finish message => w.model (asked s.requests) = .ok message
  | .streaming _, .sdkError error =>
      s.aborted = false → w.model (asked s.requests) = .error error
  | .tools _ _, .toolDone index outcome => outcome = w.tool (asked s.requests) index
  | _, _ => True

/-- How a stream ends that the client waits for. -/
inductive EndsLike : List StreamEvent → Except Thrown ChatResponse → Prop
  | answered (body : List StreamEvent) (message : ChatStream.Message) :
      EndsLike (body ++ (if (textOf message).isEmpty then [.text (fallbackFor message)] else []) ++
        [.done message.model]) (.ok (finalize message))
  | thrown (body : List StreamEvent) (error : Thrown) :
      EndsLike (body ++ [.error error.detail]) (.error error)

variable (typeError : ToolResult → Thrown) (env : Env) (request : ChatRequest)
  (w : World Turn ChatStream.Message ChatStream.Outcome SdkError)

/-- The loop of the call, from a request on. -/
abbrev goOn (n : ℕ) (messages : List Turn) (sent : List (Request Turn)) :
    Outcome Turn Thrown ChatResponse :=
  rounds (anthropicProtocol typeError) (anthropicWorld w) n messages sent

/-- The calls of a round that have come back have the results of these tools. -/
def Returned (sent : List (Request Turn)) (calls : List ToolCall) : Prop :=
  ∀ i call block, calls[i]? = some call → call.block = some block →
    resultBlock typeError (call.use, w.tool sent i) = .ok block

/-- What is left of the call when the stream is in a phase. -/
def Simulates (s : Stream) (o : Outcome Turn Thrown ChatResponse) : Prop :=
  match s.phase with
  | .setup => s.requests = []
  | .head round =>
      round ≤ maxToolRounds ∧
        goOn typeError w (maxToolRounds - round) s.messages (asked s.requests) = o
  | .streaming round =>
      round ≤ maxToolRounds ∧ ∃ before,
        asked s.requests = before ++ [⟨s.messages, round < maxToolRounds⟩] ∧
        goOn typeError w (maxToolRounds - round) s.messages before = o
  | .tools round calls =>
      round < maxToolRounds ∧ ∃ before messages message,
        asked s.requests = before ++ [⟨messages, true⟩] ∧
        w.model (asked s.requests) = .ok message ∧ toolUsesOf message.content ≠ [] ∧
        s.messages = messages ++ [.answer message.content] ∧
        calls.map ToolCall.use = toolUsesOf message.content ∧
        Returned typeError w (asked s.requests) calls ∧
        goOn typeError w (maxToolRounds - round) messages before = o
  | .throwing error calls => calls = [] ∧ o = ⟨asked s.requests, .error error⟩
  | .ended =>
      s.aborted = false → asked s.requests = o.sent ∧ EndsLike s.events o.result

variable {typeError env request w}

/-! One request. -/

theorem goOn_refused {n : ℕ} {messages : List Turn} {before : List (Request Turn)}
    {error : SdkError} (h : w.model (before ++ [⟨messages, 0 < n⟩]) = .error error) :
    goOn typeError w n messages before =
      ⟨before ++ [⟨messages, 0 < n⟩], .error (toCleanError error)⟩ := by
  cases n with
  | zero =>
      have hmodel : w.model (before ++ [⟨messages, false⟩]) = .error error := h
      simp [goOn, rounds, anthropicWorld, hmodel, Except.mapError, Except.map]
  | succ n =>
      have hmodel : w.model (before ++ [⟨messages, true⟩]) = .error error := by simpa using h
      simp [goOn, rounds, anthropicWorld, hmodel, Except.mapError]

/-- The reply to the last request, or one that calls no tools, is the answer. -/
theorem goOn_answered {n : ℕ} {messages : List Turn} {before : List (Request Turn)}
    {message : ChatStream.Message}
    (h : w.model (before ++ [⟨messages, 0 < n⟩]) = .ok message)
    (hlast : n = 0 ∨ toolUsesOf message.content = []) :
    goOn typeError w n messages before =
      ⟨before ++ [⟨messages, 0 < n⟩], .ok (finalize message)⟩ := by
  cases n with
  | zero =>
      have hmodel : w.model (before ++ [⟨messages, false⟩]) = .ok message := h
      simp [goOn, rounds, anthropicWorld, hmodel, Except.mapError, Except.map, anthropicProtocol]
  | succ n =>
      have hmodel : w.model (before ++ [⟨messages, true⟩]) = .ok message := by simpa using h
      have hnone : toolUsesOf message.content = [] := hlast.resolve_left (Nat.succ_ne_zero n)
      simp [goOn, rounds, anthropicWorld, hmodel, Except.mapError, anthropicProtocol, hnone]

theorem goOn_tools {n : ℕ} {messages : List Turn} {before : List (Request Turn)}
    {message : ChatStream.Message} (h : w.model (before ++ [⟨messages, true⟩]) = .ok message)
    (huses : toolUsesOf message.content ≠ []) {blocks : List ToolResultBlock}
    (hblocks : (anthropicProtocol typeError).results
      ((anthropicWorld w).outcomes (before ++ [⟨messages, true⟩]) (toolUsesOf message.content)) =
        .ok [.results blocks]) :
    goOn typeError w (n + 1) messages before =
      goOn typeError w n (messages ++ [.answer message.content, .results blocks])
        (before ++ [⟨messages, true⟩]) := by
  have hmodel : (anthropicWorld w).model (before ++ [⟨messages, true⟩]) = .ok message := by
    simp [anthropicWorld, h, Except.mapError]
  have hcalls : ((anthropicProtocol typeError).calls message).isEmpty = false := by
    simpa [anthropicProtocol] using huses
  have hsame : (anthropicProtocol typeError).results ((anthropicWorld w).outcomes
      (before ++ [⟨messages, true⟩]) ((anthropicProtocol typeError).calls message)) =
        .ok [.results blocks] := hblocks
  simp only [goOn, rounds, hmodel, hcalls, hsame]
  rfl

/-! The results of a round. -/

theorem returned_start (sent : List (Request Turn)) (uses : List ToolUse) :
    Returned typeError w sent (uses.map fun use => ⟨use, none⟩) := by
  intro i call block hcall hblock
  obtain ⟨use, -, rfl⟩ := List.mem_map.mp (List.mem_of_getElem? hcall)
  cases hblock

theorem Returned.set {sent : List (Request Turn)} {calls : List ToolCall}
    (h : Returned typeError w sent calls) {index : ℕ} {use : ToolUse} {block : ToolResultBlock}
    (hblock : resultBlock typeError (use, w.tool sent index) = .ok block) :
    Returned typeError w sent (calls.set index ⟨use, some block⟩) := by
  intro i call block' hcall hblock'
  by_cases hi : index = i
  · subst hi
    have hlt := (List.getElem?_eq_some_iff.mp hcall).1
    rw [List.length_set] at hlt
    rw [List.getElem?_set_self hlt] at hcall
    obtain rfl := Option.some.inj hcall
    obtain rfl := Option.some.inj hblock'
    exact hblock
  · rw [List.getElem?_set_ne hi] at hcall
    exact h i call block' hcall hblock'

/-- Once all calls have come back, the blocks are those that the call makes. -/
theorem mapM_returned {sent : List (Request Turn)} {calls : List ToolCall}
    {blocks : List ToolResultBlock} (offset : ℕ)
    (h : ∀ i call block, calls[i]? = some call → call.block = some block →
      resultBlock typeError (call.use, w.tool sent (offset + i)) = .ok block)
    (hblocks : blocksOf calls = some blocks) :
    (((calls.map ToolCall.use).zipIdx offset).map fun c => (c.1, w.tool sent c.2)).mapM
      (resultBlock typeError) = .ok blocks := by
  induction calls generalizing blocks offset with
  | nil =>
      obtain rfl := Option.some.inj hblocks
      rfl
  | cons call calls ih =>
      simp only [blocksOf, List.mapM_cons, Option.bind_eq_bind, Option.bind_eq_some_iff,
        Option.pure_def, Option.some.injEq] at hblocks
      obtain ⟨block, hblock, rest, hrest, rfl⟩ := hblocks
      have hfirst := h 0 call block rfl hblock
      rw [Nat.add_zero] at hfirst
      have hmore := ih (offset + 1)
        (fun i call' block' hcall' hblock' => by
          have hnext := h (i + 1) call' block' hcall' hblock'
          rwa [show offset + (i + 1) = offset + 1 + i by omega] at hnext) hrest
      rw [List.map_cons, List.zipIdx_cons, List.map_cons, List.mapM_cons, hfirst, hmore]
      rfl

theorem results_returned {sent : List (Request Turn)} {calls : List ToolCall}
    {blocks : List ToolResultBlock} (h : Returned typeError w sent calls)
    (hblocks : blocksOf calls = some blocks) :
    (anthropicProtocol typeError).results
      ((anthropicWorld w).outcomes sent (calls.map ToolCall.use)) = .ok [.results blocks] := by
  have hmap := @mapM_returned typeError w sent calls blocks 0
    (fun i call block hcall hblock => by
      rw [Nat.zero_add]
      exact h i call block hcall hblock) hblocks
  have houtcomes : (anthropicWorld w).outcomes sent (calls.map ToolCall.use) =
      (((calls.map ToolCall.use).zipIdx 0).map fun c => (c.1, w.tool sent c.2)) := rfl
  simp only [anthropicProtocol, houtcomes, hmap, Except.map]

/-! One step. -/

theorem asked_ask (s : Stream) (r : ModelRequest) :
    asked (s.ask r).requests = asked s.requests ++ [⟨r.messages, r.withTools⟩] := by
  rw [Stream.ask, asked, List.map_append]
  rfl

theorem zero_lt_left {round : ℕ} : (0 < maxToolRounds - round) = (round < maxToolRounds) :=
  propext (by omega)

variable {s s' : Stream} {o : Outcome Turn Thrown ChatResponse}

theorem simulates_abort (h : Simulates typeError w s o) :
    Simulates typeError w { s with aborted := true } o := by
  cases hphase : s.phase <;> simp only [Simulates, hphase] at h ⊢ <;> first | exact h | simp

theorem simulates_finish (h : Simulates typeError w s o) {round : ℕ}
    (hphase : s.phase = .streaming round) {message : ChatStream.Message}
    (hmodel : w.model (asked s.requests) = .ok message) :
    Simulates typeError w
      (if round < maxToolRounds && !(toolUsesOf message.content).isEmpty then
        s.startTools round message.content
      else s.conclude message) o := by
  simp only [Simulates, hphase] at h
  obtain ⟨hround, before, hasked, hrest⟩ := h
  split
  · rename_i htools
    obtain ⟨hless, huses⟩ := Bool.and_eq_true_iff.mp htools
    have hlt : round < maxToolRounds := of_decide_eq_true hless
    have huses' : toolUsesOf message.content ≠ [] := by simpa using huses
    refine ⟨hlt, before, s.messages, message, ?_, hmodel, huses', rfl, ?_, returned_start _ _,
      hrest⟩
    · show asked s.requests = _
      rw [hasked]
      simp [hlt]
    · rw [List.map_map]
      exact List.map_id _
  · rename_i htools
    have hlast : maxToolRounds - round = 0 ∨ toolUsesOf message.content = [] := by
      by_cases hlt : round < maxToolRounds
      · right
        simpa [hlt] using htools
      · left
        omega
    intro _
    have hmodel' : w.model (before ++ [⟨s.messages, 0 < maxToolRounds - round⟩]) =
        .ok message := by
      simp only [zero_lt_left]
      rw [← hasked]
      exact hmodel
    rw [goOn_answered hmodel' hlast] at hrest
    subst hrest
    refine ⟨?_, ?_⟩
    · show asked s.requests = _
      simp only [zero_lt_left, hasked]
    · show EndsLike (s.events ++ (_ ++ [_])) (.ok (finalize message))
      rw [← List.append_assoc]
      exact .answered s.events message

theorem simulates_toolDone (h : Simulates typeError w s o) {round index : ℕ}
    {calls : List ToolCall} (hphase : s.phase = .tools round calls) {use : ToolUse}
    (hcall : calls[index]? = some ⟨use, none⟩) :
    Simulates typeError w
      ((s.announce use (executeTool use.name (w.tool (asked s.requests) index))).goto
        (afterTool typeError round calls index use
          (executeTool use.name (w.tool (asked s.requests) index)))) o := by
  simp only [Simulates, hphase] at h
  obtain ⟨hround, before, messages, message, hasked, hmodel, huses, hmessages, hcalls, hreturned,
    hrest⟩ := h
  obtain ⟨out, hout, hblock⟩ := resultBlock_ok typeError (use, w.tool (asked s.requests) index)
  rw [afterTool, hout]
  refine ⟨hround, before, messages, message, hasked, hmodel, huses, hmessages, ?_,
    hreturned.set hblock, hrest⟩
  rw [ChatStream.map_use_set hcall, hcalls]

theorem simulates_roundDone (h : Simulates typeError w s o) {round : ℕ} {calls : List ToolCall}
    (hphase : s.phase = .tools round calls) {blocks : List ToolResultBlock}
    (hblocks : blocksOf calls = some blocks) :
    Simulates typeError w ((s.push (.results blocks)).goto (.head (round + 1))) o := by
  simp only [Simulates, hphase] at h
  obtain ⟨hround, before, messages, message, hasked, hmodel, huses, hmessages, hcalls, hreturned,
    hrest⟩ := h
  have hresults := results_returned hreturned hblocks
  rw [hcalls, hasked] at hresults
  rw [hasked] at hmodel
  have hleft : maxToolRounds - round = maxToolRounds - (round + 1) + 1 := by omega
  rw [hleft, goOn_tools hmodel huses hresults] at hrest
  refine ⟨hround, ?_⟩
  show goOn typeError w _ (s.messages ++ [.results blocks]) (asked s.requests) = o
  rw [hmessages, hasked, List.append_assoc]
  exact hrest

theorem simulates_step {input : Input} (h : Simulates typeError w s (callAnthropic typeError env
      request w)) (hfollows : Follows env w s input)
    (hstep : ChatStream.step typeError request s input = some s') :
    Simulates typeError w s' (callAnthropic typeError env request w) := by
  unfold ChatStream.step at hstep
  split at hstep
  · cases hstep
  · obtain rfl := Option.some.inj hstep
    exact simulates_abort h
  · rename_i error hphase
    obtain rfl := Option.some.inj hstep
    simp only [Simulates, Follows, hphase] at h hfollows
    obtain ⟨hnone, rfl⟩ := hfollows
    refine ⟨rfl, ?_⟩
    rw [callAnthropic, hnone]
    show _ = Outcome.mk (asked s.requests) _
    rw [h]
    rfl
  · rename_i hphase
    obtain rfl := Option.some.inj hstep
    simp only [Simulates, Follows, hphase] at h hfollows
    obtain ⟨key, hkey⟩ := Option.isSome_iff_exists.mp hfollows
    refine ⟨Nat.zero_le _, ?_⟩
    rw [callAnthropic, hkey]
    show goOn typeError w _ (buildMessages request) (asked s.requests) = _
    rw [h]
    rfl
  · rename_i round hphase
    split at hstep
    · rename_i haborted
      obtain rfl := Option.some.inj hstep
      intro hopen
      exact absurd (haborted.symm.trans hopen) Bool.noConfusion
    · obtain rfl := Option.some.inj hstep
      simp only [Simulates, hphase] at h
      obtain ⟨hround, hrest⟩ := h
      exact ⟨hround, asked s.requests, asked_ask s _, hrest⟩
  · rename_i round d hphase
    obtain rfl := Option.some.inj hstep
    simpa only [Simulates, Stream.emit, hphase] using h
  · rename_i round error hphase
    obtain rfl := Option.some.inj hstep
    simp only [Simulates, Follows, hphase] at h hfollows
    split
    · rename_i haborted
      intro hopen
      exact absurd (haborted.symm.trans hopen) Bool.noConfusion
    · rename_i haborted
      obtain ⟨hround, before, hasked, hrest⟩ := h
      have hmodel := hfollows (by simpa using haborted)
      rw [hasked] at hmodel
      refine ⟨rfl, ?_⟩
      rw [← hrest, goOn_refused (by simpa only [zero_lt_left] using hmodel)]
      show _ = Outcome.mk (asked s.requests) _
      simp only [zero_lt_left, hasked]
  · rename_i round message hphase
    simp only [Follows, hphase] at hfollows
    have hfinish := simulates_finish h hphase hfollows
    split at hstep
    · rename_i htools
      obtain rfl := Option.some.inj hstep
      rwa [if_pos htools] at hfinish
    · rename_i htools
      obtain rfl := Option.some.inj hstep
      rwa [if_neg htools] at hfinish
  · rename_i round calls index outcome hphase
    simp only [Follows, hphase] at hfollows
    split at hstep
    · rename_i use hcall
      obtain rfl := Option.some.inj hstep
      subst hfollows
      exact simulates_toolDone h hphase hcall
    · cases hstep
  · rename_i round calls hphase
    obtain ⟨blocks, hblocks, rfl⟩ := Option.map_eq_some_iff.mp hstep
    exact simulates_roundDone h hphase hblocks
  · rename_i error calls index outcome hphase
    simp only [Simulates, hphase] at h
    obtain ⟨rfl, -⟩ := h
    simp at hstep
  · rename_i error calls hphase
    obtain rfl := Option.some.inj hstep
    simp only [Simulates, hphase] at h
    intro _
    obtain ⟨-, heq⟩ := h
    rw [heq]
    exact ⟨rfl, .thrown s.events error⟩
  · cases hstep

/-! A run. -/

def maxTokens : ℕ := 8192

/-- The requests of the call as they are written. -/
def callRequests (request : ChatRequest) (o : Outcome Turn Thrown ChatResponse) :
    List ModelRequest :=
  o.sent.map fun r => ⟨ChatStream.modelOf request, maxTokens, r.turns, false, r.withTools⟩

/-- The same request with the headroom of a stream, and with thinking. -/
def asStreamed (r : ModelRequest) : ModelRequest :=
  { r with maxTokens := ChatStream.streamMaxTokens, thinking := true }

/-- A request as the stream writes it. -/
def withModel (request : ChatRequest) (r : Request Turn) : ModelRequest :=
  ⟨ChatStream.modelOf request, ChatStream.streamMaxTokens, r.turns, true, r.withTools⟩

theorem map_asStreamed (request : ChatRequest) (o : Outcome Turn Thrown ChatResponse) :
    (callRequests request o).map asStreamed = o.sent.map (withModel request) := by
  rw [callRequests, List.map_map]
  rfl

theorem prefix_streaming (h : Simulates typeError w s o) {round : ℕ}
    (hphase : s.phase = .streaming round) : asked s.requests <+: o.sent := by
  simp only [Simulates, hphase] at h
  obtain ⟨-, before, hasked, rfl⟩ := h
  obtain ⟨exchanges, hdialogue⟩ := @dialogue_rounds _ _ _ _ _ _ (anthropicProtocol typeError)
    (anthropicWorld w) (maxToolRounds - round) s.messages before
  rw [hasked, hdialogue.sent]
  refine (List.prefix_append_right_inj before).mpr ?_
  simp only [← zero_lt_left]
  cases exchanges with
  | nil => exact List.prefix_refl _
  | cons x rest => exact List.prefix_append [_] _

/-- What holds after each step of a stream. -/
structure Inv (typeError : ToolResult → Thrown) (request : ChatRequest)
    (w : World Turn ChatStream.Message ChatStream.Outcome SdkError) (s : Stream)
    (o : Outcome Turn Thrown ChatResponse) : Prop where
  simulates : Simulates typeError w s o
  sent : asked s.requests <+: o.sent
  named : (asked s.requests).map (withModel request) = s.requests

theorem inv_step {input : Input}
    (h : Inv typeError request w s (callAnthropic typeError env request w))
    (hfollows : Follows env w s input)
    (hstep : ChatStream.step typeError request s input = some s') :
    Inv typeError request w s' (callAnthropic typeError env request w) := by
  have hsimulates := simulates_step h.simulates hfollows hstep
  cases ChatStream.step_cases typeError hstep with
  | ask round hphase =>
      refine ⟨hsimulates, prefix_streaming hsimulates rfl, ?_⟩
      show (asked (s.ask _).requests).map (withModel request) = s.requests ++ [_]
      rw [asked_ask, List.map_append, h.named]
      rfl
  | _ => exact ⟨hsimulates, h.sent, h.named⟩

/-- In every run of the stream route on a model and tools, with the tools coming back
in any order, the requests are the first ones of the call without a stream, but for the
limit of tokens and the thinking. When it has ended and the client is still there, they
are all of them, and the end is that of the call: its model and the stand-in for a missing
text, or its error. -/
theorem stream_agrees (typeError : ToolResult → Thrown) (env : Env) (request : ChatRequest)
    (w : World Turn ChatStream.Message ChatStream.Outcome SdkError) {inputs : List Input}
    {s : Stream} (hrun : (route typeError request).run inputs = some s)
    (hfollows : (route typeError request).EveryStep inputs fun _ s input _ =>
      Follows env w s input) :
    s.requests <+: (callRequests request (callAnthropic typeError env request w)).map asStreamed ∧
    (s.phase = .ended → s.aborted = false →
      s.requests = (callRequests request (callAnthropic typeError env request w)).map asStreamed ∧
      EndsLike s.events (callAnthropic typeError env request w).result) := by
  have h : Inv typeError request w s (callAnthropic typeError env request w) := by
    have hinit : Inv typeError request w (route typeError request).init
        (callAnthropic typeError env request w) := by
      refine ⟨?_, List.nil_prefix, rfl⟩
      show ([] : List ModelRequest) = []
      rfl
    refine Machine.invariant_of_everyStep
      (P := fun _ s => Inv typeError request w s (callAnthropic typeError env request w))
      hinit ?_ hrun hfollows
    intro events s input s' _ hinv hstep hfollow
    exact inv_step hinv hfollow hstep
  rw [map_asStreamed]
  refine ⟨?_, fun hended haborted => ?_⟩
  · have hprefix := h.sent.map (withModel request)
    rwa [h.named] at hprefix
  · have hsimulates := h.simulates
    simp only [Simulates, hended] at hsimulates
    obtain ⟨hsent, hend⟩ := hsimulates haborted
    refine ⟨?_, hend⟩
    rw [← hsent, h.named]

/-! Two tools that come back in the other order, and an answer. -/

def key : Env := ⟨none, some (js "sk"), none, none⟩

def question : ChatRequest := ⟨js "q", none, []⟩

def lastMessage : ChatStream.Message := ⟨[.text (js "x")], .other, js "m"⟩

def twoRounds : World Turn ChatStream.Message ChatStream.Outcome SdkError where
  model sent := .ok (if sent.length = 1 then ChatStream.twoUses else lastMessage)
  tool _ i := if i = 0 then .returned ChatStream.noServices else .threw []

def asking : List Input :=
  [] ++ [.setupDone] ++ [.check] ++ [.finish ChatStream.twoUses] ++ [.toolDone 1 (.threw [])] ++
    [.toolDone 0 (.returned ChatStream.noServices)] ++ [.roundDone] ++ [.check] ++
    [.finish lastMessage]

theorem follows_concat {inputs : List Input} {input : Input} {s s' : Stream}
    (hrun : (route ChatStream.noTypeError question).run inputs = some s)
    (hstep : (route ChatStream.noTypeError question).step s input = some s')
    (hfollow : Follows key twoRounds s input)
    (h : (route ChatStream.noTypeError question).EveryStep inputs fun _ s input _ =>
      Follows key twoRounds s input) :
    (route ChatStream.noTypeError question).EveryStep (inputs ++ [input]) fun _ s input _ =>
      Follows key twoRounds s input :=
  (Machine.everyStep_concat_iff hrun hstep).mpr ⟨h, hfollow⟩

theorem asking_follows : (route ChatStream.noTypeError question).EveryStep asking
    fun _ s input _ => Follows key twoRounds s input := by
  refine follows_concat rfl rfl rfl <| follows_concat rfl rfl trivial <|
    follows_concat rfl rfl trivial <| follows_concat rfl rfl rfl <|
    follows_concat rfl rfl rfl <| follows_concat rfl rfl rfl <|
    follows_concat rfl rfl trivial <| follows_concat rfl rfl rfl ?_
  intro before e after s s' hevents
  exact absurd hevents (by simp)

theorem asking_agrees : ∃ s, (route ChatStream.noTypeError question).run asking = some s ∧
    s.requests.length = 2 ∧
    EndsLike s.events (callAnthropic ChatStream.noTypeError key question twoRounds).result := by
  obtain ⟨-, hend⟩ := stream_agrees ChatStream.noTypeError key question twoRounds
    (show (route ChatStream.noTypeError question).run asking = some _ from rfl) asking_follows
  exact ⟨_, rfl, rfl, (hend rfl rfl).2⟩

end KGuardian.StreamAgreement
