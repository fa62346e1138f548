import KGuardian.ChatStream
import Mathlib.Data.List.DropRight

/-!
The answer on its way to the reader: the stream route, the bytes of the connection, the
client (`frontend/src/services/aiApi.ts`) and the message that the assistant panel shows
(`frontend/src/components/AIAssistant.tsx`).
-/
namespace KGuardian.ChatDelivery

open JsJson ToolResults Runs Utf8Stream
open ChatFrames (StreamEvent Item Call written streamChatMessage calls receive_eq
  takeFrames_written decodeAll_start dispatchAll_before)
open ChatStream (ChatRequest Stream Input Thrown Delta Block textOf fallbackFor isEnd Complete
  route isSpaceUnit trim)

/-! The message of the panel. -/

inductive Activity where
  | thinking
  | tool (name : Option Json)
  | analyzing

structure Message where
  content : JsString
  activity : Option Activity
  streaming : Bool

/-- The placeholder that the answer is written into. -/
def placeholder : Message := ⟨[], some .thinking, true⟩

/-- A value within a template. A missing one is written out, too. -/
def asText (v : Option Json) : JsString :=
  match v with
  | none => js "undefined"
  | some v => (toText v).getD []

/-- The handlers of `handleSendMessage`. -/
def patchAssistant (m : Message) : Call → Message
  | .onText delta => { m with content := m.content ++ asText delta, activity := none }
  | .onThinking _ => if m.content.isEmpty then { m with activity := some .thinking } else m
  | .onToolUse name => { m with activity := some (.tool name) }
  | .onToolResult _ _ => { m with activity := some .analyzing }
  | .onDone _ => { m with streaming := false, activity := none }
  | .onError error =>
      { m with
        streaming := false
        activity := none
        content :=
          if m.content.isEmpty then js "Error: " ++ asText error
          else m.content ++ js "\n\n_Error: " ++ asText error ++ js "_" }

/-- What is done in every case once the client has returned. -/
def finalized (m : Message) : Message :=
  if m.streaming then { m with streaming := false, activity := none } else m

/-- The message for a response in these pieces. A frame that throws is an error. -/
def handleSendMessage (canon : List Char → List Char) (typeError : JsString)
    (chunks : List (List ℕ)) : Message :=
  let out := streamChatMessage canon chunks
  let m := out.calls.foldl patchAssistant placeholder
  finalized (if out.failed then patchAssistant m (.onError (some (.str typeError))) else m)

/-! The answer as it was meant. -/

def textDelta : StreamEvent → Option JsString
  | .text delta => some delta
  | _ => none

/-- The text of the events. -/
def textsOf (events : List StreamEvent) : JsString := (events.filterMap textDelta).flatten

/-- A message that shows the whole answer, with the error where there was one. -/
inductive Shows : List StreamEvent → JsString → Prop
  | done (body : List StreamEvent) (model : JsString) :
      Shows (body ++ [.done model]) (textsOf body)
  | error (body : List StreamEvent) (error : JsString) :
      Shows (body ++ [.error error])
        (if (textsOf body).isEmpty then js "Error: " ++ error
        else textsOf body ++ js "\n\n_Error: " ++ error ++ js "_")

/-- The events among what the route writes. -/
def eventsOf (items : List Item) : List StreamEvent :=
  items.filterMap fun
    | .event e => some e
    | .ping => none

def isDelta : Input → Bool
  | .delta _ => true
  | _ => false

def deltaText : Input → Option JsString
  | .delta (.text delta) => some delta
  | _ => none

/-- The text of the message that is being streamed. -/
def streamed (inputs : List Input) : JsString :=
  ((inputs.rtakeWhile isDelta).filterMap deltaText).flatten

def blockText : Block → Option JsString
  | .text text => some text
  | _ => none

/-- A completed message is made of the deltas that came before it. -/
def Accumulated (before : List Input) : Input → Prop
  | .finish message => streamed before = (message.content.filterMap blockText).flatten
  | _ => True

theorem textsOf_append (a b : List StreamEvent) : textsOf (a ++ b) = textsOf a ++ textsOf b := by
  rw [textsOf, List.filterMap_append, List.flatten_append]
  rfl

theorem streamed_concat (inputs : List Input) (input : Input) :
    streamed (inputs ++ [input]) =
      if isDelta input then streamed inputs ++ (deltaText input).getD [] else [] := by
  rw [streamed, List.rtakeWhile_concat]
  cases h : isDelta input with
  | true =>
      rw [if_pos rfl, if_pos rfl, List.filterMap_append, List.flatten_append, streamed]
      cases input with
      | delta d => cases d <;> simp [deltaText]
      | _ => cases h
  | false => rfl

/-! One call after the other. -/

theorem patch_event (m : Message) (e : StreamEvent) (he : isEnd e = false) :
    (patchAssistant m e.call).content = m.content ++ textsOf [e] ∧
      (patchAssistant m e.call).streaming = m.streaming := by
  cases e with
  | text delta => simp [patchAssistant, StreamEvent.call, asText, toText, textsOf, textDelta]
  | thinking delta =>
      simp only [patchAssistant, StreamEvent.call, textsOf, textDelta]
      split
      · exact ⟨(List.append_nil _).symm, rfl⟩
      · exact ⟨(List.append_nil _).symm, rfl⟩
  | toolUse name id => exact ⟨(List.append_nil _).symm, rfl⟩
  | toolResult name ok => exact ⟨(List.append_nil _).symm, rfl⟩
  | done model => cases he
  | error error => cases he

theorem patch_body (m : Message) (body : List StreamEvent) (hbody : ∀ e ∈ body, isEnd e = false) :
    ((body.map StreamEvent.call).foldl patchAssistant m).content = m.content ++ textsOf body ∧
      ((body.map StreamEvent.call).foldl patchAssistant m).streaming = m.streaming := by
  induction body generalizing m with
  | nil => exact ⟨(List.append_nil _).symm, rfl⟩
  | cons e body ih =>
      obtain ⟨hcontent, hstreaming⟩ := patch_event m e (hbody e List.mem_cons_self)
      obtain ⟨hrest, hsame⟩ := ih (patchAssistant m e.call)
        fun e' he' => hbody e' (List.mem_cons_of_mem _ he')
      rw [List.map_cons, List.foldl_cons, hrest, hsame, hcontent, hstreaming, List.append_assoc,
        ← textsOf_append]
      exact ⟨rfl, rfl⟩

/-- The message of a stream that has ended is at rest and shows the answer. -/
theorem shows_complete {events : List StreamEvent} (h : Complete events) :
    let m := finalized ((events.map StreamEvent.call).foldl patchAssistant placeholder)
    m.streaming = false ∧ m.activity.isNone ∧ Shows events m.content := by
  obtain ⟨body, last, rfl, hlast, hbody, -⟩ := h
  obtain ⟨hcontent, -⟩ := patch_body placeholder body hbody
  have hnil : placeholder.content = [] := rfl
  rw [hnil, List.nil_append] at hcontent
  simp only [List.map_append, List.map_singleton, List.foldl_append, List.foldl_cons,
    List.foldl_nil]
  generalize (body.map StreamEvent.call).foldl patchAssistant placeholder = m at hcontent
  cases last with
  | done model =>
      refine ⟨rfl, rfl, ?_⟩
      show Shows (body ++ [.done model]) m.content
      rw [hcontent]
      exact .done body model
  | error error =>
      refine ⟨rfl, rfl, ?_⟩
      show Shows (body ++ [.error error])
        (if m.content.isEmpty then js "Error: " ++ asText (some (.str error))
          else m.content ++ js "\n\n_Error: " ++ asText (some (.str error)) ++ js "_")
      rw [hcontent]
      have htext : asText (some (.str error)) = error := by simp [asText, toText]
      rw [htext]
      exact .error body error
  | _ => cases hlast

/-- The calls of the whole stream are those of its events. -/
theorem calls_eventsOf (items : List Item) :
    calls items = (eventsOf items).map StreamEvent.call := by
  induction items with
  | nil => rfl
  | cons item items ih =>
      cases item with
      | ping => exact ih
      | event e => exact congrArg (e.call :: ·) ih

theorem calls_of_bytes (canon : List Char → List Char) {items : List Item}
    {chunks : List (List ℕ)} (h : chunks.flatten = encode (written items)) :
    streamChatMessage canon chunks = ⟨calls items, false⟩ := by
  obtain ⟨rest, htext, hend⟩ := decodeAll_start (show chunks.flatten ++ [] = _ by simpa using h)
  rw [hend rfl, List.append_nil] at htext
  have hreceive := receive_eq [] (Decoder.start.decodeAll chunks) rfl
  rw [List.nil_append, htext, takeFrames_written] at hreceive
  have htrim : (JsText.trimSpace ([] : List Char)).isEmpty = true := rfl
  simp only [streamChatMessage, hreceive, htrim, if_true, List.append_nil]
  exact dispatchAll_before canon items

/-! An answer that is not blank. -/

/-- Texts without characters are joined to the separators. -/
theorem intercalate_blank {sep : JsString} {parts : List JsString} (h : parts.flatten = []) :
    ∀ u ∈ sep.intercalate parts, u ∈ sep := by
  induction parts with
  | nil => exact fun u hu => absurd hu List.not_mem_nil
  | cons first parts ih =>
      rw [List.flatten_cons, List.append_eq_nil_iff] at h
      obtain ⟨rfl, hrest⟩ := h
      cases parts with
      | nil => exact fun u hu => absurd hu List.not_mem_nil
      | cons second parts =>
          intro u hu
          rw [List.intercalate_cons_cons, List.nil_append] at hu
          rcases List.mem_append.mp hu with hsep | hmore
          · exact hsep
          · exact ih hrest u hmore

theorem trim_blank {s : JsString} (h : ∀ u ∈ s, isSpaceUnit u = true) : trim s = [] := by
  rw [trim, List.dropWhile_eq_nil_iff.mpr h]
  rfl

/-- A message without any text is blank. -/
theorem textOf_blank {message : ChatStream.Message}
    (h : (message.content.filterMap blockText).flatten = []) : textOf message = [] := by
  refine trim_blank fun u hu => ?_
  have hline : u ∈ js "\n" := intercalate_blank h u hu
  have hspace : (js "\n").all isSpaceUnit = true := rfl
  exact List.all_eq_true.mp hspace u hline

theorem fallbackFor_ne_nil (message : ChatStream.Message) : fallbackFor message ≠ [] := by
  cases h : message.stopReason <;> simp only [fallbackFor, h] <;> decide

/-- While a message is streamed the deltas so far are the end of the text, and what has
ended with a message has some text. -/
def Texts (inputs : List Input) (s : Stream) : Prop :=
  s.aborted = false →
    match s.phase with
    | .streaming _ => ∃ earlier, textsOf s.events = earlier ++ streamed inputs
    | .ended => textsOf s.events ≠ [] ∨ ∃ error, .error error ∈ s.events
    | _ => True

variable {typeError : ToolResult → Thrown} {request : ChatRequest}

theorem texts_conclude {inputs : List Input} {s : Stream} {message : ChatStream.Message}
    (h : ∃ earlier, textsOf s.events = earlier ++ streamed inputs)
    (hmessage : streamed inputs = (message.content.filterMap blockText).flatten) :
    textsOf (s.conclude message).events ≠ [] := by
  obtain ⟨earlier, hearlier⟩ := h
  have hevents : (s.conclude message).events = s.events ++
      ((if (textOf message).isEmpty then [.text (fallbackFor message)] else []) ++
        [.done message.model]) := rfl
  rw [hevents, textsOf_append, hearlier, hmessage, textsOf_append]
  intro hnil
  simp only [List.append_eq_nil_iff] at hnil
  obtain ⟨⟨-, hblank⟩, hfallback, -⟩ := hnil
  rw [textOf_blank hblank] at hfallback
  exact fallbackFor_ne_nil message (by simpa [textsOf, textDelta] using hfallback)

theorem texts_step {inputs : List Input} {s s' : Stream} {input : Input} (h : Texts inputs s)
    (hstep : ChatStream.step typeError request s input = some s')
    (haccumulated : Accumulated inputs input) : Texts (inputs ++ [input]) s' := by
  unfold ChatStream.step at hstep
  split at hstep
  · cases hstep
  · obtain rfl := Option.some.inj hstep
    exact fun haborted => absurd haborted (show ¬ true = false by decide)
  · obtain rfl := Option.some.inj hstep
    exact fun _ => trivial
  · obtain rfl := Option.some.inj hstep
    exact fun _ => trivial
  · split at hstep
    · rename_i haborted
      obtain rfl := Option.some.inj hstep
      intro hopen
      exact absurd (haborted.symm.trans hopen) Bool.noConfusion
    · obtain rfl := Option.some.inj hstep
      intro _
      refine ⟨textsOf s.events, ?_⟩
      rw [streamed_concat]
      exact (List.append_nil _).symm
  · rename_i round d hphase
    obtain rfl := Option.some.inj hstep
    intro haborted
    have hbefore := h haborted
    simp only [hphase] at hbefore
    obtain ⟨earlier, hearlier⟩ := hbefore
    show match s.phase with
      | .streaming _ => ∃ earlier, textsOf (s.events ++ [d.event]) =
          earlier ++ streamed (inputs ++ [.delta d])
      | .ended => _
      | _ => True
    rw [hphase]
    refine ⟨earlier, ?_⟩
    have hdelta : isDelta (.delta d) = true := rfl
    rw [textsOf_append, hearlier, streamed_concat, hdelta, if_pos rfl, List.append_assoc]
    cases d with
    | text delta => simp [textsOf, textDelta, deltaText, Delta.event]
    | thinking delta => simp [textsOf, textDelta, deltaText, Delta.event]
  · obtain rfl := Option.some.inj hstep
    split
    · rename_i haborted
      intro hopen
      exact absurd (haborted.symm.trans hopen) Bool.noConfusion
    · exact fun _ => trivial
  · rename_i round message hphase
    split at hstep
    · obtain rfl := Option.some.inj hstep
      exact fun _ => trivial
    · obtain rfl := Option.some.inj hstep
      intro haborted
      have hbefore := h haborted
      simp only [hphase] at hbefore
      exact Or.inl (texts_conclude hbefore haccumulated)
  · rename_i round calls index outcome hphase
    split at hstep
    · rename_i use hcall
      obtain rfl := Option.some.inj hstep
      obtain ⟨out, hafter⟩ :=
        ChatStream.afterTool_executeTool typeError round calls index use outcome
      rw [hafter]
      exact fun _ => trivial
    · cases hstep
  · obtain ⟨blocks, -, rfl⟩ := Option.map_eq_some_iff.mp hstep
    exact fun _ => trivial
  · split at hstep
    · obtain rfl := Option.some.inj hstep
      exact fun _ => trivial
    · cases hstep
  · rename_i error calls hphase
    obtain rfl := Option.some.inj hstep
    exact fun _ => Or.inr ⟨error.detail, List.mem_append_right _ List.mem_cons_self⟩
  · cases hstep

/-- A shown answer is not empty when the events have some text or an error. -/
theorem Shows.ne_nil {events : List StreamEvent} {content : JsString} (h : Shows events content)
    (hcomplete : Complete events)
    (htexts : textsOf events ≠ [] ∨ ∃ error, .error error ∈ events) : content ≠ [] := by
  cases h with
  | done body model =>
      rw [textsOf_append] at htexts
      rcases htexts with htexts | ⟨error, herror⟩
      · simpa [textsOf, textDelta] using htexts
      · obtain ⟨body', last, heq, -, hbody, -⟩ := hcomplete
        obtain ⟨rfl, -⟩ := List.append_inj' heq rfl
        rcases List.mem_append.mp herror with hmem | hmem
        · exact absurd (hbody _ hmem) Bool.noConfusion
        · cases List.mem_singleton.mp hmem
  | error body error =>
      have hprefix : js "Error: " ≠ [] := by decide
      split
      · exact List.append_ne_nil_of_left_ne_nil hprefix _
      · rename_i hne
        have hbody : textsOf body ≠ [] := by simpa using hne
        exact List.append_ne_nil_of_left_ne_nil (List.append_ne_nil_of_left_ne_nil
          (List.append_ne_nil_of_left_ne_nil hbody _) _) _

/-- However the tools come back, the route writes its comments and the network cuts the
bytes, once a stream has ended for a client that is still there, the message is at rest
and shows the text of all rounds, with the error if there was one, and it is not blank. -/
theorem chat_delivery (canon : List Char → List Char) (frameError : JsString)
    (typeError : ToolResult → Thrown) (request : ChatRequest) {inputs : List Input} {s : Stream}
    (hrun : (route typeError request).run inputs = some s)
    (haccumulated : (route typeError request).EveryStep inputs fun before _ input _ =>
      Accumulated before input)
    (hended : s.phase = .ended) (haborted : s.aborted = false) (items : List Item)
    (hitems : eventsOf items = s.events) (chunks : List (List ℕ))
    (hchunks : chunks.flatten = encode (written items)) :
    let m := handleSendMessage canon frameError chunks
    m.streaming = false ∧ m.activity.isNone ∧ Shows s.events m.content ∧ m.content ≠ [] := by
  have hcomplete : Complete s.events := by
    have hevents := (ChatStream.kept_run hrun).events
    rw [hended] at hevents
    exact hevents haborted
  have htexts : Texts inputs s := by
    refine Machine.invariant_of_everyStep (P := Texts) (fun _ => trivial) ?_ hrun haccumulated
    intro events s input s' _ hbefore hstep hacc
    exact texts_step hbefore hstep hacc
  have hlast := htexts haborted
  simp only [hended] at hlast
  obtain ⟨hstreaming, hactivity, hshows⟩ := shows_complete hcomplete
  have hmessage : handleSendMessage canon frameError chunks =
      finalized ((s.events.map StreamEvent.call).foldl patchAssistant placeholder) := by
    rw [handleSendMessage, calls_of_bytes canon hchunks, calls_eventsOf, hitems]
    rfl
  rw [hmessage]
  exact ⟨hstreaming, hactivity, hshows, hshows.ne_nil hcomplete hlast⟩

/-! A short answer that comes byte by byte, with a comment in front. -/

def question : ChatRequest := ⟨js "q", none, []⟩

def shortAnswer : List Input :=
  [] ++ [.setupDone] ++ [.check] ++ [.delta (.text (js "x"))] ++
    [.finish ⟨[.text (js "x")], .other, js "m"⟩]

def shortItems : List Item := [.ping, .event (.text (js "x")), .event (.done (js "m"))]

theorem accumulated_concat {inputs : List Input} {input : Input} {s s' : Stream}
    (hrun : (route ChatStream.noTypeError question).run inputs = some s)
    (hstep : (route ChatStream.noTypeError question).step s input = some s')
    (hlast : Accumulated inputs input)
    (h : (route ChatStream.noTypeError question).EveryStep inputs fun before _ input _ =>
      Accumulated before input) :
    (route ChatStream.noTypeError question).EveryStep (inputs ++ [input])
      fun before _ input _ => Accumulated before input :=
  (Machine.everyStep_concat_iff hrun hstep).mpr ⟨h, hlast⟩

theorem shortAnswer_accumulated : (route ChatStream.noTypeError question).EveryStep shortAnswer
    fun before _ input _ => Accumulated before input := by
  refine accumulated_concat rfl rfl rfl <| accumulated_concat rfl rfl trivial <|
    accumulated_concat rfl rfl trivial <| accumulated_concat rfl rfl trivial ?_
  intro before e after s s' hevents
  exact absurd hevents (by simp)

theorem shortAnswer_delivered :
    (handleSendMessage id [] ((encode (written shortItems)).map fun b => [b])).content ≠ [] := by
  have hbytes : ((encode (written shortItems)).map fun b => [b]).flatten =
      encode (written shortItems) := List.flatMap_singleton' (encode (written shortItems))
  exact (chat_delivery id [] ChatStream.noTypeError question
    (show (route ChatStream.noTypeError question).run shortAnswer = some _ from rfl)
    shortAnswer_accumulated rfl rfl shortItems rfl _ hbytes).2.2.2

end KGuardian.ChatDelivery
