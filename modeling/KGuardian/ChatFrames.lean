import KGuardian.JsJson
import KGuardian.Utf8Stream
import Mathlib.Data.List.Infix

/-!
The event stream between the chat route of the bridge (`llm-bridge/src/index.ts`) and the
client in the browser (`frontend/src/services/aiApi.ts`). The network hands the bytes over
in pieces of any size and may end after any of them.
-/
namespace KGuardian.ChatFrames

open JsJson JsText Utf8Stream

/-! The bridge. -/

inductive StreamEvent where
  | text (delta : JsString)
  | thinking (delta : JsString)
  | toolUse (name id : JsString)
  | toolResult (name : JsString) (ok : Bool)
  | done (model : JsString)
  | error (message : JsString)

def StreamEvent.type : StreamEvent → String
  | .text _ => "text"
  | .thinking _ => "thinking"
  | .toolUse _ _ => "tool_use"
  | .toolResult _ _ => "tool_result"
  | .done _ => "done"
  | .error _ => "error"

def StreamEvent.fields (e : StreamEvent) : Fields :=
  (js "type", .str (js e.type)) ::
    match e with
    | .text delta | .thinking delta => [(js "delta", .str delta)]
    | .toolUse name id => [(js "name", .str name), (js "id", .str id)]
    | .toolResult name ok => [(js "name", .str name), (js "ok", .bool ok)]
    | .done model => [(js "model", .str model)]
    | .error message => [(js "error", .str message)]

/-- What the route writes: an event, or the comment that keeps the connection alive. -/
inductive Item where
  | event (e : StreamEvent)
  | ping

def Item.lines : Item → List (List Char)
  | .event e => ["event: ".toList ++ e.type.toList, "data: ".toList ++ stringify (.obj e.fields)]
  | .ping => [": ping".toList]

def Item.frame (item : Item) : List Char := ['\n'].intercalate item.lines

def written (items : List Item) : List Char :=
  items.flatMap fun item => item.frame ++ ['\n', '\n']

/-! The client. -/

/-- The calls of the handlers. A property that is not there is `undefined`. -/
inductive Call where
  | onText (delta : Option Json)
  | onThinking (delta : Option Json)
  | onToolUse (name : Option Json)
  | onToolResult (name ok : Option Json)
  | onDone (model : Option Json)
  | onError (error : Option Json)

/-- The switch on the type of the event. -/
def callOf (fields : Fields) : Option Call :=
  match property (js "type") fields with
  | some (.str type) =>
      if type = js "text" then some (.onText (property (js "delta") fields))
      else if type = js "thinking" then some (.onThinking (property (js "delta") fields))
      else if type = js "tool_use" then some (.onToolUse (property (js "name") fields))
      else if type = js "tool_result" then
        some (.onToolResult (property (js "name") fields) (property (js "ok") fields))
      else if type = js "done" then some (.onDone (property (js "model") fields))
      else if type = js "error" then some (.onError (property (js "error") fields))
      else none
  | _ => none

/-- What a frame leads to. Reading the type of `null` throws. -/
inductive Dispatched where
  | ignored
  | called (c : Call)
  | threw

variable (canon : List Char → List Char)

def dataLine (frame : List Char) : List Char :=
  (((frame.splitOn '\n').filter fun line => "data:".toList.isPrefixOf line).map
    fun line => (line.drop 5).dropWhile isSpace).flatten

def dispatch (frame : List Char) : Dispatched :=
  if (dataLine frame).isEmpty then .ignored
  else
    match parse canon (dataLine frame) with
    | none => .ignored
    | some .null => .threw
    | some (.obj fields) => ((callOf fields).map Dispatched.called).getD .ignored
    | some _ => .ignored

/-- The first line feed of a text with frames in front. -/
def prepend (c : Char) : List (List Char) × List Char → List (List Char) × List Char
  | ([], left) => ([], c :: left)
  | (frame :: frames, left) => ((c :: frame) :: frames, left)

/-- The frames of the buffer up to its last separator, and what is left. -/
def takeFrames : List Char → List (List Char) × List Char
  | [] => ([], [])
  | [c] => ([], [c])
  | c :: d :: rest =>
      if c = '\n' ∧ d = '\n' then ([] :: (takeFrames rest).1, (takeFrames rest).2)
      else prepend c (takeFrames (d :: rest))

/-- The reading loop over the pieces of text. -/
def receive (buffer : List Char) : List (List Char) → List (List Char) × List Char
  | [] => ([], buffer)
  | piece :: rest =>
      let (frames, left) := takeFrames (buffer ++ piece)
      let (more, last) := receive left rest
      (frames ++ more, last)

structure Outcome where
  calls : List Call
  failed : Bool

/-- The frames one after the other, until one throws. -/
def dispatchAll : List (List Char) → Outcome
  | [] => ⟨[], false⟩
  | frame :: rest =>
      match dispatch canon frame with
      | .ignored => dispatchAll rest
      | .called c => ⟨c :: (dispatchAll rest).calls, (dispatchAll rest).failed⟩
      | .threw => ⟨[], true⟩

/-- The client on a response that comes in these pieces and then ends. -/
def streamChatMessage (chunks : List (List ℕ)) : Outcome :=
  let (frames, left) := receive [] (Decoder.start.decodeAll chunks)
  dispatchAll canon (frames ++ if (trimSpace left).isEmpty then [] else [left])

/-! What the client should make of the events. -/

def StreamEvent.call : StreamEvent → Call
  | .text delta => .onText (some (.str delta))
  | .thinking delta => .onThinking (some (.str delta))
  | .toolUse name _ => .onToolUse (some (.str name))
  | .toolResult name ok => .onToolResult (some (.str name)) (some (.bool ok))
  | .done model => .onDone (some (.str model))
  | .error message => .onError (some (.str message))

def Item.call? : Item → Option Call
  | .event e => some e.call
  | .ping => none

def calls (items : List Item) : List Call := items.filterMap Item.call?

/-! Frames in the buffer. -/

/-- A text in front of the frames. -/
def prependAll (text : List Char) (r : List (List Char) × List Char) :
    List (List Char) × List Char := text.foldr prepend r

theorem takeFrames_pair {c d : Char} (h : ¬ (c = '\n' ∧ d = '\n')) (rest : List Char) :
    takeFrames (c :: d :: rest) = prepend c (takeFrames (d :: rest)) := by
  rw [takeFrames, if_neg h]

theorem takeFrames_cons {c : Char} (hc : c ≠ '\n') (rest : List Char) :
    takeFrames (c :: rest) = prepend c (takeFrames rest) := by
  cases rest with
  | nil => rfl
  | cons d rest => exact takeFrames_pair (fun h => hc h.1) rest

theorem takeFrames_single {d : Char} (hd : d ≠ '\n') (rest : List Char) :
    takeFrames ('\n' :: d :: rest) = prepend '\n' (takeFrames (d :: rest)) :=
  takeFrames_pair (fun h => hd h.2) rest

theorem takeFrames_line {line : List Char} (hline : '\n' ∉ line) (rest : List Char) :
    takeFrames (line ++ rest) = prependAll line (takeFrames rest) := by
  induction line with
  | nil => rfl
  | cons c line ih =>
      rw [List.mem_cons, not_or] at hline
      rw [List.cons_append, takeFrames_cons (fun h => hline.1 h.symm), ih hline.2]
      rfl

theorem prependAll_frame (text frame : List Char) (frames : List (List Char))
    (left : List Char) :
    prependAll text (frame :: frames, left) = ((text ++ frame) :: frames, left) := by
  induction text with
  | nil => rfl
  | cons c text ih =>
      show prepend c (prependAll text (frame :: frames, left)) = _
      rw [ih]
      rfl

/-- What was taken out of the buffer can be put together again. -/
theorem takeFrames_join (text : List Char) :
    ((takeFrames text).1.flatMap fun frame => frame ++ ['\n', '\n']) ++ (takeFrames text).2 =
      text := by
  induction text using takeFrames.induct with
  | case1 => rfl
  | case2 c => rfl
  | case3 c d rest hsep ih =>
      obtain ⟨rfl, rfl⟩ := hsep
      rw [takeFrames, if_pos ⟨rfl, rfl⟩]
      simpa using ih
  | case4 c d rest hsep ih =>
      rw [takeFrames, if_neg hsep]
      cases hcase : takeFrames (d :: rest) with
      | mk frames left =>
          rw [hcase] at ih
          cases frames with
          | nil => simpa [prepend] using ih
          | cons frame frames => simpa [prepend] using ih

/-- More text goes on with what is left. -/
theorem takeFrames_append (a b : List Char) :
    takeFrames (a ++ b) = ((takeFrames a).1 ++ (takeFrames ((takeFrames a).2 ++ b)).1,
      (takeFrames ((takeFrames a).2 ++ b)).2) := by
  induction a using takeFrames.induct with
  | case1 => simp [takeFrames]
  | case2 c => simp [takeFrames]
  | case3 c d rest hsep ih =>
      obtain ⟨rfl, rfl⟩ := hsep
      simp only [List.cons_append, takeFrames, and_self, if_true, ih]
  | case4 c d rest hsep ih =>
      rw [List.cons_append, List.cons_append, takeFrames_pair hsep, ← List.cons_append, ih,
        takeFrames_pair hsep]
      cases hcase : takeFrames (d :: rest) with
      | mk frames left =>
          cases frames with
          | nil =>
              have hleft : left = d :: rest := by
                simpa [hcase] using takeFrames_join (d :: rest)
              have hnone : prepend c ([], d :: rest) = ([], c :: d :: rest) := rfl
              simp only [hleft, hnone, List.nil_append, List.cons_append, takeFrames_pair hsep]
          | cons frame frames => simp [prepend]

theorem receive_eq (buffer : List Char) (pieces : List (List Char))
    (hbuffer : takeFrames buffer = ([], buffer)) :
    receive buffer pieces = takeFrames (buffer ++ pieces.flatten) := by
  induction pieces generalizing buffer with
  | nil => simp [receive, hbuffer]
  | cons piece rest ih =>
      have hleft : takeFrames (takeFrames (buffer ++ piece)).2 =
          ([], (takeFrames (buffer ++ piece)).2) := by
        have happend := takeFrames_append (buffer ++ piece) []
        rw [List.append_nil, List.append_nil] at happend
        have hnil := (Prod.ext_iff.mp happend).1
        have hsame := (Prod.ext_iff.mp happend).2
        exact Prod.ext (List.self_eq_append_right.mp hnil) hsame.symm
      rw [List.flatten_cons, ← List.append_assoc, takeFrames_append (buffer ++ piece)]
      simp only [receive, ih _ hleft]

theorem type_noLineFeed (e : StreamEvent) : '\n' ∉ e.type.toList := by
  cases e <;> simp [StreamEvent.type]

theorem fields_scalar (e : StreamEvent) : ∀ p ∈ e.fields, isScalar p.2 = true := by
  cases e <;> simp [StreamEvent.fields, isScalar]

theorem fields_nodup (e : StreamEvent) : (e.fields.map Prod.fst).Nodup := by
  cases e <;> simp only [StreamEvent.fields, List.map] <;> decide

theorem data_noLineFeed (e : StreamEvent) : '\n' ∉ stringify (.obj e.fields) := by
  intro hmem
  exact absurd (obj_printable (fields_scalar e) '\n' hmem) (by decide)

/-- No line of a frame has a line feed in it. -/
theorem lines_noLineFeed (item : Item) : ∀ line ∈ item.lines, '\n' ∉ line := by
  cases item with
  | ping => simp [Item.lines]
  | event e =>
      intro line hline
      simp only [Item.lines, List.mem_cons, List.not_mem_nil, or_false] at hline
      rcases hline with rfl | rfl
      · simp [type_noLineFeed]
      · simp [data_noLineFeed]

theorem frame_event (e : StreamEvent) : (Item.event e).frame =
    ("event: ".toList ++ e.type.toList) ++
      '\n' :: ("data: ".toList ++ stringify (.obj e.fields)) := by
  simp [Item.frame, Item.lines, List.intercalate]

theorem takeFrames_separator (rest : List Char) :
    takeFrames ('\n' :: '\n' :: rest) = ([] :: (takeFrames rest).1, (takeFrames rest).2) := by
  rw [takeFrames, if_pos ⟨rfl, rfl⟩]

/-- The first separator of what is written comes after the first frame. -/
theorem takeFrames_frame (item : Item) (rest : List Char) :
    takeFrames (item.frame ++ '\n' :: '\n' :: rest) =
      (item.frame :: (takeFrames rest).1, (takeFrames rest).2) := by
  have hlines := lines_noLineFeed item
  cases item with
  | ping =>
      have hframe : Item.ping.frame = ": ping".toList := rfl
      rw [hframe, takeFrames_line (hlines _ (by simp [Item.lines])), takeFrames_separator,
        prependAll_frame, List.append_nil]
  | event e =>
      simp only [Item.lines, List.forall_mem_cons] at hlines
      obtain ⟨hfirst, hsecond, -⟩ := hlines
      rw [frame_event, List.append_assoc, takeFrames_line hfirst]
      have hdata : '\n' :: ("data: ".toList ++ stringify (.obj e.fields)) ++ '\n' :: '\n' :: rest =
          '\n' :: 'd' :: ("ata: ".toList ++ stringify (.obj e.fields) ++ '\n' :: '\n' :: rest) :=
        rfl
      have hsame : 'd' :: ("ata: ".toList ++ stringify (.obj e.fields) ++ '\n' :: '\n' :: rest) =
          ("data: ".toList ++ stringify (.obj e.fields)) ++ '\n' :: '\n' :: rest := rfl
      rw [hdata, takeFrames_single (by decide), hsame, takeFrames_line hsecond,
        takeFrames_separator, prependAll_frame]
      simp only [prepend, prependAll_frame, List.append_nil]

/-- An unfinished frame stays in the buffer. -/
theorem takeFrames_unfinished {item : Item} {text more : List Char}
    (h : text ++ more = item.frame ++ ['\n', '\n']) (hmore : more ≠ []) :
    takeFrames text = ([], text) := by
  have hwhole : takeFrames (text ++ more) = ([item.frame], []) := by
    rw [h]
    exact takeFrames_frame item []
  have hjoin := takeFrames_join text
  rw [takeFrames_append] at hwhole
  cases hframes : (takeFrames text).1 with
  | nil =>
      rw [hframes] at hjoin
      exact Prod.ext hframes hjoin
  | cons frame frames =>
      rw [hframes] at hwhole hjoin
      obtain ⟨hcons, -⟩ := Prod.mk.inj hwhole
      obtain ⟨rfl, hrest⟩ := List.cons.inj hcons
      have hlength := congrArg List.length h
      rw [← hjoin] at hlength
      have hpos := List.length_pos_iff.mpr hmore
      simp only [List.flatMap_cons, List.length_append] at hlength
      omega

/-! A frame, whole or cut short. -/

theorem callOf_fields (e : StreamEvent) : callOf e.fields = some e.call := by
  cases e <;>
    simp +decide [StreamEvent.fields, StreamEvent.type, StreamEvent.call, callOf, property]

theorem dispatch_data {frame : List Char} {e : StreamEvent}
    (h : dataLine frame = stringify (.obj e.fields)) :
    dispatch canon frame = .called e.call := by
  have hne : (stringify (.obj e.fields)).isEmpty = false := by
    rw [stringify]
    rfl
  have hfields : e.fields ≠ [] := by simp [StreamEvent.fields]
  simp only [dispatch, h, hne, parse_obj canon hfields (fields_scalar e) (fields_nodup e),
    callOf_fields]
  rfl

theorem dispatch_empty {frame : List Char} (h : dataLine frame = []) :
    dispatch canon frame = .ignored := by
  rw [dispatch, h]
  rfl

/-- Data that ends before the object does is not read. -/
theorem dispatch_unfinished {frame text more : List Char} {e : StreamEvent}
    (h : dataLine frame = text) (htext : text ++ more = stringify (.obj e.fields))
    (hmore : more ≠ []) : dispatch canon frame = .ignored := by
  have hfields : e.fields ≠ [] := by simp [StreamEvent.fields]
  have hrun := run_obj canon hfields (fields_scalar e) (fields_nodup e)
  have hlast : '}' ∈ more := by
    have hend : (text ++ more).getLast? = some '}' := by
      rw [htext, stringify, ← List.cons_append, List.getLast?_append]
      rfl
    rw [List.getLast?_append_of_ne_nil _ hmore] at hend
    exact List.mem_of_getLast? hend
  have hnone : parse canon text = none := by
    rw [← htext] at hrun
    exact parse_eq_none_of_more canon hrun hlast (by decide) (by decide)
  unfold dispatch
  rw [h, hnone]
  split <;> rfl

/-- The data of a line. -/
def lineData (line : List Char) : List Char :=
  if "data:".toList.isPrefixOf line then (line.drop 5).dropWhile isSpace else []

theorem dataLine_eq (lines : List (List Char)) (hne : lines ≠ [])
    (hlines : ∀ line ∈ lines, '\n' ∉ line) :
    dataLine (['\n'].intercalate lines) = lines.flatMap lineData := by
  rw [dataLine, List.splitOn_intercalate _ hlines hne]
  clear hne hlines
  induction lines with
  | nil => rfl
  | cons line rest ih =>
      rw [List.flatMap_cons, ← ih]
      unfold lineData
      cases hdata : "data:".toList.isPrefixOf line with
      | true => simp only [List.filter_cons, hdata, if_true, List.map_cons, List.flatten_cons]
      | false => simp only [List.filter_cons, hdata, Bool.false_eq_true, if_false, List.nil_append]

theorem lineData_event (rest : List Char) : lineData ('e' :: rest) = [] := rfl

theorem lineData_data (j : List Char) (hj : j.dropWhile isSpace = j) :
    lineData ("data: ".toList ++ j) = j := by
  have hline : lineData ("data: ".toList ++ j) = j.dropWhile isSpace := rfl
  rw [hline, hj]

theorem dropWhile_stringify {fields : Fields} {j t : List Char}
    (h : j ++ t = stringify (.obj fields)) : j.dropWhile isSpace = j := by
  cases j with
  | nil => rfl
  | cons c j =>
      rw [stringify, List.cons_append] at h
      obtain ⟨rfl, -⟩ := List.cons.inj h
      rfl

theorem dataLine_ping : ∀ k < 9, dataLine ((": ping".toList ++ ['\n', '\n']).take k) = [] := by
  decide

theorem dispatch_frame (item : Item) :
    dispatch canon item.frame = (item.call?.map Dispatched.called).getD .ignored := by
  cases item with
  | ping => exact dispatch_empty canon (dataLine_ping 6 (by omega))
  | event e =>
      apply dispatch_data
      rw [Item.frame, dataLine_eq _ (by simp [Item.lines]) (lines_noLineFeed (.event e))]
      have hdata := lineData_data (stringify (.obj e.fields))
        (dropWhile_stringify (List.append_nil _))
      simp only [Item.lines, List.flatMap_cons, List.flatMap_nil, hdata, List.append_nil]
      rfl

/-- The second line of a frame, cut short. -/
theorem dispatch_cut_data {e : StreamEvent} {frame r more : List Char}
    (hframe : dataLine frame = lineData r)
    (h : r ++ more = "data: ".toList ++ stringify (.obj e.fields)) :
    dispatch canon frame = .ignored ∨ dispatch canon frame = .called e.call := by
  rcases List.append_eq_append_iff.mp h with ⟨front, hfront, -⟩ | ⟨j, rfl, hj⟩
  · left
    apply dispatch_empty
    rw [hframe]
    have hshort : ∀ k < 7, lineData ("data: ".toList.take k) = [] := by decide
    have hlength := congrArg List.length hfront
    have hr : r = "data: ".toList.take r.length := by rw [hfront, List.take_left]
    rw [hr]
    apply hshort
    rw [List.length_append] at hlength
    have hsix : "data: ".toList.length = 6 := rfl
    omega
  · rw [lineData_data j (dropWhile_stringify hj.symm)] at hframe
    cases more with
    | nil =>
        right
        rw [List.append_nil] at hj
        exact dispatch_data canon (hframe.trans hj.symm)
    | cons c more => exact .inl (dispatch_unfinished canon hframe hj.symm (by simp))

/-- The line with the type has no data. -/
theorem dataLine_event (e : StreamEvent) (lines : List (List Char))
    (hlines : ∀ line ∈ lines, '\n' ∉ line) :
    dataLine (['\n'].intercalate (("event: ".toList ++ e.type.toList) :: lines)) =
      lines.flatMap lineData := by
  have hfirst : '\n' ∉ "event: ".toList ++ e.type.toList := by simp [type_noLineFeed]
  rw [dataLine_eq _ (by simp) (List.forall_mem_cons.mpr ⟨hfirst, hlines⟩), List.flatMap_cons]
  rfl

/-- The first line of a frame, cut short or not. -/
theorem dispatch_cut_type (e : StreamEvent) (text more : List Char)
    (h : text ++ more = "event: ".toList ++ e.type.toList) : dispatch canon text = .ignored := by
  apply dispatch_empty
  have hfirst : '\n' ∉ text ++ more := by
    rw [h]
    simp [type_noLineFeed]
  have htext : '\n' ∉ text := fun hmem => hfirst (List.mem_append_left _ hmem)
  have hone := dataLine_eq ([text]) (by simp) (by simpa using htext)
  have hsingle : ['\n'].intercalate [text] = text := by simp [List.intercalate]
  rw [hsingle, List.flatMap_singleton] at hone
  rw [hone]
  cases text with
  | nil => rfl
  | cons c text =>
      obtain ⟨rfl, -⟩ := List.cons.inj h
      exact lineData_event text

theorem dispatch_cut_event {e : StreamEvent} {text more : List Char}
    (h : text ++ more = (Item.event e).frame ++ ['\n', '\n']) (hmore : more ≠ []) :
    dispatch canon text = .ignored ∨ dispatch canon text = .called e.call := by
  have hsecond : '\n' ∉ "data: ".toList ++ stringify (.obj e.fields) := by
    simp [data_noLineFeed]
  rw [frame_event, List.append_assoc] at h
  rcases List.append_eq_append_iff.mp h with ⟨front, hfront, -⟩ | ⟨back, rfl, hback⟩
  · exact .inl (dispatch_cut_type canon e _ _ hfront.symm)
  · cases back with
    | nil => exact .inl (dispatch_cut_type canon e _ [] (by simp))
    | cons c r =>
        obtain ⟨rfl, hrest⟩ := List.cons.inj hback
        have htwo : ∀ r : List Char, ("event: ".toList ++ e.type.toList) ++ '\n' :: r =
            ['\n'].intercalate [("event: ".toList ++ e.type.toList), r] := by
          simp [List.intercalate]
        rcases List.append_eq_append_iff.mp hrest.symm with ⟨front, hfront, -⟩ | ⟨back, rfl, htail⟩
        · have hr : '\n' ∉ r := by
            intro hmem
            apply hsecond
            rw [hfront]
            exact List.mem_append_left _ hmem
          have hdata := dataLine_event e ([r]) (by simpa using hr)
          rw [← htwo, List.flatMap_singleton] at hdata
          exact dispatch_cut_data canon hdata hfront.symm
        · right
          apply dispatch_data
          have hdata := lineData_data (stringify (.obj e.fields))
            (dropWhile_stringify (List.append_nil _))
          cases back with
          | nil =>
              have hone := dataLine_event e (["data: ".toList ++ stringify (.obj e.fields)])
                (by simpa using hsecond)
              rw [← htwo, List.flatMap_singleton, hdata] at hone
              rwa [List.append_nil]
          | cons d back =>
              have hback' : back = [] := by
                have hlength := congrArg List.length htail
                have hpos := List.length_pos_iff.mpr hmore
                rw [← List.length_eq_zero_iff]
                simp only [List.length_append, List.length_cons, List.length_nil] at hlength
                omega
              obtain ⟨rfl, -⟩ := List.cons.inj htail
              subst hback'
              have hthree := dataLine_event e
                (["data: ".toList ++ stringify (.obj e.fields), []]) (by simpa using hsecond)
              rw [List.flatMap_cons, List.flatMap_singleton, hdata] at hthree
              have hjoin : ['\n'].intercalate [("event: ".toList ++ e.type.toList),
                  "data: ".toList ++ stringify (.obj e.fields), []] =
                  ("event: ".toList ++ e.type.toList) ++
                    '\n' :: ("data: ".toList ++ stringify (.obj e.fields) ++ ['\n']) := by
                simp [List.intercalate]
              rw [hjoin] at hthree
              exact hthree.trans (List.append_nil _)

/-- A frame that is cut short leads to nothing, or to the call of the whole frame. -/
theorem dispatch_cut {item : Item} {text more : List Char}
    (h : text ++ more = item.frame ++ ['\n', '\n']) (hmore : more ≠ []) :
    dispatch canon text = .ignored ∨
      ∃ c, item.call? = some c ∧ dispatch canon text = .called c := by
  cases item with
  | ping =>
      left
      apply dispatch_empty
      have hlength := congrArg List.length h
      have hframe : Item.ping.frame = ": ping".toList := rfl
      have htext : text = (": ping".toList ++ ['\n', '\n']).take text.length := by
        rw [← hframe, ← h, List.take_left]
      rw [htext]
      apply dataLine_ping
      have hall : (Item.ping.frame ++ ['\n', '\n']).length = 8 := rfl
      rw [hall, List.length_append] at hlength
      omega
  | event e => exact (dispatch_cut_event canon h hmore).imp_right fun hcall => ⟨e.call, rfl, hcall⟩

/-! The whole stream, and the stream up to some byte. -/

theorem written_cons (item : Item) (items : List Item) :
    written (item :: items) = item.frame ++ '\n' :: '\n' :: written items := by
  simp [written]

theorem takeFrames_written (items : List Item) :
    takeFrames (written items) = (items.map Item.frame, []) := by
  induction items with
  | nil => rfl
  | cons item items ih => rw [written_cons, takeFrames_frame, ih, List.map_cons]

theorem dispatchAll_frames (items : List Item) (more : List (List Char)) :
    dispatchAll canon (items.map Item.frame ++ more) =
      ⟨calls items ++ (dispatchAll canon more).calls, (dispatchAll canon more).failed⟩ := by
  induction items with
  | nil => rfl
  | cons item items ih =>
      rw [List.map_cons, List.cons_append, dispatchAll, dispatch_frame, ih]
      cases item with
      | ping => rfl
      | event e => rfl

/-- What comes of a beginning of the stream: frames of whole items, and a part of the next. -/
theorem takeFrames_prefix {items : List Item} {text more : List Char}
    (h : text ++ more = written items) :
    ∃ before after left, items = before ++ after ∧
      takeFrames text = (before.map Item.frame, left) ∧
      (left = [] ∨ ∃ item rest front, after = item :: rest ∧ front ≠ [] ∧
        left ++ front = item.frame ++ ['\n', '\n']) := by
  induction items generalizing text with
  | nil =>
      obtain ⟨rfl, -⟩ := List.append_eq_nil_iff.mp h
      exact ⟨[], [], [], rfl, rfl, .inl rfl⟩
  | cons item items ih =>
      have hcons : written (item :: items) = (item.frame ++ ['\n', '\n']) ++ written items := by
        simp [written]
      rw [hcons] at h
      by_cases hwhole : ∃ tail, text = (item.frame ++ ['\n', '\n']) ++ tail
      · obtain ⟨tail, rfl⟩ := hwhole
        rw [List.append_assoc] at h
        obtain ⟨before, after, left, rfl, htake, hleft⟩ := ih (List.append_cancel_left h)
        refine ⟨item :: before, after, left, rfl, ?_, hleft⟩
        have hsame : item.frame ++ ['\n', '\n'] ++ tail = item.frame ++ '\n' :: '\n' :: tail := by
          simp
        rw [hsame, takeFrames_frame, htake, List.map_cons]
      · rcases List.append_eq_append_iff.mp h with ⟨front, hfront, -⟩ | ⟨tail, htext, -⟩
        · have hne : front ≠ [] := by
            rintro rfl
            exact hwhole ⟨[], by simpa using hfront.symm⟩
          exact ⟨[], item :: items, text, rfl, takeFrames_unfinished hfront.symm hne,
            .inr ⟨item, items, front, rfl, hne, hfront.symm⟩⟩
        · exact absurd ⟨tail, htext⟩ hwhole

theorem head?_written (items : List Item) : (written items).head? ≠ some byteOrderMark := by
  cases items with
  | nil => simp [written]
  | cons item items =>
      rw [written_cons]
      cases item with
      | ping => simp [Item.frame, Item.lines, List.intercalate, byteOrderMark]
      | event e => simp [frame_event, byteOrderMark]

/-- The text that the client has read is that of the bytes, however they were cut. -/
theorem decodeAll_start {chunks : List (List ℕ)} {items : List Item} {more : List ℕ}
    (h : chunks.flatten ++ more = encode (written items)) :
    ∃ rest, (Decoder.start.decodeAll chunks).flatten ++ rest = written items ∧
      (more = [] → rest = []) := by
  have hwhole := decodeBytes_encode (written items)
  rw [← h, decodeBytes_append] at hwhole
  have htext : (decodeBytes none chunks.flatten).2 ++ _ = written items :=
    (Prod.ext_iff.mp hwhole).2
  have hmark : (decodeBytes none chunks.flatten).2.head? ≠ some byteOrderMark := by
    intro hcase
    obtain ⟨chars, hchars⟩ := List.head?_eq_some_iff.mp hcase
    apply head?_written items
    rw [← htext, hchars]
    rfl
  rw [decodeAll_flatten Decoder.start chunks (.inr hmark)]
  refine ⟨_, htext, ?_⟩
  rintro rfl
  rfl

theorem dispatchAll_before (before : List Item) :
    dispatchAll canon (before.map Item.frame) = ⟨calls before, false⟩ := by
  have hall := dispatchAll_frames canon before []
  rw [List.append_nil] at hall
  rw [hall]
  simp [dispatchAll]

/-- However the stream is cut into pieces, the client makes the calls of the events; and
wherever it ends, it makes those of the first events and no others. -/
theorem streamChatMessage_calls (items : List Item) (chunks : List (List ℕ)) (more : List ℕ)
    (h : chunks.flatten ++ more = encode (written items)) :
    (more = [] → streamChatMessage canon chunks = ⟨calls items, false⟩) ∧
      ∃ some, some <+: calls items ∧ streamChatMessage canon chunks = ⟨some, false⟩ := by
  obtain ⟨rest, htext, hend⟩ := decodeAll_start h
  have hreceive := receive_eq [] (Decoder.start.decodeAll chunks) rfl
  rw [List.nil_append] at hreceive
  constructor
  · intro hmore
    rw [hend hmore, List.append_nil] at htext
    rw [htext, takeFrames_written] at hreceive
    have htrim : (trimSpace ([] : List Char)).isEmpty = true := rfl
    simp only [streamChatMessage, hreceive, htrim, if_true, List.append_nil]
    exact dispatchAll_before canon items
  · obtain ⟨before, after, left, rfl, htake, hleft⟩ := takeFrames_prefix htext
    rw [htake] at hreceive
    have hprefix : calls before <+: calls (before ++ after) := by
      unfold calls
      rw [List.filterMap_append]
      exact List.prefix_append _ _
    simp only [streamChatMessage, hreceive]
    cases hblank : (trimSpace left).isEmpty with
    | true =>
        rw [if_pos rfl, List.append_nil]
        exact ⟨calls before, hprefix, dispatchAll_before canon before⟩
    | false =>
        rw [if_neg Bool.false_ne_true, dispatchAll_frames]
        rcases hleft with rfl | ⟨item, rest, front, rfl, hne, hfront⟩
        · exact absurd hblank (by decide)
        · rcases dispatch_cut canon hfront hne with hignored | ⟨c, hc, hcalled⟩
          · refine ⟨calls before, hprefix, ?_⟩
            simp [dispatchAll, hignored]
          · refine ⟨calls before ++ [c], ?_, by simp [dispatchAll, hcalled]⟩
            have hcalls : calls (before ++ item :: rest) = calls before ++ [c] ++ calls rest := by
              simp [calls, hc]
            rw [hcalls]
            exact List.prefix_append _ _

/-- An answer with an accent and the end of the stream, after a comment. -/
def answer : List Item :=
  [.ping, .event (.text (js "caf\u00e9\n")), .event (.done (js "claude"))]

/-- The bytes one by one, so that the accent and the separators are cut. -/
theorem answer_calls :
    streamChatMessage id ((encode (written answer)).map fun b => [b]) = ⟨calls answer, false⟩ := by
  have hbytes : ((encode (written answer)).map fun b => [b]).flatten ++ [] =
      encode (written answer) := by
    rw [List.append_nil]
    exact List.flatMap_singleton' (encode (written answer))
  exact (streamChatMessage_calls id answer _ [] hbytes).1 rfl

end KGuardian.ChatFrames
