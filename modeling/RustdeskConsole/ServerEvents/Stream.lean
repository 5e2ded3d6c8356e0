import Mathlib.Data.List.Induction
import RustdeskConsole.Collections.Cutting
import RustdeskConsole.Collections.Numeral
import RustdeskConsole.ServerEvents.Nodes

namespace RustdeskConsole.ServerEvents

open Collections
open Oidc (Json)

section Text

/-- `\r?\n`. -/
def lineEnd : Pattern Char where
  take
    | '\n' :: rest => some rest
    | '\r' :: '\n' :: rest => some rest
    | _ => none
  shorter {text rest} h := by
    split at h
    · cases h
      simp
    · cases h
      simp only [List.length_cons]
      omega
    · cases h

/-- `\r?\n\r?\n`. -/
def blankLine : Pattern Char := lineEnd.andThen lineEnd

/-- `text.split(/\r?\n/)`. -/
def splitLines (text : List Char) : List (List Char) :=
  (cut lineEnd text).1 ++ [(cut lineEnd text).2]

end Text

/-- An event as the stream carries it. -/
structure StreamEvent where
  kind : String
  data : Record

structure Extracted where
  events : List StreamEvent
  remainder : List Char

/-- The lines of a frame that have been read. -/
structure FrameFields where
  event : Option (List Char)
  data : List (List Char)

def FrameFields.readLine (fields : FrameFields) (line : List Char) : FrameFields :=
  if line.head? = some ':' then fields
  else
    let field := line.takeWhile (· ≠ ':')
    let value := match (line.dropWhile (· ≠ ':')).drop 1 with
      | ' ' :: value => value
      | value => value
    if field = "event".toList then { fields with event := some value }
    else if field = "data".toList then { fields with data := fields.data ++ [value] }
    else fields

def frameFields (frame : List Char) : FrameFields :=
  (splitLines frame).foldl FrameFields.readLine ⟨none, []⟩

section Extraction

variable (parse : List Char → Option Json)

/-- The event of a frame. `parse` is `JSON.parse`, which may throw. -/
def frameEvent (fields : FrameFields) : Option StreamEvent :=
  if fields.data = [] then none
  else
    match parse (['\n'].intercalate fields.data) with
    | none => none
    | some parsed =>
      let parsedKind := (parsed.text? "kind").getD ""
      let kind := (fields.event.map String.ofList).getD parsedKind
      if kind = "" then none
      else
        match parsed with
        | .object members =>
          match Record.field members "data" with
          | some (.object body) => some ⟨kind, body⟩
          | _ => some ⟨kind, []⟩
        | _ => none

def extractServerEvents (chunk pending : List Char) : Extracted :=
  let frames := cut blankLine (pending ++ chunk)
  ⟨frames.1.filterMap fun frame ↦ frameEvent parse (frameFields frame), frames.2⟩

/-- Chunks one after the other, with the remainder of one put before the next. -/
def feed (chunks : List (List Char)) : Extracted :=
  chunks.foldl (fun done chunk ↦
    let next := extractServerEvents parse chunk done.remainder
    ⟨done.events ++ next.events, next.remainder⟩) ⟨[], []⟩

end Extraction

section Consumer

variable (parse : List Char → Option Json) (print : Json → String) (token : String)

/-- A value as `applyEvent` looks at it. `print` is the text of the others. -/
def Value.of : Json → Value
  | .string value => .text value
  | .object members =>
    .record ⟨Json.text? (.object members) "uuid", members.map fun m ↦ (m.1, print m.2)⟩
  | _ => .other

def StreamEvent.serverEvent (event : StreamEvent) : ServerEvent where
  kind := event.kind
  data :=
    { uuid := (event.data.field "uuid").map (Value.of print)
      relayId := (event.data.field "relay_id").map (Value.of print)
      session := (event.data.field "session").map (Value.of print)
      id := (event.data.field "id").map (Value.of print) }

def applyEvents (view : View) (events : List StreamEvent) : View :=
  events.foldl (fun view event ↦ applyEvent token view (event.serverEvent print)) view

def sseBufferLimit : ℕ := 1024 * 1024

/-- The loop of `follow` over the decoded chunks, with the view and `pending`. -/
def follow (view : View) (pending : List Char) :
    List (List Char) → Except String (View × List Char)
  | [] => .ok (view, pending)
  | chunk :: chunks =>
    if sseBufferLimit < utf16Length (String.ofList (pending ++ chunk)) then .error "frame overflow"
    else
      let extracted := extractServerEvents parse (pending ++ chunk) []
      follow (applyEvents print token view extracted.events) extracted.remainder chunks

end Consumer

section Chunks

variable {parse : List Char → Option Json} {print : Json → String} {token : String} {view : View}
  {a b rest pending chunk : List Char} {chunks : List (List Char)}

theorem lineEnd_lf : lineEnd.take ('\n' :: a) = some a := rfl

theorem lineEnd_crlf : lineEnd.take ('\r' :: '\n' :: a) = some a := rfl

theorem lineEnd_other {c : Char} (hn : c ≠ '\n') (hr : c ≠ '\r') :
    lineEnd.take (c :: a) = none := by
  simp only [lineEnd]
  split
  · next heq => simp_all
  · next heq => simp_all
  · rfl

theorem lineEnd_eq_some :
    lineEnd.take a = some rest ↔ a = '\n' :: rest ∨ a = '\r' :: '\n' :: rest := by
  constructor
  · intro h
    simp only [lineEnd] at h
    split at h
    · cases h
      exact .inl rfl
    · cases h
      exact .inr rfl
    · cases h
  · rintro (rfl | rfl)
    · rfl
    · rfl

theorem lineEnd_extend (h : lineEnd.take a = some rest) (b : List Char) :
    lineEnd.take (a ++ b) = some (rest ++ b) := by
  obtain rfl | rfl := lineEnd_eq_some.mp h
  · rfl
  · rfl

/-- What may still become a line end. -/
theorem lineEnd_open (ha : lineEnd.take a = none) (hb : lineEnd.take (a ++ b) ≠ none) :
    a = [] ∨ a = ['\r'] := by
  obtain ⟨rest, hrest⟩ := Option.ne_none_iff_exists'.mp hb
  rcases a with _ | ⟨c, _ | ⟨d, a⟩⟩
  · exact .inl rfl
  · obtain h | h := lineEnd_eq_some.mp hrest
    · simp only [List.cons_append, List.cons.injEq] at h
      rw [h.1] at ha
      cases ha
    · simp only [List.cons_append, List.cons.injEq] at h
      exact .inr (by rw [h.1])
  · obtain h | h := lineEnd_eq_some.mp hrest
    · simp only [List.cons_append, List.cons.injEq] at h
      rw [h.1] at ha
      cases ha
    · simp only [List.cons_append, List.cons.injEq] at h
      rw [h.1, h.2.1] at ha
      cases ha

/-- One blank line cannot start inside another that is not complete yet. -/
theorem blankLine_stable : blankLine.Stable where
  extend {a rest} h b := by
    obtain ⟨middle, hfirst, hsecond⟩ := Option.bind_eq_some_iff.mp h
    exact Option.bind_eq_some_iff.mpr
      ⟨middle ++ b, lineEnd_extend hfirst b, lineEnd_extend hsecond b⟩
  first {a} b ha hb := by
    obtain ⟨rest, hrest⟩ := Option.ne_none_iff_exists'.mp hb
    obtain ⟨middle, hfirst, hsecond⟩ := Option.bind_eq_some_iff.mp hrest
    cases hline : lineEnd.take a with
    | none =>
      have hopen : lineEnd.take (a ++ b) ≠ none := by
        rw [hfirst]
        exact Option.some_ne_none _
      obtain rfl | rfl := lineEnd_open hline hopen
      · rfl
      · rfl
    | some after =>
      have hafter : lineEnd.take after = none := by
        rw [blankLine, Pattern.andThen_take, hline] at ha
        exact ha
      have hopen : lineEnd.take (after ++ b) ≠ none := by
        have hsame := (lineEnd_extend hline b).symm.trans hfirst
        cases hsame
        rw [hsecond]
        exact Option.some_ne_none _
      obtain rfl | rfl := lineEnd_eq_some.mp hline
      · obtain rfl | rfl := lineEnd_open hafter hopen
        · rfl
        · rfl
      · obtain rfl | rfl := lineEnd_open hafter hopen
        · rfl
        · rfl

/-- A stream can be extracted in two steps. -/
theorem extractServerEvents_append (parse : List Char → Option Json) (a b : List Char) :
    extractServerEvents parse (a ++ b) [] =
      ⟨(extractServerEvents parse a []).events ++
          (extractServerEvents parse b (extractServerEvents parse a []).remainder).events,
        (extractServerEvents parse b (extractServerEvents parse a []).remainder).remainder⟩ := by
  simp only [extractServerEvents, List.nil_append, cut_append blankLine_stable a b,
    List.filterMap_append]

theorem feed_append : feed parse (chunks ++ [chunk]) =
    ⟨(feed parse chunks).events ++
        (extractServerEvents parse chunk (feed parse chunks).remainder).events,
      (extractServerEvents parse chunk (feed parse chunks).remainder).remainder⟩ := by
  rw [feed, List.foldl_append]
  rfl

theorem extract_nil : extractServerEvents parse [] [] = ⟨[], []⟩ := by
  rw [extractServerEvents, List.append_nil, cut_of_none rfl]
  rfl

/-- The chunks of a stream give what the stream gives. -/
theorem feed_eq (parse : List Char → Option Json) (chunks : List (List Char)) :
    feed parse chunks = extractServerEvents parse chunks.flatten [] := by
  induction chunks using List.reverseRecOn with
  | nil => exact extract_nil.symm
  | append_singleton chunks chunk ih =>
    rw [feed_append, ih, List.flatten_append, List.flatten_singleton, extractServerEvents_append]

/-- The buffer never passes its limit. -/
def Fits (parse : List Char → Option Json) (chunks : List (List Char)) : Prop :=
  ∀ before chunk after, chunks = before ++ chunk :: after →
    utf16Length (String.ofList
      ((extractServerEvents parse before.flatten []).remainder ++ chunk)) ≤ sseBufferLimit

theorem applyEvents_append {events events' : List StreamEvent} :
    applyEvents print token view (events ++ events') =
      applyEvents print token (applyEvents print token view events) events' :=
  List.foldl_append

/-- The consumer after the chunks `before`, with the others still to come. -/
theorem follow_eq (print : Json → String) (token : String) (view : View) (hf : Fits parse chunks) :
    ∀ (rest before : List (List Char)),
    chunks = before ++ rest →
    follow parse print token
        (applyEvents print token view (extractServerEvents parse before.flatten []).events)
        (extractServerEvents parse before.flatten []).remainder rest =
      .ok (applyEvents print token view (extractServerEvents parse chunks.flatten []).events,
        (extractServerEvents parse chunks.flatten []).remainder) := by
  intro rest
  induction rest with
  | nil =>
    intro before heq
    rw [heq, List.append_nil]
    rfl
  | cons chunk rest ih =>
    intro before heq
    have hlimit := hf before chunk rest heq
    have hnext := ih (before ++ [chunk]) (by simp [heq])
    rw [List.flatten_append, List.flatten_singleton, extractServerEvents_append,
      applyEvents_append] at hnext
    rw [follow, if_neg (by omega)]
    simpa only [extractServerEvents, List.nil_append, List.append_nil] using hnext

end Chunks

end RustdeskConsole.ServerEvents
