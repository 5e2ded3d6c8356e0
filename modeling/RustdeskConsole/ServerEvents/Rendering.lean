import RustdeskConsole.ServerEvents.Stream

namespace RustdeskConsole.ServerEvents

open Collections
open Oidc (Json)

inductive LineEnd
  | lf
  | crlf

def LineEnd.text : LineEnd → List Char
  | .lf => ['\n']
  | .crlf => ['\r', '\n']

/-- A line of a frame. -/
inductive FrameLine
  | comment (text : List Char)
  | event (kind : String)
  | data (text : List Char)

namespace FrameLine

def text : FrameLine → List Char
  | comment text => ':' :: text
  | event kind => "event".toList ++ ':' :: ' ' :: kind.toList
  | data text => "data".toList ++ ':' :: ' ' :: text

def isComment : FrameLine → Bool
  | comment _ => true
  | _ => false

end FrameLine

/-- A frame with its line ends, and the blank lines that come before it. -/
structure Frame where
  blanks : List LineEnd
  lines : List (FrameLine × LineEnd)
  close : LineEnd

def endedLines (lines : List (List Char × LineEnd)) : List Char :=
  lines.flatMap fun line ↦ line.1 ++ line.2.text

namespace Frame

def written (frame : Frame) : List (List Char × LineEnd) :=
  frame.lines.map fun line ↦ (line.1.text, line.2)

def text (frame : Frame) : List Char :=
  frame.blanks.flatMap LineEnd.text ++ (endedLines frame.written ++ frame.close.text)

end Frame

def OneLine (text : List Char) : Prop := '\n' ∉ text ∧ '\r' ∉ text

/-- The lines are those of a JSON text with the data of the event. -/
def JsonOf (parse : List Char → Option Json) (event : StreamEvent) (json : List (List Char)) :
    Prop :=
  json ≠ [] ∧ (∀ text ∈ json, OneLine text) ∧
    ∃ members, parse (['\n'].intercalate json) = some (.object members) ∧
      Record.field members "data" = some (.object event.data)

/-- Frames of events, with comment lines in and between them. -/
inductive Renders (parse : List Char → Option Json) : List Frame → List StreamEvent → Prop
  | nil : Renders parse [] []
  | comment {frame : Frame} {frames : List Frame} {events : List StreamEvent} :
    frame.lines ≠ [] → (∀ line ∈ frame.lines, ∃ text, line.1 = .comment text ∧ OneLine text) →
    Renders parse frames events → Renders parse (frame :: frames) events
  | event {frame : Frame} {frames : List Frame} {events : List StreamEvent} {event : StreamEvent}
    {json : List (List Char)} :
    JsonOf parse event json →
    (∀ line ∈ frame.lines, ∀ text, line.1 = .comment text → OneLine text) →
    (frame.lines.map Prod.fst).filter (!·.isComment) = .event event.kind :: json.map .data →
    Renders parse frames events → Renders parse (frame :: frames) (event :: events)

/-- A line carries the kind, and an event without one is no event. -/
def StreamEvent.Printable (event : StreamEvent) : Prop :=
  event.kind ≠ "" ∧ OneLine event.kind.toList

section Frames

variable {text rest line value name : List Char} {lines : List (List Char × LineEnd)}
  {blanks : List LineEnd} {ending close : LineEnd} {fields : FrameFields}

theorem OneLine.skip (h : OneLine line) : ∀ c ∈ line, ∀ text, lineEnd.take (c :: text) = none := by
  intro c hc text
  apply lineEnd_other
  · rintro rfl
    exact h.1 hc
  · rintro rfl
    exact h.2 hc

theorem OneLine.skip_blank (h : OneLine line) :
    ∀ c ∈ line, ∀ text, blankLine.take (c :: text) = none := by
  intro c hc text
  rw [blankLine, Pattern.andThen_take, h.skip c hc]
  rfl

@[simp] theorem take_ending : lineEnd.take (ending.text ++ text) = some text := by
  cases ending with
  | lf => rfl
  | crlf => rfl

theorem take_line (h : OneLine line) (hne : line ≠ []) :
    lineEnd.take (line ++ text) = none := by
  cases line with
  | nil => exact absurd rfl hne
  | cons c line => exact h.skip c (.head _) _

/-- One line end does not make a blank line. -/
theorem search_ending (h : lineEnd.take text = none) : search blankLine (ending.text ++ text) =
    (search blankLine text).map fun found ↦ (ending.text ++ found.1, found.2) := by
  have hlf : blankLine.take ('\n' :: text) = none := by
    rw [blankLine, Pattern.andThen_take, lineEnd_lf]
    exact h
  cases ending with
  | lf => exact search_cons_of_none hlf
  | crlf =>
    have hcr : blankLine.take ('\r' :: '\n' :: text) = none := by
      rw [blankLine, Pattern.andThen_take, lineEnd_crlf]
      exact h
    rw [LineEnd.text, List.cons_append, List.cons_append, List.nil_append, search_cons_of_none hcr,
      search_cons_of_none hlf, Option.map_map]
    rfl

/-- The lines of a frame without the line end of the last. -/
def joinLines : List (List Char × LineEnd) → List Char
  | [] => []
  | [line] => line.1
  | line :: lines => line.1 ++ (line.2.text ++ joinLines lines)

theorem take_endedLines (hne : lines ≠ []) (h : ∀ line ∈ lines, OneLine line.1 ∧ line.1 ≠ []) :
    lineEnd.take (endedLines lines ++ text) = none := by
  cases lines with
  | nil => exact absurd rfl hne
  | cons line lines =>
    obtain ⟨hline, hempty⟩ := h line (.head _)
    rw [endedLines, List.flatMap_cons, List.append_assoc, List.append_assoc]
    exact take_line hline hempty

/-- A frame ends at its first blank line. -/
theorem search_frame (hne : lines ≠ []) (h : ∀ line ∈ lines, OneLine line.1 ∧ line.1 ≠ []) :
    search blankLine (endedLines lines ++ (close.text ++ rest)) = some (joinLines lines, rest) := by
  induction lines with
  | nil => exact absurd rfl hne
  | cons line lines ih =>
    obtain ⟨hline, -⟩ := h line (.head _)
    have hrest : ∀ line ∈ lines, OneLine line.1 ∧ line.1 ≠ [] := fun line hm ↦ h line (.tail _ hm)
    rw [endedLines, List.flatMap_cons, List.append_assoc, List.append_assoc,
      search_skip hline.skip_blank]
    cases lines with
    | nil =>
      have htake : blankLine.take (line.2.text ++ (close.text ++ rest)) = some rest := by
        rw [blankLine, Pattern.andThen_take, take_ending]
        exact take_ending
      rw [List.flatMap_nil, List.nil_append, search_of_take htake]
      simp [joinLines]
    | cons next lines =>
      have hnext := ih (by simp) hrest
      rw [← endedLines, search_ending (take_endedLines (by simp) hrest), hnext]
      rfl

theorem splitLines_of_some (h : search lineEnd text = some (line, rest)) :
    splitLines text = line :: splitLines rest := by
  rw [splitLines, cut_of_some h]
  rfl

theorem splitLines_ending : splitLines (ending.text ++ text) = [] :: splitLines text :=
  splitLines_of_some (search_of_take take_ending)

theorem splitLines_joinLines (hne : lines ≠ []) (h : ∀ line ∈ lines, OneLine line.1) :
    splitLines (joinLines lines) = lines.map Prod.fst := by
  induction lines with
  | nil => exact absurd rfl hne
  | cons line lines ih =>
    have hline := h line (.head _)
    cases lines with
    | nil =>
      have hnone : search lineEnd (line.1 ++ []) = none := by
        rw [search_skip hline.skip]
        rfl
      rw [List.append_nil] at hnone
      rw [joinLines, splitLines, cut_of_none hnone]
      rfl
    | cons next lines =>
      have hsearch : search lineEnd (line.1 ++ (line.2.text ++ joinLines (next :: lines))) =
          some (line.1, joinLines (next :: lines)) := by
        rw [search_skip hline.skip, search_of_take take_ending]
        simp
      have hnext := ih (by simp) fun line hm ↦ h line (.tail _ hm)
      simp only [joinLines]
      rw [splitLines_of_some hsearch, hnext]
      rfl

@[simp] theorem readLine_nil : fields.readLine [] = fields := by
  simp [FrameFields.readLine]

@[simp] theorem readLine_comment : fields.readLine (':' :: text) = fields := by
  simp [FrameFields.readLine]

theorem readLine_field {c : Char} (hc : c ≠ ':') (hn : ':' ∉ name) :
    fields.readLine ((c :: name) ++ ':' :: ' ' :: value) =
      if c :: name = "event".toList then { fields with event := some value }
      else if c :: name = "data".toList then { fields with data := fields.data ++ [value] }
      else fields := by
  have hall : ∀ x ∈ c :: name, decide (x ≠ ':') = true := by
    intro x hx
    rcases List.mem_cons.mp hx with rfl | hx
    · exact decide_eq_true hc
    · exact decide_eq_true fun heq ↦ hn (heq ▸ hx)
  have htake : ((c :: name) ++ ':' :: ' ' :: value).takeWhile (· ≠ ':') = c :: name := by
    rw [List.takeWhile_append_of_pos hall]
    simp
  have hdrop : ((c :: name) ++ ':' :: ' ' :: value).dropWhile (· ≠ ':') = ':' :: ' ' :: value := by
    rw [List.dropWhile_append_of_pos hall]
    simp
  have hhead : ((c :: name) ++ ':' :: ' ' :: value).head? ≠ some ':' := by
    simpa using hc
  rw [FrameFields.readLine, if_neg hhead, htake, hdrop]
  rfl

end Frames

section Extraction

variable {parse : List Char → Option Json} {frame : Frame} {frames : List Frame}
  {events : List StreamEvent} {event : StreamEvent} {json : List (List Char)}
  {text rest piece : List Char} {written : List (List Char × LineEnd)} {close : LineEnd}

theorem extract_of_search (h : search blankLine text = some (piece, rest)) :
    extractServerEvents parse text [] =
      ⟨(frameEvent parse (frameFields piece)).toList ++ (extractServerEvents parse rest []).events,
        (extractServerEvents parse rest []).remainder⟩ := by
  simp only [extractServerEvents, List.nil_append, cut_of_some h, List.filterMap_cons]
  cases frameEvent parse (frameFields piece) with
  | none => rfl
  | some event => rfl

/-- Of the blank lines before a frame, two end an empty frame and one is left in
the frame. -/
theorem extract_blanks (hne : written ≠ []) (h : ∀ line ∈ written, OneLine line.1 ∧ line.1 ≠ [])
    (rest : List Char) : ∀ blanks : List LineEnd,
    extractServerEvents parse
        (blanks.flatMap LineEnd.text ++ (endedLines written ++ (close.text ++ rest))) [] =
      ⟨(frameEvent parse
          ((written.map Prod.fst).foldl FrameFields.readLine ⟨none, []⟩)).toList ++
          (extractServerEvents parse rest []).events,
        (extractServerEvents parse rest []).remainder⟩
  | [] => by
    have hlines : ∀ line ∈ written, OneLine line.1 := fun line hm ↦ (h line hm).1
    rw [List.flatMap_nil, List.nil_append, extract_of_search (search_frame hne h), frameFields,
      splitLines_joinLines hne hlines]
  | [ending] => by
    have hlines : ∀ line ∈ written, OneLine line.1 := fun line hm ↦ (h line hm).1
    have hsearch : search blankLine (ending.text ++ (endedLines written ++ (close.text ++ rest))) =
        some (ending.text ++ joinLines written, rest) := by
      rw [search_ending (take_endedLines hne h), search_frame hne h]
      rfl
    rw [List.flatMap_singleton, extract_of_search hsearch, frameFields, splitLines_ending,
      splitLines_joinLines hne hlines, List.foldl_cons, readLine_nil]
  | first :: second :: blanks => by
    have htake : blankLine.take ((first :: second :: blanks).flatMap LineEnd.text ++
        (endedLines written ++ (close.text ++ rest))) =
          some (blanks.flatMap LineEnd.text ++ (endedLines written ++ (close.text ++ rest))) := by
      rw [List.flatMap_cons, List.flatMap_cons, List.append_assoc, List.append_assoc, blankLine,
        Pattern.andThen_take, take_ending]
      exact take_ending
    have hempty : frameEvent parse (frameFields []) = none := by
      rw [frameFields, splitLines, cut_of_none rfl, List.nil_append, List.foldl_cons, readLine_nil]
      rfl
    rw [extract_of_search (search_of_take htake), hempty, Option.toList_none, List.nil_append]
    exact extract_blanks hne h rest blanks

theorem FrameLine.text_ne_nil (line : FrameLine) : line.text ≠ [] := by
  cases line with
  | comment text => exact List.cons_ne_nil _ _
  | event kind => exact List.cons_ne_nil _ _
  | data text => exact List.cons_ne_nil _ _

/-- What a line adds to the fields of its frame. -/
def FrameLine.read (fields : FrameFields) : FrameLine → FrameFields
  | .comment _ => fields
  | .event kind => { fields with event := some kind.toList }
  | .data text => { fields with data := fields.data ++ [text] }

theorem readLine_text (fields : FrameFields) (line : FrameLine) :
    fields.readLine line.text = line.read fields := by
  cases line with
  | comment text => exact readLine_comment
  | event kind =>
    have hfield : fields.readLine (('e' :: "vent".toList) ++ ':' :: ' ' :: kind.toList) = _ :=
      readLine_field (by decide) (by decide)
    exact hfield
  | data text =>
    have hfield : fields.readLine (('d' :: "ata".toList) ++ ':' :: ' ' :: text) = _ :=
      readLine_field (by decide) (by decide)
    exact hfield

theorem foldl_read_filter (lines : List FrameLine) (fields : FrameFields) :
    lines.foldl FrameLine.read fields =
      (lines.filter (!·.isComment)).foldl FrameLine.read fields := by
  induction lines generalizing fields with
  | nil => rfl
  | cons line lines ih =>
    cases line with
    | comment text => exact ih fields
    | event kind => exact ih _
    | data text => exact ih _

theorem foldl_read_data (json : List (List Char)) (fields : FrameFields) :
    (json.map FrameLine.data).foldl FrameLine.read fields =
      { fields with data := fields.data ++ json } := by
  induction json generalizing fields with
  | nil => simp
  | cons text json ih =>
    rw [List.map_cons, List.foldl_cons, ih]
    simp [FrameLine.read]

/-- A frame of single lines is extracted by what its lines say. -/
theorem extract_frame (hne : frame.lines ≠ []) (h : ∀ line ∈ frame.lines, OneLine line.1.text)
    (rest : List Char) : extractServerEvents parse (frame.text ++ rest) [] =
      ⟨(frameEvent parse (((frame.lines.map Prod.fst).filter (!·.isComment)).foldl
          FrameLine.read ⟨none, []⟩)).toList ++ (extractServerEvents parse rest []).events,
        (extractServerEvents parse rest []).remainder⟩ := by
  have hwritten : frame.written ≠ [] := by simpa [Frame.written] using hne
  have hlines : ∀ line ∈ frame.written, OneLine line.1 ∧ line.1 ≠ [] := by
    intro line hm
    obtain ⟨source, hsource, rfl⟩ := List.mem_map.mp hm
    exact ⟨h source hsource, source.1.text_ne_nil⟩
  have hread : (frame.written.map Prod.fst).foldl FrameFields.readLine ⟨none, []⟩ =
      (frame.lines.map Prod.fst).foldl FrameLine.read ⟨none, []⟩ := by
    rw [Frame.written, List.map_map, List.foldl_map, List.foldl_map]
    simp only [Function.comp_apply, readLine_text]
  rw [← foldl_read_filter, ← hread, Frame.text, List.append_assoc, List.append_assoc]
  exact extract_blanks hwritten hlines rest frame.blanks

theorem frameEvent_printed (hj : JsonOf parse event json) (hk : event.kind ≠ "") :
    frameEvent parse ⟨some event.kind.toList, json⟩ = some event := by
  obtain ⟨hne, -, members, hparse, hdata⟩ := hj
  simp only [frameEvent, if_neg hne, hparse, Option.map_some, String.ofList_toList,
    Option.getD_some, if_neg hk, hdata]

theorem frameEvent_unnamed : frameEvent parse ⟨some [], json⟩ = none := by
  rw [frameEvent]
  split
  · rfl
  · split
    · rfl
    · exact if_pos rfl

/-- What is rendered comes back. -/
theorem extract_renders (h : Renders parse frames events)
    (hp : ∀ event ∈ events, event.Printable) :
    extractServerEvents parse (frames.flatMap Frame.text) [] = ⟨events, []⟩ := by
  induction h with
  | nil => exact extract_nil
  | @comment frame frames events hne hcomments hframes ih =>
    have hlines : ∀ line ∈ frame.lines, OneLine line.1.text := by
      intro line hm
      obtain ⟨text, heq, htext⟩ := hcomments line hm
      rw [heq]
      simpa [OneLine, FrameLine.text] using htext
    have hfilter : (frame.lines.map Prod.fst).filter (!·.isComment) = [] := by
      refine List.filter_eq_nil_iff.mpr fun line hm ↦ ?_
      obtain ⟨source, hsource, rfl⟩ := List.mem_map.mp hm
      obtain ⟨text, heq, -⟩ := hcomments source hsource
      rw [heq]
      simp [FrameLine.isComment]
    rw [List.flatMap_cons, extract_frame hne hlines, hfilter, ih hp]
    rfl
  | @event frame frames events event json hj hcomments hfields hframes ih =>
    obtain ⟨hkind, hsingle⟩ := hp event (.head _)
    have hmem : ∀ line ∈ frame.lines, line.1.isComment = false →
        line.1 ∈ FrameLine.event event.kind :: json.map .data := by
      intro line hm hline
      rw [← hfields, List.mem_filter, hline]
      exact ⟨List.mem_map_of_mem hm, rfl⟩
    have hlines : ∀ line ∈ frame.lines, OneLine line.1.text := by
      intro line hm
      cases hline : line.1 with
      | comment text => simpa [OneLine, FrameLine.text] using hcomments line hm text hline
      | event kind =>
        have hin := hmem line hm (by rw [hline]; rfl)
        rw [hline] at hin
        have hsame : kind = event.kind := by simpa using hin
        rw [hsame]
        simpa [OneLine, FrameLine.text] using hsingle
      | data text =>
        have hin := hmem line hm (by rw [hline]; rfl)
        rw [hline] at hin
        have htext : OneLine text := hj.2.1 text (by simpa using hin)
        simpa [OneLine, FrameLine.text] using htext
    have hne : frame.lines ≠ [] := by
      intro hnil
      rw [hnil] at hfields
      cases hfields
    have hread : FrameLine.read ⟨none, []⟩ (.event event.kind) = ⟨some event.kind.toList, []⟩ :=
      rfl
    rw [List.flatMap_cons, extract_frame hne hlines, hfields, List.foldl_cons, foldl_read_data,
      ih fun event hm ↦ hp event (.tail _ hm), hread, List.nil_append, frameEvent_printed hj hkind]
    rfl

/-- Neither the chunks of a stream nor the way its frames are written make a
difference. -/
theorem stream_exact (parse : List Char → Option Json) (print : Json → String) (token : String) :
    (∀ chunks, feed parse chunks = extractServerEvents parse chunks.flatten []) ∧
      (∀ chunks view, Fits parse chunks →
        follow parse print token view [] chunks =
          .ok (applyEvents print token view (extractServerEvents parse chunks.flatten []).events,
            (extractServerEvents parse chunks.flatten []).remainder)) ∧
      ∀ frames events, Renders parse frames events → (∀ event ∈ events, event.Printable) →
        extractServerEvents parse (frames.flatMap Frame.text) [] = ⟨events, []⟩ := by
  refine ⟨feed_eq parse, fun chunks view hf ↦ ?_, fun frames events h hp ↦ extract_renders h hp⟩
  have hfollow := follow_eq print token view hf chunks [] rfl
  rwa [List.flatten_nil, extract_nil] at hfollow

end Extraction

section Sample

def sampleJson : List Char := "\x7b\"data\":\x7b\x7d\x7d".toList

def sampleParse (text : List Char) : Option Json :=
  if text = sampleJson then some (.object [("data", .object [])]) else none

/-- The frame of an event without data. -/
def sampleFrame (kind : String) : Frame :=
  ⟨[.crlf], [(.comment "keep".toList, .lf), (.event kind, .crlf), (.data sampleJson, .lf)], .lf⟩

theorem sample_oneLine : OneLine sampleJson ∧ OneLine "keep".toList := by
  rw [OneLine, OneLine]
  decide

theorem sample_renders (kinds : List String) : Renders sampleParse (kinds.map sampleFrame)
    (kinds.map fun kind ↦ ⟨kind, []⟩) := by
  induction kinds with
  | nil => exact .nil
  | cons kind kinds ih =>
    have hjson : JsonOf sampleParse ⟨kind, []⟩ [sampleJson] := by
      refine ⟨by simp, fun text hm ↦ ?_, _, if_pos rfl, rfl⟩
      rw [List.mem_singleton.mp hm]
      exact sample_oneLine.1
    refine .event hjson ?_ rfl ih
    intro line hm text heq
    simp only [sampleFrame, List.mem_cons, List.not_mem_nil, or_false] at hm
    obtain rfl | rfl | rfl := hm
    · cases heq
      exact sample_oneLine.2
    · cases heq
    · cases heq

theorem sample_stream : extractServerEvents sampleParse
    (["peer_online", "bans_replaced"].flatMap fun kind ↦ (sampleFrame kind).text) [] =
      ⟨[⟨"peer_online", []⟩, ⟨"bans_replaced", []⟩], []⟩ := by
  have hprintable : ∀ event ∈ [(⟨"peer_online", []⟩ : StreamEvent), ⟨"bans_replaced", []⟩],
      event.Printable := by
    intro event hm
    simp only [List.mem_cons, List.not_mem_nil, or_false] at hm
    obtain rfl | rfl := hm
    · exact ⟨by decide, by decide, by decide⟩
    · exact ⟨by decide, by decide, by decide⟩
  exact (stream_exact sampleParse (fun _ ↦ "") "").2.2 _ _
    (sample_renders ["peer_online", "bans_replaced"]) hprintable

/-- An event without a kind is skipped, and a kind ends with its line. -/
theorem kind_lost :
    (¬ ∀ (parse : List Char → Option Json) (frames : List Frame) (events : List StreamEvent),
      Renders parse frames events →
        (extractServerEvents parse (frames.flatMap Frame.text) []).events = events) ∧
    Renders sampleParse [sampleFrame "a\nb"] [⟨"a\nb", []⟩] ∧
      (extractServerEvents sampleParse (sampleFrame "a\nb").text []).events = [⟨"a", []⟩] := by
  refine ⟨fun hall ↦ ?_, sample_renders ["a\nb"], ?_⟩
  · have hread := hall sampleParse [sampleFrame ""] [⟨"", []⟩] (sample_renders [""])
    have hlines : ∀ line ∈ (sampleFrame "").lines, OneLine line.1.text := by
      simp only [OneLine]
      decide
    have hframe : extractServerEvents sampleParse ((sampleFrame "").text ++ []) [] = _ :=
      extract_frame (by simp [sampleFrame]) hlines []
    have hfields : ((((sampleFrame "").lines.map Prod.fst).filter (!·.isComment)).foldl
        FrameLine.read ⟨none, []⟩) = ⟨some [], [sampleJson]⟩ := rfl
    rw [List.append_nil, extract_nil, hfields, frameEvent_unnamed] at hframe
    rw [List.flatMap_singleton, hframe] at hread
    cases hread
  · have hlines : ∀ line ∈ [(":keep".toList, LineEnd.lf), ("event: a".toList, .lf),
        ("b".toList, .crlf), (FrameLine.text (.data sampleJson), .lf)],
          OneLine line.1 ∧ line.1 ≠ [] := by
      simp only [OneLine]
      decide
    have htext : (sampleFrame "a\nb").text = [LineEnd.crlf].flatMap LineEnd.text ++
        (endedLines [(":keep".toList, .lf), ("event: a".toList, .lf), ("b".toList, .crlf),
          (FrameLine.text (.data sampleJson), .lf)] ++ (LineEnd.lf.text ++ [])) := rfl
    have hfields : ([(":keep".toList, LineEnd.lf), ("event: a".toList, .lf), ("b".toList, .crlf),
        (FrameLine.text (.data sampleJson), .lf)].map Prod.fst).foldl FrameFields.readLine
          ⟨none, []⟩ = ⟨some ['a'], [sampleJson]⟩ := rfl
    rw [htext, extract_blanks (by simp) hlines, hfields, extract_nil]
    rfl

end Sample

end RustdeskConsole.ServerEvents
