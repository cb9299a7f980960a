import Mathlib.Data.List.Chain
import Mathlib.Data.List.DropRight
import RpaEnterprise.Lib.Framing
import RpaEnterprise.Lib.Json
import RpaEnterprise.Lib.Text

/-!
# The frame loop of the SSE transport

`FetchCodexSseTransport.open` after the response has come: the decoded reads are
collected in a buffer, frames end at an empty line, and each `data:` line of a frame
is parsed.  `JSON.parse` is a parameter.
-/

namespace RpaEnterprise.Gateway.CodexSseTransport

open Lib

def separator : List Char := ['\n', '\n']

inductive Line where
  | chunk (value : Json)
  /-- `[DONE]`: the generator returns. -/
  | done
  /-- No data, or data that does not parse. -/
  | skipped

variable (parse : String → Option Json)

def readData (data : List Char) : Line :=
  if data = "[DONE]".toList then .done
  else
    match parse (String.ofList data) with
    | some value => .chunk value
    | none => .skipped

def readLine (line : List Char) : Line :=
  let trimmed := Text.trimChars line
  if "data:".toList.isPrefixOf trimmed then readData parse (Text.trimChars (trimmed.drop 5))
  else .skipped

/-- The chunks of the lines, and whether the generator returned. -/
def readLines : List (List Char) → List Json × Bool
  | [] => ([], false)
  | line :: rest =>
    match readLine parse line with
    | .done => ([], true)
    | .chunk value => (value :: (readLines rest).1, (readLines rest).2)
    | .skipped => readLines rest

def readFrames : List (List Char) → List Json × Bool
  | [] => ([], false)
  | frame :: rest =>
    match readLines parse (frame.splitOn '\n') with
    | (chunks, true) => (chunks, true)
    | (chunks, false) => (chunks ++ (readFrames rest).1, (readFrames rest).2)

/-- What is left in the buffer when the reads are over is dropped. -/
def openFrom (buffer : List Char) : List (List Char) → List Json
  | [] => []
  | piece :: rest =>
    match readFrames parse (Framing.frames separator (buffer ++ piece)).1 with
    | (chunks, true) => chunks
    | (chunks, false) => chunks ++ openFrom (Framing.frames separator (buffer ++ piece)).2 rest

/-- The chunks of a stream, from the texts its reads are decoded to. -/
def openStream (reads : List String) : List Json := openFrom parse [] (reads.map String.toList)

theorem readFrames_append (early late : List (List Char)) :
    readFrames parse (early ++ late) =
      match readFrames parse early with
      | (chunks, true) => (chunks, true)
      | (chunks, false) => (chunks ++ (readFrames parse late).1, (readFrames parse late).2) := by
  induction early with
  | nil => rfl
  | cons frame rest ih =>
    rw [List.cons_append, readFrames, readFrames, ih]
    rcases readLines parse (frame.splitOn '\n') with ⟨chunks, _ | _⟩
    · rcases readFrames parse rest with ⟨later, _ | _⟩
      · simp
      · rfl
    · rfl

theorem openFrom_eq (buffer : List Char) (pieces : List (List Char)) :
    openFrom parse buffer pieces = (readFrames parse (Framing.feed separator buffer pieces)).1 := by
  induction pieces generalizing buffer with
  | nil => rfl
  | cons piece rest ih =>
    rw [openFrom, Framing.feed, readFrames_append, ih]
    rcases readFrames parse (Framing.frames separator (buffer ++ piece)).1 with ⟨chunks, _ | _⟩
    · rfl
    · rfl

/-- The chunks are those of the whole text: how the network cut it does not matter. -/
theorem openStream_eq (reads : List String) :
    openStream parse reads =
      (readFrames parse (Framing.frames separator (reads.map String.toList).flatten).1).1 := by
  rw [openStream, openFrom_eq, Framing.feed_eq (by decide) [] rfl, List.nil_append]

/-! ## Streams of events -/

inductive Ending where
  | lf | crlf
deriving DecidableEq

def Ending.chars : Ending → List Char
  | .lf => ['\n']
  | .crlf => ['\r', '\n']

/-- A line of an event with the way it ends. -/
structure SseLine where
  text : List Char
  ending : Ending
  filled : text ≠ []
  oneLine : ∀ char ∈ text, char ≠ '\n' ∧ char ≠ '\r'

def SseLine.chars (line : SseLine) : List Char := line.text ++ line.ending.chars

/-- The lines of an event and the way the empty line after them ends. -/
structure SseEvent where
  lines : List SseLine
  blank : Ending

def SseEvent.chars (event : SseEvent) : List Char := event.lines.flatMap SseLine.chars ++ event.blank.chars

/-- Events, the lines of a last event without an empty line after it, and a last
line that does not end.  A byte order mark is no part of the events. -/
structure SseStream where
  events : List SseEvent
  last : List SseLine
  cutOff : Option SseLine
  unmarked : (events.flatMap SseEvent.chars ++
    (last.flatMap SseLine.chars ++ cutOff.toList.flatMap SseLine.text)).head? ≠ some '\uFEFF'

def SseStream.lines (stream : SseStream) : List SseLine :=
  stream.events.flatMap SseEvent.lines ++ stream.last ++ stream.cutOff.toList

def SseStream.chars (stream : SseStream) : List Char :=
  stream.events.flatMap SseEvent.chars ++
    (stream.last.flatMap SseLine.chars ++ stream.cutOff.toList.flatMap SseLine.text)

/-- What a line says after the field name `data`, without the white space around it. -/
def SseLine.data? (line : SseLine) : Option (List Char) :=
  if "data:".toList <+: line.text.dropWhile Text.isSpace then
    some (Text.trimChars ((line.text.dropWhile Text.isSpace).drop 5))
  else none

def SseLine.reading (line : SseLine) : Line := line.data?.elim .skipped (readData parse)

/-- The chunks in order up to `[DONE]`, and whether it came. -/
def collect : List Line → List Json × Bool
  | [] => ([], false)
  | .done :: _ => ([], true)
  | .chunk value :: rest => (value :: (collect rest).1, (collect rest).2)
  | .skipped :: rest => collect rest

/-- The JSON payloads of the data lines in order up to `[DONE]`. -/
def payloads (lines : List SseLine) : List Json := (collect (lines.map (SseLine.reading parse))).1

/-- The lines up to the last empty line that ends with LF. -/
def SseStream.framed (stream : SseStream) : List SseLine :=
  (stream.events.rdropWhile (·.blank = .crlf)).flatMap SseEvent.lines

/-- The lines after it. -/
def SseStream.unframed (stream : SseStream) : List SseLine :=
  (stream.events.rtakeWhile (·.blank = .crlf)).flatMap SseEvent.lines ++ stream.last ++ stream.cutOff.toList

/-! ## Lines -/

/-- What one part of a text gives, and then the next. -/
def followed (one two : List Json × Bool) : List Json × Bool :=
  if one.2 then one else (one.1 ++ two.1, two.2)

theorem followed_assoc (one two three : List Json × Bool) :
    followed (followed one two) three = followed one (followed two three) := by
  unfold followed
  rcases one with ⟨first, _ | _⟩ <;> rcases two with ⟨second, _ | _⟩ <;> simp

theorem followed_none (one : List Json × Bool) : followed one ([], false) = one := by
  rcases one with ⟨first, _ | _⟩ <;> simp [followed]

theorem collect_append (one two : List Line) :
    collect (one ++ two) = followed (collect one) (collect two) := by
  induction one with
  | nil => simp [collect, followed]
  | cons line rest ih =>
    cases line with
    | done => simp [collect, followed]
    | skipped => simpa [collect] using ih
    | chunk value =>
      simp only [List.cons_append, collect, ih]
      unfold followed
      split <;> simp

theorem readLines_eq (lines : List (List Char)) : readLines parse lines = collect (lines.map (readLine parse)) := by
  induction lines with
  | nil => rfl
  | cons line rest ih =>
    rw [readLines, List.map_cons]
    cases readLine parse line <;> simp [collect, ih]

theorem readLines_append (one two : List (List Char)) :
    readLines parse (one ++ two) = followed (readLines parse one) (readLines parse two) := by
  rw [readLines_eq, readLines_eq, readLines_eq, List.map_append, collect_append]

theorem splitOn_append (before after : List Char) :
    (before ++ '\n' :: after).splitOn '\n' = before.splitOn '\n' ++ after.splitOn '\n' := by
  induction before with
  | nil => simp [List.splitOn, List.splitOnP_cons_eq_if_modifyHead]
  | cons char rest ih =>
    simp only [List.splitOn, List.cons_append, List.splitOnP_cons_eq_if_modifyHead] at ih ⊢
    split
    · rw [ih, List.cons_append]
    · rw [ih]
      cases split : rest.splitOnP (· == '\n') with
      | nil => exact absurd split (List.splitOnP_ne_nil _ _)
      | cons head tail => rfl

/-- The lines of a text are those of its frames and those of what is left. -/
theorem readLines_frames (text : List Char) :
    readLines parse (text.splitOn '\n') =
      followed (readFrames parse (Framing.frames separator text).1)
        (readLines parse ((Framing.frames separator text).2.splitOn '\n')) := by
  have joined := @Framing.frames_join _ _ separator (by decide) text
  generalize (Framing.frames separator text).2 = left at joined ⊢
  generalize (Framing.frames separator text).1 = found at joined ⊢
  subst joined
  induction found with
  | nil => rfl
  | cons frame rest ih =>
    have parts : ((frame :: rest).map (· ++ separator)).flatten ++ left =
        frame ++ '\n' :: ([] ++ '\n' :: ((rest.map (· ++ separator)).flatten ++ left)) := by
      simp [separator]
    have blank : readLines parse ([].splitOn '\n') = ([], false) := rfl
    rw [parts, splitOn_append, splitOn_append, readLines_append, readLines_append, blank, ih]
    simp only [readFrames]
    unfold followed
    rcases readLines parse (frame.splitOn '\n') with ⟨chunks, _ | _⟩ <;>
      rcases readFrames parse rest with ⟨later, _ | _⟩ <;> simp

/-! ## White space -/

theorem rdropWhile_cons (char : Char) (rest : List Char) :
    (char :: rest).rdropWhile Text.isSpace =
      if rest.rdropWhile Text.isSpace = [] then [char].rdropWhile Text.isSpace
      else char :: rest.rdropWhile Text.isSpace := by
  unfold List.rdropWhile
  rw [List.reverse_cons, List.dropWhile_append]
  by_cases empty : rest.reverse.dropWhile Text.isSpace = []
  · simp [empty]
  · simp [empty]

theorem rdropWhile_cons_of_full {char : Char} (full : Text.isSpace char = false) (rest : List Char) :
    (char :: rest).rdropWhile Text.isSpace = char :: rest.rdropWhile Text.isSpace := by
  rw [rdropWhile_cons]
  split
  · rename_i empty
    rw [empty]
    simp [List.rdropWhile, full]
  · rfl

/-- White space at the end does not matter for what is trimmed. -/
theorem trimChars_rdropWhile (chars : List Char) :
    Text.trimChars (chars.rdropWhile Text.isSpace) = Text.trimChars chars := by
  induction chars with
  | nil => rfl
  | cons char rest ih =>
    cases space : Text.isSpace char with
    | true =>
      have drops : ∀ tail, Text.trimChars (char :: tail) = Text.trimChars tail := fun tail => by
        rw [Text.trimChars_eq_rdropWhile, List.dropWhile_cons_of_pos space, Text.trimChars_eq_rdropWhile]
      rw [rdropWhile_cons, drops, ← ih]
      split
      · rename_i empty
        rw [empty]
        simp [List.rdropWhile, space]
      · exact drops _
    | false =>
      have keeps : ∀ tail, Text.trimChars (char :: tail) = char :: tail.rdropWhile Text.isSpace := fun tail => by
        rw [Text.trimChars_eq_rdropWhile, List.dropWhile_cons_of_neg (by simp [space]), rdropWhile_cons_of_full space]
      rw [rdropWhile_cons_of_full space, keeps, keeps, List.rdropWhile_idempotent]

/-- White space at the end of a line stands after its field name. -/
theorem rdropWhile_field (rest : List Char) :
    ("data:".toList ++ rest).rdropWhile Text.isSpace = "data:".toList ++ rest.rdropWhile Text.isSpace := by
  have full : ∀ char ∈ "data:".toList, Text.isSpace char = false := by decide
  generalize "data:".toList = name at full ⊢
  induction name with
  | nil => rfl
  | cons char more ih =>
    rw [List.cons_append, rdropWhile_cons_of_full (full char List.mem_cons_self),
      ih fun other member => full other (List.mem_cons_of_mem _ member), List.cons_append]

theorem readLine_eq (line : SseLine) : readLine parse line.text = line.reading parse := by
  unfold readLine SseLine.reading SseLine.data?
  rw [Text.trimChars_eq_rdropWhile]
  by_cases field : "data:".toList <+: line.text.dropWhile Text.isSpace
  · obtain ⟨rest, shape⟩ := field
    have five : ∀ tail : List Char, ("data:".toList ++ tail).drop 5 = tail := fun _ => rfl
    rw [← shape, rdropWhile_field, if_pos (List.prefix_append _ rest)]
    dsimp only
    rw [if_pos (by simp), five, five, trimChars_rdropWhile]
    rfl
  · have other : ¬ "data:".toList <+: (line.text.dropWhile Text.isSpace).rdropWhile Text.isSpace :=
      fun begins => field (begins.trans (List.rdropWhile_prefix _ _))
    rw [if_neg field]
    dsimp only
    rw [if_neg (by simpa using other)]
    rfl

/-- A line is read for what it is, with a CR after it or without. -/
theorem readLine_text (line : SseLine) {tail : List Char} (white : tail.all Text.isSpace = true) :
    readLine parse (line.text ++ tail) = line.reading parse := by
  have dropped : (line.text ++ tail).rdropWhile Text.isSpace = line.text.rdropWhile Text.isSpace := by
    unfold List.rdropWhile
    rw [List.reverse_append, List.dropWhile_append_of_pos]
    intro char member
    exact List.all_eq_true.mp white char (List.mem_reverse.mp member)
  have trimmed : Text.trimChars (line.text ++ tail) = Text.trimChars line.text := by
    rw [← trimChars_rdropWhile, dropped, trimChars_rdropWhile]
  rw [← readLine_eq, readLine, readLine, trimmed]

/-! ## The lines of a stream -/

theorem splitOn_of_not_mem {text : List Char} (single : '\n' ∉ text) : text.splitOn '\n' = [text] := by
  induction text with
  | nil => rfl
  | cons char rest ih =>
    have here : char ≠ '\n' := fun same => single (same ▸ List.mem_cons_self)
    have later := ih fun member => single (List.mem_cons_of_mem _ member)
    simp only [List.splitOn, List.splitOnP_cons_eq_if_modifyHead] at later ⊢
    simp [here, later]

theorem readLines_line (line : SseLine) (rest : List Char) :
    readLines parse ((line.chars ++ rest).splitOn '\n') =
      followed (collect [line.reading parse]) (readLines parse (rest.splitOn '\n')) := by
  have raw : ∃ tail, line.chars ++ rest = (line.text ++ tail) ++ '\n' :: rest ∧ tail.all Text.isSpace = true ∧
      '\n' ∉ line.text ++ tail := by
    have single : '\n' ∉ line.text := fun member => (line.oneLine _ member).1 rfl
    unfold SseLine.chars
    cases line.ending with
    | lf => exact ⟨[], by simp [Ending.chars], rfl, by simpa using single⟩
    | crlf => exact ⟨['\r'], by simp [Ending.chars], by decide, by simpa using single⟩
  obtain ⟨tail, shape, white, single⟩ := raw
  rw [shape, splitOn_append, readLines_append, splitOn_of_not_mem single, readLines_eq, List.map_singleton,
    readLine_text parse line white]

theorem readLines_lines (lines : List SseLine) (rest : List Char) :
    readLines parse ((lines.flatMap SseLine.chars ++ rest).splitOn '\n') =
      followed (collect (lines.map (SseLine.reading parse))) (readLines parse (rest.splitOn '\n')) := by
  induction lines with
  | nil => simp [collect, followed]
  | cons line more ih =>
    have both : collect ((line :: more).map (SseLine.reading parse)) =
        followed (collect [line.reading parse]) (collect (more.map (SseLine.reading parse))) :=
      collect_append [line.reading parse] _
    rw [List.flatMap_cons, List.append_assoc, readLines_line, ih, ← followed_assoc, both]

theorem readLines_blank (ending : Ending) (rest : List Char) :
    readLines parse ((ending.chars ++ rest).splitOn '\n') = readLines parse (rest.splitOn '\n') := by
  cases ending with
  | lf =>
    have shape : Ending.lf.chars ++ rest = [] ++ '\n' :: rest := rfl
    have blank : readLines parse ([].splitOn '\n') = ([], false) := rfl
    rw [shape, splitOn_append, readLines_append, blank]
    simp [followed]
  | crlf =>
    have shape : Ending.crlf.chars ++ rest = ['\r'] ++ '\n' :: rest := rfl
    have blank : readLines parse (['\r'].splitOn '\n') = ([], false) := rfl
    rw [shape, splitOn_append, readLines_append, blank]
    simp [followed]

theorem readLines_events (events : List SseEvent) (rest : List Char) :
    readLines parse ((events.flatMap SseEvent.chars ++ rest).splitOn '\n') =
      followed (collect ((events.flatMap SseEvent.lines).map (SseLine.reading parse)))
        (readLines parse (rest.splitOn '\n')) := by
  induction events with
  | nil => simp [collect, followed]
  | cons event more ih =>
    rw [List.flatMap_cons, List.append_assoc, SseEvent.chars, List.append_assoc, readLines_lines,
      readLines_blank, ih, ← followed_assoc, List.flatMap_cons, List.map_append, collect_append]

/-! ## Empty lines -/

/-- Nowhere two LF in a row, and none at the start. -/
def Neat (text : List Char) : Prop :=
  text.IsChain (fun one two => ¬ (one = '\n' ∧ two = '\n')) ∧ ∀ char ∈ text.head?, char ≠ '\n'

theorem Neat.append {one two : List Char} (first : Neat one) (second : Neat two) : Neat (one ++ two) := by
  refine ⟨List.isChain_append.mpr ⟨first.1, second.1, fun _ _ char head both => second.2 char head both.2⟩, ?_⟩
  cases one with
  | nil => exact second.2
  | cons char rest => exact first.2

theorem Neat.nil : Neat [] := ⟨.nil, by simp⟩

theorem Neat.of_not_mem {text : List Char} (single : '\n' ∉ text) : Neat text := by
  refine ⟨List.Pairwise.isChain ?_, fun char head same => single (same ▸ List.mem_of_mem_head? head)⟩
  exact List.pairwise_of_forall_mem_list fun one member _ _ both => single (both.1 ▸ member)

theorem Neat.flatMap {Part : Type} {chars : Part → List Char} (parts : List Part)
    (neat : ∀ part ∈ parts, Neat (chars part)) : Neat (parts.flatMap chars) := by
  induction parts with
  | nil => exact .nil
  | cons part rest ih =>
    rw [List.flatMap_cons]
    exact (neat part List.mem_cons_self).append (ih fun other member => neat other (List.mem_cons_of_mem _ member))

theorem suffix_lf {left : List Char} (kept : left <:+ ['\n']) : left = [] ∨ left = ['\n'] := by
  rcases List.suffix_cons_iff.mp kept with whole | none
  · exact .inr whole
  · exact .inl (List.suffix_nil.mp none)

/-- A text that is neat has no frame, also after an LF. -/
theorem Neat.absent_after {text left : List Char} (neat : Neat text) (kept : left <:+ ['\n']) :
    ¬ separator <:+: left ++ text := by
  have chain : (left ++ text).IsChain fun one two => ¬ (one = '\n' ∧ two = '\n') := by
    rcases suffix_lf kept with rfl | rfl
    · exact neat.1
    · exact List.isChain_append.mpr ⟨.singleton _, neat.1, fun _ _ char head both => neat.2 char head both.2⟩
  rintro ⟨before, after, shape⟩
  have inner := chain.infix ⟨before, after, shape⟩
  simp [separator] at inner

theorem readLines_left {left : List Char} (kept : left <:+ ['\n']) :
    readLines parse (left.splitOn '\n') = ([], false) := by
  rcases suffix_lf kept with rfl | rfl <;> rfl

theorem Neat.line (line : SseLine) : Neat line.chars := by
  have single : '\n' ∉ line.text := fun member => (line.oneLine _ member).1 rfl
  have body := Neat.of_not_mem single
  unfold SseLine.chars
  refine ⟨List.isChain_append.mpr ⟨body.1, ?_, fun char last _ _ both => ?_⟩, ?_⟩
  · cases line.ending <;> simp [Ending.chars]
  · exact single (both.1 ▸ List.mem_of_mem_getLast? last)
  · cases shape : line.text with
    | nil => exact absurd shape line.filled
    | cons char rest => simpa [shape] using body.2

/-- After an empty line that ends with LF at most that LF is left. -/
theorem frames_closed {text : List Char} (ended : text = [] ∨ text.getLast? = some '\n') :
    (Framing.frames separator (text ++ ['\n'])).2 <:+ ['\n'] := by
  have joined := @Framing.frames_join _ _ separator (by decide) (text ++ ['\n'])
  have absent := @Framing.left_absent _ _ separator (by decide) (text ++ ['\n'])
  generalize (Framing.frames separator (text ++ ['\n'])).2 = left at joined absent ⊢
  have tail : left <:+ text ++ ['\n'] := ⟨_, joined.symm⟩
  rcases ended with rfl | last
  · exact tail
  · obtain ⟨front, rfl⟩ := List.getLast?_eq_some_iff.mp last
    have closes : separator <:+ front ++ ['\n'] ++ ['\n'] := ⟨front, by simp [separator]⟩
    have short : left.length ≤ 1 := by
      by_contra long
      have length : separator.length ≤ left.length := by
        simp only [separator, List.length_cons, List.length_nil]
        omega
      exact absent (List.suffix_of_suffix_length_le closes tail length).isInfix
    exact List.suffix_of_suffix_length_le tail (List.suffix_append _ _) short

theorem events_parts (events : List SseEvent) :
    events = events.rdropWhile (·.blank = .crlf) ++ events.rtakeWhile (·.blank = .crlf) := by
  unfold List.rdropWhile List.rtakeWhile
  rw [← List.reverse_append, List.takeWhile_append_dropWhile, List.reverse_reverse]

theorem SseLine.last_chars (line : SseLine) : line.chars.getLast? = some '\n' := by
  unfold SseLine.chars
  cases line.ending <;> simp [Ending.chars]

theorem SseEvent.last_chars (event : SseEvent) : event.chars.getLast? = some '\n' := by
  unfold SseEvent.chars
  cases event.blank <;> simp [Ending.chars]

theorem flatMap_last {Part : Type} {chars : Part → List Char} (ends : ∀ part, (chars part).getLast? = some '\n')
    (parts : List Part) : parts.flatMap chars = [] ∨ (parts.flatMap chars).getLast? = some '\n' := by
  rcases List.eq_nil_or_concat' parts with rfl | ⟨before, part, rfl⟩
  · exact .inl rfl
  · right
    rw [List.flatMap_append, List.getLast?_append]
    simp [ends]

/-- Up to the last empty line that ends with LF everything is framed. -/
theorem frames_framed (events : List SseEvent) :
    (Framing.frames separator ((events.rdropWhile (·.blank = .crlf)).flatMap SseEvent.chars)).2 <:+ ['\n'] := by
  generalize framed : events.rdropWhile (·.blank = .crlf) = kept
  rcases List.eq_nil_or_concat' kept with rfl | ⟨before, event, rfl⟩
  · exact List.nil_suffix
  · have closed : event.blank = .lf := by
      have last := List.rdropWhile_last_not (fun event : SseEvent => decide (event.blank = .crlf)) events
        (by rw [framed]; simp)
      simp only [framed, List.getLast_concat, decide_eq_true_eq] at last
      cases shape : event.blank with
      | lf => rfl
      | crlf => exact absurd shape last
    have whole : (before ++ [event]).flatMap SseEvent.chars =
        (before.flatMap SseEvent.chars ++ event.lines.flatMap SseLine.chars) ++ ['\n'] := by
      simp [SseEvent.chars, closed, Ending.chars]
    rw [whole]
    refine frames_closed ?_
    rw [List.getLast?_append]
    rcases flatMap_last SseLine.last_chars event.lines with none | last
    · rw [none, List.append_nil]
      simpa using flatMap_last SseEvent.last_chars before
    · exact .inr (by simp [last])

/-- The transport reads the framed lines of a stream. -/
theorem openStream_stream (stream : SseStream) (reads : List String)
    (text : (reads.map String.toList).flatten = stream.chars) :
    openStream parse reads = payloads parse stream.framed := by
  have parts : stream.chars = (stream.events.rdropWhile (·.blank = .crlf)).flatMap SseEvent.chars ++
      ((stream.events.rtakeWhile (·.blank = .crlf)).flatMap SseEvent.chars ++
        (stream.last.flatMap SseLine.chars ++ stream.cutOff.toList.flatMap SseLine.text)) := by
    conv_lhs => rw [SseStream.chars, events_parts stream.events, List.flatMap_append, List.append_assoc]
  have neat : Neat ((stream.events.rtakeWhile (·.blank = .crlf)).flatMap SseEvent.chars ++
      (stream.last.flatMap SseLine.chars ++ stream.cutOff.toList.flatMap SseLine.text)) := by
    refine .append (.flatMap _ fun event member => ?_) (.append (.flatMap _ fun line _ => .line line)
      (.flatMap _ fun line _ => .of_not_mem fun member => (line.oneLine _ member).1 rfl))
    have kept := List.mem_rtakeWhile_imp member
    unfold SseEvent.chars
    rw [of_decide_eq_true kept]
    exact .append (.flatMap _ fun line _ => .line line) ⟨by simp [Ending.chars], by simp [Ending.chars]⟩
  -- An LF that is left is an empty line of its own: it makes no frame with what comes and is no data.
  have kept := frames_framed stream.events
  have absent : ¬ separator <:+: (Framing.frames separator
      ((stream.events.rdropWhile (·.blank = .crlf)).flatMap SseEvent.chars)).2 ++
        ((stream.events.rtakeWhile (·.blank = .crlf)).flatMap SseEvent.chars ++
          (stream.last.flatMap SseLine.chars ++ stream.cutOff.toList.flatMap SseLine.text)) :=
    neat.absent_after kept
  have read := readLines_frames parse ((stream.events.rdropWhile (·.blank = .crlf)).flatMap SseEvent.chars)
  have lines := readLines_events parse (stream.events.rdropWhile (·.blank = .crlf)) []
  rw [List.append_nil] at lines
  have blank : readLines parse ([].splitOn '\n') = ([], false) := rfl
  rw [readLines_left parse kept, followed_none] at read
  rw [blank, followed_none] at lines
  rw [openStream_eq, text, parts, Framing.frames_append (by decide),
    Framing.frames_of_absent (by decide) absent, List.append_nil, ← read, lines]
  rfl

/-! ## Bytes -/

def bytesOf (text : List Char) : List UInt8 := text.flatMap String.utf8EncodeChar

def decodeFrom {State : Type} (decode : State → List UInt8 → List Char × State) (state : State) :
    List (List UInt8) → List (List Char)
  | [] => []
  | chunk :: rest => (decode state chunk).1 :: decodeFrom decode (decode state chunk).2 rest

/-- A `TextDecoder` that is fed with `stream: true`.  The text of well-formed bytes
comes out in pieces, wherever the bytes were cut; a byte order mark at the start
would be left out. -/
structure Decoder where
  State : Type
  start : State
  decode : State → List UInt8 → List Char × State
  decodes : ∀ text chunks, text.head? ≠ some '\uFEFF' → chunks.flatten = bytesOf text →
    (decodeFrom decode start chunks).flatten = text

def takeChar (bytes : List UInt8) : Option Char := bytes.toByteArray.utf8DecodeChar? 0

/-- The characters at the start of the bytes, and the bytes from the first place
where no character is complete. -/
def takeChars : Nat → List UInt8 → List Char × List UInt8
  | 0, bytes => ([], bytes)
  | fuel + 1, bytes =>
    match takeChar bytes with
    | none => ([], bytes)
    | some char =>
      let later := takeChars fuel (bytes.drop (String.utf8EncodeChar char).length)
      (char :: later.1, later.2)

theorem takeChar_bytesOf (char : Char) (rest : List Char) : takeChar (bytesOf (char :: rest)) = some char := by
  rw [takeChar, bytesOf, List.flatMap_cons, List.toByteArray_append, ← List.utf8Encode_singleton]
  exact List.utf8DecodeChar?_utf8Encode_singleton_append

theorem takeChar_append {bytes : List UInt8} {char : Char} (taken : takeChar bytes = some char) (more : List UInt8) :
    takeChar (bytes ++ more) = some char := by
  rw [takeChar, List.toByteArray_append]
  exact ByteArray.utf8DecodeChar?_append_eq_some taken _

/-- The first character of bytes that begin a text is that of the text. -/
theorem text_of_takeChar {bytes more : List UInt8} {text : List Char} {char : Char}
    (whole : bytes ++ more = bytesOf text) (taken : takeChar bytes = some char) :
    ∃ rest, text = char :: rest ∧ bytes.drop (String.utf8EncodeChar char).length ++ more = bytesOf rest := by
  obtain ⟨tail, shape⟩ := ByteArray.exists_of_utf8DecodeChar?_eq_some taken
  obtain ⟨left, rfl⟩ : ∃ left, bytes = String.utf8EncodeChar char ++ left := by
    refine ⟨tail.data.toList, ?_⟩
    have data := congrArg (fun array => array.data.toList) shape
    simpa using data
  cases text with
  | nil => simp [bytesOf, String.utf8EncodeChar_ne_nil] at whole
  | cons first rest =>
    have same := takeChar_append taken more
    rw [whole, takeChar_bytesOf] at same
    obtain rfl := Option.some.inj same
    refine ⟨rest, rfl, ?_⟩
    rw [bytesOf, List.flatMap_cons, List.append_assoc] at whole
    rw [List.drop_left]
    exact List.append_cancel_left whole

theorem takeChars_text {fuel : Nat} {bytes more : List UInt8} {text : List Char} (enough : bytes.length ≤ fuel)
    (whole : bytes ++ more = bytesOf text) :
    ∃ rest, text = (takeChars fuel bytes).1 ++ rest ∧ (takeChars fuel bytes).2 ++ more = bytesOf rest ∧
      takeChar (takeChars fuel bytes).2 = none := by
  induction fuel generalizing bytes text with
  | zero =>
    obtain rfl := List.length_eq_zero_iff.mp (Nat.le_zero.mp enough)
    exact ⟨text, rfl, whole, by decide⟩
  | succ fuel ih =>
    rw [takeChars]
    cases taken : takeChar bytes with
    | none => exact ⟨text, rfl, whole, taken⟩
    | some char =>
      obtain ⟨rest, rfl, after⟩ := text_of_takeChar whole taken
      have shorter : (bytes.drop (String.utf8EncodeChar char).length).length ≤ fuel := by
        have := List.length_pos_of_ne_nil (@String.utf8EncodeChar_ne_nil char)
        rw [List.length_drop]
        omega
      obtain ⟨left, rfl, ends, stuck⟩ := ih shorter after
      exact ⟨left, rfl, ends, stuck⟩

theorem decodeFrom_takeChars {waiting : List UInt8} {chunks : List (List UInt8)} {text : List Char}
    (whole : waiting ++ chunks.flatten = bytesOf text) (stuck : takeChar waiting = none) :
    (decodeFrom (fun waiting chunk => takeChars (waiting ++ chunk).length (waiting ++ chunk)) waiting chunks).flatten =
      text := by
  induction chunks generalizing waiting text with
  | nil =>
    rw [List.flatten_nil, List.append_nil] at whole
    cases text with
    | nil => rfl
    | cons char rest =>
      rw [whole, takeChar_bytesOf] at stuck
      cases stuck
  | cons chunk later ih =>
    rw [List.flatten_cons, ← List.append_assoc] at whole
    obtain ⟨rest, shape, after, left⟩ := takeChars_text le_rfl whole
    rw [decodeFrom, List.flatten_cons, ih after left, ← shape]

/-- The decoder for well-formed bytes: the bytes of a character that is not complete wait. -/
def utf8Decoder : Decoder where
  State := List UInt8
  start := []
  decode waiting chunk := takeChars (waiting ++ chunk).length (waiting ++ chunk)
  decodes _ _ _ whole := decodeFrom_takeChars whole (by decide)

/-- `FetchCodexSseTransport.open` on the chunks of a response. -/
def openBytes (decoder : Decoder) (chunks : List (List UInt8)) : List Json :=
  openStream parse ((decodeFrom decoder.decode decoder.start chunks).map String.ofList)

/-- Exactly the payloads come out, however the bytes are cut, if and only if the
lines after the last empty line that ends with LF have none, or `[DONE]` came before. -/
theorem openBytes_exact_iff (decoder : Decoder) (stream : SseStream) :
    (∀ chunks, chunks.flatten = bytesOf stream.chars → openBytes parse decoder chunks = payloads parse stream.lines) ↔
      (∃ line ∈ stream.framed, line.reading parse = .done) ∨ payloads parse stream.unframed = [] := by
  have opens : ∀ chunks, chunks.flatten = bytesOf stream.chars →
      openBytes parse decoder chunks = payloads parse stream.framed := by
    intro chunks cut
    refine openStream_stream parse stream _ ?_
    rw [List.map_map]
    have same : (String.toList ∘ String.ofList) = id := funext fun _ => String.toList_ofList
    rw [same, List.map_id]
    exact decoder.decodes _ chunks stream.unmarked cut
  have lines : stream.lines = stream.framed ++ stream.unframed := by
    unfold SseStream.lines SseStream.framed SseStream.unframed
    conv_lhs => rw [events_parts stream.events, List.flatMap_append]
    simp only [List.append_assoc]
  have done : ∀ lines : List SseLine, (collect (lines.map (SseLine.reading parse))).2 = true ↔
      ∃ line ∈ lines, line.reading parse = .done := by
    intro lines
    induction lines with
    | nil => simp [collect]
    | cons line rest ih => cases shape : line.reading parse <;> simp [collect, shape, ih]
  have all : payloads parse stream.lines =
      if (collect (stream.framed.map (SseLine.reading parse))).2 then payloads parse stream.framed
      else payloads parse stream.framed ++ payloads parse stream.unframed := by
    rw [payloads, lines, List.map_append, collect_append, followed]
    split <;> rfl
  rw [← done]
  constructor
  · intro exact_
    have whole := exact_ [bytesOf stream.chars] (by simp)
    rw [opens _ (by simp), all] at whole
    split at whole
    · rename_i came
      exact .inl came
    · exact .inr (List.self_eq_append_right.mp whole)
  · intro condition chunks cut
    rw [opens chunks cut, all]
    split
    · rfl
    · rename_i open_
      rw [condition.resolve_left open_, List.append_nil]

def dataNull : SseLine where
  text := "data: null".toList
  ending := .crlf
  filled := by decide
  oneLine := by decide +kernel

/-- One event, `data: null`, with CRLF. -/
def crlfStream : SseStream where
  events := [⟨[dataNull], .crlf⟩]
  last := []
  cutOff := none
  unmarked := by decide

def parseNull (text : String) : Option Json := if text = "null" then some .null else none

/-- Of a stream with CRLF nothing comes out. -/
theorem crlf_yields_nothing :
    ∃ chunks, chunks.flatten = bytesOf crlfStream.chars ∧ openBytes parseNull utf8Decoder chunks = [] ∧
      payloads parseNull crlfStream.lines = [.null] :=
  ⟨[bytesOf crlfStream.chars], List.flatten_singleton, rfl, rfl⟩

end RpaEnterprise.Gateway.CodexSseTransport
