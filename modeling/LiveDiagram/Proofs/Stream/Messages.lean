import LiveDiagram.Document.EventStream
import LiveDiagram.Proofs.Document.Wire

/-!
# The messages of a change stream

A client knows nothing of frames.  It cuts the bytes behind the head into lines and gathers the
lines into messages by the rules of event streams, which were made for any server:

* a line ends at a line feed, at a carriage return, or at the two together;
* a line `name: value` is a field, less one space behind the colon, and the texts of a message's
  `data` fields are its data, with a line feed between two of them;
* a line that begins with a colon is a comment, since the name in front of the colon is empty;
* a blank line ends the message, which counts if it has data.

So a frame is one message only if nothing in it ends a line early.  The text of a document may hold
line ends, and even whole frames; inside a JSON literal they are escaped, and no byte below the
space is left.

## Main results

* `frame_eq`: every event can be framed.
* `space_le_of_mem_write`: a written event has no byte below the space.
* `messages_event`, `messages_keepAlive`: a frame is one message and a comment is none, whatever
  follows.
* `events_read_back`: a client gets every event of a stream as it was sent.
-/

namespace LiveDiagram.EventStream

open LiveDiagram.Json LiveDiagram.Ascii

/-! ## What is sent -/

/-- Something sent behind the head of a stream. -/
inductive Item where
  | event (e : ChangeEvent)
  | comment
deriving DecidableEq

/-- The bytes that are sent for it. -/
def Item.bytes : Item → Bytes
  | .event e => message e.write
  | .comment => keepAlive

/-- The event that it tells of. -/
def Item.event? : Item → Option ChangeEvent
  | .event e => some e
  | .comment => none

/-- Every event can be framed, since memory takes whatever text it has. -/
theorem frame_eq (e : ChangeEvent) : frame e = .ok (Item.event e).bytes := by
  rw [frame, Value.encode_eq]
  rfl

/-! ## What a client reads -/

/-- The finished lines.  `line` holds the bytes of the one being read, last first; `returned` says
that a carriage return has just ended a line, so that a line feed would only complete its end. -/
def lines (line : Bytes) (returned : Bool) : Bytes → List Bytes
  | [] => []
  | b :: rest =>
    if b = carriageReturn then line.reverse :: lines [] true rest
    else if b = lineFeed then
      if returned then lines [] false rest else line.reverse :: lines [] false rest
    else lines (b :: line) false rest

/-- The name of a field: what stands before the first colon. -/
def fieldName (line : Bytes) : Bytes :=
  line.takeWhile (· != colon)

/-- The value of a field: what stands behind the first colon, less one space. -/
def fieldValue (line : Bytes) : Bytes :=
  match (line.dropWhile (· != colon)).drop 1 with
  | [] => []
  | b :: rest => if b = space then rest else b :: rest

/-- What a line adds to the data of its message. -/
def data? (line : Bytes) : Option Bytes :=
  if fieldName line = Utf8.encode "data" then some (fieldValue line) else none

/-- The messages of some lines, behind the data of the one being read. -/
def gather (data : List Bytes) : List Bytes → List Bytes
  | [] => []
  | [] :: rest =>
    if data = [] then gather [] rest else [lineFeed].intercalate data :: gather [] rest
  | line :: rest => gather (data ++ (data? line).toList) rest

/-- The data of every message in a stream, in order. -/
def messages (stream : Bytes) : List Bytes :=
  gather [] (lines [] false stream)

example : messages (Utf8.encode
      ": none\r\rdata:one\r\ndata:  two\ndata\nid: 7\n\r\ndata: three\rdatum: 4\n\ndata: lost") =
    [Utf8.encode "one\n two\n", Utf8.encode "three"] := by
  decide +kernel

/-! ## Written events keep to one line -/

theorem forall_space_le_iff {s : Bytes} :
    s.all (fun b => space ≤ b) = true ↔ ∀ b ∈ s, space ≤ b := by
  simp only [List.all_eq_true, decide_eq_true_eq]

theorem space_le_of_mem_escape {s : Bytes} {b : UInt8} (h : b ∈ escape s) : space ≤ b := by
  obtain ⟨c, -, hb⟩ := List.mem_flatMap.mp h
  have hall : ∀ n < 256, (escapeByte (UInt8.ofNat n)).all (fun d => space ≤ d) := by
    decide +kernel
  have hc : (escapeByte c).all (fun d => space ≤ d) :=
    forall_lt (P := fun c => (escapeByte c).all fun d => space ≤ d) hall c.toNat_lt
  exact forall_space_le_iff.mp hc b hb

theorem space_le_of_mem_writeLiteral {s : String} {b : UInt8} (h : b ∈ writeLiteral s) :
    space ≤ b := by
  rcases List.mem_append.mp h with hfront | hback
  · rcases List.mem_cons.mp hfront with rfl | hinside
    · decide
    · exact space_le_of_mem_escape hinside
  · rw [List.mem_singleton.mp hback]
    decide

theorem space_le_of_isDigit {b : UInt8} (h : isDigit b = true) : space ≤ b := by
  rw [isDigit, Bool.and_eq_true, decide_eq_true_eq] at h
  exact UInt8.le_trans (by decide) h.1

/-- A written event has no byte below the space, whatever its text holds. -/
theorem space_le_of_mem_write {e : ChangeEvent} {b : UInt8} (h : b ∈ e.write) : space ≤ b := by
  have hpunctuation : space ≤ openBrace ∧ space ≤ colon ∧ space ≤ comma ∧ space ≤ closeBrace := by
    decide
  rw [ChangeEvent.write_eq] at h
  simp only [List.mem_cons, List.mem_append, List.not_mem_nil, or_false] at h
  rcases h with rfl | h | rfl | h | rfl | h | rfl | h | rfl | h | rfl | h | rfl
  · exact hpunctuation.1
  · exact space_le_of_mem_writeLiteral h
  · exact hpunctuation.2.1
  · exact space_le_of_mem_writeLiteral h
  · exact hpunctuation.2.2.1
  · exact space_le_of_mem_writeLiteral h
  · exact hpunctuation.2.1
  · exact space_le_of_mem_writeLiteral h
  · exact hpunctuation.2.2.1
  · exact space_le_of_mem_writeLiteral h
  · exact hpunctuation.2.1
  · exact space_le_of_isDigit (Decimal.isDigit_of_mem_numeral h)
  · exact hpunctuation.2.2.2

/-! ## A frame is one message -/

/-- Bytes without line ends and a line feed behind them are one line. -/
theorem lines_append {body : Bytes} (hbody : ∀ b ∈ body, space ≤ b) (line rest : Bytes) :
    lines line false (body ++ lineFeed :: rest) =
      (line.reverse ++ body) :: lines [] false rest := by
  induction body generalizing line with
  | nil => simp [lines, show lineFeed ≠ carriageReturn by decide]
  | cons b body ih =>
      have hb : space ≤ b := hbody b List.mem_cons_self
      have hreturn : b ≠ carriageReturn := by
        rintro rfl
        exact absurd hb (by decide)
      have hfeed : b ≠ lineFeed := by
        rintro rfl
        exact absurd hb (by decide)
      rw [List.cons_append, lines, if_neg hreturn, if_neg hfeed,
        ih (fun c hc => hbody c (List.mem_cons_of_mem b hc)), List.reverse_cons, List.append_assoc]
      rfl

theorem lines_event (e : ChangeEvent) (rest : Bytes) :
    lines [] false ((Item.event e).bytes ++ rest) =
      (Utf8.encode "data: " ++ e.write) :: [] :: lines [] false rest := by
  have hname : ∀ b ∈ Utf8.encode "data: ", space ≤ b :=
    forall_space_le_iff.mp (by decide +kernel)
  have hline : ∀ b ∈ Utf8.encode "data: " ++ e.write, space ≤ b := by
    intro b hb
    rcases List.mem_append.mp hb with hfront | hback
    · exact hname b hfront
    · exact space_le_of_mem_write hback
  have hsplit : (Item.event e).bytes ++ rest =
      (Utf8.encode "data: " ++ e.write) ++ lineFeed :: ([] ++ lineFeed :: rest) := by
    simp [Item.bytes, message]
  have hnone : ∀ b ∈ ([] : Bytes), space ≤ b := fun _ hb => absurd hb List.not_mem_nil
  rw [hsplit, lines_append hline, lines_append hnone]
  rfl

theorem lines_keepAlive (rest : Bytes) :
    lines [] false (keepAlive ++ rest) =
      Utf8.encode ": keep-alive" :: [] :: lines [] false rest := by
  have hline : ∀ b ∈ Utf8.encode ": keep-alive", space ≤ b :=
    forall_space_le_iff.mp (by decide +kernel)
  have hnone : ∀ b ∈ ([] : Bytes), space ≤ b := fun _ hb => absurd hb List.not_mem_nil
  have hsplit : keepAlive ++ rest =
      Utf8.encode ": keep-alive" ++ lineFeed :: ([] ++ lineFeed :: rest) := rfl
  rw [hsplit, lines_append hline, lines_append hnone]
  rfl

theorem data?_append (text : Bytes) : data? (Utf8.encode "data: " ++ text) = some text := by
  have hline : Utf8.encode "data: " ++ text =
      0x64 :: 0x61 :: 0x74 :: 0x61 :: colon :: space :: text :=
    rfl
  have hname : fieldName (Utf8.encode "data: " ++ text) = Utf8.encode "data" := by
    rw [hline]
    rfl
  have hvalue : fieldValue (Utf8.encode "data: " ++ text) = text := by
    rw [hline]
    rfl
  rw [data?, if_pos hname, hvalue]

theorem gather_cons {line : Bytes} (hline : line ≠ []) (data rest : List Bytes) :
    gather data (line :: rest) = gather (data ++ (data? line).toList) rest := by
  cases line with
  | nil => exact absurd rfl hline
  | cons b line => rfl

/-- A frame is one message, and its data is the written event. -/
theorem messages_event (e : ChangeEvent) (rest : Bytes) :
    messages ((Item.event e).bytes ++ rest) = e.write :: messages rest := by
  have hline : Utf8.encode "data: " ++ e.write ≠ [] := by
    intro hnil
    cases hnil
  rw [messages, lines_event, gather_cons hline, data?_append]
  show [lineFeed].intercalate [e.write] :: messages rest = _
  simp

/-- A comment is no message. -/
theorem messages_keepAlive (rest : Bytes) : messages (keepAlive ++ rest) = messages rest := by
  have hline : Utf8.encode ": keep-alive" ≠ [] := by decide +kernel
  have hnone : data? (Utf8.encode ": keep-alive") = none := by decide +kernel
  rw [messages, lines_keepAlive, gather_cons hline, hnone]
  rfl

theorem messages_items (items : List Item) :
    messages (items.flatMap Item.bytes) =
      (items.filterMap Item.event?).map ChangeEvent.write := by
  induction items with
  | nil => rfl
  | cons item items ih =>
      cases item with
      | event e =>
          show messages ((Item.event e).bytes ++ items.flatMap Item.bytes) = _
          rw [messages_event, ih]
          rfl
      | comment =>
          show messages (keepAlive ++ items.flatMap Item.bytes) = _
          rw [messages_keepAlive, ih]
          rfl

/-- **Every event reads back**: whatever events and comments are sent, in whatever order and with
whatever texts, every event can be framed, and a client gets one message for each event, in order, none
for the comments, and reads from each message the event that was sent. -/
theorem events_read_back (items : List Item) :
    (∀ e, frame e = .ok (Item.event e).bytes) ∧
      (messages (items.flatMap Item.bytes)).map ChangeEvent.parse =
        (items.filterMap Item.event?).map .ok := by
  refine ⟨frame_eq, ?_⟩
  rw [messages_items, List.map_map]
  exact List.map_congr_left fun e _ => ChangeEvent.parse_write e

end LiveDiagram.EventStream
