import Notifications.Proofs.LineReading
import Notifications.Proofs.Lines
import Notifications.Proofs.RecordReading
import Notifications.Proofs.Trimming
import Notifications.Proofs.Utf8
/-!
Batches written one a line, among blank lines and lines that are something else. Whatever white
space stands around them and however the lines end, the batches are read back, in order, and each
line that is something else brings one warning, with its number among all lines.
-/
namespace Notifications

/-- An array ends with its bracket. -/
theorem Json.Items.exists_chars_ofList (l : List Json.Node) (first : Bool) :
    ∃ inner, (Items.ofList l).chars first = inner ++ [']'] := by
  induction l generalizing first with
  | nil => exact ⟨[], rfl⟩
  | cons n l ih =>
    obtain ⟨inner, hinner⟩ := ih false
    refine ⟨(if first then [] else [',']) ++ n.chars ++ inner, ?_⟩
    rw [List.append_assoc _ inner, ← hinner]
    rfl

theorem Batch.trim_chars (b : Batch) : Text.trim (node b).chars = (node b).chars := by
  obtain ⟨inner, hinner⟩ := Json.Items.exists_chars_ofList (b.map Record.Conversation.node) true
  have hchars : (node b).chars = '[' :: inner ++ [']'] := congrArg ('[' :: ·) hinner
  rw [hchars]
  exact Text.trim_between rfl rfl inner

theorem Batch.newline_notMem_chars (b : Batch) : '\n' ∉ (node b).chars := by
  intro h
  have hcontrol := (isWhole_node b).isControl_chars '\n' h
  cases hcontrol

namespace Feed

/-- White space that does not end a line. -/
structure Padding where
  chars : List Char
  blank : ∀ c ∈ chars, Text.isBlank c = true
  inLine : '\n' ∉ chars

/-- A text within a line that is not blank and is no batch, with the reason why. -/
structure Junk where
  chars : List Char
  error : Data.Error
  inLine : '\n' ∉ chars
  shown : Text.trim chars ≠ []
  noBatch : Json.readChars Batch.reader (Text.trim chars) = .error error

/-- What a line is written for. The times of a batch are written in milliseconds. -/
inductive Entry
  | batch (b : Batch) (times : b.InMilliseconds)
  | blank
  | junk (j : Junk)

namespace Entry

def chars : Entry → List Char
  | .batch b _ => (Batch.node b).chars
  | .blank => []
  | .junk j => j.chars

def batch? : Entry → Option Batch
  | .batch b _ => some b
  | _ => none

/-- The warning about an entry on the line `number`. -/
def warning? (number : Nat) : Entry → Option String
  | .junk j =>
    some ("Skipping malformed batch on line " ++ toString number ++ ": " ++ j.error.message)
  | _ => none

/-- What an entry brings on the line `number`. -/
def feed? (number : Nat) : Entry → Option Feed
  | .batch b _ => some (.batch b)
  | .blank => none
  | .junk j => some (.malformed number j.error)

theorem batch?_feed? (number : Nat) (e : Entry) : (e.feed? number).bind Feed.batch? = e.batch? := by
  cases e <;> rfl

theorem warning?_feed? (number : Nat) (e : Entry) :
    (e.feed? number).bind Feed.warning? = e.warning? number := by
  cases e <;> rfl

theorem newline_notMem_chars (e : Entry) : '\n' ∉ e.chars := by
  cases e with
  | batch b _ => exact b.newline_notMem_chars
  | blank => exact List.not_mem_nil
  | junk j => exact j.inLine

theorem ofText_chars (number : Nat) (e : Entry) : ofText number e.chars = e.feed? number := by
  cases e with
  | batch b times =>
    apply ofText_of_ok
    rw [chars, b.trim_chars]
    exact Batch.readChars_node times
  | blank => exact ofText_of_blank rfl
  | junk j => exact ofText_of_error j.shown j.noBatch

end Entry

structure Line where
  before : Padding
  entry : Entry
  after : Padding

/-- How a line ends. -/
inductive LineEnd
  | newline | returnNewline

def LineEnd.chars : LineEnd → List Char
  | .newline => ['\n']
  | .returnNewline => ['\r', '\n']

namespace Line

def chars (l : Line) : List Char := l.before.chars ++ l.entry.chars ++ l.after.chars

theorem newline_notMem_chars (l : Line) : '\n' ∉ l.chars := by
  have h := l.entry.newline_notMem_chars
  simp [chars, h, l.before.inLine, l.after.inLine]

/-- The bytes of a line without its end. -/
theorem newline_notMem_bytes (l : Line) : 10 ∉ Text.encodeUtf8 l.chars :=
  fun h => l.newline_notMem_chars ((Text.mem_encodeUtf8 (by decide)).1 h)

theorem isLine_ended (l : Line) (e : LineEnd) : IsLine (Text.encodeUtf8 (l.chars ++ e.chars)) := by
  rw [Text.encodeUtf8_append]
  cases e with
  | newline => exact ⟨_, rfl, l.newline_notMem_bytes⟩
  | returnNewline =>
    have hend : Text.encodeUtf8 LineEnd.returnNewline.chars = [13] ++ [10] := rfl
    refine ⟨Text.encodeUtf8 l.chars ++ [13], ?_, ?_⟩
    · rw [hend, List.append_assoc]
    · simp [l.newline_notMem_bytes]

/-- The white space of a line and its end do not matter. -/
theorem ofText_chars (number : Nat) (l : Line) : ofText number l.chars = l.entry.feed? number := by
  rw [← l.entry.ofText_chars number]
  exact ofText_congr (Text.trim_padded l.before.blank l.after.blank l.entry.chars)

theorem ofText_ended (number : Nat) (l : Line) (e : LineEnd) :
    ofText number (l.chars ++ e.chars) = l.entry.feed? number := by
  have hblank : ∀ c ∈ e.chars, Text.isBlank c = true := by
    cases e <;> simp [LineEnd.chars] <;> decide
  rw [← l.ofText_chars number]
  exact ofText_congr (Text.trim_append_blank hblank l.chars)

end Line

/-- The text of lines with their ends, and of a last line that has none. -/
def inputText (ended : List (Line × LineEnd)) (last : Option Line) : List Char :=
  ended.flatMap (fun l => l.1.chars ++ l.2.chars) ++ last.toList.flatMap Line.chars

/-- The entries of all lines, in order. -/
def entries (ended : List (Line × LineEnd)) (last : Option Line) : List Entry :=
  (ended.map (·.1) ++ last.toList).map (·.entry)

/-- What entries bring, the first of them on the line `number`. -/
def ofEntries (number : Nat) (entries : List Entry) : List Feed :=
  (entries.zipIdx number).filterMap fun e => e.1.feed? e.2

theorem ofEntries_cons (number : Nat) (e : Entry) (es : List Entry) :
    ofEntries number (e :: es) = (e.feed? number).toList ++ ofEntries (number + 1) es := by
  rw [ofEntries, List.zipIdx_cons, List.filterMap_cons]
  cases e.feed? number <;> rfl

theorem ofLines_last (number : Nat) (last : Option Line) :
    ofLines number (lines (Text.encodeUtf8 (last.toList.flatMap Line.chars))) =
      ofEntries number (last.toList.map (·.entry)) := by
  cases last with
  | none => rfl
  | some l =>
    have hentry := l.ofText_chars number
    simp only [Option.toList_some, List.flatMap_singleton, List.map_singleton, ofEntries_cons]
    by_cases hempty : l.chars = []
    · -- no bytes are no line, and without a text there is nothing but a blank entry
      rw [hempty, ofText_of_blank rfl] at hentry
      rw [hempty, ← hentry]
      rfl
    · have hbytes : Text.encodeUtf8 l.chars ≠ [] := by
        intro h
        have hdecode := Text.decodeUtf8_encodeUtf8 0 l.chars
        rw [h, Text.decodeUtf8] at hdecode
        exact hempty (Except.ok.inj hdecode).symm
      rw [lines_open l.newline_notMem_bytes hbytes,
        ofLines_cons_text (Text.decodeUtf8_encodeUtf8 0 l.chars), hentry]
      rfl

theorem ofLines_inputText (number : Nat) (ended : List (Line × LineEnd)) (last : Option Line) :
    ofLines number (lines (Text.encodeUtf8 (inputText ended last))) =
      ofEntries number (entries ended last) := by
  induction ended generalizing number with
  | nil => exact ofLines_last number last
  | cons l ended ih =>
    obtain ⟨l, e⟩ := l
    have hsplit : inputText ((l, e) :: ended) last =
        (l.chars ++ e.chars) ++ inputText ended last := by
      rw [inputText, List.flatMap_cons, List.append_assoc]
      rfl
    have hentries : entries ((l, e) :: ended) last = l.entry :: entries ended last := rfl
    rw [hsplit, Text.encodeUtf8_append, lines_line_append (l.isLine_ended e),
      ofLines_cons_text (Text.decodeUtf8_encodeUtf8 0 _), l.ofText_ended, ih, hentries,
      ofEntries_cons]

/-- The batches of an input are those its lines were written for, and there is one warning for each
line that is neither a batch nor blank, with its number among all lines. -/
theorem ofBytes_inputText (ended : List (Line × LineEnd)) (last : Option Line) :
    let feed := ofBytes (Text.encodeUtf8 (inputText ended last))
    batches feed = (entries ended last).filterMap Entry.batch? ∧
      warnings feed = ((entries ended last).zipIdx 1).filterMap fun e => e.1.warning? e.2 := by
  intro feed
  have hfeed : feed = ofEntries 1 (entries ended last) := ofLines_inputText 1 ended last
  constructor
  · rw [hfeed, batches, ofEntries, List.filterMap_filterMap]
    simp only [Entry.batch?_feed?]
    calc ((entries ended last).zipIdx 1).filterMap (fun e => e.1.batch?)
        = (((entries ended last).zipIdx 1).map Prod.fst).filterMap Entry.batch? := by
          rw [List.filterMap_map]
          rfl
      _ = (entries ended last).filterMap Entry.batch? := by rw [List.zipIdx_map_fst]
  · rw [hfeed, warnings, ofEntries, List.filterMap_filterMap]
    simp only [Entry.warning?_feed?]

def noPadding : Padding := ⟨[], List.forall_mem_nil _, List.not_mem_nil⟩

/-- White space that JSON knows of, and a space that it does not. -/
def widePadding : Padding := ⟨['\t', '\u00a0'], by simp [Text.isBlank], by decide⟩

def noJson : Junk := ⟨"not json".toList, .malformed .expectedWord, by decide, by decide, rfl⟩

/-- A knock before the epoch. -/
def knockBatch : Batch :=
  [⟨⟨"c", ""⟩, "n", false, [⟨⟨"A", none⟩, .ofMs (-3) (by decide), .knock⟩]⟩]

theorem inMilliseconds_knockBatch : knockBatch.InMilliseconds := by
  intro c hc m hm
  obtain rfl := List.mem_singleton.1 hc
  obtain rfl := List.mem_singleton.1 hm
  exact Record.Time.inMilliseconds_ofMs (by decide)

def writtenLines : List (Line × LineEnd) :=
  [(⟨widePadding, .batch knockBatch inMilliseconds_knockBatch, widePadding⟩, .returnNewline),
    (⟨noPadding, .blank, widePadding⟩, .newline),
    (⟨widePadding, .junk noJson, noPadding⟩, .returnNewline)]

/-- A batch of nothing, on a line that does not end. -/
def openLine : Line := ⟨noPadding, .batch [] (List.forall_mem_nil _), noPadding⟩

theorem ofBytes_writtenLines :
    let text := inputText writtenLines (some openLine)
    let feed := ofBytes (Text.encodeUtf8 text)
    text = "\t\u00a0".toList ++ (Batch.node knockBatch).chars ++
        "\t\u00a0\r\n\t\u00a0\n\t\u00a0not json\r\n[]".toList ∧
      batches feed = [knockBatch, []] ∧
      warnings feed = ["Skipping malformed batch on line 3: expected ident"] := by
  intro text feed
  obtain ⟨hbatches, hwarnings⟩ := ofBytes_inputText writtenLines (some openLine)
  refine ⟨?_, hbatches, hwarnings⟩
  decide +kernel

end Feed

end Notifications
