import Notifications.Proofs.Json.Records
import Notifications.Proofs.Json.Trees
import Notifications.Record.Json
/-!
Records read back from the trees they are written as: an id, an author, a message of any kind, a
conversation and a batch. A time is written in milliseconds, so it must be the beginning of one. The
trees are whole, so the same holds for the text of a batch.
-/
namespace Notifications

open Json (Node Part Reader Source)
open Json.Reader
open Data (Field Schema)

variable {s s' : Source} {d : Nat}

namespace FederatedId

theorem reader_node (hs : s.enter = .ok s') (id : FederatedId) : reader ⟨s, id.node⟩ = .ok id := by
  have row : record "struct QualifiedId" schema ⟨s, id.node⟩ = .ok (id.value, id.domain, ()) := by
    apply record_record hs <;> simp [schema]
  rw [reader, row]
  rfl

theorem isWhole_node (id : FederatedId) : id.node.IsWhole := by
  apply Node.isWhole_record
  simp [Node.isWhole_ofText]

theorem check_node (id : FederatedId) : id.node.check (d + 2) = .ok () := by
  apply Node.check_record
  simp

end FederatedId

namespace Record

namespace Author

theorem reader_node (hs : s.enter = .ok s') (a : Author) : reader ⟨s, a.node⟩ = .ok a := by
  obtain ⟨name, imageAsset⟩ := a
  have row : record "struct LocalAuthor" schema ⟨s, node ⟨name, imageAsset⟩⟩ =
      .ok (name, imageAsset, ()) := by
    cases imageAsset with
    | none => apply record_record hs <;> simp [schema]
    | some asset =>
      have hasset : optional text ⟨s', .ofText asset⟩ = .ok (some asset) := by
        show some <$> text _ = _
        rw [text_ofText]
        rfl
      apply record_record hs <;> simp [schema, hasset]
  rw [reader, row]
  rfl

theorem isWhole_node (a : Author) : a.node.IsWhole := by
  apply Node.isWhole_record
  rw [List.forall_mem_cons]
  refine ⟨Node.isWhole_ofText a.name, ?_⟩
  cases a.imageAsset <;> simp [Node.isWhole_ofText]

theorem check_node (a : Author) : a.node.check (d + 2) = .ok () := by
  apply Node.check_record
  rw [List.forall_mem_cons]
  refine ⟨Node.check_ofText a.name, ?_⟩
  cases a.imageAsset <;> simp

end Author

theorem Time.reader_ofInt {t : Time} (h : t.InMilliseconds) (s : Source) :
    Time.reader ⟨s, .ofInt t.ms.toInt⟩ = .ok t := by
  have hsize : Int64.maxValue.toInt < UInt64.size := by decide
  have hinteger := integer_ofInt (Int64.minValue_le_toInt t.ms)
    (Int.lt_of_le_of_lt (Int64.toInt_le t.ms) hsize) "a unix timestamp in milliseconds" s
  simp only [Time.reader, hinteger, bind, Except.bind, Time.ofInt?_toInt h]
  rfl

def Content.kind : Content → MessageKind
  | .text _ _ => .text
  | .comment _ => .comment
  | .knock => .knock
  | .connectionRequest _ => .connectionRequest
  | .conversationDeleted => .conversationDeleted

/-- The fields that only messages of the kind have. -/
def Content.fields : Content → List (String × Node)
  | .text body quotesSelf => [("text", .ofText body), ("is_quoting_self_user", .bool quotesSelf)]
  | .comment kind => [("comment_kind", kind.node)]
  | .connectionRequest sender => [("author_id", sender.node)]
  | .knock | .conversationDeleted => []

namespace Message

/-- The fields of a message beside its tag. -/
def fields (m : Message) : List (String × Node) :=
  ("author", m.author.node) :: ("time", .ofInt m.time.ms.toInt) :: m.content.fields

theorem node_eq (m : Message) :
    m.node = .record (("kind", .ofText m.content.kind.name) :: m.fields) := by
  obtain ⟨author, time, content⟩ := m
  cases content <;> rfl

theorem kind_notMem_fields (m : Message) : "kind" ∉ m.fields.map (·.1) := by
  obtain ⟨author, time, content⟩ := m
  cases content <;> simp [fields, Content.fields]

theorem check_fields (m : Message) : ∀ f ∈ m.fields, f.2.check (d + 2) = .ok () := by
  rw [fields, List.forall_mem_cons, List.forall_mem_cons]
  refine ⟨Author.check_node m.author, Node.check_int64 m.time.ms, ?_⟩
  cases m.content <;>
    simp [Content.fields, CommentKind.node, FederatedId.check_node, Node.check]

/-- Every kind has a schema of its own; its fields are read in the buffer. -/
theorem bodyReader_fields {m : Message} (h : m.time.InMilliseconds) :
    bodyReader m.content.kind ⟨.buffer, .record m.fields⟩ = .ok m := by
  obtain ⟨author, time, content⟩ := m
  have hauthor : Author.reader ⟨.buffer, author.node⟩ = .ok author :=
    Author.reader_node Json.enter_buffer author
  have htime : Time.reader ⟨.buffer, .ofInt time.ms.toInt⟩ = .ok time :=
    Time.reader_ofInt h .buffer
  have bare : ∀ title, record title bareSchema
      ⟨.buffer, .record [("author", author.node), ("time", .ofInt time.ms.toInt)]⟩ =
        .ok (author, time, ()) := by
    intro title
    apply record_record Json.enter_buffer <;>
      simp [bareSchema, authorField, timeField, hauthor, htime]
  cases content with
  | text body quotesSelf =>
    have row : ∀ title, record title textSchema
        ⟨.buffer, .record (fields ⟨author, time, .text body quotesSelf⟩)⟩ =
          .ok (author, time, body, quotesSelf, ()) := by
      intro title
      apply record_record Json.enter_buffer <;>
        simp [fields, Content.fields, textSchema, authorField, timeField, hauthor, htime]
    simp only [Content.kind, bodyReader, row]
    rfl
  | comment kind =>
    have hkind : CommentKind.reader ⟨.buffer, kind.node⟩ = .ok kind :=
      choice_ofText (CommentKind.lookup_name kind) .buffer
    have row : ∀ title, record title commentSchema
        ⟨.buffer, .record (fields ⟨author, time, .comment kind⟩)⟩ =
          .ok (author, time, kind, ()) := by
      intro title
      apply record_record Json.enter_buffer <;>
        simp [fields, Content.fields, commentSchema, authorField, timeField, hauthor, htime, hkind]
    simp only [Content.kind, bodyReader, row]
    rfl
  | connectionRequest sender =>
    have hsender : FederatedId.reader ⟨.buffer, sender.node⟩ = .ok sender :=
      FederatedId.reader_node Json.enter_buffer sender
    have row : ∀ title, record title requestSchema
        ⟨.buffer, .record (fields ⟨author, time, .connectionRequest sender⟩)⟩ =
          .ok (author, time, sender, ()) := by
      intro title
      apply record_record Json.enter_buffer <;>
        simp [fields, Content.fields, requestSchema, authorField, timeField, hauthor, htime,
          hsender]
    simp only [Content.kind, bodyReader, row]
    rfl
  | knock =>
    simp only [Content.kind, bodyReader, fields, Content.fields, bare]
    rfl
  | conversationDeleted =>
    simp only [Content.kind, bodyReader, fields, Content.fields, bare]
    rfl

theorem reader_node {m : Message} (h : m.time.InMilliseconds) :
    reader ⟨.text (d + 3), m.node⟩ = .ok m := by
  have aside : ∀ f ∈ m.fields, Source.setAside (.text (d + 2)) f.2 = .ok () := by
    intro f hf
    rw [Source.setAside, check_fields m f hf]
    rfl
  rw [node_eq, reader, tagged_record Json.enter_text m.kind_notMem_fields
    (MessageKind.lookup_name m.content.kind) aside, bodyReader_fields h]

theorem isWhole_node (m : Message) : m.node.IsWhole := by
  rw [node_eq]
  apply Node.isWhole_record
  rw [fields, List.forall_mem_cons, List.forall_mem_cons, List.forall_mem_cons]
  refine ⟨Node.isWhole_ofText _, m.author.isWhole_node, Node.isWhole_ofInt _, ?_⟩
  cases m.content <;>
    simp [Content.fields, CommentKind.node, FederatedId.isWhole_node, Node.isWhole_ofText,
      Node.isWhole_bool]

end Message

namespace Conversation

/-- All messages came at the beginning of a millisecond. -/
def InMilliseconds (c : Conversation) : Prop := ∀ m ∈ c.messages, m.time.InMilliseconds

theorem reader_node {c : Conversation} (h : c.InMilliseconds) :
    reader ⟨.text (d + 5), c.node⟩ = .ok c := by
  have hid : FederatedId.reader ⟨.text (d + 4), c.id.node⟩ = .ok c.id :=
    FederatedId.reader_node Json.enter_text c.id
  have hmessages : list Message.reader ⟨.text (d + 4), .list (c.messages.map Message.node)⟩ =
      .ok c.messages := list_list Json.enter_text fun m hm => Message.reader_node (h m hm)
  have row : record "struct LocalConversation" schema ⟨.text (d + 5), c.node⟩ =
      .ok (c.id, c.name, c.oneToOne, c.messages, ()) := by
    apply record_record Json.enter_text <;> simp [schema, hid, hmessages]
  rw [reader, row]
  rfl

theorem isWhole_node (c : Conversation) : c.node.IsWhole := by
  have hmessages : ∀ n ∈ c.messages.map Message.node, n.IsWhole := by
    simp [Message.isWhole_node]
  apply Node.isWhole_record
  simp only [List.forall_mem_cons]
  exact ⟨c.id.isWhole_node, Node.isWhole_ofText c.name, trivial,
    Node.isWhole_list hmessages, by simp⟩

end Conversation

end Record

namespace Batch

theorem isWhole_node (b : Batch) : (node b).IsWhole := by
  apply Node.isWhole_list
  simp [Record.Conversation.isWhole_node]

def InMilliseconds (b : Batch) : Prop := ∀ c ∈ b, Record.Conversation.InMilliseconds c

/-- A batch reads back from its text. -/
theorem readChars_node {b : Batch} (h : b.InMilliseconds) :
    Json.readChars reader (node b).chars = .ok b := by
  rw [(isWhole_node b).readChars_chars]
  exact list_list Json.enter_text fun c hc => Record.Conversation.reader_node (h c hc)

end Batch

end Notifications
