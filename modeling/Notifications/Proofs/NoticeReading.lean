import Notifications.Notice.Json
import Notifications.Proofs.Json.Records
import Notifications.Proofs.Json.Trees
/-!
Notices read back from the trees they are written as: an author, a message of any kind, a group, and
a list of groups. The trees are whole, so the same holds for their texts.
-/
namespace Notifications.Notice

open Json (Node Part Reader Source)
open Json.Reader
open Data (Field Schema)

variable {s s' s'' : Source} {d : Nat}

theorem optional_bytes (hs : s.enter = .ok s') (image : List UInt8) :
    optional bytes ⟨s, .list (image.map fun b => .ofInt b.toNat)⟩ = .ok (some image) := by
  show some <$> bytes _ = _
  rw [bytes_list hs]
  rfl

theorem isWhole_imageField (image : Option (List UInt8)) : ∀ f ∈ imageField image, f.2.IsWhole := by
  cases image with
  | none => simp [imageField]
  | some image =>
    have hbytes : ∀ n ∈ image.map fun b => Node.ofInt b.toNat, n.IsWhole := by
      simp [Node.isWhole_ofInt]
    simpa [imageField] using Node.isWhole_list hbytes

namespace Author

theorem reader_node (hs : s.enter = .ok s') (hs' : s'.enter = .ok s'') (a : Author) :
    reader ⟨s, a.node⟩ = .ok a := by
  obtain ⟨name, image⟩ := a
  have row : record "struct NotificationAuthor" schema ⟨s, node ⟨name, image⟩⟩ =
      .ok (name, image, ()) := by
    cases image with
    | none => apply record_record hs <;> simp [imageField, schema, imageSchemaField]
    | some image =>
      apply record_record hs <;> simp [imageField, schema, imageSchemaField, optional_bytes hs']
  rw [reader, row]
  rfl

theorem isWhole_node (a : Author) : a.node.IsWhole := by
  apply Node.isWhole_record
  rw [List.forall_mem_cons]
  exact ⟨Node.isWhole_ofText a.name, isWhole_imageField a.image⟩

theorem check_node (a : Author) : a.node.check (d + 3) = .ok () := by
  apply Node.check_record
  rw [List.forall_mem_cons]
  refine ⟨Node.check_ofText a.name, ?_⟩
  cases a.image with
  | none => simp [imageField]
  | some image =>
    have hbytes : ∀ n ∈ image.map fun b => Node.ofInt b.toNat, n.check (d + 1) = .ok () := by
      intro n hn
      obtain ⟨b, -, rfl⟩ := List.mem_map.1 hn
      exact Node.check_byte b
    simpa [imageField] using Node.check_list hbytes

end Author

def Content.kind : Content → MessageKind
  | .text _ _ => .text
  | .comment _ => .comment
  | .knock => .knock
  | .connectionRequest _ => .connectionRequest
  | .conversationDeleted => .conversationDeleted

/-- The fields that only messages of the kind have. -/
def Content.fields : Content → List (String × Node)
  | .text body quotesSelf => [("text", .ofText body), ("is_quoting_self_user", .bool quotesSelf)]
  | .comment template => [("template", template.node)]
  | .connectionRequest sender => [("author_id", .ofText sender)]
  | .knock | .conversationDeleted => []

namespace Message

/-- The fields of a message beside its tag. -/
def fields (m : Message) : List (String × Node) :=
  ("author", m.author.node) :: ("time", .ofInt m.time.toInt) :: m.content.fields

theorem node_eq (m : Message) :
    m.node = .record (("type", .ofText m.content.kind.name) :: m.fields) := by
  obtain ⟨author, time, content⟩ := m
  cases content <;> rfl

theorem type_notMem_fields (m : Message) : "type" ∉ m.fields.map (·.1) := by
  obtain ⟨author, time, content⟩ := m
  cases content <;> simp [fields, Content.fields]

theorem check_fields (m : Message) : ∀ f ∈ m.fields, f.2.check (d + 3) = .ok () := by
  rw [fields, List.forall_mem_cons, List.forall_mem_cons]
  refine ⟨Author.check_node m.author, Node.check_int64 m.time, ?_⟩
  cases m.content <;> simp [Content.fields, CommentTemplate.node, Node.check]

/-- Every kind has a schema of its own; its fields are read in the buffer. -/
theorem bodyReader_fields (m : Message) :
    bodyReader m.content.kind ⟨.buffer, .record m.fields⟩ = .ok m := by
  obtain ⟨author, time, content⟩ := m
  have hauthor : Author.reader ⟨.buffer, author.node⟩ = .ok author :=
    Author.reader_node Json.enter_buffer Json.enter_buffer author
  have bare : ∀ title, record title bareSchema
      ⟨.buffer, .record [("author", author.node), ("time", .ofInt time.toInt)]⟩ =
        .ok (author, time, ()) := by
    intro title
    apply record_record Json.enter_buffer <;> simp [bareSchema, authorField, timeField, hauthor]
  cases content with
  | text body quotesSelf =>
    have row : ∀ title, record title textSchema
        ⟨.buffer, .record (fields ⟨author, time, .text body quotesSelf⟩)⟩ =
          .ok (author, time, body, quotesSelf, ()) := by
      intro title
      apply record_record Json.enter_buffer <;>
        simp [fields, Content.fields, textSchema, authorField, timeField, hauthor]
    simp only [Content.kind, bodyReader, row]
    rfl
  | comment template =>
    have htemplate : CommentTemplate.reader ⟨.buffer, template.node⟩ = .ok template :=
      choice_ofText (CommentTemplate.lookup_name template) .buffer
    have row : ∀ title, record title commentSchema
        ⟨.buffer, .record (fields ⟨author, time, .comment template⟩)⟩ =
          .ok (author, time, template, ()) := by
      intro title
      apply record_record Json.enter_buffer <;>
        simp [fields, Content.fields, commentSchema, authorField, timeField, hauthor, htemplate]
    simp only [Content.kind, bodyReader, row]
    rfl
  | connectionRequest sender =>
    have row : ∀ title, record title requestSchema
        ⟨.buffer, .record (fields ⟨author, time, .connectionRequest sender⟩)⟩ =
          .ok (author, time, sender, ()) := by
      intro title
      apply record_record Json.enter_buffer <;>
        simp [fields, Content.fields, requestSchema, authorField, timeField, hauthor]
    simp only [Content.kind, bodyReader, row]
    rfl
  | knock =>
    simp only [Content.kind, bodyReader, fields, Content.fields, bare]
    rfl
  | conversationDeleted =>
    simp only [Content.kind, bodyReader, fields, Content.fields, bare]
    rfl

theorem reader_node (m : Message) : reader ⟨.text (d + 4), m.node⟩ = .ok m := by
  have aside : ∀ f ∈ m.fields, Reader.Source.setAside (.text (d + 3)) f.2 = .ok () := by
    intro f hf
    rw [Source.setAside, check_fields m f hf]
    rfl
  rw [node_eq, reader, tagged_record Json.enter_text m.type_notMem_fields
    (MessageKind.lookup_name m.content.kind) aside, bodyReader_fields]

theorem isWhole_node (m : Message) : m.node.IsWhole := by
  rw [node_eq]
  apply Node.isWhole_record
  rw [fields, List.forall_mem_cons, List.forall_mem_cons, List.forall_mem_cons]
  refine ⟨Node.isWhole_ofText _, m.author.isWhole_node, Node.isWhole_ofInt _, ?_⟩
  cases m.content <;>
    simp [Content.fields, CommentTemplate.node, Node.isWhole_ofText, Node.isWhole_bool]

end Message

namespace Group

theorem reader_node (g : Group) : reader ⟨.text (d + 6), g.node⟩ = .ok g := by
  obtain ⟨id, name, image, messages, oneToOne, lastTime⟩ := g
  have hmessages : list Message.reader ⟨.text (d + 5), .list (messages.map Message.node)⟩ =
      .ok messages := list_list Json.enter_text fun m _ => m.reader_node
  have row : record "struct NotificationConversation" schema
      ⟨.text (d + 6), node ⟨id, name, image, messages, oneToOne, lastTime⟩⟩ =
        .ok (id, name, image, messages, oneToOne, lastTime, ()) := by
    cases image with
    | none =>
      apply record_record Json.enter_text <;> simp [imageField, schema, imageSchemaField, hmessages]
    | some image =>
      apply record_record Json.enter_text <;>
        simp [imageField, schema, imageSchemaField, hmessages, optional_bytes Json.enter_text]
  rw [reader, row]
  rfl

theorem isWhole_node (g : Group) : g.node.IsWhole := by
  have hmessages : ∀ n ∈ g.messages.map Message.node, n.IsWhole := by
    simp [Message.isWhole_node]
  apply Node.isWhole_record
  simp only [List.forall_mem_append, List.forall_mem_cons]
  exact ⟨⟨⟨Node.isWhole_ofText _, Node.isWhole_ofText _, by simp⟩, isWhole_imageField g.image⟩,
    Node.isWhole_list hmessages, trivial, Node.isWhole_ofInt _, by simp⟩

end Group

theorem isWhole_groups (groups : List Group) : (Node.list (groups.map Group.node)).IsWhole := by
  apply Node.isWhole_list
  simp [Group.isWhole_node]

/-- A list of groups reads back from its text. -/
theorem readChars_groups (groups : List Group) :
    Json.readChars (Reader.list Group.reader) (Node.list (groups.map Group.node)).chars =
      .ok groups := by
  rw [(isWhole_groups groups).readChars_chars]
  exact list_list Json.enter_text fun g _ => g.reader_node

end Notifications.Notice
