import Notifications.Proofs.Json.Forms
import Notifications.Proofs.RecordReading
/-!
The texts of a record. The fields of each object stand in any order, the tag of a message among
them; strings are spelled with any escapes, fields that have their default may be left out, others
may be added, and blanks may stand wherever a token ends. However it is written, the record is read
back.
-/
namespace Notifications

open Json (FieldForm Node Number Part Piece Quoted Reader Shown Source Spaced maxDepth)
open Json.Reader (partOf)
open Data (Schema)

variable {n : Node} {s s' : Source} {others : Node → Prop} {inside : Nat → Node → Prop}
  {depth : Nat}

namespace FederatedId

def forms (id : FederatedId) : List FieldForm :=
  [.required "value" (Node.Spells id.value), ⟨"domain", Node.Spells id.domain, id.domain = ""⟩]

/-- The ways to write an id. -/
def Shows (others : Node → Prop) (id : FederatedId) (n : Node) : Prop := n.IsObject id.forms others

theorem spells_of_mem_forms {id : FederatedId} {f : FieldForm} (hf : f ∈ id.forms) (n : Node)
    (hn : f.value n) :
    ∃ text, n.Spells text := by
  simp only [forms, List.mem_cons, List.not_mem_nil, or_false] at hf
  rcases hf with rfl | rfl <;> exact ⟨_, hn⟩

/-- An id without a domain needs no field for it. -/
theorem shows_value (others : Node → Prop) (value : String) :
    Shows others ⟨value, ""⟩ (.record [("value", .ofText value)]) := by
  refine Node.isObject_record ⟨?_, ?_, ?_⟩
  · exact (List.nodup_singleton "value").filter _
  · simp only [forms, List.forall_mem_cons]
    exact ⟨Node.spells_ofText value, trivial, List.forall_mem_nil _⟩
  · simp [forms, FieldForm.required]

namespace Shows

variable {id : FederatedId}

theorem isWhole (h : id.Shows others n) (hothers : ∀ n, others n → n.IsWhole) : n.IsWhole := by
  refine Node.IsObject.isWhole h (fun f hf n hn => ?_) hothers
  obtain ⟨text, htext⟩ := spells_of_mem_forms hf n hn
  exact htext.isWhole

theorem fits (h : id.Shows others n) (hdepth : depth + 1 < maxDepth)
    (hothers : ∀ n, others n → n.Fits (depth + 1)) : n.Fits depth := by
  refine Node.IsObject.fits h hdepth (fun f hf n hn => ?_) hothers
  obtain ⟨text, htext⟩ := spells_of_mem_forms hf n hn
  exact htext.fits hdepth

theorem reader_eq (h : id.Shows others n) (hs : s.enter = .ok s')
    (hothers : ∀ n, others n → n.IsWhole) :
    reader ⟨s, n⟩ = .ok id := by
  have row : Reader.record "struct QualifiedId" schema ⟨s, n⟩ = .ok (id.value, id.domain, ()) := by
    refine Node.IsObject.record_eq h hs rfl (by simp [schema]) hothers ?_ _
    intro l hl
    refine ⟨?_, ?_, trivial⟩
    · exact hl.takes_required (.head _) rfl (fun n hn => Reader.text_spells hn s')
    · exact hl.takes (.tail _ (.head _)) rfl (fun n hn => Reader.text_spells hn s')
        fun h => congrArg some h.symm
  rw [reader, row]
  rfl

end Shows

end FederatedId

namespace Record

namespace Author

/-- Without a picture there is no field for it, or null. -/
def ShowsImage : Option String → Node → Prop
  | none => (· = .null)
  | some asset => Node.Spells asset

def forms (a : Author) : List FieldForm :=
  [.required "name" (Node.Spells a.name),
    ⟨"image_asset", ShowsImage a.imageAsset, a.imageAsset = none⟩]

/-- The ways to write an author. -/
def Shows (others : Node → Prop) (a : Author) (n : Node) : Prop := n.IsObject a.forms others

theorem ShowsImage.fits {image : Option String} (h : ShowsImage image n)
    (hdepth : depth < maxDepth) :
    n.Fits depth := by
  cases image with
  | none =>
    obtain rfl : n = .null := h
    exact ⟨trivial, hdepth⟩
  | some asset => exact Node.Spells.fits h hdepth

theorem ShowsImage.reader_eq {image : Option String} (h : ShowsImage image n) (s : Source) :
    Reader.optional Reader.text ⟨s, n⟩ = .ok image := by
  cases image with
  | none =>
    obtain rfl : n = .null := h
    rfl
  | some asset =>
    have htext := Reader.text_spells h s
    obtain ⟨q, rfl, -⟩ := h
    rw [Reader.optional, htext]
    · rfl
    · nofun

theorem shows_name (others : Node → Prop) (name : String) :
    Shows others ⟨name, none⟩ (.record [("name", .ofText name)]) := by
  refine Node.isObject_record ⟨?_, ?_, ?_⟩
  · exact (List.nodup_singleton "name").filter _
  · simp only [forms, List.forall_mem_cons]
    exact ⟨Node.spells_ofText name, trivial, List.forall_mem_nil _⟩
  · simp [forms, FieldForm.required]

namespace Shows

variable {a : Author}

theorem fits (h : a.Shows others n) (hdepth : depth + 1 < maxDepth)
    (hothers : ∀ n, others n → n.Fits (depth + 1)) : n.Fits depth := by
  refine Node.IsObject.fits h hdepth (fun f hf n hn => ?_) hothers
  simp only [forms, List.mem_cons, List.not_mem_nil, or_false] at hf
  rcases hf with rfl | rfl
  · exact Node.Spells.fits hn hdepth
  · exact ShowsImage.fits hn hdepth

theorem reader_eq (h : a.Shows others n) (hs : s.enter = .ok s')
    (hothers : ∀ n, others n → n.IsWhole) :
    reader ⟨s, n⟩ = .ok a := by
  have row : Reader.record "struct LocalAuthor" schema ⟨s, n⟩ = .ok (a.name, a.imageAsset, ()) := by
    refine Node.IsObject.record_eq h hs rfl (by simp [schema]) hothers ?_ _
    intro l hl
    refine ⟨?_, ?_, trivial⟩
    · exact hl.takes_required (.head _) rfl (fun n hn => Reader.text_spells hn s')
    · exact hl.takes (.tail _ (.head _)) rfl (fun n hn => ShowsImage.reader_eq hn s')
        fun h => congrArg some h.symm
  rw [reader, row]
  rfl

end Shows

end Author

/-- A time is written in milliseconds, which tell all of it only at the beginning of one. -/
def Time.Shows (t : Time) (n : Node) : Prop := t.InMilliseconds ∧ n = .ofInt t.ms.toInt

theorem Time.shows_ofMs {ms : Int} (h : -8334601228800000 ≤ ms ∧ ms ≤ 8210266876799999) :
    (ofMs ms h).Shows (.ofInt ms) :=
  ⟨inMilliseconds_ofMs h, by rw [toInt_ms_ofMs]⟩

namespace Content

/-- What the tag of a message says. -/
def tag : Content → String
  | .text _ _ => "text"
  | .comment _ => "comment"
  | .knock => "knock"
  | .connectionRequest _ => "connection_request"
  | .conversationDeleted => "conversation_deleted"

/-- The fields that only messages of the kind have. -/
def forms (inside : Nat → Node → Prop) : Content → List FieldForm
  | .text body quotesSelf =>
    [.required "text" (Node.Spells body),
      ⟨"is_quoting_self_user", (· = .bool quotesSelf), quotesSelf = false⟩]
  | .comment kind => [.required "comment_kind" (Node.Spells kind.name)]
  | .knock | .conversationDeleted => []
  | .connectionRequest sender => [.required "author_id" (sender.Shows (inside 4))]

theorem tag_eq (c : Content) : c.tag = c.kind.name := by
  cases c <;> rfl

end Content

namespace Message

/-- The fields of a message beside its tag. Others may have the values that are `inside` as many
containers. -/
def forms (inside : Nat → Node → Prop) (m : Message) : List FieldForm :=
  .required "author" (m.author.Shows (inside 4)) :: .required "time" m.time.Shows ::
    m.content.forms inside

/-- The ways to write a message. -/
def Shows (inside : Nat → Node → Prop) (m : Message) (n : Node) : Prop :=
  n.IsObject (.required "kind" (Node.Spells m.content.tag) :: m.forms inside) (inside 3)

/-- The ways to write some messages. -/
def ListShows (inside : Nat → Node → Prop) (messages : List Message) (n : Node) : Prop :=
  ∃ nodes, n = .list nodes ∧ List.Forall₂ (Shows inside) messages nodes

theorem kind_notMem_forms (m : Message) : "kind" ∉ (m.forms inside).map (·.name) := by
  obtain ⟨author, time, content⟩ := m
  cases content <;> simp [forms, Content.forms, FieldForm.required]

section

variable (hinside : ∀ depth n, inside depth n → n.Fits depth) {m : Message}

include hinside

theorem fits_of_mem_forms {f : FieldForm} (hf : f ∈ m.forms inside) (n : Node) (hn : f.value n) :
    n.Fits 3 := by
  obtain ⟨author, time, content⟩ := m
  have h3 : 3 < maxDepth := by decide
  have h4 : 3 + 1 < maxDepth := by decide
  rcases List.mem_cons.1 hf with rfl | hf
  · exact Author.Shows.fits hn h4 (hinside 4)
  rcases List.mem_cons.1 hf with rfl | hf
  · obtain ⟨-, rfl⟩ : time.Shows n := hn
    exact Node.fits_int64 time.ms h3
  cases content with
  | text body quotesSelf =>
    simp only [Content.forms, List.mem_cons, List.not_mem_nil, or_false] at hf
    rcases hf with rfl | rfl
    · exact Node.Spells.fits hn h3
    · obtain rfl : n = .bool quotesSelf := hn
      exact Node.fits_bool quotesSelf h3
  | comment kind =>
    obtain rfl := List.mem_singleton.1 hf
    exact Node.Spells.fits hn h3
  | connectionRequest sender =>
    obtain rfl := List.mem_singleton.1 hf
    exact FederatedId.Shows.fits hn h4 (hinside 4)
  | knock => cases hf
  | conversationDeleted => cases hf

theorem fits_of_mem {f : FieldForm}
    (hf : f ∈ .required "kind" (Node.Spells m.content.tag) :: m.forms inside)
    (n : Node) (hn : f.value n) : n.Fits 3 := by
  rcases List.mem_cons.1 hf with rfl | hf
  · exact Node.Spells.fits hn (by decide)
  · exact fits_of_mem_forms hinside hf n hn

theorem Shows.isWhole (h : m.Shows inside n) : n.IsWhole :=
  Node.IsObject.isWhole h (fun _ hf n hn => (fits_of_mem hinside hf n hn).isWhole)
    fun n hn => (hinside 3 n hn).isWhole

/-- The author and the time are read alike for every kind, the other fields with the rest of the
schema. -/
theorem record_body_eq {ts : List Type} {rest : Schema Part ts} {row : Data.Row ts}
    (h : n.IsObject (m.forms inside) (inside 3))
    (names : rest.names = (m.content.forms inside).map (·.name))
    (distinct : ("author" :: "time" :: rest.names).Nodup)
    (reads : ∀ l, Shown (m.forms inside) (inside 3) l → rest.Reads (partOf .buffer l) row)
    (title : String) :
    Reader.record title (.field authorField (.field timeField rest)) ⟨.buffer, n⟩ =
      .ok (m.author, m.time, row) := by
  have hothers : ∀ depth n, inside depth n → n.IsWhole :=
    fun depth n hn => (hinside depth n hn).isWhole
  refine Node.IsObject.record_eq h Json.enter_buffer ?_ ?_ (hothers 3) ?_ title
  · exact congrArg ("author" :: "time" :: ·) names
  · exact distinct
  intro l hl
  refine ⟨?_, ?_, reads l hl⟩
  · exact hl.takes_required (.head _) rfl
      (fun n hn => Author.Shows.reader_eq hn Json.enter_buffer (hothers 4))
  · refine hl.takes_required (.tail _ (.head _)) rfl ?_
    rintro n ⟨hmilliseconds, rfl⟩
    exact Time.reader_ofInt hmilliseconds .buffer

/-- Every kind has a schema of its own. -/
theorem bodyReader_eq (h : n.IsObject (m.forms inside) (inside 3)) :
    bodyReader m.content.kind ⟨.buffer, n⟩ = .ok m := by
  obtain ⟨author, time, content⟩ := m
  cases content with
  | text body quotesSelf =>
    have row : ∀ title, Reader.record title textSchema ⟨.buffer, n⟩ =
        .ok (author, time, body, quotesSelf, ()) := by
      refine record_body_eq hinside h rfl (by simp) ?_
      intro l hl
      refine ⟨?_, ?_, trivial⟩
      · exact hl.takes_required (.tail _ (.tail _ (.head _))) rfl
          (fun n hn => Reader.text_spells hn .buffer)
      · refine hl.takes (.tail _ (.tail _ (.tail _ (.head _)))) rfl ?_
          (fun h => congrArg some h.symm)
        rintro n rfl
        rfl
    simp only [Content.kind, bodyReader, row]
    rfl
  | comment kind =>
    have row : ∀ title, Reader.record title commentSchema ⟨.buffer, n⟩ =
        .ok (author, time, kind, ()) := by
      refine record_body_eq hinside h rfl (by simp) ?_
      intro l hl
      refine ⟨hl.takes_required (.tail _ (.tail _ (.head _))) rfl (fun n hn => ?_), trivial⟩
      exact Reader.choice_spells hn (CommentKind.lookup_name kind) .buffer
    simp only [Content.kind, bodyReader, row]
    rfl
  | connectionRequest sender =>
    have row : ∀ title, Reader.record title requestSchema ⟨.buffer, n⟩ =
        .ok (author, time, sender, ()) := by
      refine record_body_eq hinside h rfl (by simp) ?_
      intro l hl
      refine ⟨hl.takes_required (.tail _ (.tail _ (.head _))) rfl (fun n hn => ?_), trivial⟩
      exact FederatedId.Shows.reader_eq hn Json.enter_buffer fun n hn => (hinside 4 n hn).isWhole
    simp only [Content.kind, bodyReader, row]
    rfl
  | knock =>
    have row : ∀ title, Reader.record title bareSchema ⟨.buffer, n⟩ = .ok (author, time, ()) :=
      record_body_eq hinside h rfl (by simp) fun _ _ => trivial
    simp only [Content.kind, bodyReader, row]
    rfl
  | conversationDeleted =>
    have row : ∀ title, Reader.record title bareSchema ⟨.buffer, n⟩ = .ok (author, time, ()) :=
      record_body_eq hinside h rfl (by simp) fun _ _ => trivial
    simp only [Content.kind, bodyReader, row]
    rfl

/-- Where there is room for its fields a message is read, whatever the place of its tag. -/
theorem Shows.reader_eq {d : Nat} (h : m.Shows inside n) (hd : maxDepth ≤ d + 5) :
    reader ⟨.text (d + 3), n⟩ = .ok m := by
  obtain ⟨content, l, rfl, hspell, hshown⟩ := h
  have htag : ∀ f ∈ l, f.1 = "kind" →
      Reader.textAs "variant identifier" ⟨.text (d + 2), f.2⟩ = .ok m.content.tag := by
    rintro ⟨name, v⟩ hf rfl
    exact Reader.textAs_spells (hshown.value_of_mem (.head _) hf) _ _
  have haside : ∀ f ∈ l, f.1 ≠ "kind" → Reader.Source.setAside (.text (d + 2)) f.2 = .ok () := by
    intro f hf _
    have hfits : f.2.Fits 3 :=
      hshown.forall_value (fun g hg n hn => fits_of_mem hinside hg n hn) (hinside 3) f hf
    rw [Reader.Source.setAside, hfits.check_eq (by omega)]
    rfl
  have hbody : (Node.record (l.filter (·.1 ≠ "kind"))).IsObject (m.forms inside) (inside 3) :=
    Node.isObject_record (hshown.without_tag m.kind_notMem_forms)
  have hcount : (l.map (·.1)).count "kind" = 1 := hshown.count_tag id
  have hkind : MessageKind.names.lookup m.content.tag = some m.content.kind := by
    rw [m.content.tag_eq, MessageKind.lookup_name]
  rw [reader, Reader.tagged_object Json.enter_text hspell.lists hcount htag hkind haside]
  exact bodyReader_eq hinside hbody

theorem ListShows.isWhole {messages : List Message} (h : ListShows inside messages n) :
    n.IsWhole := by
  obtain ⟨nodes, rfl, hnodes⟩ := h
  apply Node.isWhole_list
  induction hnodes with
  | nil => simp
  | cons hn _ ih => exact List.forall_mem_cons.2 ⟨hn.isWhole hinside, ih⟩

theorem ListShows.reader_eq {messages : List Message} {d : Nat} (h : ListShows inside messages n)
    (hd : maxDepth ≤ d + 5) : Reader.list reader ⟨.text (d + 4), n⟩ = .ok messages := by
  obtain ⟨nodes, rfl, hnodes⟩ := h
  rw [Node.list, Reader.list, Json.enter_text]
  exact Reader.items_eq (hnodes.imp fun m n hn => hn.reader_eq hinside hd)

end

end Message

namespace Conversation

def forms (plain : Node → Prop) (inside : Nat → Node → Prop) (c : Conversation) : List FieldForm :=
  [.required "id" (c.id.Shows plain), .required "conversation_name" (Node.Spells c.name),
    ⟨"is_one_to_one_conversation", (· = .bool c.oneToOne), c.oneToOne = false⟩,
    ⟨"messages", Message.ListShows inside c.messages, c.messages = []⟩]

/-- The ways to write a record. In the record itself and in its id other fields have `plain` values,
in its messages those that are `inside`. -/
def Shows (plain : Node → Prop) (inside : Nat → Node → Prop) (c : Conversation) (n : Node) : Prop :=
  n.IsObject (c.forms plain inside) plain

section

variable {plain : Node → Prop} {c : Conversation} (hplain : ∀ n, plain n → n.IsWhole)
  (hinside : ∀ depth n, inside depth n → n.Fits depth)

include hplain hinside

theorem Shows.isWhole (h : c.Shows plain inside n) : n.IsWhole := by
  refine Node.IsObject.isWhole h (fun f hf n hn => ?_) hplain
  simp only [forms, List.mem_cons, List.not_mem_nil, or_false] at hf
  rcases hf with rfl | rfl | rfl | rfl
  · exact FederatedId.Shows.isWhole hn hplain
  · exact Node.Spells.isWhole hn
  · obtain rfl : n = .bool c.oneToOne := hn
    exact Node.isWhole_bool c.oneToOne
  · exact Message.ListShows.isWhole hinside hn

theorem Shows.reader_eq {d : Nat} (h : c.Shows plain inside n) (hd : maxDepth ≤ d + 5) :
    reader ⟨.text (d + 5), n⟩ = .ok c := by
  have row : Reader.record "struct LocalConversation" schema ⟨.text (d + 5), n⟩ =
      .ok (c.id, c.name, c.oneToOne, c.messages, ()) := by
    refine Node.IsObject.record_eq h Json.enter_text rfl (by simp [schema]) hplain ?_ _
    intro l hl
    refine ⟨?_, ?_, ?_, ?_, trivial⟩
    · exact hl.takes_required (.head _) rfl
        (fun n hn => FederatedId.Shows.reader_eq hn Json.enter_text hplain)
    · exact hl.takes_required (.tail _ (.head _)) rfl (fun n hn => Reader.text_spells hn _)
    · refine hl.takes (.tail _ (.tail _ (.head _))) rfl ?_ (fun h => congrArg some h.symm)
      rintro n rfl
      rfl
    · exact hl.takes (.tail _ (.tail _ (.tail _ (.head _)))) rfl
        (fun n hn => Message.ListShows.reader_eq hinside hn hd) (fun h => congrArg some h.symm)
  rw [reader, row]
  rfl

end

/-- The texts of a record: its tokens in any way to write them, with blanks about them. -/
def Presents (plain : Node → Prop) (inside : Nat → Node → Prop) (c : Conversation) (text : String) :
    Prop :=
  ∃ n, c.Shows plain inside n ∧ Spaced n.tokens text.toList

/-- However a record is written, it is read back. What is added to the record itself or to its id
may be any value; what is added inside its messages must spell texts and have numbers that can be
represented, and be nested no deeper than there is room. -/
theorem read_of_presents {c : Conversation} {text : String}
    (h : c.Presents Node.IsWhole Node.Fits text) :
    Json.read reader text = .ok c := by
  obtain ⟨n, shows, written⟩ := h
  have hplain : ∀ n : Node, n.IsWhole → n.IsWhole := fun _ h => h
  have hinside : ∀ depth n, Node.Fits depth n → Node.Fits depth n := fun _ _ h => h
  have hroom : maxDepth ≤ 123 + 5 := by decide
  rw [Json.read, (shows.isWhole hplain hinside).readChars_spaced written]
  exact shows.reader_eq hplain hinside hroom

/-! A record written oddly: the fields are out of order, the tag is spelled with an escape and
stands in the middle, a picture is null, what may be left out is, and fields that nobody knows have
been added. -/

def surprised : Conversation :=
  ⟨⟨"c", ""⟩, "n", false, [⟨⟨"é😀", none⟩, .ofMs 5 (by decide), .knock⟩]⟩

def unknownHalf : Quoted := ⟨[.unit 0xD800], .closed⟩

def escapedKind : Quoted := ⟨[.plain 'k', .unit 0x69, .plain 'n', .plain 'd'], .closed⟩

def escapedName : Quoted := ⟨[.unit 0xE9, .unit 0xD83D, .unit 0xDE00], .closed⟩

def smallNumber : Number := ⟨false, ['1'], ['5'], some ⟨true, ['3']⟩⟩

def oddMessage : Node :=
  .object (.field (.ofText "seen") (.list [.number smallNumber, .string escapedKind])
    (.field (.ofText "time") (.ofInt 5)
      (.field escapedKind (.ofText "knock")
        (.field (.ofText "author") (.object (.field (.ofText "image_asset") .null
          (.field (.ofText "name") (.string escapedName) (.last .closed)))) (.last .closed)))))

def oddNode : Node :=
  .object (.field (.ofText "x") (.object (.field unknownHalf .null (.last .closed)))
    (.field (.ofText "messages") (.list [oddMessage])
      (.field (.ofText "conversation_name") (.ofText "n")
        (.field (.ofText "id") (.record [("value", .ofText "c")]) (.last .closed)))))

theorem spells_escapedKind : escapedKind.Spells "kind" := by
  refine ⟨⟨rfl, ?_⟩, ?_⟩
  · simp [escapedKind, Piece.IsProper]
  · exact .plain 'k' (.unit 'i' (by decide) (.plain 'n' (.plain 'd' .nil)))

theorem spells_escapedName : escapedName.Spells "é😀" := by
  refine ⟨⟨rfl, ?_⟩, ?_⟩
  · simp [escapedName, Piece.IsProper]
  · exact .unit 'é' (by decide) (.pair '😀' (by decide) .nil)

theorem isSound_smallNumber : smallNumber.IsSound := by
  refine ⟨⟨.inr ⟨'1', [], rfl, by decide, ?_⟩, ?_, ?_⟩, rfl⟩
  · exact List.forall_mem_singleton.2 rfl
  · exact List.forall_mem_singleton.2 rfl
  · rintro e ⟨⟩
    exact ⟨List.cons_ne_nil _ _, List.forall_mem_singleton.2 rfl⟩

theorem shows_oddMessage (m : Message) (hm : m ∈ surprised.messages) :
    m.Shows Node.Fits oddMessage := by
  obtain rfl := List.mem_singleton.1 hm
  have hseen : (Node.list [.number smallNumber, .string escapedKind]).Fits 3 :=
    ⟨⟨isSound_smallNumber, ⟨_, spells_escapedKind⟩, rfl⟩, by decide⟩
  have hauthor :
      Author.Shows (Node.Fits 4) ⟨"é😀", none⟩ (.object (.field (.ofText "image_asset") .null
      (.field (.ofText "name") (.string escapedName) (.last .closed)))) := by
    refine ⟨_, _, rfl, .cons (Quoted.spells_ofText _) (.cons (Quoted.spells_ofText _) .nil), ?_,
      ?_, ?_⟩
    · decide
    · simp only [Author.forms, List.forall_mem_cons]
      exact ⟨⟨_, rfl, spells_escapedName⟩, rfl, List.forall_mem_nil _⟩
    · simp [Author.forms, FieldForm.required]
  refine ⟨_, _, rfl, .cons (Quoted.spells_ofText _) (.cons (Quoted.spells_ofText _)
    (.cons spells_escapedKind (.cons (Quoted.spells_ofText _) .nil))), ?_, ?_, ?_⟩
  · decide
  · simp only [Message.forms, Content.forms, List.forall_mem_cons]
    exact ⟨Node.spells_ofText _, hauthor, Time.shows_ofMs _, List.forall_mem_nil _⟩
  · simp [Message.forms, Content.forms, FieldForm.required, hseen]

theorem shows_oddNode : surprised.Shows Node.IsWhole Node.Fits oddNode := by
  have hunknown : (Node.object (.field unknownHalf .null (.last .closed))).IsWhole := by
    refine ⟨⟨rfl, ?_⟩, trivial, rfl⟩
    simp [unknownHalf, Piece.IsProper]
  have hmessages : Message.ListShows Node.Fits surprised.messages (.list [oddMessage]) :=
    ⟨_, rfl, .cons (shows_oddMessage _ List.mem_cons_self) .nil⟩
  refine ⟨_, _, rfl, .cons (Quoted.spells_ofText _) (.cons (Quoted.spells_ofText _)
    (.cons (Quoted.spells_ofText _) (.cons (Quoted.spells_ofText _) .nil))), ?_, ?_, ?_⟩
  · decide
  · simp only [forms, List.forall_mem_cons]
    exact ⟨FederatedId.shows_value _ "c", Node.spells_ofText _, rfl, hmessages,
      List.forall_mem_nil _⟩
  · simp [forms, FieldForm.required, hunknown]

def oddText : String :=
  "\n\x7b\"x\":\x7b\"\\ud800\":null\x7d,\"messages\":[" ++
    "\x7b\"seen\":[1.5e-3,\"k\\u0069nd\"],\"time\":5,\"k\\u0069nd\":\"knock\"," ++
    "\"author\":\x7b\"image_asset\":null,\"name\":\"\\u00e9\\ud83d\\ude00\"\x7d\x7d]," ++
    "\"conversation_name\":\"n\",\"id\":\x7b\"value\":\"c\"\x7d\x7d"

theorem presents_oddText : surprised.Presents Node.IsWhole Node.Fits oddText := by
  have hwhole : oddNode.IsWhole := shows_oddNode.isWhole (fun _ h => h) fun _ _ h => h
  have htext : oddText.toList = '\n' :: oddNode.chars := by decide +kernel
  refine ⟨oddNode, shows_oddNode, ?_⟩
  rw [htext]
  exact .blank (.inr (.inr (.inl rfl))) hwhole.spaced_chars

theorem read_oddText :
    surprised.Presents Node.IsWhole Node.Fits oddText ∧ Json.read reader oddText = .ok surprised :=
  ⟨presents_oddText, read_of_presents presents_oddText⟩

/-! The same with half a surrogate pair inside a message. -/

def plainRecord : Conversation :=
  ⟨⟨"c", ""⟩, "n", false, [⟨⟨"A", none⟩, .ofMs 5 (by decide), .knock⟩]⟩

def halfMessage : Node :=
  .record [("kind", .ofText "knock"), ("author", .record [("name", .ofText "A")]),
    ("time", .ofInt 5), ("x", .string unknownHalf)]

def halfNode : Node :=
  .record [("id", .record [("value", .ofText "c")]), ("conversation_name", .ofText "n"),
    ("messages", .list [halfMessage])]

def halfText : String :=
  "\x7b\"id\":\x7b\"value\":\"c\"\x7d,\"conversation_name\":\"n\",\"messages\":[" ++
    "\x7b\"kind\":\"knock\",\"author\":\x7b\"name\":\"A\"\x7d,\"time\":5,\"x\":\"\\ud800\"\x7d]\x7d"

theorem shows_halfNode : plainRecord.Shows (Node.IsWellFormed 2) Node.IsWellFormed halfNode := by
  have hunknown : (Node.string unknownHalf).IsWellFormed 3 := by
    refine ⟨⟨rfl, ?_⟩, by decide⟩
    simp [unknownHalf, Piece.IsProper]
  have hmessage : ∀ m ∈ plainRecord.messages, m.Shows Node.IsWellFormed halfMessage := by
    refine List.forall_mem_singleton.2 (Node.isObject_record ⟨?_, ?_, ?_⟩)
    · decide
    · simp only [Message.forms, Content.forms, List.forall_mem_cons]
      exact ⟨Node.spells_ofText _, Author.shows_name _ "A", Time.shows_ofMs _,
        List.forall_mem_nil _⟩
    · simp [Message.forms, Content.forms, FieldForm.required, hunknown]
  refine Node.isObject_record ⟨?_, ?_, ?_⟩
  · decide
  · simp only [forms, List.forall_mem_cons]
    exact ⟨FederatedId.shows_value _ "c", Node.spells_ofText _, rfl,
      ⟨_, rfl, .cons (hmessage _ List.mem_cons_self) .nil⟩, List.forall_mem_nil _⟩
  · simp [forms, FieldForm.required]

/-- That what is added inside a message is well formed is not enough: half a surrogate pair spells
no text, and the record cannot be read. -/
theorem not_read_of_wellFormed : ¬ ∀ (c : Conversation) (text : String),
    c.Presents (Node.IsWellFormed 2) Node.IsWellFormed text → Json.read reader text = .ok c := by
  intro h
  have hunknown : (Node.string unknownHalf).IsWhole := ⟨rfl, by simp [unknownHalf, Piece.IsProper]⟩
  have hauthor : (Node.record [("name", .ofText "A")]).IsWhole :=
    Node.isWhole_record (List.forall_mem_singleton.2 (Node.isWhole_ofText "A"))
  have hid : (Node.record [("value", .ofText "c")]).IsWhole :=
    Node.isWhole_record (List.forall_mem_singleton.2 (Node.isWhole_ofText "c"))
  have hmessage : halfMessage.IsWhole := by
    apply Node.isWhole_record
    simp [Node.isWhole_ofText, Node.isWhole_ofInt, hunknown, hauthor]
  have hwhole : halfNode.IsWhole := by
    apply Node.isWhole_record
    simp [Node.isWhole_ofText, Node.isWhole_list, hmessage, hid]
  have htext : halfText.toList = halfNode.chars := by decide +kernel
  have hread := h plainRecord halfText ⟨halfNode, shows_halfNode, htext ▸ hwhole.spaced_chars⟩
  rw [Json.read, htext, hwhole.readChars_chars] at hread
  cases hread

end Conversation

end Record

end Notifications
