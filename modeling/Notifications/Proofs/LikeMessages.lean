import Notifications.Proofs.DisplayedIds
import Notifications.Proofs.GroupMessages
/-!
Which messages of a conversation come out as one. Repeats are looked for among the notices, which
show nothing of the author's picture, of the time only the milliseconds, and of a sender only how
the id is displayed.
-/
namespace Notifications

open Notice (Chronology Group)

variable {batch : Batch} {g : Group} {id : String}

theorem CommentKind.template_inj {a b : CommentKind} (h : a.template = b.template) : a = b := by
  cases a <;> cases b <;> first | rfl | cases h

namespace Record

/-- Two senders are no one and the same, and their ids are displayed alike. -/
def Content.SendersConfusable : Content → Content → Prop
  | .connectionRequest a, .connectionRequest b => a.Confusable b
  | _, _ => False

/-- What a notice shows of a message tells all its content, the id of a sender apart. -/
theorem Content.notice_eq_iff {c d : Content} :
    c.notice = d.notice ↔ c = d ∨ c.SendersConfusable d := by
  cases c <;> cases d <;> simp [Content.notice, SendersConfusable, FederatedId.display_eq_iff]
  exact ⟨CommentKind.template_inj, congrArg _⟩

theorem Content.SendersConfusable.ne {c d : Content} (h : c.SendersConfusable d) : c ≠ d := by
  cases c <;> cases d <;> simp [SendersConfusable] at h ⊢
  exact h.ne

/-- What of a message a notice goes by: of its author only the name, of its time the
milliseconds. -/
structure Gist where
  author : String
  time : Int64
  content : Content
  deriving DecidableEq

def Gist.notice (x : Gist) : Notice.Message := ⟨⟨x.author, none⟩, x.time, x.content.notice⟩

namespace Message

def gist (m : Message) : Gist := ⟨m.author.name, m.time.ms, m.content⟩

theorem notice_gist (m : Message) : m.gist.notice = m.notice := rfl

theorem gist_eq_of_notice_eq {m n : Message} (h : m.notice = n.notice)
    (apart : ¬ m.content.SendersConfusable n.content) : m.gist = n.gist := by
  simp only [notice, Author.notice, Notice.Message.mk.injEq, Notice.Author.mk.injEq, and_true] at h
  obtain ⟨hname, htime, hcontent⟩ := h
  have hsame : m.content = n.content := (Content.notice_eq_iff.1 hcontent).resolve_right apart
  simp only [gist, hname, htime, hsame]

end Message

end Record

open Record (Message)

/-- The messages of the records shown under an id, as the records have them. -/
def messagesOf (batch : Batch) (id : String) : List Message :=
  (recordsOf batch id).flatMap (·.messages)

theorem noticesOf_eq_map (batch : Batch) (id : String) :
    noticesOf batch id = (messagesOf batch id).map Message.notice := by
  rw [noticesOf, noticesIn, messagesOf, List.map_flatMap]

/-- No two connection requests come from senders that differ and are displayed alike. -/
def SendersApart (messages : List Message) : Prop :=
  ∀ m ∈ messages, ∀ n ∈ messages, ¬ m.content.SendersConfusable n.content

theorem sendersApart_iff {messages : List Message} : SendersApart messages ↔
    ∀ m ∈ messages, ∀ n ∈ messages, m.content.notice = n.content.notice →
      m.content = n.content := by
  constructor
  · intro apart m hm n hn h
    exact (Record.Content.notice_eq_iff.1 h).resolve_right (apart m hm n hn)
  · intro h m hm n hn confusable
    exact confusable.ne (h m hm n hn (Record.Content.notice_eq_iff.2 (Or.inr confusable)))

theorem eraseDups_notices {messages : List Message} (apart : SendersApart messages) :
    (messages.map Message.notice).eraseDups =
      (messages.map Message.gist).eraseDups.map Record.Gist.notice := by
  rw [← eraseDups_map, List.map_map]
  · exact congrArg (List.eraseDups ∘ (messages.map ·)) (funext Message.notice_gist).symm
  · intro a ha b hb h
    obtain ⟨m, hm, rfl⟩ := List.mem_map.1 ha
    obtain ⟨n, hn, rfl⟩ := List.mem_map.1 hb
    exact Message.gist_eq_of_notice_eq h (apart m hm n hn)

/-- Without limits a group has the first of the messages that are equal but for the author's picture
and parts of a millisecond and no other, so it has as many messages as differ in more than that. -/
theorem messages_of_distinct (hg : g ∈ assemble .unlimited batch)
    (apart : SendersApart (messagesOf batch g.id)) :
    let distinct := ((messagesOf batch g.id).map Message.gist).eraseDups
    Chronology (distinct.map Record.Gist.notice) g.messages ∧
    g.messages.length = distinct.length := by
  intro distinct
  have hnotices : (noticesOf batch g.id).eraseDups = distinct.map Record.Gist.notice := by
    rw [noticesOf_eq_map, eraseDups_notices apart]
  have hmessages : g.messages = Notice.byTime (distinct.map Record.Gist.notice) := by
    rw [messages_eq_newest hg, hnotices]
    exact Notice.newest_eq_self (Or.inl rfl)
  rw [hmessages]
  refine ⟨Notice.chronology_byTime _, ?_⟩
  rw [Notice.byTime, List.length_mergeSort, List.length_map]

/-- The moment a microsecond after the eleventh millisecond. -/
def justAfter : Record.Time := ⟨0, 11001000, by decide, by decide⟩

/-- A knock that comes again with another picture and in the same millisecond, one at another time,
and the requests of two senders. -/
def likeMessages : Batch :=
  [⟨⟨"c", ""⟩, "n", false,
      [⟨⟨"A", some "p"⟩, .ofMs 11 (by decide), .knock⟩, ⟨⟨"A", none⟩, .ofMs 12 (by decide), .knock⟩,
        ⟨⟨"B", none⟩, .ofMs 13 (by decide), .connectionRequest ⟨"b", "d"⟩⟩]⟩,
    ⟨⟨"c", ""⟩, "n", false,
      [⟨⟨"A", some "q"⟩, .ofMs 11 (by decide), .knock⟩, ⟨⟨"A", none⟩, justAfter, .knock⟩,
        ⟨⟨"B", none⟩, .ofMs 13 (by decide), .connectionRequest ⟨"b", "e"⟩⟩]⟩]

theorem messages_of_likeMessages :
    let g : Group := ⟨"c", "n", none,
      [⟨⟨"A", none⟩, 11, .knock⟩, ⟨⟨"A", none⟩, 12, .knock⟩,
        ⟨⟨"B", none⟩, 13, .connectionRequest "b@d"⟩, ⟨⟨"B", none⟩, 13, .connectionRequest "b@e"⟩],
      false, 13⟩
    let distinct := ((messagesOf likeMessages g.id).map Message.gist).eraseDups
    g ∈ assemble .unlimited likeMessages ∧ SendersApart (messagesOf likeMessages g.id) ∧
      Chronology (distinct.map Record.Gist.notice) g.messages ∧
      g.messages.length = distinct.length := by
  intro g distinct
  have hassemble : assemble .unlimited likeMessages = [g] := by
    rw [assemble_eq_plain]
    cbv
  have hg : g ∈ assemble .unlimited likeMessages := by
    rw [hassemble]
    exact List.mem_singleton_self g
  have apart : SendersApart (messagesOf likeMessages g.id) := by
    have hmessages : messagesOf likeMessages g.id = likeMessages.flatMap (·.messages) := by cbv
    rw [sendersApart_iff, hmessages]
    decide
  exact ⟨hg, apart, messages_of_distinct hg apart⟩

/-- Two knocks of one author's name at one time, each with another picture. -/
def otherPicture : Batch :=
  [⟨⟨"c", ""⟩, "n", false,
    [⟨⟨"A", none⟩, .ofMs 11 (by decide), .knock⟩, ⟨⟨"A", some "p"⟩, .ofMs 11 (by decide), .knock⟩]⟩]

/-- Two knocks of one author, one microsecond apart. -/
def nextMicrosecond : Batch :=
  [⟨⟨"c", ""⟩, "n", false,
    [⟨⟨"A", none⟩, .ofMs 11 (by decide), .knock⟩, ⟨⟨"A", none⟩, justAfter, .knock⟩]⟩]

/-- Two different messages come out as one. -/
theorem messages_of_likeKnocks :
    let g : Group := ⟨"c", "n", none, [⟨⟨"A", none⟩, 11, .knock⟩], false, 11⟩
    g.messages.length = 1 ∧
      assemble .unlimited otherPicture = [g] ∧ (messagesOf otherPicture g.id).eraseDups.length = 2 ∧
      assemble .unlimited nextMicrosecond = [g] ∧
        (messagesOf nextMicrosecond g.id).eraseDups.length = 2 := by
  intro g
  refine ⟨rfl, ?_, ?_, ?_, ?_⟩
  · rw [assemble_eq_plain]
    cbv
  · cbv
  · rw [assemble_eq_plain]
    cbv
  · cbv

end Notifications
