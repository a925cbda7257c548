import Notifications.Comment
import Notifications.FederatedId
/-! What the messaging core hands over: conversations with the messages that need notifying. -/
namespace Notifications.Record

/-- A moment: seconds since the epoch, within the years that a calendar date can name, and
nanoseconds from there on. A leap second is told as more than a thousand million of them. -/
@[ext]
structure Time where
  second : Int
  nanosecond : Nat
  legal : -8334601228800 ≤ second ∧ second ≤ 8210266876799
  bounded : nanosecond < 2000000000
  deriving DecidableEq

namespace Time

/-- The milliseconds since the epoch that have gone by. -/
def ms (t : Time) : Int64 := Int64.ofInt (t.second * 1000 + (t.nanosecond / 1000000 : Nat))

/-- The moment `ms` milliseconds after the epoch. -/
def ofMs (ms : Int) (h : -8334601228800000 ≤ ms ∧ ms ≤ 8210266876799999) : Time where
  second := ms / 1000
  nanosecond := (ms % 1000).toNat * 1000000
  legal := by omega
  bounded := by omega

/-- The moment `ms` milliseconds after the epoch, if it is legal. -/
def ofInt? (ms : Int) : Option Time :=
  if h : -8334601228800000 ≤ ms ∧ ms ≤ 8210266876799999 then some (ofMs ms h) else none

/-- The moment is the beginning of a millisecond, so that its milliseconds tell all of it. -/
def InMilliseconds (t : Time) : Prop := t.nanosecond < 1000000000 ∧ t.nanosecond % 1000000 = 0

theorem toInt_ms (t : Time) : t.ms.toInt = t.second * 1000 + (t.nanosecond / 1000000 : Nat) := by
  have hlegal := t.legal
  have hbounded := t.bounded
  apply Int64.toInt_ofInt_of_le <;> omega

theorem inMilliseconds_ofMs {ms : Int} (h : -8334601228800000 ≤ ms ∧ ms ≤ 8210266876799999) :
    (ofMs ms h).InMilliseconds := by
  dsimp only [InMilliseconds, ofMs]
  omega

@[simp]
theorem toInt_ms_ofMs {ms : Int} (h : -8334601228800000 ≤ ms ∧ ms ≤ 8210266876799999) :
    (ofMs ms h).ms.toInt = ms := by
  rw [toInt_ms]
  dsimp only [ofMs]
  omega

theorem ofInt?_toInt {t : Time} (h : t.InMilliseconds) : ofInt? t.ms.toInt = some t := by
  obtain ⟨hleap, hwhole⟩ := h
  have hlegal := t.legal
  have hms := t.toInt_ms
  have hrange : -8334601228800000 ≤ t.ms.toInt ∧ t.ms.toInt ≤ 8210266876799999 := by omega
  have hsecond : t.ms.toInt / 1000 = t.second := by omega
  have hnanosecond : (t.ms.toInt % 1000).toNat * 1000000 = t.nanosecond := by omega
  rw [ofInt?, dif_pos hrange]
  exact congrArg some (Time.ext hsecond hnanosecond)

end Time

structure Author where
  name : String
  /-- The handle of the author's picture, if the core knows one. -/
  imageAsset : Option String
  deriving DecidableEq, Repr

inductive Content
  | text (body : String) (quotesSelf : Bool)
  | comment (kind : CommentKind)
  | knock
  | connectionRequest (sender : FederatedId)
  | conversationDeleted
  deriving DecidableEq, Repr

structure Message where
  author : Author
  time : Time
  content : Content
  deriving DecidableEq

/-- The messages come in no particular order. -/
structure Conversation where
  id : FederatedId
  name : String
  oneToOne : Bool
  messages : List Message
  deriving DecidableEq

end Notifications.Record

namespace Notifications

/-- What the core hands over at once; a conversation may occur in it more than once. -/
abbrev Batch := List Record.Conversation

end Notifications
