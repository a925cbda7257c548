import Notifications.Data.Schema
import Notifications.Notice
import Std.Data.HashMap
import Std.Data.HashSet
/-!
From a batch to notices: one group for a conversation, in which the records of that conversation are
merged, repeats are dropped, and only the newest messages are kept.
-/
namespace Notifications

open Notice (Group Message)
open Data (Error Field Format Schema)

structure Limits where
  /-- The most messages a group keeps; zero stands for no limit. -/
  maxMessages : UInt64
  /-- Groups without messages are kept. -/
  keepEmpty : Bool
  deriving DecidableEq, Repr

namespace Limits

def default : Limits := ⟨25, false⟩

def unlimited : Limits := ⟨0, true⟩

def schema {ν : Type} (f : Format ν) : Schema ν [UInt64, Bool] :=
  .field (.withDefault "max_messages_per_conversation" f.count default.maxMessages) <|
  .field (.withDefault "keep_empty" f.bool default.keepEmpty) .done

def reader {ν : Type} (f : Format ν) (v : ν) : Except Error Limits := do
  let (maxMessages, keepEmpty, ()) ← f.record "struct AssemblyLimits" (schema f) v
  return ⟨maxMessages, keepEmpty⟩

end Limits

namespace Notice

/-- A group with a later record of the same conversation: the later name and form hold. -/
def Group.merge (g later : Group) : Group where
  id := g.id
  name := later.name
  image := later.image <|> g.image
  messages := g.messages ++ later.messages
  oneToOne := later.oneToOne
  lastTime := max g.lastTime later.lastTime

@[simp] theorem Group.merge_id (g later : Group) : (g.merge later).id = g.id := rfl

/-- The groups met so far, and the place of each by its id. -/
structure Gathering where
  groups : Array Group
  places : Std.HashMap String Nat
  placed : ∀ id place, places[id]? = some place ↔ groups[place]?.map Group.id = some id

namespace Gathering

def empty : Gathering := ⟨#[], ∅, by simp⟩

theorem id_modify_merge (groups : Array Group) (g : Group) (place p : Nat) :
    (groups.modify place (·.merge g))[p]?.map Group.id = groups[p]?.map Group.id := by
  rw [Array.getElem?_modify]
  split
  · simp [Function.comp_def]
  · rfl

theorem placed_push (s : Gathering) {g : Group} (new : s.places[g.id]? = none) (id : String)
    (place : Nat) : (s.places.insert g.id s.groups.size)[id]? = some place ↔
      (s.groups.push g)[place]?.map Group.id = some id := by
  have old := s.placed id place
  rw [Std.HashMap.getElem?_insert, Array.getElem?_push]
  by_cases hid : g.id = id
  · subst hid
    rw [new] at old
    by_cases hp : place = s.groups.size
    · simp [hp]
    · simpa [hp, Ne.symm hp] using old
  · by_cases hp : place = s.groups.size
    · simpa [hid, hp] using old
    · simpa [hid, hp] using old

/-- Merges a group into the one of its id; a new id comes last. -/
def add (s : Gathering) (g : Group) : Gathering :=
  match h : s.places[g.id]? with
  | some place =>
    { s with
      groups := s.groups.modify place (·.merge g)
      placed := fun id p => by rw [id_modify_merge]; exact s.placed id p }
  | none =>
    { groups := s.groups.push g
      places := s.places.insert g.id s.groups.size
      placed := s.placed_push h }

end Gathering

/-- The messages that have not been met; `seen` holds those that have. -/
def dropSeen (seen : Std.HashSet Message) : List Message → List Message
  | [] => []
  | m :: r => if seen.contains m then dropSeen seen r else m :: dropSeen (seen.insert m) r

/-- Of equal messages the first stays. -/
def dropRepeats (messages : List Message) : List Message := dropSeen ∅ messages

/-- The last `limit` of some messages, and all of them if there is no limit. -/
def newest (limit : Nat) (messages : List Message) : List Message :=
  if limit = 0 then messages else messages.drop (messages.length - limit)

/-- Repeats are dropped, then the messages are put in order and cut. -/
def Group.finish (limits : Limits) (g : Group) : Group :=
  { g with messages := newest limits.maxMessages.toNat (byTime (dropRepeats g.messages)) }

/-- The latest activity first; groups of one time stay in their order. -/
def byActivity (groups : List Group) : List Group :=
  groups.mergeSort fun a b => b.lastTime ≤ a.lastTime

end Notice

/-- The records of a batch are taken one after another. -/
def gathering (batch : Batch) : Notice.Gathering :=
  batch.foldl (fun s c => s.add c.group) .empty

/-- One group for each conversation, in the order in which they first occur. -/
def gather (batch : Batch) : List Group := (gathering batch).groups.toList

/-- The groups of a batch, most recent first. -/
def assemble (limits : Limits) (batch : Batch) : List Group :=
  Notice.byActivity <|
    ((gather batch).map (Group.finish limits)).filter fun g =>
      limits.keepEmpty || !g.messages.isEmpty

end Notifications
