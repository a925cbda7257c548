import Notifications.Proofs.GroupOrder
import Notifications.Render.Line
/-!
What a limit does to the groups: it takes away older messages and nothing else, so that a tighter
limit can be applied afterwards, and the groups look the same as long as they are not unfolded.
-/
namespace Notifications

open Notice (Group Message byActivity newest)
open Render (Shown Style)

variable {batch : Batch} {keepEmpty : Bool}

namespace Notice

theorem newest_zero (messages : List Message) : newest 0 messages = messages :=
  newest_eq_self (Or.inl rfl)

/-- The newest messages are found among those that a wider limit keeps. -/
theorem newest_newest {few many : Nat} (h : many = 0 ∨ few ≠ 0 ∧ few ≤ many)
    (messages : List Message) : newest few (newest many messages) = newest few messages := by
  rcases h with rfl | ⟨hfew, hle⟩
  · rw [newest_zero]
  · have hmany : many ≠ 0 := by omega
    rw [newest, if_neg hfew, newest, if_neg hmany, newest, if_neg hfew, List.drop_drop,
      List.length_drop]
    congr 1
    omega

theorem getLast?_newest (limit : Nat) (messages : List Message) :
    (newest limit messages).getLast? = messages.getLast? := by
  rw [newest]
  split
  · rfl
  · rename_i hlimit
    cases messages with
    | nil => rw [List.drop_nil]
    | cons m r =>
      have hkept : (m :: r).length - limit < (m :: r).length := by
        simp only [List.length_cons]
        omega
      rw [List.getLast?_drop, if_neg (Nat.not_le.2 hkept)]

/-- The group with no more than the newest of its messages. -/
def Group.trim (limit : Nat) (g : Group) : Group :=
  { g with messages := newest limit g.messages }

theorem Group.trim_isEmpty (limit : Nat) (g : Group) :
    (g.trim limit).messages.isEmpty = g.messages.isEmpty := by
  rw [Bool.eq_iff_iff, List.isEmpty_iff, List.isEmpty_iff]
  exact newest_eq_nil

theorem Group.finish_eq_trim {few many : UInt64} (h : many = 0 ∨ few ≠ 0 ∧ few ≤ many) (g : Group) :
    g.finish ⟨few, keepEmpty⟩ = (g.finish ⟨many, keepEmpty⟩).trim few.toNat := by
  have hlimits : many.toNat = 0 ∨ few.toNat ≠ 0 ∧ few.toNat ≤ many.toNat := by
    rcases h with rfl | ⟨hfew, hle⟩
    · exact Or.inl rfl
    · exact Or.inr ⟨fun hzero => hfew (UInt64.toNat_inj.1 hzero), UInt64.le_iff_toNat_le.1 hle⟩
  rw [Group.finish, Group.finish, Group.trim, newest_newest hlimits]

theorem byActivity_trim (limit : Nat) (groups : List Group) :
    byActivity (groups.map (Group.trim limit)) = (byActivity groups).map (Group.trim limit) := by
  rw [byActivity, byActivity]
  symm
  apply List.map_mergeSort
  intro a _ b _
  rfl

end Notice

/-- A tighter limit may as well be applied to what a wider one has left. -/
theorem assemble_eq_map_trim {few many : UInt64} (h : many = 0 ∨ few ≠ 0 ∧ few ≤ many) :
    assemble ⟨few, keepEmpty⟩ batch =
      (assemble ⟨many, keepEmpty⟩ batch).map (Group.trim few.toNat) := by
  have hfinish : (gather batch).map (Group.finish ⟨few, keepEmpty⟩) =
      ((gather batch).map (Group.finish ⟨many, keepEmpty⟩)).map (Group.trim few.toNat) := by
    rw [List.map_map]
    apply List.map_congr_left
    intro g _
    exact Notice.Group.finish_eq_trim h g
  rw [assemble, assemble, hfinish, List.filter_map, ← Notice.byActivity_trim]
  congr 3
  funext g
  exact congrArg (fun isEmpty : Bool => keepEmpty || !isEmpty)
    (Notice.Group.trim_isEmpty few.toNat g)

/-- A group is another but for older messages that it lacks. -/
structure Trims (g full : Group) : Prop where
  id : g.id = full.id
  name : g.name = full.name
  image : g.image = full.image
  oneToOne : g.oneToOne = full.oneToOne
  lastTime : g.lastTime = full.lastTime
  messages : g.messages <:+ full.messages

theorem trims_trim (limit : Nat) (g : Group) : Trims (g.trim limit) g :=
  ⟨rfl, rfl, rfl, rfl, rfl, Notice.newest_suffix limit g.messages⟩

/-- Two notices cannot be told apart while their lines are folded into a summary. -/
structure Render.LooksLike (a b : Shown) : Prop where
  key : a.key = b.key
  title : a.title = b.title
  time : a.time = b.time
  isGroup : a.isGroup = b.isGroup
  summary : a.summary = b.summary

theorem Render.looksLike_trim (style : Style) (limit : Nat) (g : Group) :
    LooksLike (style.render (g.trim limit)) (style.render g) where
  key := rfl
  title := rfl
  time := rfl
  isGroup := rfl
  summary := by
    have hlast : ((g.trim limit).messages.map style.line).getLast? =
        (g.messages.map style.line).getLast? := by
      rw [List.getLast?_map, List.getLast?_map, Group.trim, Notice.getLast?_newest]
    rw [Shown.summary, Shown.summary, Style.render, Style.render, hlast]
    rfl

theorem forall₂_map_self {α β : Type} {R : β → α → Prop} {f : α → β} (l : List α)
    (h : ∀ a ∈ l, R (f a) a) : List.Forall₂ R (l.map f) l := by
  rw [List.forall₂_map_left_iff, List.forall₂_same]
  exact h

/-- Of two limits the tighter one, where zero is the widest, keeps the same groups in the same order
and the newest of the messages that the other keeps, as many as it allows; titles, times and
summaries are the same in every style. -/
theorem assemble_trims (batch : Batch) (keepEmpty : Bool) {few many : UInt64}
    (h : many = 0 ∨ few ≠ 0 ∧ few ≤ many) :
    List.Forall₂ Trims (assemble ⟨few, keepEmpty⟩ batch) (assemble ⟨many, keepEmpty⟩ batch) ∧
    (few ≠ 0 → List.Forall₂ (fun g full => g.messages.length = min few.toNat full.messages.length)
      (assemble ⟨few, keepEmpty⟩ batch) (assemble ⟨0, keepEmpty⟩ batch)) ∧
    ∀ style : Style, List.Forall₂ Render.LooksLike
      ((assemble ⟨few, keepEmpty⟩ batch).map style.render)
      ((assemble ⟨many, keepEmpty⟩ batch).map style.render) := by
  refine ⟨?_, ?_, ?_⟩
  · rw [assemble_eq_map_trim h]
    exact forall₂_map_self _ fun g _ => trims_trim few.toNat g
  · intro hfew
    have hpositive : few.toNat ≠ 0 := fun hzero => hfew (UInt64.toNat_inj.1 hzero)
    have hwidest : (0 : UInt64) = 0 ∨ few ≠ 0 ∧ few ≤ 0 := Or.inl rfl
    rw [assemble_eq_map_trim hwidest]
    exact forall₂_map_self _ fun g _ => Notice.length_newest hpositive
  · intro style
    rw [assemble_eq_map_trim h, List.forall₂_map_left_iff, List.forall₂_map_right_iff]
    exact forall₂_map_self _ fun g _ => Render.looksLike_trim style few.toNat g

/-- The tighter limit cuts between two messages of one time. -/
theorem assemble_trims_interleaved :
    let few : UInt64 := 2
    let many : UInt64 := 3
    let full : Group := ⟨"c@d", "New", none,
      [⟨⟨"B", none⟩, -10, .knock⟩, ⟨⟨"D", none⟩, -10, .knock⟩, ⟨⟨"A", none⟩, 30, .knock⟩], true, 30⟩
    assemble ⟨many, false⟩ interleaved = [full] ∧ (many = 0 ∨ few ≠ 0 ∧ few ≤ many) ∧
      List.Forall₂ Trims (assemble ⟨few, false⟩ interleaved) (assemble ⟨many, false⟩ interleaved) ∧
      (few ≠ 0 → List.Forall₂ (fun g all => g.messages.length = min few.toNat all.messages.length)
        (assemble ⟨few, false⟩ interleaved) (assemble ⟨0, false⟩ interleaved)) ∧
      ∀ style : Style, List.Forall₂ Render.LooksLike
        ((assemble ⟨few, false⟩ interleaved).map style.render)
        ((assemble ⟨many, false⟩ interleaved).map style.render) := by
  intro few many full
  have hassemble : assemble ⟨many, false⟩ interleaved = [full] := by
    rw [assemble_eq_plain]
    cbv
  have h : many = 0 ∨ few ≠ 0 ∧ few ≤ many := by decide
  exact ⟨hassemble, h, assemble_trims interleaved false h⟩

end Notifications
