import Notifications.Proofs.Gathering
import Notifications.Proofs.Latest
/-!
What a group is made of: the records shown under its id, taken in the order of the batch. The groups
stand in the order in which their ids first occur.
-/
namespace Notifications

open Notice (Group insertGroup latest)
open Record (Conversation)

variable {batch : Batch} {c : Conversation} {id : String} {g : Group} {limits : Limits}

/-- The records shown under an id, in the order of the batch. -/
def recordsOf (batch : Batch) (id : String) : List Conversation := batch.filter (·.id.display = id)

/-- The ids under which the records of a batch are shown, in the order of their first records. -/
def shownIds (batch : Batch) : List String := (batch.map (·.id.display)).eraseDups

theorem mem_recordsOf : c ∈ recordsOf batch id ↔ c ∈ batch ∧ c.id.display = id := by
  simp [recordsOf]

theorem mem_shownIds : id ∈ shownIds batch ↔ ∃ c ∈ batch, c.id.display = id := by
  simp [shownIds]

theorem nodup_shownIds (batch : Batch) : (shownIds batch).Nodup := nodup_eraseDups _

theorem recordsOf_append (batch next : Batch) (id : String) :
    recordsOf (batch ++ next) id = recordsOf batch id ++ recordsOf next id :=
  List.filter_append ..

theorem recordsOf_concat_self (batch : Batch) (c : Conversation) :
    recordsOf (batch ++ [c]) c.id.display = recordsOf batch c.id.display ++ [c] := by
  simp [recordsOf]

theorem recordsOf_concat_of_ne (batch : Batch) (h : c.id.display ≠ id) :
    recordsOf (batch ++ [c]) id = recordsOf batch id := by
  simp [recordsOf, h]

theorem recordsOf_eq_self (h : ∀ c ∈ batch, c.id.display = id) : recordsOf batch id = batch :=
  List.filter_eq_self.2 (by simpa using h)

theorem recordsOf_eq_nil (h : id ∉ shownIds batch) : recordsOf batch id = [] := by
  apply List.filter_eq_nil_iff.2
  intro c hc hid
  exact h (mem_shownIds.2 ⟨c, hc, by simpa using hid⟩)

theorem recordsOf_ne_nil : recordsOf batch id ≠ [] ↔ id ∈ shownIds batch := by
  constructor
  · intro hne
    by_contra hid
    exact hne (recordsOf_eq_nil hid)
  · intro hid
    obtain ⟨c, hc, hshow⟩ := mem_shownIds.1 hid
    exact List.ne_nil_of_mem (mem_recordsOf.2 ⟨hc, hshow⟩)

theorem shownIds_concat (batch : Batch) (c : Conversation) : shownIds (batch ++ [c]) =
    if c.id.display ∈ shownIds batch then shownIds batch
    else shownIds batch ++ [c.id.display] := by
  simp only [shownIds, List.map_append, List.map_cons, List.map_nil, eraseDups_concat,
    List.mem_eraseDups]

/-- A group has all messages of its records, the latest of their times, and the name and form of the
last of them. -/
structure MergedFrom (records : List Conversation) (g : Group) : Prop where
  last : ∃ c, records.getLast? = some c ∧ g.name = c.name ∧ g.oneToOne = c.oneToOne
  image : g.image = none
  messages : g.messages = records.flatMap (·.group.messages)
  lastTime : g.lastTime = latest (records.map (·.group.lastTime))

theorem mergedFrom_single (c : Conversation) : MergedFrom [c] c.group where
  last := ⟨c, rfl, rfl, rfl⟩
  image := rfl
  messages := by simp
  lastTime := rfl

theorem MergedFrom.ne_nil {records : List Conversation} (h : MergedFrom records g) :
    records ≠ [] := by
  obtain ⟨c, hc, -⟩ := h.last
  intro hnil
  simp [hnil] at hc

theorem MergedFrom.merge {records : List Conversation} (h : MergedFrom records g)
    (c : Conversation) : MergedFrom (records ++ [c]) (g.merge c.group) where
  last := ⟨c, by simp, rfl, rfl⟩
  image := by simpa [Group.merge, Conversation.group] using h.image
  messages := by simp [Group.merge, h.messages]
  lastTime := by
    have hne : records.map (·.group.lastTime) ≠ [] := by simpa using h.ne_nil
    rw [List.map_append, List.map_cons, List.map_nil, Notice.latest_concat hne, ← h.lastTime]
    rfl

/-- The groups that a batch has brought so far. -/
structure Gathers (batch : Batch) (groups : List Group) : Prop where
  ids : groups.map Group.id = shownIds batch
  merged : ∀ g ∈ groups, MergedFrom (recordsOf batch g.id) g

theorem gathers_insertGroup {groups : List Group} (h : Gathers batch groups) (c : Conversation) :
    Gathers (batch ++ [c]) (insertGroup groups c.group) := by
  by_cases hid : c.group.id ∈ groups.map Group.id
  · have hknown : c.id.display ∈ shownIds batch := h.ids ▸ hid
    rw [insertGroup, if_pos hid]
    constructor
    · rw [shownIds_concat, if_pos hknown, ← h.ids, List.map_map]
      apply List.map_congr_left
      intro old _
      simp only [Function.comp_apply]
      split <;> rfl
    · intro g hg
      obtain ⟨old, hold, rfl⟩ := List.mem_map.1 hg
      have hm := h.merged old hold
      by_cases hsame : old.id = c.group.id
      · rw [if_pos hsame, Group.merge_id, hsame]
        rw [hsame] at hm
        exact recordsOf_concat_self batch c ▸ hm.merge c
      · rw [if_neg hsame, recordsOf_concat_of_ne batch (Ne.symm hsame)]
        exact hm
  · have hnew : c.id.display ∉ shownIds batch := h.ids ▸ hid
    rw [insertGroup, if_neg hid]
    constructor
    · rw [shownIds_concat, if_neg hnew, ← h.ids, List.map_append]
      rfl
    · intro g hg
      rcases List.mem_append.1 hg with hold | hg
      · have hne : c.id.display ≠ g.id := by
          intro he
          exact hid (List.mem_map.2 ⟨g, hold, he.symm⟩)
        rw [recordsOf_concat_of_ne batch hne]
        exact h.merged g hold
      · rw [List.mem_singleton.1 hg]
        have hone := recordsOf_concat_self batch c
        rw [recordsOf_eq_nil hnew] at hone
        exact hone ▸ mergedFrom_single c

theorem gathers_gather (batch : Batch) : Gathers batch (gather batch) := by
  induction batch using List.reverseRecOn with
  | nil => exact ⟨rfl, by simp [gather, gathering, Notice.Gathering.empty]⟩
  | append_singleton batch c ih =>
    rw [gather_concat]
    exact gathers_insertGroup ih c

theorem id_mem_shownIds (hg : g ∈ gather batch) : g.id ∈ shownIds batch :=
  (gathers_gather batch).ids ▸ List.mem_map_of_mem hg

theorem mem_assemble : g ∈ assemble limits batch ↔
    ∃ h ∈ gather batch, h.finish limits = g ∧ (limits.keepEmpty ∨ g.messages ≠ []) := by
  simp only [assemble, Notice.byActivity, List.mem_mergeSort, List.mem_filter, List.mem_map,
    Bool.or_eq_true, Bool.not_eq_true', List.isEmpty_eq_false_iff, ne_eq]
  constructor
  · rintro ⟨⟨h, hh, rfl⟩, hg⟩
    exact ⟨h, hh, rfl, hg⟩
  · rintro ⟨h, hh, rfl, hg⟩
    exact ⟨⟨h, hh, rfl⟩, hg⟩

/-- Finishing changes nothing but the messages. -/
theorem exists_merged (hg : g ∈ assemble limits batch) :
    ∃ h : Group, MergedFrom (recordsOf batch g.id) h ∧ h.finish limits = g := by
  obtain ⟨h, hh, rfl, -⟩ := mem_assemble.1 hg
  exact ⟨h, (gathers_gather batch).merged h hh, rfl⟩

end Notifications
