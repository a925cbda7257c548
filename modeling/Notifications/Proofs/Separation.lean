import Mathlib.Data.List.Perm.Basic
import Mathlib.Data.List.Nodup
import Notifications.Proofs.DisplayedIds
import Notifications.Proofs.GroupOrder
/-!
What is assembled for one shown id depends on the records shown under it alone. A batch is therefore
assembled conversation by conversation as long as no two of its ids are shown alike.
-/
namespace Notifications

open Notice (Group)
open Record (Conversation)

variable {batch : Batch} {limits : Limits} {id : String} {g h : Group}

theorem eq_singleton_of_nodup {α : Type} {l : List α} {a : α} (hl : l.Nodup)
    (h : ∀ b, b ∈ l ↔ b = a) : l = [a] := by
  apply List.perm_singleton.1
  rw [List.perm_ext_iff_of_nodup hl (List.nodup_singleton a)]
  simpa using h

theorem MergedFrom.unique {records : List Conversation} (hg : MergedFrom records g)
    (hh : MergedFrom records h) (hid : g.id = h.id) : g = h := by
  obtain ⟨c, hc, hname, hform⟩ := hg.last
  obtain ⟨d, hd, hname', hform'⟩ := hh.last
  obtain rfl : c = d := Option.some.inj (hc.symm.trans hd)
  have himage := hg.image.trans hh.image.symm
  have hmessages := hg.messages.trans hh.messages.symm
  have htime := hg.lastTime.trans hh.lastTime.symm
  cases g
  cases h
  simp_all

theorem recordsOf_idem (batch : Batch) (id : String) :
    recordsOf (recordsOf batch id) id = recordsOf batch id := by
  simp [recordsOf]

theorem shownIds_recordsOf (h : id ∈ shownIds batch) : shownIds (recordsOf batch id) = [id] := by
  apply eq_singleton_of_nodup (nodup_shownIds _)
  intro a
  rw [mem_shownIds]
  constructor
  · rintro ⟨c, hc, rfl⟩
    exact (mem_recordsOf.1 hc).2
  · rintro rfl
    obtain ⟨c, hc, hid⟩ := mem_shownIds.1 h
    exact ⟨c, mem_recordsOf.2 ⟨hc, hid⟩, hid⟩

/-- The records of one shown id are gathered in the same way by themselves. -/
theorem gather_recordsOf (hg : g ∈ gather batch) : gather (recordsOf batch g.id) = [g] := by
  have hbatch := gathers_gather batch
  have halone := gathers_gather (recordsOf batch g.id)
  have hids := halone.ids
  rw [shownIds_recordsOf (id_mem_shownIds hg)] at hids
  obtain ⟨h, hh, hid⟩ := List.map_eq_singleton_iff.1 hids
  have hmerged := halone.merged h (by simp [hh])
  rw [hid, recordsOf_idem] at hmerged
  rw [hh, hmerged.unique (hbatch.merged g hg) hid]

theorem gather_eq_flatMap (batch : Batch) :
    gather batch = (shownIds batch).flatMap fun id => gather (recordsOf batch id) := by
  rw [← (gathers_gather batch).ids, List.flatMap_map]
  symm
  calc (gather batch).flatMap (fun g => gather (recordsOf batch g.id))
    _ = (gather batch).flatMap (fun g => [g]) :=
      List.flatMap_congr fun g hg => gather_recordsOf hg
    _ = gather batch := List.flatMap_singleton' _

theorem assemble_perm_finish (limits : Limits) (batch : Batch) : (assemble limits batch).Perm
    (((gather batch).map (Group.finish limits)).filter fun g =>
      limits.keepEmpty || !g.messages.isEmpty) :=
  List.mergeSort_perm _ _

theorem assemble_perm_recordsOf (limits : Limits) (batch : Batch) : (assemble limits batch).Perm
    ((shownIds batch).flatMap fun id => assemble limits (recordsOf batch id)) := by
  refine (assemble_perm_finish limits batch).trans ?_
  rw [gather_eq_flatMap, List.map_flatMap, List.filter_flatMap]
  exact List.Perm.flatMap_left _ fun id _ => (assemble_perm_finish limits (recordsOf batch id)).symm

/-- The ids of a batch, each once. -/
def conversations (batch : Batch) : List FederatedId := (batch.map (·.id)).eraseDups

/-- Assembling a batch gives the groups that assembling each conversation by itself gives. -/
def Separate (limits : Limits) (batch : Batch) : Prop :=
  (assemble limits batch).Perm
    ((conversations batch).flatMap fun i => assemble limits (batch.filter (·.id = i)))

theorem mem_conversations {i : FederatedId} : i ∈ conversations batch ↔ ∃ c ∈ batch, c.id = i := by
  simp [conversations]

section NoConfusion

variable (apart : ∀ c ∈ batch, ∀ d ∈ batch, ¬ c.id.Confusable d.id)

include apart

theorem eq_of_display_eq {c d : Conversation} (hc : c ∈ batch) (hd : d ∈ batch)
    (h : c.id.display = d.id.display) : c.id = d.id :=
  (FederatedId.eq_or_confusable h).resolve_right (apart c hc d hd)

theorem filter_id_eq_recordsOf {i : FederatedId} (hi : i ∈ conversations batch) :
    batch.filter (·.id = i) = recordsOf batch i.display := by
  obtain ⟨c, hc, rfl⟩ := mem_conversations.1 hi
  apply List.filter_congr
  intro d hd
  apply decide_eq_decide.2
  exact ⟨fun he => he ▸ rfl, eq_of_display_eq apart hd hc⟩

theorem shownIds_perm : (shownIds batch).Perm ((conversations batch).map FederatedId.display) := by
  have hnodup : ((conversations batch).map FederatedId.display).Nodup := by
    refine (nodup_eraseDups _).map_on ?_
    intro i hi j hj he
    obtain ⟨c, hc, rfl⟩ := mem_conversations.1 hi
    obtain ⟨d, hd, rfl⟩ := mem_conversations.1 hj
    exact eq_of_display_eq apart hc hd he
  rw [List.perm_ext_iff_of_nodup (nodup_shownIds batch) hnodup]
  intro id
  simp only [mem_shownIds, List.mem_map, mem_conversations]
  constructor
  · rintro ⟨c, hc, rfl⟩
    exact ⟨c.id, ⟨c, hc, rfl⟩, rfl⟩
  · rintro ⟨i, ⟨c, hc, rfl⟩, rfl⟩
    exact ⟨c, hc, rfl⟩

theorem separate_of_apart (limits : Limits) : Separate limits batch := by
  refine (assemble_perm_recordsOf limits batch).trans ?_
  refine ((shownIds_perm apart).flatMap_right _).trans ?_
  rw [List.flatMap_map]
  apply List.Perm.flatMap_left
  intro i hi
  rw [filter_id_eq_recordsOf apart hi]

end NoConfusion

/-- Where empty groups are kept, each conversation by itself has one group. -/
theorem ids_assemble_alone {i : FederatedId} (hi : i ∈ conversations batch) :
    (assemble .unlimited (batch.filter (·.id = i))).map Group.id = [i.display] := by
  apply eq_singleton_of_nodup (nodup_ids_assemble _ _)
  intro id
  rw [mem_ids_assemble]
  constructor
  · rintro ⟨⟨c, hc, rfl⟩, -⟩
    have he : c.id = i := by simpa using (List.mem_filter.1 hc).2
    rw [he]
  · rintro rfl
    obtain ⟨c, hc, rfl⟩ := mem_conversations.1 hi
    exact ⟨⟨c, List.mem_filter.2 ⟨hc, by simp⟩, rfl⟩, Or.inl rfl⟩

/-- Two ids that are shown alike have one group between them and a group each alone. -/
theorem apart_of_separate (h : Separate .unlimited batch) {c d : Conversation} (hc : c ∈ batch)
    (hd : d ∈ batch) : ¬ c.id.Confusable d.id := by
  intro hconfusable
  have hids := h.map Group.id
  rw [List.map_flatMap, List.flatMap_congr fun i hi => ids_assemble_alone hi] at hids
  have hnodup := hids.nodup_iff.1 (nodup_ids_assemble _ _)
  rw [← List.map_eq_flatMap] at hnodup
  apply hconfusable.ne
  apply List.inj_on_of_nodup_map hnodup
  · exact mem_conversations.2 ⟨c, hc, rfl⟩
  · exact mem_conversations.2 ⟨d, hd, rfl⟩
  · exact FederatedId.display_eq_iff.2 (Or.inr hconfusable)

/-- Conversations are kept apart in all batches but those that name two ids one of which runs on
into the domain of the other; these are the ids that are shown alike. -/
theorem separate_iff_not_confusable (batch : Batch) :
    ((∀ limits, Separate limits batch) ↔
      ∀ c ∈ batch, ∀ d ∈ batch, ¬ c.id.Confusable d.id) ∧
    ∀ a b : FederatedId, a.display = b.display ↔ a = b ∨ a.Confusable b := by
  refine ⟨⟨?_, fun apart limits => separate_of_apart apart limits⟩,
    fun a b => FederatedId.display_eq_iff⟩
  intro h c hc d hd
  exact apart_of_separate (h .unlimited) hc hd

/-- A conversation with Alice alone, and another whose id is shown in the same way. -/
def confused : Batch :=
  [⟨⟨"a@b", ""⟩, "Alice", true, [⟨⟨"Alice", none⟩, .ofMs 1 (by decide), .text "secret" false⟩]⟩,
    ⟨⟨"a", "b"⟩, "Team", false, []⟩]

/-- Alice's message is given under the name of the team. -/
theorem confused_not_separate :
    assemble .unlimited confused =
      [⟨"a@b", "Team", none, [⟨⟨"Alice", none⟩, 1, .text "secret" false⟩], false, 1⟩] ∧
    ¬ Separate .unlimited confused := by
  constructor
  · rw [assemble_eq_plain]
    cbv
  · intro h
    have hruns : FederatedId.RunsInto ⟨"a@b", ""⟩ ⟨"a", "b"⟩ :=
      Or.inl ⟨rfl, by decide, by decide⟩
    exact apart_of_separate h (.head _) (.tail _ (.head _)) (Or.inl hruns)

end Notifications
