import Notifications.Proofs.GroupMessages
/-!
Which groups a batch brings and in which order: one for each id shown, the latest activity first,
and at one time in the order of the batch.
-/
namespace Notifications

open Notice (Group byActivity)

variable {batch : Batch} {limits : Limits} {id : String} {g : Group}

namespace Notice

/-- Sorting by activity keeps what holds between earlier and later groups where times are equal. -/
theorem pairwise_byActivity {groups : List Group} {R : Group → Group → Prop}
    (h : groups.Pairwise R) : (byActivity groups).Pairwise fun a b =>
      b.lastTime < a.lastTime ∨ b.lastTime = a.lastTime ∧ R a b := by
  have trans : ∀ x y z : Int64, y ≤ x → z ≤ y → z ≤ x :=
    fun _ _ _ hyx hzy => Int64.le_trans hzy hyx
  have total : ∀ x y : Int64, y ≤ x ∨ x ≤ y := fun x y => Int64.le_total y x
  have hsorted := pairwise_mergeSort_key Group.lastTime trans total groups
  rw [byActivity, List.pairwise_iff_forall_sublist]
  intro a b hab
  have hle : b.lastTime ≤ a.lastTime := List.pairwise_iff_forall_sublist.1 hsorted hab
  by_cases heq : b.lastTime = a.lastTime
  · right
    refine ⟨heq, List.pairwise_iff_forall_sublist.1 h ?_⟩
    -- Groups of one time are a part of the list that sorting has left alone.
    have hpart := hab.filter (·.lastTime = a.lastTime)
    rw [filter_mergeSort_key Group.lastTime trans total] at hpart
    simp only [List.filter_cons, heq, decide_true, if_true, List.filter_nil] at hpart
    exact hpart.trans List.filter_sublist
  · exact Or.inl (Int64.lt_of_le_of_ne hle heq)

end Notice

/-- The place in the batch of the first record shown under an id. -/
def firstPlace (batch : Batch) (id : String) : Nat := (batch.map (·.id.display)).idxOf id

/-- The groups that are kept, before they are sorted. -/
theorem pairwise_finish (limits : Limits) (batch : Batch) (p : Group → Bool) :
    (((gather batch).map (Group.finish limits)).filter p).Pairwise fun a b =>
      firstPlace batch a.id < firstPlace batch b.id := by
  have hids := pairwise_idxOf_eraseDups (batch.map (·.id.display))
  rw [← shownIds, ← (gathers_gather batch).ids, List.pairwise_map] at hids
  have hfinished : ((gather batch).map (Group.finish limits)).Pairwise fun a b =>
      firstPlace batch a.id < firstPlace batch b.id := by
    rw [List.pairwise_map]
    exact hids
  exact hfinished.sublist List.filter_sublist

theorem mem_ids_assemble : id ∈ (assemble limits batch).map Group.id ↔
    (∃ c ∈ batch, c.id.display = id) ∧
      (limits.keepEmpty ∨ ∃ c ∈ batch, c.id.display = id ∧ c.messages ≠ []) := by
  have hgather := gathers_gather batch
  constructor
  · intro hid
    obtain ⟨g, hg, rfl⟩ := List.mem_map.1 hid
    obtain ⟨h, hh, rfl, hkept⟩ := mem_assemble.1 hg
    rw [(hgather.merged h hh).finish_ne_nil] at hkept
    have hshown := id_mem_shownIds hh
    refine ⟨mem_shownIds.1 hshown, hkept.imp_right ?_⟩
    rintro ⟨c, hc, hne⟩
    exact ⟨c, (mem_recordsOf.1 hc).1, (mem_recordsOf.1 hc).2, hne⟩
  · rintro ⟨hshown, hkept⟩
    have hid : id ∈ (gather batch).map Group.id := hgather.ids ▸ mem_shownIds.2 hshown
    obtain ⟨h, hh, rfl⟩ := List.mem_map.1 hid
    apply List.mem_map.2
    refine ⟨h.finish limits, mem_assemble.2 ⟨h, hh, rfl, hkept.imp_right ?_⟩, rfl⟩
    rintro ⟨c, hc, hshow, hne⟩
    exact (hgather.merged h hh).finish_ne_nil.2 ⟨c, mem_recordsOf.2 ⟨hc, hshow⟩, hne⟩

theorem pairwise_assemble (limits : Limits) (batch : Batch) :
    (assemble limits batch).Pairwise fun a b => b.lastTime < a.lastTime ∨
      b.lastTime = a.lastTime ∧ firstPlace batch a.id < firstPlace batch b.id :=
  Notice.pairwise_byActivity (pairwise_finish limits batch _)

theorem nodup_ids_assemble (limits : Limits) (batch : Batch) :
    ((assemble limits batch).map Group.id).Nodup := by
  rw [assemble, byActivity, ((List.mergeSort_perm _ _).map Group.id).nodup_iff, List.Nodup,
    List.pairwise_map]
  refine (pairwise_finish limits batch _).imp ?_
  intro a b hab hid
  rw [hid] at hab
  exact Nat.lt_irrefl _ hab

/-- One group for each id of the batch whose records have messages or that is kept without; the name
and form are those of its last record. -/
theorem assemble_groups (limits : Limits) (batch : Batch) :
    (∀ id, id ∈ (assemble limits batch).map Group.id ↔ (∃ c ∈ batch, c.id.display = id) ∧
      (limits.keepEmpty ∨ ∃ c ∈ batch, c.id.display = id ∧ c.messages ≠ [])) ∧
    ((assemble limits batch).map Group.id).Nodup ∧
    (∀ g ∈ assemble limits batch, ∃ c, (recordsOf batch g.id).getLast? = some c ∧
      g.name = c.name ∧ g.oneToOne = c.oneToOne) ∧
    (assemble limits batch).Pairwise fun a b => b.lastTime < a.lastTime ∨
      b.lastTime = a.lastTime ∧ firstPlace batch a.id < firstPlace batch b.id := by
  refine ⟨fun id => mem_ids_assemble, nodup_ids_assemble limits batch, ?_,
    pairwise_assemble limits batch⟩
  intro g hg
  obtain ⟨h, hmerged, rfl⟩ := exists_merged hg
  exact hmerged.last

end Notifications
