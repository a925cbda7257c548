import Notifications.Proofs.Separation
/-!
Batches that come to the same wherever they stand: they show the same ids in the same order, and the
records of each id merge alike. What is handed over before and behind them does not matter.
-/
namespace Notifications

open Notice (Group Message latest_le_iff)
open Record (Conversation)

variable {records more others others' : List Conversation} {batch other next next' : Batch}
  {g h : Group} {limits : Limits} {id : String} {c : Conversation} {t : Int64}

/-- The name and form that a group has from its records. -/
def heading? (records : List Conversation) : Option (String × Bool) :=
  records.getLast?.map fun c => (c.name, c.oneToOne)

theorem heading?_append (records more : List Conversation) :
    heading? (records ++ more) = (heading? more).or (heading? records) := by
  rw [heading?, List.getLast?_append, heading?, heading?]
  cases more.getLast? <;> rfl

theorem noticesIn_append (records more : List Conversation) :
    noticesIn (records ++ more) = noticesIn records ++ noticesIn more :=
  List.flatMap_append

/-- A record with messages is as late as the latest of them. -/
theorem group_lastTime_le_iff (hc : c.messages ≠ []) :
    c.group.lastTime ≤ t ↔ ∀ m ∈ c.messages, m.time.ms ≤ t := by
  have htimes : c.messages.map (·.time.ms) ≠ [] := by simpa using hc
  rw [Conversation.group, latest_le_iff htimes, List.forall_mem_map]

namespace MergedFrom

theorem heading (hg : MergedFrom records g) : heading? records = some (g.name, g.oneToOne) := by
  obtain ⟨c, hlast, hname, hform⟩ := hg.last
  rw [heading?, hlast, hname, hform]
  rfl

theorem lastTime_le_iff (hg : MergedFrom records g) :
    g.lastTime ≤ t ↔ ∀ c ∈ records, c.group.lastTime ≤ t := by
  have hne : records.map (·.group.lastTime) ≠ [] := by simpa using hg.ne_nil
  rw [hg.lastTime, latest_le_iff hne, List.forall_mem_map]

end MergedFrom

theorem heading?_of_mem_assemble (hg : g ∈ assemble limits batch) :
    heading? (recordsOf batch g.id) = some (g.name, g.oneToOne) := by
  obtain ⟨h, hmerged, rfl⟩ := exists_merged hg
  exact hmerged.heading

/-- Two series of records merge into the same group but for repeats, which finishing drops. -/
structure Alike (records others : List Conversation) : Prop where
  heading : heading? records = heading? others
  notices : (noticesIn records).eraseDups = (noticesIn others).eraseDups
  -- By bounds, which join where series are joined; the latest of no records would be zero.
  lastTime : ∀ t, (∀ c ∈ records, c.group.lastTime ≤ t) ↔ ∀ c ∈ others, c.group.lastTime ≤ t

namespace Alike

theorem refl (records : List Conversation) : Alike records records := ⟨rfl, rfl, fun _ => Iff.rfl⟩

theorem append (alike : Alike records others) (alike' : Alike more others') :
    Alike (records ++ more) (others ++ others') where
  heading := by rw [heading?_append, heading?_append, alike.heading, alike'.heading]
  notices := by
    rw [noticesIn_append, noticesIn_append]
    exact eraseDups_append_congr alike.notices alike'.notices
  lastTime t := by
    rw [List.forall_mem_append, List.forall_mem_append, alike.lastTime, alike'.lastTime]

/-- Records that have come before add nothing if the last of them is headed as the last before. -/
theorem append_known (known : ∀ c ∈ more, c ∈ records)
    (current : more ≠ [] → heading? more = heading? records) : Alike (records ++ more) records where
  heading := by
    rw [heading?_append]
    by_cases hmore : more = []
    · rw [hmore]
      rfl
    · rw [current hmore, Option.or_self]
  notices := by
    rw [noticesIn_append]
    apply eraseDups_append_of_subset
    intro m hm
    obtain ⟨c, hc, hmc⟩ := List.mem_flatMap.1 hm
    exact List.mem_flatMap.2 ⟨c, known c hc, hmc⟩
  lastTime t := by
    rw [List.forall_mem_append]
    exact ⟨And.left, fun h => ⟨h, fun c hc => h c (known c hc)⟩⟩

theorem lastTime_eq (alike : Alike records others) (hg : MergedFrom records g)
    (hh : MergedFrom others h) : g.lastTime = h.lastTime := by
  have hbounds : ∀ t, g.lastTime ≤ t ↔ h.lastTime ≤ t := by
    intro t
    rw [hg.lastTime_le_iff, hh.lastTime_le_iff]
    exact alike.lastTime t
  apply Int64.le_antisymm
  · exact (hbounds _).2 (Int64.le_refl _)
  · exact (hbounds _).1 (Int64.le_refl _)

theorem finish_eq (alike : Alike records others) (hg : MergedFrom records g)
    (hh : MergedFrom others h) (hid : g.id = h.id) (limits : Limits) :
    g.finish limits = h.finish limits := by
  have hheading : some (g.name, g.oneToOne) = some (h.name, h.oneToOne) := by
    rw [← hg.heading, ← hh.heading, alike.heading]
  have himage : g.image = h.image := hg.image.trans hh.image.symm
  have htime : g.lastTime = h.lastTime := alike.lastTime_eq hg hh
  have hmessages : (g.finish limits).messages = (h.finish limits).messages := by
    rw [hg.messages_finish, hh.messages_finish, alike.notices]
  cases g
  cases h
  simp_all [Group.finish]

end Alike

/-- Batches that can be put for one another. -/
structure Interchangeable (batch other : Batch) : Prop where
  ids : shownIds batch = shownIds other
  alike : ∀ id, Alike (recordsOf batch id) (recordsOf other id)

namespace Interchangeable

theorem refl (batch : Batch) : Interchangeable batch batch := ⟨rfl, fun _ => .refl _⟩

theorem append (h : Interchangeable batch other) (h' : Interchangeable next next') :
    Interchangeable (batch ++ next) (other ++ next') where
  ids := by
    rw [shownIds, shownIds, List.map_append, List.map_append]
    exact eraseDups_append_congr h.ids h'.ids
  alike id := by
    rw [recordsOf_append, recordsOf_append]
    exact (h.alike id).append (h'.alike id)

theorem finish_alone (h : Interchangeable batch other) (limits : Limits)
    (hid : id ∈ shownIds batch) : (gather (recordsOf batch id)).map (Group.finish limits) =
      (gather (recordsOf other id)).map (Group.finish limits) := by
  have hbatch := gathers_gather batch
  have hother := gathers_gather other
  have hid' : id ∈ shownIds other := h.ids ▸ hid
  rw [← hbatch.ids] at hid
  rw [← hother.ids] at hid'
  obtain ⟨g, hg, rfl⟩ := List.mem_map.1 hid
  obtain ⟨g', hg', hsame⟩ := List.mem_map.1 hid'
  have halone := gather_recordsOf hg'
  have hmerged := hother.merged g' hg'
  rw [hsame] at halone hmerged
  rw [gather_recordsOf hg, halone, List.map_singleton, List.map_singleton]
  rw [(h.alike g.id).finish_eq (hbatch.merged g hg) hmerged hsame.symm limits]

theorem finish_gather (h : Interchangeable batch other) (limits : Limits) :
    (gather batch).map (Group.finish limits) = (gather other).map (Group.finish limits) := by
  rw [gather_eq_flatMap batch, gather_eq_flatMap other, List.map_flatMap, List.map_flatMap, ← h.ids]
  exact List.flatMap_congr fun id hid => h.finish_alone limits hid

theorem assemble_eq (h : Interchangeable batch other) (limits : Limits) :
    assemble limits batch = assemble limits other := by
  rw [assemble, h.finish_gather limits, ← assemble]

end Interchangeable

end Notifications
