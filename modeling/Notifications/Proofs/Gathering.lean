import Notifications.Proofs.Repeats
/-!
The index of a gathering always names the one place at which the group of an id stands, so gathering
is the same as looking through a plain list of groups.
-/
namespace Notifications

open Notice (Gathering Group byActivity byTime newest)

variable {id : String} {g : Group}

namespace Notice

/-- Merges a group into those of its id; a new id comes last. -/
def insertGroup (groups : List Group) (g : Group) : List Group :=
  if g.id ∈ groups.map Group.id then
    groups.map fun old => if old.id = g.id then old.merge g else old
  else groups ++ [g]

namespace Gathering

variable {s : Gathering} {place : Nat}

theorem mem_ids_of_place (h : s.places[id]? = some place) :
    id ∈ s.groups.toList.map Group.id := by
  obtain ⟨g, hg, rfl⟩ := Option.map_eq_some_iff.1 ((s.placed id place).1 h)
  exact List.mem_map_of_mem (Array.mem_toList_iff.2 (Array.mem_of_getElem? hg))

theorem notMem_ids_of_new (h : s.places[id]? = none) :
    id ∉ s.groups.toList.map Group.id := by
  intro hid
  obtain ⟨g, hg, rfl⟩ := List.mem_map.1 hid
  obtain ⟨place, hp⟩ := List.getElem?_of_mem hg
  have hplace := (s.placed g.id place).2 (by rw [← Array.getElem?_toList, hp]; rfl)
  rw [h] at hplace
  cases hplace

/-- The index gives every place at which an id stands, so there is only one. -/
theorem place_eq_iff {p : Nat} {old : Group} (h : s.places[id]? = some place)
    (hp : s.groups[p]? = some old) : old.id = id ↔ place = p := by
  have hplaced := s.placed id p
  rw [h, hp] at hplaced
  simpa [eq_comm] using hplaced.symm

theorem toList_modify_place (h : s.places[g.id]? = some place) :
    (s.groups.modify place (·.merge g)).toList =
      s.groups.toList.map fun old => if old.id = g.id then old.merge g else old := by
  rw [Array.toList_modify]
  apply List.ext_getElem?
  intro p
  rw [List.getElem?_modify, List.getElem?_map, Array.getElem?_toList]
  cases hp : s.groups[p]? with
  | none => rfl
  | some old =>
    have hid := place_eq_iff h hp
    by_cases hplace : place = p
    · simp [hplace, hid.2 hplace]
    · simp [hplace, mt hid.1 hplace]

theorem toList_add (s : Gathering) (g : Group) :
    (s.add g).groups.toList = insertGroup s.groups.toList g := by
  rw [add, insertGroup]
  split
  · rename_i place h
    rw [if_pos (mem_ids_of_place h)]
    exact toList_modify_place h
  · rename_i h
    rw [if_neg (notMem_ids_of_new h)]
    exact Array.toList_push

end Gathering

end Notice

theorem gather_concat (batch : Batch) (c : Record.Conversation) :
    gather (batch ++ [c]) = Notice.insertGroup (gather batch) c.group := by
  simp only [gather, gathering, List.foldl_append, List.foldl_cons, List.foldl_nil]
  exact Gathering.toList_add _ _

theorem gather_eq_foldl (batch : Batch) :
    gather batch = batch.foldl (fun groups c => Notice.insertGroup groups c.group) [] := by
  induction batch using List.reverseRecOn with
  | nil => rfl
  | append_singleton batch c ih =>
    rw [gather_concat, ih, List.foldl_append, List.foldl_cons, List.foldl_nil]

/-- Assembling without index and without a set of messages met, by which it can be computed. -/
theorem assemble_eq_plain (limits : Limits) (batch : Batch) : assemble limits batch =
    byActivity (((batch.foldl (fun groups c => Notice.insertGroup groups c.group) []).map fun g =>
      { g with messages := newest limits.maxMessages.toNat (byTime g.messages.eraseDups) }).filter
        fun g => limits.keepEmpty || !g.messages.isEmpty) := by
  have hfinish : Group.finish limits = fun g : Group =>
      { g with messages := newest limits.maxMessages.toNat (byTime g.messages.eraseDups) } := by
    funext g
    rw [Group.finish, Notice.dropRepeats_eq_eraseDups]
  rw [assemble, gather_eq_foldl, hfinish]

end Notifications
