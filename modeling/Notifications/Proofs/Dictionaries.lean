import Mathlib.Data.List.Perm.Basic
import Notifications.Proofs.Slots
/-! Dictionaries from lists of entries: where each name stands once, the order of the list does not
matter. -/
namespace Notifications.Data

variable {name value : String} {l : List (String × String)} {d : Dictionary}

theorem insertEntry_perm (h : name ∉ l.map (·.1)) :
    (insertEntry name value l).Perm ((name, value) :: l) := by
  induction l with
  | nil => exact List.Perm.refl _
  | cons e l ih =>
    obtain ⟨hne, hrest⟩ := not_or.1 (mt List.mem_cons.2 h)
    rw [insertEntry]
    split
    · exact List.Perm.refl _
    · split
      · exact ((ih hrest).cons e).trans (List.Perm.swap _ _ _)
      · rename_i hlt hgt
        exact absurd (String.le_antisymm hgt hlt) hne

theorem ordered_filter {keep : String × String → Bool} (h : Ordered l) : Ordered (l.filter keep) :=
  List.Pairwise.filter keep h

namespace Dictionary

theorem nodup_names (d : Dictionary) : d.names.Nodup := by
  rw [names, List.Nodup, List.pairwise_map]
  refine d.ordered.imp ?_
  intro a b hlt heq
  rw [heq] at hlt
  exact String.lt_irrefl _ hlt

theorem ext_of_perm {d' : Dictionary} (h : d.entries.Perm d'.entries) : d = d' := by
  obtain ⟨entries, ordered⟩ := d
  obtain ⟨entries', ordered'⟩ := d'
  obtain rfl : entries = entries' := by
    apply h.eq_of_pairwise _ ordered ordered'
    intro a b _ _ hab hba
    exact absurd (String.lt_trans hab hba) (String.lt_irrefl _)
  rfl

theorem entries_foldl_insert (h : ((d.entries ++ l).map (·.1)).Nodup) :
    (l.foldl (fun d e => d.insert e.1 e.2) d).entries.Perm (d.entries ++ l) := by
  induction l generalizing d with
  | nil =>
    rw [List.append_nil]
    exact List.Perm.refl _
  | cons e l ih =>
    have hinsert : (d.insert e.1 e.2).entries.Perm (e :: d.entries) :=
      insertEntry_perm (notMem_of_nodup h)
    have hall : ((d.insert e.1 e.2).entries ++ l).Perm (d.entries ++ e :: l) :=
      (hinsert.append_right l).trans List.perm_middle.symm
    exact (ih (((hall.map _).nodup_iff).2 h)).trans hall

/-- The entries of a dictionary in any order make it again. -/
theorem ofList_of_perm (h : l.Perm d.entries) : ofList l = d := by
  have hnodup : ((empty.entries ++ l).map (·.1)).Nodup := ((h.map _).nodup_iff).2 d.nodup_names
  exact ext_of_perm ((entries_foldl_insert hnodup).trans h)

/-- The entries of other names. -/
def without (d : Dictionary) (names : List String) : Dictionary :=
  ⟨Data.without names d.entries, ordered_filter d.ordered⟩

theorem get?_without (d : Dictionary) (names : List String) (name : String) :
    (d.without names).get? name = if name ∈ names then none else d.get? name :=
  lookup_without names d.entries name

end Dictionary

end Notifications.Data
