/-!
Texts by name. The entries are kept in the order of their names, each name once, so that two
dictionaries are equal exactly when they give the same text for every name.
-/
namespace Notifications.Data

/-- Puts an entry at its place; an entry of the same name gives way. -/
def insertEntry (name value : String) : List (String × String) → List (String × String)
  | [] => [(name, value)]
  | e :: r =>
    if name < e.1 then (name, value) :: e :: r
    else if e.1 < name then e :: insertEntry name value r
    else (name, value) :: r

theorem mem_insertEntry {name value : String} {l : List (String × String)} {e : String × String}
    (h : e ∈ insertEntry name value l) : e = (name, value) ∨ e ∈ l := by
  induction l with
  | nil => simpa [insertEntry] using h
  | cons a r ih =>
    simp only [insertEntry] at h
    split at h
    · simpa using h
    · split at h
      · rcases List.mem_cons.1 h with h | h
        · exact .inr (h ▸ List.mem_cons_self)
        · exact (ih h).imp_right (List.mem_cons_of_mem a)
      · rcases List.mem_cons.1 h with h | h
        · exact .inl h
        · exact .inr (List.mem_cons_of_mem a h)

def Ordered (l : List (String × String)) : Prop := l.Pairwise fun a b => a.1 < b.1

theorem ordered_insertEntry {name value : String} {l : List (String × String)} (h : Ordered l) :
    Ordered (insertEntry name value l) := by
  unfold Ordered at h ⊢
  induction l with
  | nil => simp [insertEntry]
  | cons a r ih =>
    obtain ⟨ha, hr⟩ := List.pairwise_cons.1 h
    simp only [insertEntry]
    split
    · rename_i lt
      refine List.pairwise_cons.2 ⟨fun e he => ?_, h⟩
      rcases List.mem_cons.1 he with rfl | he
      · exact lt
      · exact String.lt_trans lt (ha e he)
    · split
      · rename_i gt
        refine List.pairwise_cons.2 ⟨fun e he => ?_, ih hr⟩
        rcases mem_insertEntry he with rfl | he
        · exact gt
        · exact ha e he
      · rename_i nlt ngt
        have same : a.1 = name := String.le_antisymm nlt ngt
        exact List.pairwise_cons.2 ⟨fun e he => same ▸ ha e he, hr⟩

structure Dictionary where
  entries : List (String × String)
  ordered : Ordered entries
  deriving DecidableEq

namespace Dictionary

def empty : Dictionary := ⟨[], List.Pairwise.nil⟩

def insert (d : Dictionary) (name value : String) : Dictionary :=
  ⟨insertEntry name value d.entries, ordered_insertEntry d.ordered⟩

/-- Of several entries with one name the last stays. -/
def ofList (l : List (String × String)) : Dictionary :=
  l.foldl (fun d e => d.insert e.1 e.2) empty

def get? (d : Dictionary) (name : String) : Option String := d.entries.lookup name

def names (d : Dictionary) : List String := d.entries.map (·.1)

def size (d : Dictionary) : Nat := d.entries.length

theorem lookup_cons (k v key : String) (l : List (String × String)) :
    List.lookup key ((k, v) :: l) = if key = k then some v else l.lookup key := by
  by_cases h : key = k
  · simp [h]
  · simp [List.lookup_cons, beq_false_of_ne h, h]

theorem lookup_insertEntry (name value key : String) (l : List (String × String)) :
    (insertEntry name value l).lookup key = if key = name then some value else l.lookup key := by
  induction l with
  | nil => simp [insertEntry]
  | cons a r ih =>
    obtain ⟨k, v⟩ := a
    simp only [insertEntry]
    split
    · simp [lookup_cons]
    · split
      · rename_i gt
        have ne : k ≠ name := fun e => String.lt_irrefl _ (e ▸ gt)
        simp only [lookup_cons, ih]
        grind
      · rename_i nlt ngt
        have same : k = name := String.le_antisymm nlt ngt
        simp only [lookup_cons]
        grind

theorem get?_insert (d : Dictionary) (name value key : String) :
    (d.insert name value).get? key = if key = name then some value else d.get? key :=
  lookup_insertEntry name value key d.entries

end Dictionary

end Notifications.Data
