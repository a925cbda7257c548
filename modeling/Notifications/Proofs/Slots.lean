import Notifications.Data.Schema
/-!
What the values met so far come to in a record, whatever their order: each fills the slot of its
field, once, and at the end the fields that were not met take their defaults.
-/
namespace Notifications.Data

section Lookup

variable {ν : Type}

theorem lookup_concat (l : List (String × ν)) (name : String) (v : ν) (key : String) :
    (l ++ [(name, v)]).lookup key = (l.lookup key).or (if key = name then some v else none) := by
  rw [List.lookup_append]
  by_cases h : key = name
  · rw [h, List.lookup_cons_self, if_pos rfl]
  · rw [List.lookup_cons, beq_false_of_ne h, if_neg h]
    rfl

theorem lookup_eq_none {l : List (String × ν)} {name : String} :
    l.lookup name = none ↔ name ∉ l.map (·.1) := by
  rw [List.lookup_eq_none_iff, List.mem_map]
  constructor
  · rintro h ⟨f, hf, rfl⟩
    simpa using h f hf
  · intro h f hf
    have hne : name ≠ f.1 := fun he => h ⟨f, hf, he.symm⟩
    simpa using hne

theorem lookup_map_const (v : ν) (names : List String) (key : String) :
    (names.map fun name => (name, v)).lookup key = if key ∈ names then some v else none := by
  induction names with
  | nil => rfl
  | cons name names ih =>
    rw [List.map_cons, List.lookup_cons, ih]
    by_cases h : key = name
    · simp [h]
    · simp [h, beq_false_of_ne h]

theorem lookup_filter (keep : String → Bool) (l : List (String × ν)) (key : String) :
    (l.filter fun f => keep f.1).lookup key = if keep key then l.lookup key else none := by
  induction l with
  | nil => exact (ite_self none).symm
  | cons f l ih =>
    obtain ⟨first, v⟩ := f
    cases hfirst : keep first with
    | false =>
      rw [List.filter_cons_of_neg (by simp [hfirst]), ih, List.lookup_cons]
      by_cases hkey : key = first
      · simp [hkey, hfirst]
      · rw [beq_false_of_ne hkey]
    | true =>
      rw [List.filter_cons_of_pos (by simpa using hfirst), List.lookup_cons, List.lookup_cons, ih]
      by_cases hkey : key = first
      · simp [hkey, hfirst]
      · rw [beq_false_of_ne hkey]

theorem lookup_filter_ne {name key : String} (h : key ≠ name) (l : List (String × ν)) :
    (l.filter (·.1 ≠ name)).lookup key = l.lookup key := by
  refine (lookup_filter (· ≠ name) l key).trans ?_
  simp [h]

/-- The entries of other names. -/
def without (names : List String) (l : List (String × ν)) : List (String × ν) :=
  l.filter fun f => f.1 ∉ names

theorem lookup_without (names : List String) (l : List (String × ν)) (key : String) :
    (without names l).lookup key = if key ∈ names then none else l.lookup key := by
  refine (lookup_filter (fun key => key ∉ names) l key).trans ?_
  by_cases h : key ∈ names <;> simp [h]

theorem mem_of_mem_without {names : List String} {l : List (String × ν)} {e : String × ν}
    (h : e ∈ without names l) :
    e ∈ l := (List.mem_filter.1 h).1

theorem without_nil (l : List (String × ν)) : without [] l = l := by simp [without]

theorem without_append (names : List String) (l l' : List (String × ν)) :
    without names (l ++ l') = without names l ++ without names l' := List.filter_append l l'

theorem map_without {μ : Type} (names : List String) (f : ν → μ) (l : List (String × ν)) :
    (without names l).map (fun e => (e.1, f e.2)) =
      without names (l.map fun e => (e.1, f e.2)) := by
  rw [without, without, List.filter_map]
  rfl

theorem without_sublist (names : List String) (l : List (String × ν)) :
    List.Sublist ((without names l).map (·.1)) (l.map (·.1)) := List.filter_sublist.map _

/-- Where each name stands once, none stands before its own place. -/
theorem notMem_of_nodup {before rest : List (String × ν)} {f : String × ν}
    (h : ((before ++ f :: rest).map (·.1)).Nodup) : f.1 ∉ before.map (·.1) := by
  intro hmem
  rw [List.map_append, List.map_cons] at h
  exact (List.nodup_append.1 h).2.2 f.1 hmem f.1 List.mem_cons_self rfl

end Lookup

section Results

variable {ε α β : Type} {x : Except ε α} {b : β}

theorem bind_eq_ok {k : α → Except ε β} : x >>= k = .ok b ↔ ∃ a, x = .ok a ∧ k a = .ok b := by
  cases x with
  | error e => exact ⟨nofun, fun ⟨_, h, _⟩ => nomatch h⟩
  | ok a => exact ⟨fun h => ⟨a, rfl, h⟩, fun ⟨_, rfl, h⟩ => h⟩

theorem map_eq_ok {k : α → β} : x.map k = .ok b ↔ ∃ a, x = .ok a ∧ k a = b := by
  cases x with
  | error e => exact ⟨nofun, fun ⟨_, h, _⟩ => nomatch h⟩
  | ok a => exact ⟨fun h => ⟨a, rfl, Except.ok.inj h⟩, fun ⟨_, rfl, h⟩ => congrArg Except.ok h⟩

end Results

namespace Field

variable {ν α : Type} (name : String) (read : ν → Except Error α) (value : α)

@[simp] theorem required_name : (required name read).name = name := rfl

@[simp] theorem required_read : (required name read).read = read := rfl

@[simp] theorem required_absent : (required name read).absent = none := rfl

@[simp] theorem withDefault_name : (withDefault name read value).name = name := rfl

@[simp] theorem withDefault_read : (withDefault name read value).read = read := rfl

@[simp] theorem withDefault_absent : (withDefault name read value).absent = some value := rfl

/-- The value of a field is read, or it is left out and has its default. -/
def Takes (field : Field ν α) (a : α) : Option ν → Prop
  | some v => field.read v = .ok a
  | none => field.absent = some a

end Field

namespace Schema

variable {ν : Type} {ts : List Type} {name : String} {v : ν} {find : String → Option ν}

/-- The names of the fields. -/
@[simp] def names {ts : List Type} : Schema ν ts → List String
  | done => []
  | field f rest => f.name :: rest.names

/-- The slots once all values that `find` gives have been met. -/
def filled (find : String → Option ν) {ts : List Type} : Schema ν ts → Slots ts
  | done => ()
  | field f rest => ((find f.name).bind fun v => (f.read v).toOption, rest.filled find)

/-- The row has the value of each field that `find` gives, and the default of every other. -/
@[simp] def Reads (find : String → Option ν) {ts : List Type} : Schema ν ts → Row ts → Prop
  | done, _ => True
  | field f rest, (a, row) =>
    (match find f.name with
      | some v => f.read v = .ok a
      | none => f.absent = some a) ∧ rest.Reads find row

/-- The row has the default of each field that is named. -/
@[simp] def Defaults (names : List String) {ts : List Type} : Schema ν ts → Row ts → Prop
  | done, _ => True
  | field f rest, (a, row) => (f.name ∈ names → f.absent = some a) ∧ rest.Defaults names row

/-- A row is read as well if fields that have their defaults are left out. -/
theorem Reads.without {schema : Schema ν ts} {row : Row ts} {names : List String}
    {l : List (String × ν)}
    (reads : schema.Reads (fun key => l.lookup key) row) (defaults : schema.Defaults names row) :
    schema.Reads (fun key => (Data.without names l).lookup key) row := by
  induction schema with
  | done => trivial
  | field f rest ih =>
    obtain ⟨a, row⟩ := row
    refine ⟨?_, ih reads.2 defaults.2⟩
    dsimp only
    rw [lookup_without]
    by_cases h : f.name ∈ names
    · rw [if_pos h]
      exact defaults.1 h
    · rw [if_neg h]
      exact reads.1

/-- What `find` gives, and one value more. -/
def extend (find : String → Option ν) (name : String) (v : ν) (key : String) : Option ν :=
  (find key).or (if key = name then some v else none)

theorem extend_self (h : find name = none) : extend find name v name = some v := by
  rw [extend, h, if_pos rfl, Option.none_or]

theorem extend_of_ne {key : String} (h : key ≠ name) : extend find name v key = find key := by
  rw [extend, if_neg h, Option.or_none]

theorem filled_none (schema : Schema ν ts) : schema.filled (fun _ => none) = schema.empty := by
  induction schema with
  | done => rfl
  | field f rest ih => rw [filled, empty, ih]; rfl

theorem isFilled_filled (schema : Schema ν ts) (h : find name = none) :
    schema.isFilled name (schema.filled find) = false := by
  induction schema with
  | done => rfl
  | field f rest ih =>
    rw [filled, isFilled]
    split
    · rename_i hf
      rw [hf, h]
      rfl
    · exact ih

theorem isFilled_of_notMem {schema : Schema ν ts} (h : name ∉ schema.names) (slots : Slots ts) :
    schema.isFilled name slots = false := by
  induction schema with
  | done => rfl
  | field f rest ih =>
    obtain ⟨hf, hrest⟩ := not_or.1 (mt List.mem_cons.2 h)
    obtain ⟨slot, slots⟩ := slots
    rw [isFilled, if_neg (Ne.symm hf), ih hrest]

theorem fill_of_notMem {schema : Schema ν ts} (h : name ∉ schema.names) (slots : Slots ts) :
    schema.fill name v slots = none := by
  induction schema with
  | done => rfl
  | field f rest ih =>
    obtain ⟨hf, hrest⟩ := not_or.1 (mt List.mem_cons.2 h)
    obtain ⟨slot, slots⟩ := slots
    rw [fill, if_neg (Ne.symm hf), ih hrest]
    rfl

theorem filled_extend_of_notMem {schema : Schema ν ts} (h : name ∉ schema.names) :
    schema.filled (extend find name v) = schema.filled find := by
  induction schema with
  | done => rfl
  | field f rest ih =>
    obtain ⟨hf, hrest⟩ := not_or.1 (mt List.mem_cons.2 h)
    rw [filled, filled, ih hrest, extend_of_ne (Ne.symm hf)]

/-- A value that is met fills its slot and no other. -/
theorem fill_of_mem {schema : Schema ν ts} {row : Row ts} {all : String → Option ν}
    (distinct : schema.names.Nodup) (reads : schema.Reads all row) (hv : all name = some v)
    (h : name ∈ schema.names) (new : find name = none) :
    schema.fill name v (schema.filled find) = some (.ok (schema.filled (extend find name v))) := by
  induction schema with
  | done => cases h
  | field f rest ih =>
    obtain ⟨a, row⟩ := row
    obtain ⟨hread, hrest⟩ := reads
    obtain ⟨hf, distinct⟩ := List.nodup_cons.1 distinct
    rw [filled, fill]
    split
    · rename_i heq
      subst heq
      rw [hv] at hread
      rw [filled, filled_extend_of_notMem hf, extend_self new, Option.bind_some]
      simp only [hread]
      rfl
    · rename_i hne
      have hmem : name ∈ rest.names := (List.mem_cons.1 h).resolve_left (Ne.symm hne)
      rw [ih distinct hrest hmem, filled, extend_of_ne hne]
      rfl

theorem finish_filled {schema : Schema ν ts} {row : Row ts} (reads : schema.Reads find row) :
    schema.finish (schema.filled find) = .ok row := by
  induction schema with
  | done => rfl
  | field f rest ih =>
    obtain ⟨a, row⟩ := row
    obtain ⟨hread, hrest⟩ := reads
    have hslot : (((find f.name).bind fun v => (f.read v).toOption) <|> f.absent) = some a := by
      split at hread
      · rename_i v hv
        rw [hv, Option.bind_some, hread]
        rfl
      · rename_i hnone
        rw [hnone, hread]
        rfl
    rw [filled, finish]
    simp only [hslot, ih hrest]
    rfl

/-- The row has no values but those that its fields read or have by default. -/
@[simp] def Yields {ts : List Type} : Schema ν ts → Row ts → Prop
  | done, _ => True
  | field f rest, (a, row) => ((∃ v, f.read v = .ok a) ∨ f.absent = some a) ∧ rest.Yields row

/-- The slots have no values but those that their fields read. -/
def Holds {ts : List Type} : Schema ν ts → Slots ts → Prop
  | done, _ => True
  | field f rest, (slot, slots) => (∀ a, slot = some a → ∃ v, f.read v = .ok a) ∧ rest.Holds slots

theorem holds_empty (schema : Schema ν ts) : schema.Holds schema.empty := by
  induction schema with
  | done => trivial
  | field f rest ih =>
    rw [empty]
    exact ⟨nofun, ih⟩

theorem holds_fill {schema : Schema ν ts} {slots slots' : Slots ts}
    (h : schema.fill name v slots = some (.ok slots')) (hslots : schema.Holds slots) :
    schema.Holds slots' := by
  induction schema with
  | done => cases h
  | field f rest ih =>
    obtain ⟨slot, slots⟩ := slots
    obtain ⟨hslot, hrest⟩ := hslots
    rw [fill] at h
    split at h
    · obtain ⟨a, hread, rfl⟩ := map_eq_ok.1 (Option.some.inj h)
      exact ⟨fun b hb => ⟨v, hread.trans (congrArg Except.ok (Option.some.inj hb))⟩, hrest⟩
    · obtain ⟨r, hr, hmap⟩ := Option.map_eq_some_iff.1 h
      obtain ⟨more, rfl, rfl⟩ := map_eq_ok.1 hmap
      exact ⟨hslot, ih hr hrest⟩

theorem yields_finish {schema : Schema ν ts} {slots : Slots ts} {row : Row ts}
    (h : schema.finish slots = .ok row) (hslots : schema.Holds slots) : schema.Yields row := by
  induction schema with
  | done => trivial
  | field f rest ih =>
    obtain ⟨slot, slots⟩ := slots
    obtain ⟨hslot, hrest⟩ := hslots
    rw [finish] at h
    split at h
    · cases h
    · rename_i a ha
      obtain ⟨more, hfinish, rfl⟩ := map_eq_ok.1 h
      refine ⟨?_, ih hfinish hrest⟩
      cases slot with
      | none => exact .inr ha
      | some b => exact .inl (hslot a ha)

theorem yields_inOrder {σ : Type} {next : σ → Except Error (Option (ν × σ))} {wanted : String}
    {schema : Schema ν ts} {row : Row ts} {index : Nat} {s s' : σ}
    (h : schema.inOrder next wanted index s = .ok (row, s')) : schema.Yields row := by
  induction schema generalizing index s with
  | done => trivial
  | field f rest ih =>
    rw [inOrder] at h
    obtain ⟨got, -, h⟩ := bind_eq_ok.1 h
    cases got with
    | some found =>
      obtain ⟨a, hread, h⟩ := bind_eq_ok.1 h
      obtain ⟨⟨more, s''⟩, hrest, h⟩ := bind_eq_ok.1 h
      cases h
      exact ⟨.inl ⟨found.1, hread⟩, ih hrest⟩
    | none =>
      cases habsent : f.absent with
      | none =>
        rw [habsent] at h
        cases h
      | some a =>
        rw [habsent] at h
        obtain ⟨⟨more, s''⟩, hrest, h⟩ := bind_eq_ok.1 h
        cases h
        exact ⟨.inr habsent, ih hrest⟩

end Schema

end Notifications.Data
