import Notifications.Proofs.Slots
import Notifications.Toml.Document
import Notifications.Toml.Reader
/-!
Tables put together from sections with plain keys, and read as records. Each key is given once, so
the fields of a table are those of its lines, in order.
-/
namespace Notifications.Toml

open Data (Error Row Schema lookup_concat lookup_eq_none notMem_of_nodup)

variable {fields inner l : Fields} {name parent : String} {v : Value}

namespace Fields

theorem alter_new (h : name ∉ fields.map (·.1)) (f : Option Value → Option Value) :
    alter name f fields = (f none).map fun v => fields ++ [(name, v)] := by
  induction fields with
  | nil => rfl
  | cons a fields ih =>
    obtain ⟨hne, hrest⟩ := not_or.1 (mt List.mem_cons.2 h)
    rw [alter, if_neg (Ne.symm hne), ih hrest, Option.map_map]
    rfl

theorem alter_last (h : name ∉ fields.map (·.1)) (f : Option Value → Option Value) (v : Value) :
    alter name f (fields ++ [(name, v)]) = (f (some v)).map fun v => fields ++ [(name, v)] := by
  induction fields with
  | nil => simp [alter]
  | cons a fields ih =>
    obtain ⟨hne, hrest⟩ := not_or.1 (mt List.mem_cons.2 h)
    rw [List.cons_append, alter, if_neg (Ne.symm hne), ih hrest, Option.map_map]
    rfl

end Fields

/-- A line that gives a field its value under its own name. -/
def Assignment.plain (f : String × Value) : Assignment := ⟨⟨[], f.1⟩, f.2⟩

theorem Fields.assignAll_plain (h : ((fields ++ l).map (·.1)).Nodup) :
    assignAll fields (l.map Assignment.plain) = some (fields ++ l) := by
  induction l generalizing fields with
  | nil => rw [List.append_nil]; rfl
  | cons f l ih =>
    have hassign : assign fields (.plain f) = some (fields ++ [f]) := by
      simp [assign, within, Assignment.plain, add, alter_new (notMem_of_nodup h)]
    have hnodup : ((fields ++ [f] ++ l).map (·.1)).Nodup := by simpa using h
    have hrest := ih hnodup
    rw [List.append_assoc] at hrest
    simpa [assignAll, hassign] using hrest

/-- The statements of a table with a header of its own. -/
def tableStatements (t : Key × Fields) : List Statement :=
  .header false t.1 :: t.2.map fun f => .assignment (.plain f)

/-- The section of a table with plain keys. -/
def tableSection (t : Key × Fields) : Section := ⟨false, t.1, t.2.map .plain⟩

theorem sections_assignments (lines : List Assignment) (r : List Statement) :
    sections (lines.map .assignment ++ r) = (lines ++ (sections r).1, (sections r).2) := by
  induction lines with
  | nil => rfl
  | cons a lines ih => rw [List.map_cons, List.cons_append, sections, ih]; rfl

theorem sections_tables (tables : List (Key × Fields)) : sections (tables.flatMap tableStatements) =
    ([], tables.map tableSection) := by
  induction tables with
  | nil => rfl
  | cons t tables ih =>
    have hlines : t.2.map (fun f => Statement.assignment (.plain f)) =
        (t.2.map Assignment.plain).map .assignment := by
      rw [List.map_map]
      rfl
    rw [List.flatMap_cons, tableStatements, hlines, List.cons_append, sections,
      sections_assignments, ih, List.append_nil]
    rfl

theorem headTable_new (h : name ∉ fields.map (·.1)) (hl : (l.map (·.1)).Nodup) :
    headTable name (l.map .plain) fields = some (fields ++ [(name, .table .headed l)]) := by
  have hothers : fields.filter (·.1 != name) = fields := by
    rw [List.filter_eq_self]
    intro f hf
    have hne : f.1 ≠ name := fun heq => h (heq ▸ List.mem_map_of_mem hf)
    simpa using hne
  have hassign : Fields.assignAll [] (l.map .plain) = some l :=
    Fields.assignAll_plain (by simpa using hl)
  rw [headTable, lookup_eq_none.2 h]
  simp [hassign, hothers]

theorem addSection_new (h : name ∉ fields.map (·.1)) (hl : (l.map (·.1)).Nodup) :
    addSection fields ⟨false, ⟨[], name⟩, l.map .plain⟩ =
      some (fields ++ [(name, .table .headed l)]) :=
  headTable_new h hl

/-- A table inside the one that has been put together last. -/
theorem addSection_inside (hparent : parent ∉ fields.map (·.1)) (h : name ∉ inner.map (·.1))
    (hl : (l.map (·.1)).Nodup) :
    addSection (fields ++ [(parent, .table .headed inner)])
      ⟨false, ⟨[parent], name⟩, l.map .plain⟩ =
      some (fields ++ [(parent, .table .headed (inner ++ [(name, .table .headed l)]))]) := by
  rw [addSection]
  simp only [Fields.within, Fields.alter_last hparent]
  simp [headTable_new h hl]

/-- The table above comes about by the one inside it. -/
theorem addSection_implied (hparent : parent ∉ fields.map (·.1)) (hl : (l.map (·.1)).Nodup) :
    addSection fields ⟨false, ⟨[parent], name⟩, l.map .plain⟩ =
      some (fields ++ [(parent, .table .implied [(name, .table .headed l)])]) := by
  have htable : headTable name (l.map .plain) [] = some [(name, .table .headed l)] :=
    headTable_new (by simp) hl
  rw [addSection]
  simp only [Fields.within, Fields.alter_new hparent]
  simp [htable]

/-- Put together, the tables are one more field behind the others. -/
def Puts (tables : List (Key × Fields)) (f : String × Value) : Prop :=
  ∀ fields : Fields, f.1 ∉ fields.map (·.1) →
    (tables.map tableSection).foldlM addSection fields = some (fields ++ [f])

theorem puts_one (hl : (l.map (·.1)).Nodup) : Puts [(⟨[], name⟩, l)] (name, .table .headed l) := by
  intro fields hnew
  simp [tableSection, addSection_new hnew hl]

theorem puts_inner (h : name ∉ inner.map (·.1)) (hinner : (inner.map (·.1)).Nodup)
    (hl : (l.map (·.1)).Nodup) :
    Puts [(⟨[], parent⟩, inner), (⟨[parent], name⟩, l)]
      (parent, .table .headed (inner ++ [(name, .table .headed l)])) := by
  intro fields hnew
  simp [tableSection, addSection_new hnew hinner, addSection_inside hnew h hl]

theorem puts_implied (hl : (l.map (·.1)).Nodup) :
    Puts [(⟨[parent], name⟩, l)] (parent, .table .implied [(name, .table .headed l)]) := by
  intro fields hnew
  simp [tableSection, addSection_implied hnew hl]

namespace Value

theorem find_concat (before : Fields) (name : String) (v : Value) :
    (fun key => (before ++ [(name, v)]).lookup key) =
      Schema.extend (fun key => before.lookup key) name v := by
  funext key
  rw [lookup_concat, Schema.extend]

/-- The fields of a record in any order. -/
theorem readFields_eq {ts : List Type} {schema : Schema Value ts} {row : Row ts}
    (distinct : schema.names.Nodup)
    (once : (fields.map (·.1)).Nodup) (known : ∀ name ∈ fields.map (·.1), name ∈ schema.names)
    (reads : schema.Reads (fun key => fields.lookup key) row) :
    readFields schema fields = .ok row := by
  have walk : ∀ before rest, before ++ rest = fields →
      rest.foldlM (fun slots (f : String × Value) => (schema.fill f.1 f.2 slots).getD (.ok slots))
        (schema.filled fun key => before.lookup key) =
          .ok (schema.filled fun key => fields.lookup key) := by
    intro before rest
    induction rest generalizing before with
    | nil =>
      rintro rfl
      rw [List.append_nil]
      rfl
    | cons f rest ih =>
      intro hfields
      have hnew : before.lookup f.1 = none := lookup_eq_none.2 (notMem_of_nodup (hfields ▸ once))
      have hfound : fields.lookup f.1 = some f.2 := by
        rw [← hfields, List.lookup_append, hnew, List.lookup_cons_self, Option.none_or]
      have hknown : f.1 ∈ schema.names := known f.1 (by simp [← hfields])
      have hrest := ih (before ++ [f]) (by rw [List.append_assoc]; exact hfields)
      rw [find_concat before f.1 f.2] at hrest
      rw [List.foldlM_cons, Schema.fill_of_mem distinct reads hfound hknown hnew]
      exact hrest
  have hall := walk [] fields rfl
  rw [show (fun key => List.lookup key ([] : Fields)) = fun _ => none from rfl,
    Schema.filled_none] at hall
  rw [readFields]
  show (fields.foldlM _ schema.empty >>= schema.finish) = _
  rw [hall]
  exact Schema.finish_filled reads

end Value

end Notifications.Toml
