import Notifications.Proofs.Toml.Lines
import Notifications.Proofs.Toml.Tables
/-!
Texts printed table by table, with an empty line between two tables. Their parts, which are tables
at the top with what stands inside them, come out as fields in order.
-/
namespace Notifications.Toml

open Data (notMem_of_nodup)
open Settings (assignmentLine headerLine)

/-- What a setting has for its value. -/
inductive Scalar
  | count (n : UInt64)
  | bool (b : Bool)
  | text (s : String)

namespace Scalar

def print : Scalar → List Char
  | count n => Nat.toDigits 10 n.toNat
  | bool b => printBool b
  | text s => printText s

@[simp] theorem print_count (n : UInt64) : (count n).print = Nat.toDigits 10 n.toNat := rfl

@[simp] theorem print_bool (b : Bool) : (bool b).print = printBool b := rfl

@[simp] theorem print_text (s : String) : (text s).print = printText s := rfl

def value : Scalar → Value
  | count n => .integer n.toInt64
  | bool b => .bool b
  | text s => .text s

/-- A count is not too large to be written. -/
def IsWritable : Scalar → Prop
  | count n => n.toNat ≤ 9223372036854775807
  | bool _ => True
  | text _ => True

theorem prints {x : Scalar} (h : x.IsWritable) : Prints x.print x.value := by
  cases x with
  | count n => exact prints_count h
  | bool b => exact prints_bool b
  | text s => exact prints_text s

end Scalar

/-- What stands in brackets above a table, and the key that it reads as. -/
structure Header where
  title : String
  key : Key
  isWord : title.toList.all isWord = true
  ne_nil : title.toList ≠ []
  reads : Key.ofTokens [.word title.toList] = some key

/-- The header of a table at the top. -/
def Header.ofName (name : String) (h : IsBareName name) : Header :=
  ⟨name, ⟨[], name⟩, h.isWord, h.toList_ne_nil, (Token.Names.word h).ofTokens⟩

/-- A table as it is printed. -/
structure Table where
  header : Header
  lines : List (String × Scalar)

namespace Table

variable {t : Table} {ts : List Table}

def print (t : Table) : List Char :=
  headerLine t.header.title ++ t.lines.flatMap fun l => assignmentLine l.1 l.2.print

def fields (t : Table) : Fields := t.lines.map fun l => (l.1, l.2.value)

def entry (t : Table) : Key × Fields := (t.header.key, t.fields)

def IsWritable (t : Table) : Prop := ∀ l ∈ t.lines, l.2.IsWritable

theorem spells (h : t.IsWritable) : Spells t.print (tableStatements t.entry) := by
  have hheader : Spells (headerLine t.header.title) [.header false t.header.key] :=
    .header t.header.isWord t.header.ne_nil t.header.reads
  have hlines : Spells (t.lines.flatMap fun l => assignmentLine l.1 l.2.print)
      (t.lines.map fun l => .assignment ⟨⟨[], l.1⟩, l.2.value⟩) :=
    .flatMap fun l hl => .assignment (printsKey l.1) (Scalar.prints (h l hl))
  have hfields : tableStatements t.entry =
      .header false t.header.key :: t.lines.map fun l => .assignment ⟨⟨[], l.1⟩, l.2.value⟩ := by
    rw [tableStatements, entry, fields, List.map_map]
    rfl
  rw [hfields]
  exact hheader.append hlines

/-- Tables one behind the other. -/
def printAll (ts : List Table) : List Char := ['\n'].intercalate (ts.map print)

theorem spells_printAll (h : ∀ t ∈ ts, t.IsWritable) :
    Spells (printAll ts) ((ts.map entry).flatMap tableStatements) := by
  induction ts with
  | nil => exact .nil
  | cons t ts ih =>
    rw [List.forall_mem_cons] at h
    have hfirst := spells h.1
    have hrest := ih h.2
    cases ts with
    | nil => simpa [printAll] using hfirst
    | cons u ts =>
      rw [printAll, List.map_cons, List.map_cons, List.intercalate_cons_cons]
      have hall := (hfirst.append .blank).append hrest
      rw [List.append_nil] at hall
      exact hall

theorem head?_printAll (ts : List Table) : (printAll ts).head? ≠ some '\uFEFF' := by
  cases ts with
  | nil => nofun
  | cons t ts =>
    have hhead : (printAll (t :: ts)).head? = some '[' := by
      cases ts <;> simp [printAll, print, headerLine]
    rw [hhead]
    decide

end Table

/-- Tables that belong together, and the field that is made of them. -/
structure Part where
  tables : List Table
  field : String × Value

/-- A table by itself. -/
def Table.part (t : Table) : Part := ⟨[t], (t.header.key.name, .table .headed t.fields)⟩

namespace Part

variable {parts : List Part} {cs : List Char}

/-- The tables come to the field. -/
def Comes (p : Part) : Prop := Puts (p.tables.map Table.entry) p.field

theorem comes_part {t : Table} (h : t.header.key.path = []) (hl : (t.fields.map (·.1)).Nodup) :
    t.part.Comes := by
  have hentry : t.entry = (⟨[], t.header.key.name⟩, t.fields) := by rw [Table.entry, ← h]
  rw [Comes, Table.part, List.map_singleton, hentry]
  exact puts_one hl

def tablesOf (parts : List Part) : List Table := parts.flatMap (·.tables)

def fieldsOf (parts : List Part) : Fields := parts.map (·.field)

def statements (parts : List Part) : List Statement :=
  ((tablesOf parts).map Table.entry).flatMap tableStatements

theorem spells_printAll (h : ∀ t ∈ tablesOf parts, t.IsWritable) :
    Spells (Table.printAll (tablesOf parts)) (statements parts) := Table.spells_printAll h

theorem foldlM_addSection (fields : Fields) (h : ∀ p ∈ parts, p.Comes)
    (hnames : ((fields ++ fieldsOf parts).map (·.1)).Nodup) :
    (((tablesOf parts).map Table.entry).map tableSection).foldlM addSection fields =
      some (fields ++ fieldsOf parts) := by
  induction parts generalizing fields with
  | nil => simp [tablesOf, fieldsOf]
  | cons p parts ih =>
    rw [List.forall_mem_cons] at h
    have hfirst := h.1 fields (notMem_of_nodup hnames)
    have hrest := ih (fields ++ [p.field]) h.2 (by simpa [fieldsOf] using hnames)
    have htables : tablesOf (p :: parts) = p.tables ++ tablesOf parts := List.flatMap_cons
    rw [htables, List.map_append, List.map_append, List.foldlM_append, hfirst]
    simpa [fieldsOf] using hrest

/-- Whatever text has the statements of the parts. -/
theorem parse_of_spells (h : ∀ p ∈ parts, p.Comes) (hnames : ((fieldsOf parts).map (·.1)).Nodup)
    (hspells : Spells cs (statements parts)) (hmark : cs.head? ≠ some '\uFEFF') :
    parse cs = some (.table .headed (fieldsOf parts)) := by
  have hfold := foldlM_addSection [] h hnames
  rw [hspells.parse_eq hmark, statements, sections_tables, ofSections]
  simp only [Fields.assignAll, List.foldlM_nil, Option.pure_def, Option.bind_eq_bind,
    Option.bind_some, hfold]
  rfl

theorem parse_printAll (h : ∀ p ∈ parts, p.Comes) (hnames : ((fieldsOf parts).map (·.1)).Nodup)
    (hwritable : ∀ t ∈ tablesOf parts, t.IsWritable) :
    parse (Table.printAll (tablesOf parts)) = some (.table .headed (fieldsOf parts)) :=
  parse_of_spells h hnames (spells_printAll hwritable) (Table.head?_printAll _)

theorem tablesOf_map_part (ts : List Table) : tablesOf (ts.map Table.part) = ts := by
  rw [tablesOf, List.flatMap_map]
  exact List.flatMap_singleton' ts

end Part

/-- A header and nothing under it. -/
def emptyTable (name : String) (h : IsBareName name) : Table := ⟨.ofName name h, []⟩

/-- Headers in any order, with no lines under them, make empty tables. -/
theorem parse_headerLines {names : List String} (hbare : ∀ name ∈ names, IsBareName name)
    (hnames : names.Nodup) :
    parse (['\n'].intercalate (names.map headerLine)) =
      some (.table .headed (names.map fun name => (name, .table .headed []))) := by
  let tables := names.pmap emptyTable hbare
  have htext : Table.printAll tables = ['\n'].intercalate (names.map headerLine) := by
    rw [Table.printAll, List.map_pmap, ← List.pmap_eq_map hbare]
    simp [Table.print, emptyTable, Header.ofName]
  have hfields : Part.fieldsOf (tables.map Table.part) =
      names.map fun name => (name, .table .headed []) := by
    rw [Part.fieldsOf, List.map_map, List.map_pmap, ← List.pmap_eq_map hbare]
    rfl
  have hcomes : ∀ p ∈ tables.map Table.part, p.Comes := by
    intro p hp
    obtain ⟨t, ht, rfl⟩ := List.mem_map.1 hp
    obtain ⟨name, hname, rfl⟩ := List.mem_pmap.1 ht
    exact Part.comes_part rfl List.nodup_nil
  have hwritable : ∀ t ∈ tables, t.IsWritable := by
    intro t ht
    obtain ⟨name, hname, rfl⟩ := List.mem_pmap.1 ht
    exact List.forall_mem_nil _
  have hdistinct : ((Part.fieldsOf (tables.map Table.part)).map (·.1)).Nodup := by
    rw [hfields, List.map_map]
    simpa [Function.comp_def] using hnames
  have hparse := Part.parse_printAll hcomes hdistinct (by rwa [Part.tablesOf_map_part])
  rwa [Part.tablesOf_map_part, htext, hfields] at hparse

end Notifications.Toml
