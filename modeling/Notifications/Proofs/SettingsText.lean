import Notifications.Proofs.Dictionaries
import Notifications.Proofs.Toml.Documents
import Notifications.Settings.Text
/-!
Settings as text and back. Settings whose numbers are not too large have a text, and whatever order
their templates are written in, and whichever of those that have their default are left out, the
text reads as the settings.
-/
namespace Notifications

open Data (Dictionary Row Schema map_without mem_of_mem_without without without_append without_nil
  without_sublist)
open Toml

variable {s : Settings} {templates : List (String × String)} {left : List String} {joined : Bool}
  {cs : List Char}

namespace Toml

theorem printCount?_isSome {n : UInt64} :
    (printCount? n).isSome ↔ n.toNat ≤ 9223372036854775807 := by
  have hmax : Int64.maxValue.toInt = 9223372036854775807 := rfl
  rw [printCount?, hmax]
  split <;> simp <;> omega

theorem readCount_integer {n : UInt64} (h : n.toNat ≤ 9223372036854775807) :
    Value.readCount (.integer n.toInt64) = .ok n := by
  have hnonneg : 0 ≤ n.toInt64 := by
    have hofNat : n.toInt64 = Int64.ofNat n.toNat := by
      rw [← UInt64.toInt64_ofNat', UInt64.ofNat_toNat]
    rw [Int64.le_iff_toInt_le, hofNat, Int64.toInt_ofNat_of_lt (Nat.lt_succ_of_le h)]
    exact Int.natCast_nonneg _
  rw [Value.readCount, if_pos hnonneg, UInt64.toUInt64_toInt64]

/-- The texts of a table by name. -/
theorem readTable_texts {d : Dictionary} (h : templates.Perm d.entries) :
    Value.readTable (.table .headed (templates.map fun e => (e.1, .text e.2))) = .ok d := by
  have hfold : ∀ (l : List (String × String)) (d : Dictionary),
      (l.map fun e => (e.1, Value.text e.2)).foldlM
        (fun d (f : String × Value) => do return d.insert f.1 (← f.2.readText)) d =
        (.ok (l.foldl (fun d e => d.insert e.1 e.2) d) : Except Data.Error Dictionary) := by
    intro l
    induction l with
    | nil => intro d; rfl
    | cons e l ih => intro d; exact ih _
  rw [Value.readTable]
  simp only [Value.fields?]
  rw [← Dictionary.ofList_of_perm h]
  exact hfold templates .empty

/-- The fields of a record but those that are left out, in any order. -/
theorem record_without {ts : List Type} {schema : Schema Value ts} {row : Row ts} {l : Fields}
    {standing : Standing}
    (title : String) (distinct : schema.names.Nodup) (once : (l.map (·.1)).Nodup)
    (known : ∀ name ∈ l.map (·.1), name ∈ schema.names)
    (reads : schema.Reads (fun key => l.lookup key) row)
    (defaults : schema.Defaults left row) :
    format.record title schema (.table standing (without left l)) = .ok row :=
  Value.readFields_eq distinct (once.sublist (without_sublist left l))
    (fun name h => known name ((without_sublist left l).subset h)) (reads.without defaults)

end Toml

namespace Settings

/-- The lines that settings are written in. -/
def assemblyLines (s : Settings) : List (String × Scalar) :=
  [("max_messages_per_conversation", .count s.assembly.maxMessages),
    ("keep_empty", .bool s.assembly.keepEmpty)]

def renderLines (s : Settings) : List (String × Scalar) :=
  [("max_body_length", .count s.render.maxLength)]

def outputLines (s : Settings) : List (String × Scalar) :=
  [("format", .text s.output.format.name), ("queue_depth", .count s.output.queueDepth)]

def assemblyTable (s : Settings) (left : List String) : Table :=
  ⟨.ofName "assembly" (by decide), without left s.assemblyLines⟩

def renderTable (s : Settings) (left : List String) : Table :=
  ⟨.ofName "render" (by decide), without left s.renderLines⟩

def templatesTable (templates : List (String × String)) : Table :=
  ⟨⟨"render.templates", ⟨["render"], "templates"⟩, by decide, by decide, rfl⟩,
    templates.map fun e => (e.1, .text e.2)⟩

def outputTable (s : Settings) (left : List String) : Table :=
  ⟨.ofName "output" (by decide), without left s.outputLines⟩

/-- The style. If it is `joined` and has no line but those of its templates, their header stands for
its own too. -/
def renderPart (s : Settings) (left : List String) (joined : Bool)
    (templates : List (String × String)) : Part :=
  let own := s.renderTable left
  let inner := templatesTable templates
  if "templates" ∈ left then own.part
  else if joined && own.lines.isEmpty then
    ⟨[inner], ("render", .table .implied [("templates", .table .headed inner.fields)])⟩
  else ⟨[own, inner],
    ("render", .table .headed (own.fields ++ [("templates", .table .headed inner.fields)]))⟩

/-- The sections of settings without those, and the keys, that are named in `left`. -/
def parts (s : Settings) (left : List String) (joined : Bool) (templates : List (String × String)) :
    List Part :=
  [(s.assemblyTable left).part, s.renderPart left joined templates,
    (s.outputTable left).part].filter
    fun p => p.field.1 ∉ left

/-- The text of settings without the sections and keys that are named in `left`, whose headers, if
`joined`, are no more than need be. -/
def textWithout (s : Settings) (left : List String) (joined : Bool)
    (templates : List (String × String)) :
    List Char :=
  Table.printAll (Part.tablesOf (s.parts left joined templates))

/-- The numbers are not too large to be written. -/
structure IsWritable (s : Settings) : Prop where
  maxMessages : s.assembly.maxMessages.toNat ≤ 9223372036854775807
  maxLength : s.render.maxLength.toNat ≤ 9223372036854775807
  queueDepth : s.output.queueDepth.toNat ≤ 9223372036854775807

/-- The sections and keys that are named have the values they have by default. -/
structure MayOmit (s : Settings) (left : List String) : Prop where
  assembly : "assembly" ∈ left → s.assembly = default.assembly
  maxMessages : "max_messages_per_conversation" ∈ left →
    s.assembly.maxMessages = default.assembly.maxMessages
  keepEmpty : "keep_empty" ∈ left → s.assembly.keepEmpty = default.assembly.keepEmpty
  render : "render" ∈ left → s.render = default.render
  maxLength : "max_body_length" ∈ left → s.render.maxLength = default.render.maxLength
  templates : "templates" ∈ left → s.render.templates = default.render.templates
  output : "output" ∈ left → s.output = default.output
  format : "format" ∈ left → s.output.format = default.output.format
  queueDepth : "queue_depth" ∈ left → s.output.queueDepth = default.output.queueDepth

theorem mayOmit_nil (s : Settings) : s.MayOmit [] := by
  constructor <;> exact fun h => absurd h List.not_mem_nil

theorem textWith_isSome : (s.textWith templates).isSome ↔ s.IsWritable := by
  have hcounts : (s.textWith templates).isSome ↔ (printCount? s.assembly.maxMessages).isSome ∧
      (printCount? s.render.maxLength).isSome ∧ (printCount? s.output.queueDepth).isSome := by
    rw [textWith]
    cases printCount? s.assembly.maxMessages <;> cases printCount? s.render.maxLength <;>
      cases printCount? s.output.queueDepth <;> simp
  rw [hcounts, printCount?_isSome, printCount?_isSome, printCount?_isSome]
  exact ⟨fun ⟨h, h', h''⟩ => ⟨h, h', h''⟩, fun ⟨h, h', h''⟩ => ⟨h, h', h''⟩⟩

/-- Settings are written in full when nothing is left out. -/
theorem textWith_eq (h : s.IsWritable) :
    s.textWith templates = some (s.textWithout [] false templates) := by
  have htemplates :
      ((templates.map fun e => (e.1, Scalar.text e.2)).flatMap fun l =>
        assignmentLine l.1 l.2.print) =
      templates.flatMap templateLine := by rw [List.flatMap_map]; rfl
  rw [textWith, printCount?_eq h.maxMessages, printCount?_eq h.maxLength,
    printCount?_eq h.queueDepth]
  simp [textWithout, parts, renderPart, Part.tablesOf, Table.part, Table.printAll, Table.print,
    assemblyTable, renderTable, templatesTable, outputTable, assemblyLines, renderLines,
    outputLines, without_nil, Header.ofName, htemplates, List.intercalate_cons_cons,
    List.intercalate_singleton]

theorem mem_tables {t : Table} (ht : t ∈ Part.tablesOf (s.parts left joined templates)) :
    t = s.assemblyTable left ∨ t = s.renderTable left ∨ t = templatesTable templates ∨
    t = s.outputTable left := by
  obtain ⟨p, hp, ht⟩ := List.mem_flatMap.1 ht
  have hpart := List.mem_of_mem_filter hp
  simp only [List.mem_cons, List.not_mem_nil, or_false] at hpart
  rcases hpart with rfl | rfl | rfl
  · exact .inl (List.mem_singleton.1 ht)
  · rw [renderPart] at ht
    split at ht
    · exact .inr (.inl (List.mem_singleton.1 ht))
    split at ht
    · exact .inr (.inr (.inl (List.mem_singleton.1 ht)))
    · simp only [List.mem_cons, List.not_mem_nil, or_false] at ht
      rcases ht with rfl | rfl
      · exact .inr (.inl rfl)
      · exact .inr (.inr (.inl rfl))
  · exact .inr (.inr (.inr (List.mem_singleton.1 ht)))

theorem isWritable_of_mem_tables (h : s.IsWritable) {t : Table}
    (ht : t ∈ Part.tablesOf (s.parts left joined templates)) : t.IsWritable := by
  intro l hl
  rcases mem_tables ht with rfl | rfl | rfl | rfl
  · have hmem : l ∈ s.assemblyLines := mem_of_mem_without hl
    simp only [assemblyLines, List.mem_cons, List.not_mem_nil, or_false] at hmem
    rcases hmem with rfl | rfl
    · exact h.maxMessages
    · trivial
  · obtain rfl := List.mem_singleton.1 (mem_of_mem_without hl)
    exact h.maxLength
  · obtain ⟨e, -, rfl⟩ := List.mem_map.1 hl
    trivial
  · have hmem : l ∈ s.outputLines := mem_of_mem_without hl
    simp only [outputLines, List.mem_cons, List.not_mem_nil, or_false] at hmem
    rcases hmem with rfl | rfl
    · trivial
    · exact h.queueDepth

theorem spells_textWithout (h : s.IsWritable) :
    Spells (s.textWithout left joined templates)
      (Part.statements (s.parts left joined templates)) :=
  Part.spells_printAll fun _ ht => isWritable_of_mem_tables h ht

theorem nodup_without {lines : List (String × Scalar)} (header : Header)
    (h : (lines.map (·.1)).Nodup) :
    ((Table.fields ⟨header, without left lines⟩).map (·.1)).Nodup := by
  have hnames : (Table.fields ⟨header, without left lines⟩).map (·.1) =
      (without left lines).map (·.1) := by
    rw [Table.fields, List.map_map]
    rfl
  rw [hnames]
  exact h.sublist (without_sublist left lines)

theorem fields_templatesTable (templates : List (String × String)) :
    (templatesTable templates).fields = templates.map fun e => (e.1, .text e.2) := by
  rw [Table.fields, templatesTable, List.map_map]
  rfl

theorem comes_renderPart (hnames : (templates.map (·.1)).Nodup) :
    (s.renderPart left joined templates).Comes := by
  have hown : ((s.renderTable left).fields.map (·.1)).Nodup :=
    nodup_without _ (by simp [renderLines])
  have hinner : ((templatesTable templates).fields.map (·.1)).Nodup := by
    simpa [fields_templatesTable, Function.comp_def] using hnames
  rw [renderPart]
  split
  · exact Part.comes_part rfl hown
  split
  · exact puts_implied hinner
  · refine puts_inner ?_ hown hinner
    intro h
    have hmem : "templates" ∈ s.renderLines.map (·.1) := by
      apply (without_sublist left s.renderLines).subset
      simpa [Table.fields, renderTable, Function.comp_def] using h
    simp [renderLines] at hmem

theorem comes_parts (hnames : (templates.map (·.1)).Nodup) :
    ∀ p ∈ s.parts left joined templates, p.Comes := by
  intro p hp
  have hpart := List.mem_of_mem_filter hp
  simp only [List.mem_cons, List.not_mem_nil, or_false] at hpart
  rcases hpart with rfl | rfl | rfl
  · exact Part.comes_part rfl (nodup_without _ (by simp [assemblyLines]))
  · exact comes_renderPart hnames
  · exact Part.comes_part rfl (nodup_without _ (by simp [outputLines]))

/-- All that is known of the style under its name. -/
theorem field_renderPart (s : Settings) (left : List String) (joined : Bool)
    (templates : List (String × String)) :
    ∃ standing, (s.renderPart left joined templates).field = ("render", .table standing
      (without left ((s.renderLines.map fun l => (l.1, l.2.value)) ++
        [("templates", .table .headed (templatesTable templates).fields)]))) := by
  have hown : (s.renderTable left).fields =
      without left (s.renderLines.map fun l => (l.1, l.2.value)) :=
    map_without left Scalar.value s.renderLines
  rw [renderPart, without_append, ← hown]
  split
  · rename_i hleft
    exact ⟨.headed, by simp [without, hleft]; rfl⟩
  rename_i hleft
  split
  · rename_i hjoined
    have hempty : (s.renderTable left).lines = [] := by
      rw [Bool.and_eq_true] at hjoined
      exact List.isEmpty_iff.1 hjoined.2
    exact ⟨.implied, by simp [Table.fields, hempty, without, hleft]⟩
  · exact ⟨.headed, by simp [without, hleft]⟩

theorem reader_assembly (h : s.IsWritable) (hleft : s.MayOmit left) :
    Limits.reader format (.table .headed (s.assemblyTable left).fields) = .ok s.assembly := by
  have hcount : format.count (.integer s.assembly.maxMessages.toInt64) =
      .ok s.assembly.maxMessages :=
    readCount_integer h.maxMessages
  have hbool : format.bool (.bool s.assembly.keepEmpty) = .ok s.assembly.keepEmpty := rfl
  have hrow : format.record "struct AssemblyLimits" (Limits.schema format)
      (.table .headed (s.assemblyTable left).fields) =
        .ok (s.assembly.maxMessages, s.assembly.keepEmpty, ()) := by
    rw [assemblyTable, Table.fields, map_without]
    apply record_without
    · simp [Limits.schema]
    · simp [assemblyLines]
    · simp [assemblyLines, Limits.schema]
    · simp [assemblyLines, Scalar.value, Limits.schema, List.lookup_cons, hcount, hbool]
    · exact ⟨fun h => congrArg some (hleft.maxMessages h).symm,
        fun h => congrArg some (hleft.keepEmpty h).symm,
        trivial⟩
  rw [Limits.reader, hrow]
  rfl

theorem reader_output (h : s.IsWritable) (hleft : s.MayOmit left) :
    OutputSettings.reader format (.table .headed (s.outputTable left).fields) = .ok s.output := by
  have hcount : format.count (.integer s.output.queueDepth.toInt64) = .ok s.output.queueDepth :=
    readCount_integer h.queueDepth
  have hchoice : format.choice OutputFormat.names (.text s.output.format.name) =
      .ok s.output.format := by
    cases s.output.format <;> rfl
  have hrow : format.record "struct OutputConfig" (OutputSettings.schema format)
      (.table .headed (s.outputTable left).fields) =
        .ok (s.output.format, s.output.queueDepth, ()) := by
    rw [outputTable, Table.fields, map_without]
    apply record_without
    · simp [OutputSettings.schema]
    · simp [outputLines]
    · simp [outputLines, OutputSettings.schema]
    · simp [outputLines, Scalar.value, OutputSettings.schema, List.lookup_cons, hcount, hchoice]
    · exact ⟨fun h => congrArg some (hleft.format h).symm,
        fun h => congrArg some (hleft.queueDepth h).symm, trivial⟩
  rw [OutputSettings.reader, hrow]
  rfl

theorem reader_render (joined : Bool) (h : s.IsWritable) (hleft : s.MayOmit left)
    (htemplates : templates.Perm s.render.templates.entries) :
    Render.Style.reader format (s.renderPart left joined templates).field.2 = .ok s.render := by
  have hcount : format.count (.integer s.render.maxLength.toInt64) = .ok s.render.maxLength :=
    readCount_integer h.maxLength
  have htable : format.table (.table .headed (templatesTable templates).fields) =
      .ok s.render.templates := by
    rw [fields_templatesTable]
    exact readTable_texts htemplates
  obtain ⟨standing, hfield⟩ := field_renderPart s left joined templates
  have hrow : format.record "struct RenderConfig" (Render.Style.schema format)
      (s.renderPart left joined templates).field.2 =
        .ok (s.render.maxLength, s.render.templates, ()) := by
    rw [hfield]
    apply record_without
    · simp [Render.Style.schema]
    · simp [renderLines]
    · simp [renderLines, Render.Style.schema]
    · simp [renderLines, Scalar.value, Render.Style.schema, List.lookup_cons, hcount, htable]
    · exact ⟨fun h => congrArg some (hleft.maxLength h).symm,
        fun h => congrArg some (hleft.templates h).symm, trivial⟩
  rw [Render.Style.reader, hrow]
  rfl

theorem fieldsOf_parts (s : Settings) (left : List String) (joined : Bool)
    (templates : List (String × String)) :
    Part.fieldsOf (s.parts left joined templates) = without left
      [("assembly", .table .headed (s.assemblyTable left).fields),
        ("render", (s.renderPart left joined templates).field.2),
        ("output", .table .headed (s.outputTable left).fields)] := by
  obtain ⟨standing, hfield⟩ := field_renderPart s left joined templates
  have hall :
      without left (Part.fieldsOf [(s.assemblyTable left).part, s.renderPart left joined templates,
      (s.outputTable left).part]) = Part.fieldsOf (s.parts left joined templates) := List.filter_map
  rw [← hall, Part.fieldsOf, List.map_cons, List.map_cons, hfield]
  rfl

theorem reader_parts (h : s.IsWritable) (hleft : s.MayOmit left)
    (htemplates : templates.Perm s.render.templates.entries) :
    reader format (.table .headed (Part.fieldsOf (s.parts left joined templates))) = .ok s := by
  have hassembly := reader_assembly h hleft
  have hrender := reader_render joined h hleft htemplates
  have houtput := reader_output h hleft
  have hrow : format.record "struct Config" (schema format)
      (.table .headed (Part.fieldsOf (s.parts left joined templates))) =
        .ok (s.assembly, s.render, s.output, ()) := by
    rw [fieldsOf_parts]
    apply record_without
    · simp [schema]
    · simp
    · simp [schema]
    · simp [schema, List.lookup_cons, hassembly, hrender, houtput]
    · exact ⟨fun h => congrArg some (hleft.assembly h).symm,
        fun h => congrArg some (hleft.render h).symm,
        fun h => congrArg some (hleft.output h).symm, trivial⟩
  rw [reader, hrow]
  rfl

/-- Any text with these statements reads as the settings. -/
theorem ofText_of_spells (h : s.IsWritable) (hleft : s.MayOmit left)
    (htemplates : templates.Perm s.render.templates.entries)
    (hspells : Spells cs (Part.statements (s.parts left joined templates)))
    (hmark : cs.head? ≠ some '\uFEFF') : ofText cs = .ok s := by
  have hnames : (templates.map (·.1)).Nodup :=
    ((htemplates.map _).nodup_iff).2 s.render.templates.nodup_names
  have hfields : ((Part.fieldsOf (s.parts left joined templates)).map (·.1)).Nodup := by
    rw [fieldsOf_parts]
    exact List.Nodup.sublist (without_sublist _ _) (by simp)
  rw [ofText, Part.parse_of_spells (comes_parts hnames) hfields hspells hmark]
  simp only [reader_parts h hleft htemplates]

theorem ofText_textWithout (h : s.IsWritable) (hleft : s.MayOmit left)
    (htemplates : templates.Perm s.render.templates.entries) :
    ofText (s.textWithout left joined templates) = .ok s :=
  ofText_of_spells h hleft htemplates (spells_textWithout h) (Table.head?_printAll _)

end Settings

end Notifications
