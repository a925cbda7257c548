import Notifications.Proofs.StoredSettings
/-!
Settings that are left out have their defaults, whether a whole section is missing or only a key of
it. So a text need not say more than what differs from the defaults, and a text that says nothing
stands for them.
-/
namespace Notifications.Settings

open Toml

variable {names : List String}

/-- Sections without keys are as good as none. -/
theorem reader_emptySections (hnames : names.Nodup)
    (hknown : ∀ name ∈ names, name ∈ ["assembly", "render", "output"]) :
    reader format (.table .headed (names.map fun name => (name, .table .headed []))) =
      .ok default := by
  have hassembly : Limits.reader format (.table .headed []) = .ok default.assembly := rfl
  have hrender : Render.Style.reader format (.table .headed []) = .ok default.render := rfl
  have houtput : OutputSettings.reader format (.table .headed []) = .ok default.output := rfl
  have hrow : format.record "struct Config" (schema format)
      (.table .headed (names.map fun name => (name, .table .headed []))) =
        .ok (default.assembly, default.render, default.output, ()) := by
    apply Value.readFields_eq
    · simp [schema]
    · simpa [Function.comp_def] using hnames
    · simpa [schema, Function.comp_def] using hknown
    · simp only [Data.Schema.Reads, schema, Data.lookup_map_const]
      refine ⟨?_, ?_, ?_, trivial⟩
      · by_cases h : "assembly" ∈ names <;> simp [h, hassembly]
      · by_cases h : "render" ∈ names <;> simp [h, hrender]
      · by_cases h : "output" ∈ names <;> simp [h, houtput]
  rw [reader, hrow]
  rfl

theorem ofText_emptySections (hnames : names.Nodup)
    (hknown : ∀ name ∈ names, name ∈ ["assembly", "render", "output"]) :
    ofText (['\n'].intercalate (names.map headerLine)) = .ok default := by
  have hbare : ∀ name ∈ names, IsBareName name := by
    intro name h
    have hall : ∀ name ∈ ["assembly", "render", "output"], IsBareName name := by decide
    exact hall name (hknown name h)
  rw [ofText, parse_headerLines hbare hnames]
  simp only [reader_emptySections hnames hknown]

/-- Settings are what is read from their text even if sections and keys are left out in it that have
their defaults. So a text with nothing in it, or with nothing but sections that are empty, reads as
the default settings, and so does the text that loading writes where no file is. -/
theorem ofText_of_omitted :
    (∀ (s : Settings) (templates : List (String × String)) (left : List String) (joined : Bool),
      s.IsWritable → templates.Perm s.render.templates.entries → s.MayOmit left →
      s.textWith templates = some (s.textWithout [] false templates) ∧
      ofText (s.textWithout left joined templates) = .ok s) ∧
    ofText [] = .ok default ∧
    (∀ names : List String, names.Nodup →
      (∀ name ∈ names, name ∈ ["assembly", "render", "output"]) →
      ofText (['\n'].intercalate (names.map headerLine)) = .ok default) ∧
    ∀ (path : FilePath) (f : Files) (p : Place), f.FreeAt path p →
      ∃ cs, (load path f).files.find path = .ok (p, .file (Text.encodeUtf8 cs)) ∧
        ofText cs = .ok default := by
  refine ⟨fun s templates left joined hwritable htemplates hleft => ?_, rfl,
    fun names hnames hknown => ?_, fun path f p hfree => ?_⟩
  · exact ⟨textWith_eq hwritable, ofText_textWithout hwritable hleft htemplates⟩
  · exact ofText_emptySections hnames hknown
  · obtain ⟨cs, htext, -, hfind, -⟩ := load_of_free hfree
    refine ⟨cs, hfind, ?_⟩
    exact ofText_textWith (List.Perm.refl _) (text_eq_ok.1 htext)

/-- One template under a key that needs quotes, and notices for the log; all else is as by
default. -/
def terse : Settings :=
  ⟨default.assembly, ⟨200, .ofList [("it's \"odd\"", "x")]⟩, ⟨.rendered, 16⟩⟩

theorem ofText_of_omitted_terse :
    let left := ["assembly", "max_body_length", "queue_depth"]
    let text :=
      "[render.templates]\n\"it's \\\"odd\\\"\" = \"x\"\n\n[output]\nformat = \"rendered\"\n".toList
    terse.IsWritable ∧ terse.MayOmit left ∧
    terse.textWithout left true terse.render.templates.entries = text ∧
      ofText text = .ok terse ∧ ofText "[output]\n\n[assembly]\n".toList = .ok default ∧
      ∃ cs, (load nestedPath (.ofEntries [])).files.find nestedPath =
          .ok (["conf", "daemon.toml"], .file (Text.encodeUtf8 cs)) ∧
        ofText cs = .ok default := by
  intro left text
  have hwritable : terse.IsWritable := ⟨by decide, by decide, by decide⟩
  have hleft : terse.MayOmit left := by constructor <;> decide
  have htext : terse.textWithout left true terse.render.templates.entries = text := by
    decide +kernel
  obtain ⟨hreads, -, hempty, hloads⟩ := ofText_of_omitted
  obtain ⟨-, hread⟩ :=
    hreads terse terse.render.templates.entries left true hwritable (List.Perm.refl _) hleft
  have hsections := hempty ["output", "assembly"] (by decide) (by decide)
  have hloaded := hloads nestedPath (.ofEntries []) _ freeAt_nestedPath
  rw [htext] at hread
  exact ⟨hwritable, hleft, htext, hread, hsections, hloaded⟩

end Notifications.Settings
