import Notifications.Proofs.LoadedSettings
import Notifications.Proofs.Serving
/-!
Settings that are written and loaded again, from a file they were saved to or from the text in which
the daemon shows them.
-/
namespace Notifications

open Toml

/-- The path can stand in a comment. -/
def FilePath.IsPrintable (path : FilePath) : Prop := ∀ c ∈ path.written.toList, isControl c = false

namespace Settings

variable {s : Settings} {templates : List (String × String)} {path : FilePath} {f : Files}
  {p : Place} {cs : List Char}

/-- The text that shows settings: the path they were loaded from in a comment, and their own
text. -/
def shownText (path : FilePath) (cs : List Char) : List Char :=
  "# ".toList ++ path.written.toList ++ '\n' :: cs ++ ['\n']

theorem isWritable_of_textWith (h : s.textWith templates = some cs) : s.IsWritable :=
  textWith_isSome.1 (Option.isSome_iff_exists.2 ⟨cs, h⟩)

theorem eq_textWithout (h : s.textWith templates = some cs) :
    cs = s.textWithout [] false templates :=
  Option.some.inj (h.symm.trans (textWith_eq (isWritable_of_textWith h)))

theorem ofText_textWith (htemplates : templates.Perm s.render.templates.entries)
    (h : s.textWith templates = some cs) : ofText cs = .ok s := by
  rw [eq_textWithout h]
  exact ofText_textWithout (isWritable_of_textWith h) (mayOmit_nil s) htemplates

/-- The comment before the text and the empty line behind it say nothing. -/
theorem ofText_shownText (htemplates : templates.Perm s.render.templates.entries)
    (h : s.textWith templates = some cs) (hpath : path.IsPrintable) :
    ofText (shownText path cs) = .ok s := by
  have hwritable := isWritable_of_textWith h
  have hcomment : Spells ('#' :: (' ' :: path.written.toList) ++ ['\n']) [] := by
    apply Spells.comment
    rw [List.all_cons, Bool.and_eq_true]
    exact ⟨rfl, List.all_eq_true.2 fun c hc => isPlain_of_not_isControl (hpath c hc)⟩
  have htext : Spells cs (Part.statements (s.parts [] false templates)) := by
    rw [eq_textWithout h]
    exact spells_textWithout hwritable
  have hall : Spells (shownText path cs) (Part.statements (s.parts [] false templates)) := by
    simpa [shownText] using (hcomment.append htext).append .blank
  refine ofText_of_spells hwritable (mayOmit_nil s) htemplates hall ?_
  simp [shownText]

theorem load_of_read (hvalid : s.validate = .ok ()) (hread : ofText cs = .ok s)
    (h : f.read path = .ok (Text.encodeUtf8 cs)) :
    (load path f).result = .ok s ∧ (load path f).files = f := by
  obtain ⟨found, hfind⟩ := Files.find_of_read h
  rw [load_of_find hfind]
  exact ⟨ofFile_eq_ok.2 ⟨cs, h, hread, hvalid⟩, rfl⟩

/-- Settings with a text are written where a file can be made, and nothing that stands elsewhere is
lost. -/
theorem saveWith_of_some (htakes : f.Takes path p) (h : s.textWith templates = some cs) :
    ∃ g, s.saveWith templates path f = (.ok (), g) ∧ g.refusal = f.refusal ∧
      g.find path = .ok (p, .file (Text.encodeUtf8 cs)) ∧
      ∀ q e, q ≠ p → f.get? q = some e → g.get? q = some e := by
  refine ⟨_, ?_, ?_, htakes.find_put _, fun q e hne he => htakes.get?_put_of_ne _ hne he⟩
  · rw [saveWith, htakes.makeParent_eq]
    simp only [h, htakes.write_eq]
  · exact (Files.extends_makeParent f path).refusal

/-- Settings without a text are refused before anything is written. -/
theorem saveWith_of_none (htakes : f.Takes path p) (h : s.textWith templates = none) :
    (s.saveWith templates path f).1 = .error .tooLarge ∧
      ∀ found, f.find path = .ok found → (s.saveWith templates path f).2 = f := by
  have hsave : s.saveWith templates path f = (.error .tooLarge, (f.makeParent path).2) := by
    rw [saveWith, htakes.makeParent_eq]
    simp only [h]
  rw [hsave]
  refine ⟨rfl, fun found hfind => ?_⟩
  rw [Files.makeParent_of_find hfind]

end Settings

namespace Daemon

variable {m : Machine} {args : List String} {c : CommandLine} {s : Settings} {cs : List Char}

/-- The daemon is asked to show the settings that it loads. -/
structure Shows (m : Machine) (args : List String) (c : CommandLine) (s : Settings) : Prop where
  args : CommandLine.ofArgs args = .ok c
  command : c.command = some .dumpConfig
  settings : (Settings.load (settingsPath m c) m.files).result = .ok s
  reader : m.hasReader = true

theorem Shows.runWith_eq (h : Shows m args c s)
    (hcs : s.textWith s.render.templates.entries = some cs)
    (turns : List Turn) : ∃ files, runWith turns m args =
      ⟨.done, Text.encodeUtf8 (Settings.shownText (settingsPath m c) cs), [], files, none⟩ := by
  have hsettings := h.settings
  rw [settingsPath] at hsettings ⊢
  rw [runWith, h.args]
  simp only [h.command, dumpConfig, hsettings, Settings.text, hcs, printed, h.reader]
  exact ⟨_, rfl⟩

end Daemon

/-- Valid settings can be saved just if none of their numbers is too large, and are then what is
loaded from the file; where one is too large, a file that is there stays as it is. What the daemon
shows of settings that it has loaded reads as these settings too, wherever it is stored. -/
theorem Settings.load_saved :
    (∀ (s : Settings) (templates : List (String × String)) (path : FilePath) (f : Files),
      s.validate = .ok () → templates.Perm s.render.templates.entries → f.Creatable path →
      let saved := s.saveWith templates path f
      (saved.1 = .ok () ↔ s.IsWritable) ∧
      (saved.1 = .ok () → (load path saved.2).result = .ok s) ∧
      (¬ s.IsWritable →
        saved.1 = .error .tooLarge ∧ ∀ found, f.find path = .ok found → saved.2 = f)) ∧
    (∀ (m : Machine) (args : List String) (c : CommandLine) (s : Settings)
      (templates : List (String × String)),
      Daemon.Shows m args c s → (Daemon.settingsPath m c).IsPrintable →
      templates.Perm s.render.templates.entries →
      ∃ cs, s.textWith templates = some cs ∧
        (∀ (path : FilePath) (f : Files),
          f.read path = .ok (Text.encodeUtf8 (shownText (Daemon.settingsPath m c) cs)) →
          (load path f).result = .ok s) ∧
        (templates = s.render.templates.entries → ∀ turns, ∃ files, Daemon.runWith turns m args =
          ⟨.done, Text.encodeUtf8 (shownText (Daemon.settingsPath m c) cs), [], files, none⟩)) := by
  constructor
  · intro s templates path f hvalid htemplates hpath saved
    obtain ⟨p, htakes, hreadable⟩ := hpath
    cases htext : s.textWith templates with
    | some cs =>
      obtain ⟨g, hsave, hrefusal, hfind, -⟩ := saveWith_of_some htakes htext
      have hread := Files.read_of_find hfind (by rwa [hrefusal])
      have hwritable := isWritable_of_textWith htext
      rw [show saved = (.ok (), g) from hsave]
      refine ⟨iff_of_true rfl hwritable, fun _ => ?_, fun h => absurd hwritable h⟩
      exact (load_of_read hvalid (ofText_textWith htemplates htext) hread).1
    | none =>
      obtain ⟨hsave, hsame⟩ := saveWith_of_none htakes htext
      have hwritable : ¬ s.IsWritable := fun h => by
        have hsome : (s.textWith templates).isSome := textWith_isSome.2 h
        rw [htext] at hsome
        cases hsome
      have hfailed : saved.1 ≠ .ok () := by simp [show saved.1 = _ from hsave]
      exact ⟨iff_of_false hfailed hwritable, fun h => absurd h hfailed, fun _ => ⟨hsave, hsame⟩⟩
  · intro m args c s templates hshows hpath htemplates
    obtain ⟨hvalid, hwritable⟩ := load_eq_ok hshows.settings
    obtain ⟨cs, htext⟩ := Option.isSome_iff_exists.1 (textWith_isSome.2 hwritable)
    refine ⟨cs, htext, fun path f hread => ?_, fun heq turns => ?_⟩
    · exact (load_of_read hvalid (ofText_shownText htemplates htext hpath) hread).1
    · exact hshows.runWith_eq (heq ▸ htext) turns

namespace Settings

/-- Settings with quotes of both kinds, a backslash, a newline and a control character in their
texts. -/
def awkward : Settings :=
  let templates : Data.Dictionary := .ofList
    [(Render.knockKey, "it's \"here\"\n\x01\\"), (Render.quotingSelfKey, "'''\"\"\" \\")]
  { Settings.default with render := ⟨9223372036854775807, templates⟩ }

/-- Settings with a number that is too large by one. -/
def endless : Settings := { Settings.default with render := ⟨9223372036854775808, .empty⟩ }

def nestedPath : FilePath := .ofString [] "conf/daemon.toml"

theorem takes_nestedPath : (Files.ofEntries []).Takes nestedPath ["conf", "daemon.toml"] := by
  have hnames : nestedPath.names = "daemon.toml" :: (["conf"] ++ []) := rfl
  have hmissing : (Files.ofEntries []).Missing [] ["conf"] :=
    .cons .nil ⟨by decide, by decide, rfl⟩ rfl rfl
  exact Files.takes_of_missing (by decide) rfl hnames rfl hmissing ⟨by decide, by decide, rfl⟩
    (by decide) rfl

/-- A store in which the file is there, with the given bytes. -/
def nestedFile (bytes : List UInt8) : Files :=
  .ofEntries [(["conf"], .directory), (["conf", "daemon.toml"], .file bytes)]

theorem read_nestedFile (bytes : List UInt8) : (nestedFile bytes).read nestedPath = .ok bytes := rfl

theorem takes_nestedFile (bytes : List UInt8) :
    (nestedFile bytes).Takes nestedPath ["conf", "daemon.toml"] :=
  ⟨by decide, rfl, rfl, rfl, nofun, rfl⟩

theorem load_awkward :
    let templates := awkward.render.templates.entries.reverse
    let saved := awkward.saveWith templates nestedPath (.ofEntries [])
    let spoiled := endless.saveWith [] nestedPath (nestedFile [35, 10])
    let outcome := Daemon.run { Daemon.machineWith "" [] with files := saved.2 }
      ["-c", "conf/daemon.toml", "dump-config"]
    awkward.validate = .ok () ∧ saved.1 = .ok () ∧ (load nestedPath saved.2).result = .ok awkward ∧
      (load nestedPath (nestedFile outcome.output)).result = .ok awkward ∧
      endless.validate = .ok () ∧ spoiled.1 = .error .tooLarge ∧
      spoiled.2 = nestedFile [35, 10] := by
  intro templates saved spoiled outcome
  have hvalid : awkward.validate = .ok () := by decide +kernel
  have hwritable : awkward.IsWritable := ⟨by decide, by decide, by decide⟩
  obtain ⟨hsaves, hloads, -⟩ := load_saved.1 awkward templates nestedPath (.ofEntries []) hvalid
    (List.reverse_perm _) ⟨_, takes_nestedPath, rfl⟩
  have hsaved := hsaves.2 hwritable
  have hloaded := hloads hsaved
  have hshows : Daemon.Shows { Daemon.machineWith "" [] with files := saved.2 }
      ["-c", "conf/daemon.toml", "dump-config"]
      { Daemon.withSettings with config := some "conf/daemon.toml", command := some .dumpConfig }
      awkward :=
    ⟨rfl, rfl, hloaded, rfl⟩
  have hnone : (nestedPath.written.toList.any isControl) = false := rfl
  have hprintable : nestedPath.IsPrintable := by simpa [FilePath.IsPrintable] using hnone
  obtain ⟨cs, -, hreads, hruns⟩ := load_saved.2 _ _ _ _ _ hshows hprintable (List.Perm.refl _)
  obtain ⟨files, hrun⟩ := hruns rfl []
  have hshown :=
    hreads nestedPath (nestedFile outcome.output)
      (by rw [read_nestedFile, show outcome = _ from hrun])
  have hendless : endless.validate = .ok () := by decide +kernel
  obtain ⟨-, -, hspoils⟩ := load_saved.1 endless [] nestedPath (nestedFile [35, 10]) hendless
    (List.Perm.refl _) ⟨_, takes_nestedFile _, rfl⟩
  have htooLarge : ¬ endless.IsWritable := fun h => absurd h.maxLength (by decide)
  obtain ⟨hspoiled, hsame⟩ := hspoils htooLarge
  obtain ⟨found, hfind⟩ := Files.find_of_read (read_nestedFile [35, 10])
  exact ⟨hvalid, hsaved, hloaded, hshown, hendless, hspoiled, hsame found hfind⟩

end Settings

end Notifications
