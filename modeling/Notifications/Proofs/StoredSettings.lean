import Notifications.Proofs.Overrides
import Notifications.Proofs.SavedSettings
/-!
Loading as an operation on the store. A file that is there is only looked at, one that is missing is
written with the default settings and is what every later loading finds, and either way what is
loaded can be used.
-/
namespace Notifications.Settings

variable {s : Settings} {path : FilePath} {f : Files} {p : Place} {cs : List Char}

theorem validate_eq_ok_iff : s.validate = .ok () ↔ 1 ≤ s.output.queueDepth.toNat ∧
    ∀ key ∈ s.render.templates.names, Render.isKnownKey key = true := by
  have hdepth : s.output.queueDepth = 0 ↔ ¬ 1 ≤ s.output.queueDepth.toNat := by
    rw [← UInt64.toNat_inj]
    simp
  rw [← Render.Style.validate_eq_ok_iff, validate]
  by_cases hzero : s.output.queueDepth = 0
  · rw [if_pos hzero]
    exact iff_of_false (by simp) fun h => hdepth.1 hzero h.1
  · rw [if_neg hzero]
    cases s.render.validate with
    | ok => exact iff_of_true rfl ⟨Decidable.not_not.1 (mt hdepth.2 hzero), rfl⟩
    | error failure => exact iff_of_false (by simp) fun h => nomatch h.2

theorem text_eq_ok : s.text = .ok cs ↔ s.textWith s.render.templates.entries = some cs := by
  rw [text]
  cases s.textWith s.render.templates.entries <;> simp

/-- Where nothing is found and a file can be made, the default settings are written. -/
theorem load_of_free (hfree : f.FreeAt path p) :
    ∃ cs, default.text = .ok cs ∧ (load path f).result = .ok default ∧
      (load path f).files.find path = .ok (p, .file (Text.encodeUtf8 cs)) ∧
      ∀ q e, q ≠ p → f.get? q = some e → (load path f).files.get? q = some e := by
  obtain ⟨⟨reason, hnothing⟩, htakes⟩ := hfree
  obtain ⟨cs, htext⟩ : ∃ cs, default.textWith default.render.templates.entries = some cs :=
    Option.isSome_iff_exists.1 (textWith_isSome.2 isWritable_default)
  obtain ⟨g, hsave, -, hfind, hkept⟩ := saveWith_of_some htakes htext
  have hload : load path f = ⟨.ok default,
      [.plain .info .settings ("Wrote default configuration to " ++ path.written)], g⟩ := by
    rw [load, hnothing]
    simp only [save, hsave]
  rw [hload]
  exact ⟨cs, text_eq_ok.2 htext, rfl, hfind, hkept⟩

/-- Where nothing is found, settings come only from a file that could be made. -/
theorem freeAt_of_load {reason : FileError} (hnothing : f.find path = .error reason)
    (h : (load path f).result = .ok s) : ∃ p, f.FreeAt path p := by
  rw [load, hnothing, save, saveWith] at h
  rcases hparent : f.makeParent path with ⟨_ | ⟨⟨⟩⟩, g⟩
  · simp only [hparent] at h
    cases h
  · simp only [hparent] at h
    have hmakes : (f.makeParent path).1 = .ok () := congrArg Prod.fst hparent
    split at h
    · cases h
    · rename_i hsave
      split at hsave
      · cases hsave
      · split at hsave
        · cases hsave
        · rename_i hwrite
          obtain ⟨p, htakes⟩ := Files.takes_of_write hmakes (by rwa [hparent])
          exact ⟨p, ⟨reason, hnothing⟩, htakes⟩

/-- Loading leaves a file that is there as it is, and gives what its text says if it may be read and
can be used. Where nothing is found and a file can be made, the default settings are written, all
else is kept, and every later loading that may read this file finds them in it. In no other way are
settings loaded. -/
theorem load_stored (path : FilePath) (f : Files) :
    (∀ found, f.find path = .ok found →
      (load path f).files = f ∧ ∀ s, (load path f).result = .ok s ↔
      ∃ cs, f.read path = .ok (Text.encodeUtf8 cs) ∧ ofText cs = .ok s ∧
        1 ≤ s.output.queueDepth.toNat ∧
        ∀ key ∈ s.render.templates.names, Render.isKnownKey key = true) ∧
    (∀ p, f.FreeAt path p →
      let loaded := load path f
      loaded.result = .ok default ∧
      (∃ cs, default.text = .ok cs ∧ loaded.files.find path = .ok (p, .file (Text.encodeUtf8 cs))) ∧
      (∀ q e, q ≠ p → f.get? q = some e → loaded.files.get? q = some e) ∧
      ∀ later : Files, later.find path = loaded.files.find path → later.refusal .read p = none →
        (load path later).result = .ok default ∧ (load path later).files = later) ∧
    ∀ s, (load path f).result = .ok s →
      s.validate = .ok () ∧ ((∃ found, f.find path = .ok found) ∨ ∃ p, f.FreeAt path p) := by
  refine ⟨fun found hfind => ?_, fun p hfree => ?_, fun s h => ⟨(load_eq_ok h).1, ?_⟩⟩
  · rw [load_of_find hfind]
    refine ⟨rfl, fun s => ?_⟩
    simp only [ofFile_eq_ok, validate_eq_ok_iff]
  · obtain ⟨cs, htext, hresult, hfind, hkept⟩ := load_of_free hfree
    refine ⟨hresult, ⟨cs, htext, hfind⟩, hkept, fun later hlater hallowed => ?_⟩
    have hsaid := ofText_textWith (List.Perm.refl _) (text_eq_ok.1 htext)
    exact load_of_read validate_default hsaid (Files.read_of_find (hlater.trans hfind) hallowed)
  · cases hfind : f.find path with
    | ok found => exact .inl ⟨found, rfl⟩
    | error reason => exact .inr (freeAt_of_load hfind h)

/-- Nothing is found under the path and what it is in can be made, and yet no file is written. -/
structure Unwritten (path : FilePath) (f : Files) (reason : FileError) : Prop where
  nothing : f.find path = .error .notFound
  makes : (f.makeParent path).1 = .ok ()
  result : (load path f).result = .error (.unwritable reason.message)
  still : (load path f).files.find path = .error .notFound

/-- The directory is there, but no file may be made in it. -/
def lockedFiles : Files :=
  ⟨[(["conf"], .directory)], fun a _ => if a = .write then some .permissionDenied else none⟩

/-- The file is there and says nothing wrong, but may not be read. -/
def hiddenFile : Files :=
  ⟨(nestedFile []).entries, fun a _ => if a = .read then some .permissionDenied else none⟩

/-- No file can be written at a path with a slash or a dot at its end, nor where the system forbids
it, and a file that it does not let be read is not loaded whatever its text. -/
theorem load_refused :
    Unwritten (.ofString [] "conf/daemon.toml/") (.ofEntries []) .isDirectory ∧
    Unwritten (.ofString [] "conf/.") (.ofEntries []) .notFound ∧
    Unwritten nestedPath lockedFiles .permissionDenied ∧
    hiddenFile.find nestedPath = .ok (["conf", "daemon.toml"], .file []) ∧ ofText [] = .ok default ∧
      default.validate = .ok () ∧ (load nestedPath hiddenFile).result =
        .error (.unreadable "conf/daemon.toml" "Permission denied (os error 13)") := by
  refine ⟨⟨?_, ?_, ?_, ?_⟩, ⟨?_, ?_, ?_, ?_⟩, ⟨?_, ?_, ?_, ?_⟩, ?_, rfl, validate_default, ?_⟩
  all_goals decide +kernel

theorem freeAt_nestedPath : (Files.ofEntries []).FreeAt nestedPath ["conf", "daemon.toml"] :=
  ⟨⟨_, rfl⟩, takes_nestedPath⟩

/-- The default settings are written and found again, and a file that holds other ones is read. -/
theorem load_stored_nested :
    let loaded := load nestedPath (.ofEntries [])
    let bytes := Text.encodeUtf8 "[output]\nqueue_depth = 1\n".toList
    (Files.ofEntries []).FreeAt nestedPath ["conf", "daemon.toml"] ∧ loaded.result = .ok default ∧
      (load nestedPath loaded.files).result = .ok default ∧
      (load nestedPath loaded.files).files = loaded.files ∧
    (nestedFile bytes).read nestedPath = .ok bytes ∧
      (load nestedPath (nestedFile bytes)).result = .ok (Daemon.withQueue 1) ∧
      (load nestedPath (nestedFile bytes)).files = nestedFile bytes ∧
      (Daemon.withQueue 1).validate = .ok () := by
  intro loaded bytes
  obtain ⟨-, hfree, -⟩ := load_stored nestedPath (.ofEntries [])
  obtain ⟨hwritten, -, -, hlater⟩ := hfree _ freeAt_nestedPath
  obtain ⟨hagain, hsame⟩ := hlater loaded.files rfl rfl
  obtain ⟨hthere, -, hvalid⟩ := load_stored nestedPath (nestedFile bytes)
  obtain ⟨found, hfind⟩ := Files.find_of_read (read_nestedFile bytes)
  obtain ⟨hkept, hreads⟩ := hthere found hfind
  have hread : ofText "[output]\nqueue_depth = 1\n".toList = .ok (Daemon.withQueue 1) := rfl
  have hresult :=
    (hreads (Daemon.withQueue 1)).2 ⟨_, read_nestedFile bytes, hread, by decide, by decide⟩
  exact ⟨freeAt_nestedPath, hwritten, hagain, hsame, read_nestedFile bytes, hresult, hkept,
    (hvalid _ hresult).1⟩

end Notifications.Settings
