import Notifications.Files
import Notifications.Proofs.Slots
/-!
Making directories and writing files. What is made or written takes away no directory, so a path
that led somewhere before leads there still, and a file that could be written is found under the
path it was written to.
-/
namespace Notifications.Files

open Data (bind_eq_ok)

variable {f g h : Files} {start here p q : Place} {names above : List String} {name : String}
  {spot : Spot} {path : FilePath} {e : FileEntry} {bytes : List UInt8}

theorem allow_eq_ok {a : Access} : f.allow a p = .ok () ↔ f.refusal a p = none := by
  rw [allow]
  cases f.refusal a p <;> simp

theorem pass_eq_ok : f.pass spot = .ok p ↔ f.at? spot = some .directory ∧ p = spot.place := by
  rw [pass]
  rcases f.at? spot with _ | _ | _ <;> simp [eq_comm]

/-- A directory is entered where it is found. -/
theorem enter_cons :
    f.enter start (name :: above) = (f.locate start (name :: above)).bind f.pass := by
  rw [enter, locate]
  cases f.enter start above <;> rfl

theorem locate_of_enter (hdir : f.enter start names = .ok p) :
    ∃ spot, f.locate start names = .ok spot ∧ f.at? spot = some .directory := by
  cases names with
  | nil => exact ⟨.directory start, rfl, rfl⟩
  | cons name above =>
    rw [enter_cons] at hdir
    obtain ⟨spot, hspot, hpass⟩ := bind_eq_ok.1 hdir
    exact ⟨spot, hspot, (pass_eq_ok.1 hpass).1⟩

theorem enter_of_locate (hspot : f.locate start (name :: above) = .ok spot) :
    ∃ p, f.enter start above = .ok p := by
  obtain ⟨p, hp, -⟩ := bind_eq_ok.1 hspot
  exact ⟨p, hp⟩

/-- What a path is in has been entered where the path leads somewhere. -/
theorem enter_parent (hspot : f.locate start names = .ok spot) :
    ∃ p, f.enter start (FilePath.parent names) = .ok p := by
  induction names generalizing spot with
  | nil => exact ⟨start, rfl⟩
  | cons name above ih =>
    obtain ⟨p, habove⟩ := enter_of_locate hspot
    rw [FilePath.parent]
    split
    · obtain ⟨spot, habove, -⟩ := locate_of_enter habove
      exact ih habove
    · exact ⟨p, habove⟩

/-- No directory is lost, and what is refused has not changed. -/
structure Keeps (f g : Files) : Prop where
  refusal : g.refusal = f.refusal
  directories : ∀ p, f.get? p = some .directory → g.get? p = some .directory

namespace Keeps

variable (hkeeps : f.Keeps g)

include hkeeps

theorem look_eq (here : Place) (name : String) : g.look here name = f.look here name := by
  simp only [look, allow, hkeeps.refusal]

theorem pass (h : f.pass spot = .ok p) : g.pass spot = .ok p := by
  obtain ⟨hdir, hplace⟩ := pass_eq_ok.1 h
  refine pass_eq_ok.2 ⟨?_, hplace⟩
  cases spot with
  | directory => rfl
  | named p => exact hkeeps.directories p hdir

theorem enter (h : f.enter start names = .ok p) : g.enter start names = .ok p := by
  induction names generalizing p with
  | nil => exact h
  | cons name above ih =>
    obtain ⟨here, habove, hpass⟩ := bind_eq_ok.1 h
    obtain ⟨spot, hlook, hpass⟩ := bind_eq_ok.1 hpass
    refine bind_eq_ok.2 ⟨here, ih habove, bind_eq_ok.2 ⟨spot, ?_, hkeeps.pass hpass⟩⟩
    rwa [hkeeps.look_eq]

theorem locate (h : f.locate start names = .ok spot) : g.locate start names = .ok spot := by
  cases names with
  | nil => exact h
  | cons name above =>
    obtain ⟨here, habove, hlook⟩ := bind_eq_ok.1 h
    refine bind_eq_ok.2 ⟨here, hkeeps.enter habove, ?_⟩
    rwa [hkeeps.look_eq]

end Keeps

theorem ne_nil_of_get? (h : f.get? p ≠ some .directory) : p ≠ [] := by
  rintro rfl
  exact h rfl

theorem ne_nil_of_free (hfree : f.get? p = none) : p ≠ [] := by
  rintro rfl
  cases hfree

theorem keeps_put_file (h : f.get? p ≠ some .directory) (bytes : List UInt8) :
    f.Keeps (f.put p (.file bytes)) := by
  refine ⟨rfl, fun q hq => ?_⟩
  have hne : q ≠ p := fun heq => h (heq ▸ hq)
  rwa [get?_put f _ q (ne_nil_of_get? h), if_neg hne]

/-- Nothing that was there has changed, and neither has what is refused. -/
structure Extends (f g : Files) : Prop where
  refusal : g.refusal = f.refusal
  entries : ∀ p e, f.get? p = some e → g.get? p = some e

theorem Extends.refl (f : Files) : f.Extends f := ⟨rfl, fun _ _ h => h⟩

theorem Extends.trans (hfg : f.Extends g) (hgh : g.Extends h) : f.Extends h :=
  ⟨hgh.refusal.trans hfg.refusal, fun p e he => hgh.entries p e (hfg.entries p e he)⟩

theorem Extends.keeps (hext : f.Extends g) : f.Keeps g := ⟨hext.refusal, fun p => hext.entries p _⟩

theorem extends_put (hfree : f.get? p = none) (e : FileEntry) : f.Extends (f.put p e) := by
  refine ⟨rfl, fun q old hold => ?_⟩
  have hne : q ≠ p := by
    rintro rfl
    rw [hfree] at hold
    cases hold
  rwa [get?_put f e q (ne_nil_of_free hfree), if_neg hne]

theorem makeDirectory_eq_ok : f.makeDirectory start names = .ok g ↔ ∃ p,
    f.locate start names = .ok (.named p) ∧ f.get? p = none ∧ f.refusal .write p = none ∧
      g = f.put p .directory := by
  rw [makeDirectory]
  constructor
  · intro hmake
    obtain ⟨spot, hspot, hmake⟩ := bind_eq_ok.1 hmake
    cases spot with
    | directory => cases hmake
    | named p =>
      dsimp only at hmake
      split at hmake
      · cases hmake
      · rename_i hfree
        obtain ⟨⟨⟩, hallow, hmake⟩ := bind_eq_ok.1 hmake
        exact ⟨p, hspot, hfree, allow_eq_ok.1 hallow, (Except.ok.inj hmake).symm⟩
  · rintro ⟨p, hspot, hfree, hallow, rfl⟩
    simp only [hspot, bind, Except.bind, hfree, allow_eq_ok.2 hallow]
    rfl

theorem extends_of_makeDirectory (hmake : f.makeDirectory start names = .ok g) : f.Extends g := by
  obtain ⟨p, -, hfree, -, rfl⟩ := makeDirectory_eq_ok.1 hmake
  exact extends_put hfree .directory

theorem enter_put_directory (hspot : f.locate start names = .ok (.named p))
    (hfree : f.get? p = none) :
    (f.put p .directory).enter start names = .ok p := by
  cases names with
  | nil => cases hspot
  | cons name above =>
    rw [enter_cons]
    refine bind_eq_ok.2 ⟨_, (extends_put hfree .directory).keeps.locate hspot,
      pass_eq_ok.2 ⟨?_, rfl⟩⟩
    rw [at?, get?_put f _ p (ne_nil_of_free hfree), if_pos rfl]

theorem extends_ensureDirectory (f : Files) (start : Place) (names : List String) :
    f.Extends (f.ensureDirectory start names).2 := by
  rw [ensureDirectory]
  split
  · rename_i hmake
    exact extends_of_makeDirectory hmake
  · exact .refl f

/-- Making directories changes nothing that is there, whether or not all of them can be made. -/
theorem extends_makeDirectories (f : Files) (start : Place) (names : List String) :
    f.Extends (f.makeDirectories start names).2 := by
  induction names with
  | nil => exact .refl f
  | cons name above ih =>
    rw [makeDirectories]
    split
    · exact ih
    · split
      · split
        · rename_i g habove
          rw [habove] at ih
          exact ih.trans (extends_ensureDirectory g start _)
        · exact ih
      · exact extends_ensureDirectory f start _

theorem extends_of_makeDirectories {result : Except FileError Unit}
    (hmake : f.makeDirectories start names = (result, g)) : f.Extends g := by
  have hext := extends_makeDirectories f start names
  rwa [hmake] at hext

theorem isDirectory_iff : f.isDirectory start names = true ↔ ∃ p, f.enter start names = .ok p := by
  rw [isDirectory]
  cases f.enter start names <;> simp [Except.isOk, Except.toBool]

/-- A directory that is there is left as it is. -/
theorem ensureDirectory_of_enter (hdir : f.enter start names = .ok p) :
    f.ensureDirectory start names = (.ok (), f) := by
  have hthere : f.makeDirectory start names = .error .alreadyExists := by
    obtain ⟨spot, hspot, hat⟩ := locate_of_enter hdir
    rw [makeDirectory, hspot]
    cases spot with
    | directory => rfl
    | named p =>
      rw [at?] at hat
      simp only [bind, Except.bind, hat]
  simp only [ensureDirectory, hthere, isDirectory_iff.2 ⟨p, hdir⟩, if_true]

theorem makeDirectories_of_enter (hdir : f.enter start names = .ok p) :
    f.makeDirectories start names = (.ok (), f) := by
  induction names generalizing p with
  | nil => rfl
  | cons name above ih =>
    obtain ⟨here, habove, -⟩ := bind_eq_ok.1 hdir
    rw [makeDirectories]
    split
    · exact ih habove
    · split
      · rw [ih habove]
        exact ensureDirectory_of_enter hdir
      · exact ensureDirectory_of_enter hdir

/-- What can be read is there. -/
theorem find_of_read (hread : f.read path = .ok bytes) : ∃ found, f.find path = .ok found := by
  obtain ⟨found, hfind, -⟩ := bind_eq_ok.1 hread
  exact ⟨found, hfind⟩

/-- Where a path leads somewhere already, no directory above it is missing. -/
theorem makeParent_of_find {found : Place × FileEntry} (hfind : f.find path = .ok found) :
    f.makeParent path = (.ok (), f) := by
  obtain ⟨spot, hspot⟩ : ∃ spot, f.locate path.start path.names = .ok spot := by
    rw [find] at hfind
    split at hfind
    · cases hfind
    · obtain ⟨spot, hspot, -⟩ := bind_eq_ok.1 hfind
      exact ⟨spot, hspot⟩
  obtain ⟨p, hparent⟩ := enter_parent hspot
  exact makeDirectories_of_enter hparent

/-- With what it is in made as far as it was missing, the path leads to `p`, where no directory is
and a file may be written. -/
structure Takes (f : Files) (path : FilePath) (p : Place) : Prop where
  named : path.written ≠ ""
  noSlash : path.slash = false
  makes : (f.makeParent path).1 = .ok ()
  place : (f.makeParent path).2.locate path.start path.names = .ok (.named p)
  noDirectory : (f.makeParent path).2.get? p ≠ some .directory
  allowed : f.refusal .write p = none

theorem extends_makeParent (f : Files) (path : FilePath) : f.Extends (f.makeParent path).2 :=
  extends_makeDirectories f path.start (FilePath.parent path.names)

/-- There is no other way to write a file than at a place that takes it. -/
theorem takes_of_write (hmakes : (f.makeParent path).1 = .ok ())
    (hwrite : (f.makeParent path).2.write path bytes = .ok g) : ∃ p, f.Takes path p := by
  rw [Files.write] at hwrite
  split at hwrite
  · cases hwrite
  · rename_i hnamed
    obtain ⟨spot, hspot, hwrite⟩ := bind_eq_ok.1 hwrite
    cases spot with
    | directory => cases hwrite
    | named p =>
      dsimp only at hwrite
      split at hwrite
      · cases hwrite
      · rename_i hplain
        rw [not_or, Bool.not_eq_true] at hplain
        obtain ⟨⟨⟩, hallow, -⟩ := bind_eq_ok.1 hwrite
        rw [allow_eq_ok, (extends_makeParent f path).refusal] at hallow
        exact ⟨p, hnamed, hplain.1, hmakes, hspot, hplain.2, hallow⟩

namespace Takes

variable (htakes : f.Takes path p)

include htakes

theorem makeParent_eq : f.makeParent path = (.ok (), (f.makeParent path).2) := by
  rw [← htakes.makes]

theorem write_eq (bytes : List UInt8) :
    (f.makeParent path).2.write path bytes = .ok ((f.makeParent path).2.put p (.file bytes)) := by
  have hallow : (f.makeParent path).2.allow .write p = .ok () := by
    rw [allow_eq_ok, (extends_makeParent f path).refusal]
    exact htakes.allowed
  have hplain : ¬ (path.slash = true ∨ (f.makeParent path).2.get? p = some .directory) := by
    simp [htakes.noSlash, htakes.noDirectory]
  simp only [Files.write, if_neg htakes.named, htakes.place, if_neg hplain, hallow, bind,
    Except.bind]
  rfl

/-- What is written is found. -/
theorem find_put (bytes : List UInt8) :
    ((f.makeParent path).2.put p (.file bytes)).find path = .ok (p, .file bytes) := by
  have hplace := (keeps_put_file htakes.noDirectory bytes).locate htakes.place
  have hget : ((f.makeParent path).2.put p (.file bytes)).at? (.named p) = some (.file bytes) := by
    rw [at?, get?_put _ _ p (ne_nil_of_get? htakes.noDirectory), if_pos rfl]
  simp only [find, if_neg htakes.named, hplace, hget, htakes.noSlash, bind, Except.bind]
  rfl

/-- Nothing else is changed by what is written. -/
theorem get?_put_of_ne (bytes : List UInt8) (hne : q ≠ p) (he : f.get? q = some e) :
    ((f.makeParent path).2.put p (.file bytes)).get? q = some e := by
  rw [get?_put _ _ q (ne_nil_of_get? htakes.noDirectory), if_neg hne]
  exact (extends_makeParent f path).entries q e he

end Takes

section Missing

variable {made missing : List String}

/-- The name can be looked up in the directory and is no dot. -/
structure Names (f : Files) (here : Place) (name : String) : Prop where
  ne_dot : name ≠ "."
  ne_dots : name ≠ ".."
  allowed : f.refusal .look (here ++ [name]) = none

theorem Names.look_eq (hname : f.Names here name) :
    f.look here name = .ok (.named (here ++ [name])) := by
  simp only [look, allow_eq_ok.2 hname.allowed, if_neg hname.ne_dot, if_neg hname.ne_dots, bind,
    Except.bind]
  rfl

/-- The names, of which the last comes first, stand for nothing in the directory or in one another,
and directories of these names may be made. -/
inductive Missing (f : Files) (here : Place) : List String → Prop
  | nil : Missing f here []
  | cons {name : String} {names : List String} (above : Missing f here names)
      (named : f.Names (here ++ names.reverse) name)
      (free : f.get? (here ++ names.reverse ++ [name]) = none)
      (allowed : f.refusal .write (here ++ names.reverse ++ [name]) = none) :
      Missing f here (name :: names)

theorem Missing.enter_eq (hmade : f.enter start made = .ok here) (hmissing : f.Missing here missing)
    (hne : missing ≠ []) : f.enter start (missing ++ made) = .error .notFound := by
  induction hmissing with
  | nil => exact absurd rfl hne
  | @cons name names above hname hfree _ ih =>
    rw [List.cons_append, enter]
    cases names with
    | nil =>
      rw [List.reverse_nil, List.append_nil] at hname hfree
      simp only [List.nil_append, hmade, hname.look_eq, bind, Except.bind, pass, at?, hfree]
    | cons =>
      rw [ih (List.cons_ne_nil _ _)]
      rfl

theorem not_concat_prefix : ¬ p ++ [name] <+: p := by
  intro h
  have hlength := h.length_le
  rw [List.length_append, List.length_singleton] at hlength
  omega

/-- What is missing is made from above, and nothing else is. -/
theorem Missing.makeDirectories (hmade : f.enter start made = .ok here)
    (hmissing : f.Missing here missing) :
    ∃ g, f.makeDirectories start (missing ++ made) = (.ok (), g) ∧
      g.enter start (missing ++ made) = .ok (here ++ missing.reverse) ∧
      ∀ q, ¬ q <+: here ++ missing.reverse → g.get? q = f.get? q := by
  induction hmissing with
  | nil =>
    rw [List.nil_append, List.reverse_nil, List.append_nil]
    exact ⟨f, makeDirectories_of_enter hmade, hmade, fun _ _ => rfl⟩
  | @cons name names above hname hfree hallowed ih =>
    obtain ⟨g, hg, henter, hsame⟩ := ih
    have hext : f.Extends g := extends_of_makeDirectories hg
    have hgfree : g.get? (here ++ names.reverse ++ [name]) = none :=
      (hsame _ not_concat_prefix).trans hfree
    have hlocate : g.locate start (name :: (names ++ made)) =
        .ok (.named (here ++ names.reverse ++ [name])) := by
      refine bind_eq_ok.2 ⟨_, henter, ?_⟩
      rw [hext.keeps.look_eq, hname.look_eq]
    have hmake : g.makeDirectory start (name :: (names ++ made)) =
        .ok (g.put (here ++ names.reverse ++ [name]) .directory) :=
      makeDirectory_eq_ok.2 ⟨_, hlocate, hgfree, by rwa [hext.refusal], rfl⟩
    have hensure : g.ensureDirectory start (name :: (names ++ made)) =
        (.ok (), g.put (here ++ names.reverse ++ [name]) .directory) := by
      simp only [ensureDirectory, hmake]
    rw [List.reverse_cons, ← List.append_assoc]
    refine ⟨_, ?_, enter_put_directory hlocate hgfree, fun q hq => ?_⟩
    · rw [List.cons_append, Files.makeDirectories, if_neg hname.ne_dot]
      cases names with
      | nil =>
        -- What the directory is to be made in is there, and so it is made at the first attempt.
        obtain rfl : f = g := congrArg Prod.snd ((makeDirectories_of_enter hmade).symm.trans hg)
        simp only [hmake, hensure]
      | cons second names =>
        have hlost : f.makeDirectory start (name :: (second :: names ++ made)) =
            .error .notFound := by
          rw [makeDirectory, locate, above.enter_eq hmade (List.cons_ne_nil _ _)]
          rfl
        simp only [hlost, hg, hensure]
    · have hne : q ≠ here ++ names.reverse ++ [name] := fun heq => hq (heq ▸ List.prefix_rfl)
      rw [get?_put _ _ _ (by simp), if_neg hne]
      exact hsame q fun hp => hq (hp.trans (List.prefix_append _ _))

/-- Where the way of a path leads through directories and then on through nothing, a file can be
made. -/
theorem takes_of_missing {path : FilePath} (hnamed : path.written ≠ "")
    (hslash : path.slash = false)
    (hnames : path.names = name :: (missing ++ made)) (hmade : f.enter path.start made = .ok here)
    (hmissing : f.Missing here missing) (hname : f.Names (here ++ missing.reverse) name)
    (hdirectory : f.get? (here ++ missing.reverse ++ [name]) ≠ some .directory)
    (hallowed : f.refusal .write (here ++ missing.reverse ++ [name]) = none) :
    f.Takes path (here ++ missing.reverse ++ [name]) := by
  obtain ⟨g, hg, henter, hsame⟩ := hmissing.makeDirectories hmade
  have hext : f.Extends g := extends_of_makeDirectories hg
  have hmake : f.makeParent path = (.ok (), g) := by
    rw [makeParent, hnames, FilePath.parent, if_neg hname.ne_dot, hg]
  refine ⟨hnamed, hslash, by rw [hmake], ?_, ?_, hallowed⟩
  · rw [hmake, hnames]
    refine bind_eq_ok.2 ⟨_, henter, ?_⟩
    rw [hext.keeps.look_eq, hname.look_eq]
  · rw [hmake]
    dsimp only
    rwa [hsame _ not_concat_prefix]

end Missing

/-- A file that is found is read unless that is refused. -/
theorem read_of_find (hfind : f.find path = .ok (p, .file bytes))
    (hallowed : f.refusal .read p = none) :
    f.read path = .ok bytes := by
  simp only [read, hfind, allow_eq_ok.2 hallowed, bind, Except.bind]
  rfl

/-- A file can be made at the path, and read. -/
def Creatable (f : Files) (path : FilePath) : Prop := ∃ p, f.Takes path p ∧ f.refusal .read p = none

/-- Nothing is found under the path, and a file can be made there. -/
structure FreeAt (f : Files) (path : FilePath) (p : Place) : Prop where
  nothing : ∃ reason, f.find path = .error reason
  takes : f.Takes path p

end Notifications.Files
