import Notifications.Proofs.ByteOrder
import Notifications.Proofs.Dictionaries
import Notifications.Proofs.Quotation
/-!
Templates that replace others. A message is shown with the text of at most one key, each of these
keys has a text by default, and just the overrides of other keys are refused, which nothing is shown
with.
-/
namespace Notifications

open Data (Dictionary)

namespace Notice.Content

open Render (isKnownKey quotingSelfKey)

/-- The key under which the text of a message is looked up; a text that quotes nobody is shown
itself. -/
def key? : Content → Option String
  | .text _ true => some quotingSelfKey
  | .text _ false => none
  | .comment template => some template.resourceKey
  | .knock => some Render.knockKey
  | .connectionRequest _ => some Render.connectionRequestKey
  | .conversationDeleted => some Render.conversationDeletedKey

/-- What is shown when this text has been found under the key. -/
def shownWith (found : String) : Content → String
  | .text body true => Render.quote found body
  | .text body false => body
  | _ => found

variable {c : Content} {key : String}

theorem isKnownKey_of_key? (h : c.key? = some key) : isKnownKey key = true := by
  cases c with
  | text body quotesSelf =>
    cases quotesSelf with
    | true => exact Option.some.inj h ▸ by decide
    | false => cases h
  | comment template =>
    rw [← Option.some.inj h]
    cases template <;> decide
  | _ => exact Option.some.inj h ▸ by decide

theorem key?_eq_none (h : c.key? = none) : ∃ body, c = .text body false := by
  cases c with
  | text body quotesSelf =>
    cases quotesSelf with
    | true => cases h
    | false => exact ⟨body, rfl⟩
  | _ => cases h

theorem shownWith_of_ne (h : c.key? = some key) (hne : key ≠ quotingSelfKey) (found : String) :
    c.shownWith found = found := by
  cases c with
  | text body quotesSelf =>
    cases quotesSelf with
    | true => exact absurd (Option.some.inj h).symm hne
    | false => cases h
  | _ => rfl

/-- A message for each of the known keys. -/
def samples : List Content :=
  CommentTemplate.all.map .comment ++ [.knock, .connectionRequest "", .conversationDeleted,
    .text "" true]

theorem exists_key?_eq (h : isKnownKey key = true) : ∃ c : Content, c.key? = some key := by
  have hall : ∀ e ∈ Render.defaultTexts, ∃ c ∈ samples, c.key? = some e.1 := by decide
  obtain ⟨e, he, hkey⟩ := List.lookup_isSome_iff.1 h
  obtain ⟨c, -, hc⟩ := hall e he
  exact ⟨c, beq_iff_eq.1 hkey ▸ hc⟩

end Notice.Content

namespace Render

open Notice (Content Group Message)

variable {t : Templates} {c : Content} {key : String} {s : Style}

theorem fullText_eq (t : Templates) (c : Content) :
    fullText t c = c.shownWith ((c.key?.map t.text).getD "") := by
  cases c with
  | text body quotesSelf => cases quotesSelf <;> rfl
  | _ => rfl

theorem fullText_of_key? (h : c.key? = some key) : fullText t c = c.shownWith (t.text key) := by
  rw [fullText_eq, h]
  rfl

/-- Two tables with the same texts for the known keys show every message alike. -/
theorem fullText_congr {t' : Templates}
    (h : ∀ key, isKnownKey key = true → t.text key = t'.text key) (c : Content) :
    fullText t c = fullText t' c := by
  rw [fullText_eq, fullText_eq]
  cases hkey : c.key? with
  | none => rfl
  | some key => rw [Option.map_some, Option.map_some, h key (Content.isKnownKey_of_key? hkey)]

/-- Where a key is known, its text is the one set for it or else the one it has by default. -/
theorem exists_find?_eq (h : isKnownKey key = true) : ∃ found, t.find? key = some found ∧
    (t.overrides.get? key = some found ∨
      t.overrides.get? key = none ∧ defaultTexts.lookup key = some found) := by
  cases hset : t.overrides.get? key with
  | some found => exact ⟨found, by rw [Templates.find?, hset]; rfl, .inl rfl⟩
  | none =>
    obtain ⟨found, hfound⟩ : ∃ found, defaultTexts.lookup key = some found :=
      Option.isSome_iff_exists.1 h
    exact ⟨found, by rw [Templates.find?, hset, hfound]; rfl, .inr ⟨rfl, hfound⟩⟩

theorem text_of_find? {found : String} (h : t.find? key = some found) : t.text key = found := by
  rw [Templates.text, h, Option.getD_some]

section Keys

variable {keys order : List String}

theorem mem_unknownKeys : key ∈ unknownKeys keys ↔ key ∈ keys ∧ isKnownKey key = false := by
  simp [unknownKeys]

theorem unknownKeys_eq_nil : unknownKeys keys = [] ↔ ∀ key ∈ keys, isKnownKey key = true := by
  simp [unknownKeys, List.filter_eq_nil_iff]

theorem checkKeys_eq_ok_iff : checkKeys keys = .ok () ↔ ∀ key ∈ keys, isKnownKey key = true := by
  rw [← unknownKeys_eq_nil, checkKeys]
  cases unknownKeys keys <;> simp

/-- The unknown keys are named in the order of their bytes, in whatever order they were met. -/
theorem checkKeys_eq (hkeys : keys.Perm (unknownKeys order)) (hsorted : keys.Pairwise Text.ByteLE) :
    checkKeys order = if keys = [] then .ok () else
      .error (.configuration ("unknown template keys: " ++ ", ".intercalate keys)) := by
  rw [Text.eq_sortByBytes hkeys hsorted, checkKeys]
  cases hunknown : unknownKeys order with
  | nil =>
    have hnone : Text.sortByBytes [] = [] := (Text.sortByBytes_perm []).eq_nil
    rw [if_pos hnone]
  | cons first others =>
    have hsome : Text.sortByBytes (first :: others) ≠ [] := fun heq =>
      List.cons_ne_nil first others (heq ▸ Text.sortByBytes_perm (first :: others)).symm.eq_nil
    rw [if_neg hsome]

theorem checkKeys_perm (hperm : order.Perm keys) : checkKeys order = checkKeys keys := by
  have hsorted := Text.pairwise_sortByBytes (unknownKeys keys)
  have hkeys := Text.sortByBytes_perm (unknownKeys keys)
  rw [checkKeys_eq hkeys hsorted, checkKeys_eq (hkeys.trans (hperm.symm.filter _)) hsorted]

end Keys

namespace Style

theorem validate_eq_ok_iff :
    s.validate = .ok () ↔ ∀ key ∈ s.templates.names, isKnownKey key = true := checkKeys_eq_ok_iff

theorem render_without_unknownKeys (s : Style) (order : List String) (g : Group) :
    Style.render { s with templates := s.templates.without (unknownKeys order) } g =
      s.render g := by
  have hsame : ∀ key, isKnownKey key = true →
      Templates.text ⟨s.templates.without (unknownKeys order)⟩ key =
        Templates.text ⟨s.templates⟩ key := by
    intro key hkey
    have hkept : key ∉ unknownKeys order := by simp [mem_unknownKeys, hkey]
    simp [Templates.text, Templates.find?, Dictionary.get?_without, hkept]
  have hline : ∀ m,
      Style.line { s with templates := s.templates.without (unknownKeys order) } m = s.line m := by
    intro m
    rw [line, line, fullText_congr hsame]
  exact congrArg (Shown.mk g.id g.name g.lastTime !g.oneToOne)
    (List.map_congr_left fun m _ => hline m)

/-- A message that has nothing to be shown but what is set for the key. -/
theorem exists_line_eq (h : isKnownKey key = true) (body : String) : ∃ m : Message,
    (key = quotingSelfKey → m.content = .text body true) ∧
    ∀ (overrides : Dictionary) (value : String),
      overrides.get? key = some value →
      (line ⟨0, overrides⟩ m).text = if key = quotingSelfKey then quote value body else value := by
  have hshown : ∀ (c : Content) (overrides : Dictionary) (value : String), c.key? = some key →
      overrides.get? key = some value →
      (line ⟨0, overrides⟩ ⟨⟨"", none⟩, 0, c⟩).text = c.shownWith value := by
    intro c overrides value hc hset
    rw [text_line rfl, fullText_of_key? hc]
    simp [Templates.text, Templates.find?, hset]
  by_cases hquoting : key = quotingSelfKey
  · refine ⟨⟨⟨"", none⟩, 0, .text body true⟩, fun _ => rfl, fun overrides value hset => ?_⟩
    have hkey : (Content.text body true).key? = some key := congrArg some hquoting.symm
    rw [if_pos hquoting, hshown _ overrides value hkey hset]
    rfl
  · obtain ⟨c, hc⟩ := Content.exists_key?_eq h
    refine ⟨⟨⟨"", none⟩, 0, c⟩, fun heq => absurd heq hquoting, fun overrides value hset => ?_⟩
    rw [if_neg hquoting, hshown c overrides value hc hset, Content.shownWith_of_ne hc hquoting]

/-- Just the overrides of known keys can be seen, and just these are accepted. What is shown for a
key is what is set for it or else its default, and never the key for want of a text. In what order
the keys are met does not matter. -/
theorem overrides_seen_iff_known (s : Style) :
    (∀ (order : List String) (g : Group),
      Style.render { s with templates := s.templates.without (unknownKeys order) } g = s.render g) ∧
    (∀ key body, isKnownKey key = true →
      ∃ m : Message, (key = quotingSelfKey → m.content = .text body true) ∧
        ∀ (overrides : Dictionary) (value : String), overrides.get? key = some value →
          (line ⟨0, overrides⟩ m).text = if key = quotingSelfKey then quote value body else value) ∧
    (∀ (m : Message) (key : String), m.content.key? = some key →
      ∃ found, (s.templates.get? key = some found ∨
          s.templates.get? key = none ∧ defaultTexts.lookup key = some found) ∧
        (s.line m).text = truncate s.maxLength.toNat (m.content.shownWith found)) ∧
    (∀ m : Message, m.content.key? = none →
      ∃ body, m.content = .text body false ∧ (s.line m).text = truncate s.maxLength.toNat body) ∧
    (s.validate = .ok () ↔ ∀ key ∈ s.templates.names, isKnownKey key = true) ∧
    (∀ order : List String, order.Perm s.templates.names → checkKeys order = s.validate ∧
      (∃ keys : List String, keys.Perm (order.filter fun key => !isKnownKey key) ∧
        keys.Pairwise Text.ByteLE) ∧
      ∀ keys : List String, keys.Perm (order.filter fun key => !isKnownKey key) →
        keys.Pairwise Text.ByteLE → keys.Nodup ∧ checkKeys order = if keys = [] then .ok () else
          .error (.configuration ("unknown template keys: " ++ ", ".intercalate keys))) := by
  refine ⟨render_without_unknownKeys s, fun key body h => exists_line_eq h body,
    fun m key hkey => ?_, fun m hkey => ?_, validate_eq_ok_iff,
    fun order horder => ⟨?_, ?_, ?_⟩⟩
  · obtain ⟨found, hfind, hsource⟩ :=
      exists_find?_eq (t := ⟨s.templates⟩) (Content.isKnownKey_of_key? hkey)
    refine ⟨found, hsource, ?_⟩
    rw [line, fullText_of_key? hkey, text_of_find? hfind]
  · obtain ⟨body, hbody⟩ := Content.key?_eq_none hkey
    exact ⟨body, hbody, by rw [line, hbody]; rfl⟩
  · exact checkKeys_perm horder
  · exact ⟨_, Text.sortByBytes_perm _, Text.pairwise_sortByBytes _⟩
  · intro keys hkeys hsorted
    refine ⟨?_, checkKeys_eq hkeys hsorted⟩
    exact (hkeys.trans (horder.filter _)).nodup_iff.2 (s.templates.nodup_names.filter _)

/-- One known key and two unknown ones, of which the first in the order of bytes is met last. -/
theorem overrides_seen_iff_known_mixed :
    let s : Style := ⟨200, .ofList [("é", "x"), (knockKey, "Hey"), ("z", "y")]⟩
    let order := ["é", knockKey, "z"]
    order.Perm s.templates.names ∧ ["z", "é"].Perm (order.filter fun key => !isKnownKey key) ∧
      ["z", "é"].Pairwise Text.ByteLE ∧
      s.validate = .error (.configuration "unknown template keys: z, é") ∧
      (s.line ⟨⟨"Ann", none⟩, 5, .knock⟩).text = "Hey" ∧
      (s.line ⟨⟨"Ann", none⟩, 5, .text "hi" false⟩).text = "hi" ∧
      ∃ m : Message, m.content = .text "hi" true ∧
        (line ⟨0, .ofList [(quotingSelfKey, "Re:")]⟩ m).text = quote "Re:" "hi" := by
  intro s order
  have horder : order.Perm s.templates.names := by decide
  have hkeys : ["z", "é"].Perm (order.filter fun key => !isKnownKey key) := by decide
  have hsorted : ["z", "é"].Pairwise Text.ByteLE :=
    List.pairwise_pair.2 (Text.byteLE_of_lt (by decide))
  obtain ⟨-, hseen, hfound, hplain, -, hrefused⟩ := overrides_seen_iff_known s
  obtain ⟨m, hm, hline⟩ := hseen quotingSelfKey "hi" (by decide)
  obtain ⟨found, hsource, hknock⟩ := hfound ⟨⟨"Ann", none⟩, 5, .knock⟩ knockKey rfl
  obtain rfl : found = "Hey" := by
    rcases hsource with hset | ⟨hunset, -⟩
    · exact (Option.some.inj hset).symm
    · cases hunset
  obtain ⟨body, hbody, htext⟩ := hplain ⟨⟨"Ann", none⟩, 5, .text "hi" false⟩ rfl
  obtain rfl : "hi" = body := (Content.text.inj hbody).1
  obtain ⟨hsame, -, hnames⟩ := hrefused order horder
  obtain ⟨-, herror⟩ := hnames _ hkeys hsorted
  refine ⟨horder, hkeys, hsorted, hsame.symm.trans herror, hknock, htext, m, hm rfl, ?_⟩
  exact hline (.ofList [(quotingSelfKey, "Re:")]) "Re:" rfl

end Style

end Render

end Notifications
