import Notifications.Proofs.FileStore
import Notifications.Proofs.SettingsText
import Notifications.Proofs.Utf8
import Notifications.Settings.Store
/-!
Settings that have been loaded. They are valid, and since a count in a text is no larger than its
greatest integer, they can be written again.
-/
namespace Notifications

open Data (Row Schema Slots map_eq_ok bind_eq_ok)

namespace Toml.Value

variable {ts : List Type} {title : String} {schema : Schema Value ts} {row : Row ts} {v : Value}

theorem readCount_le {n : UInt64} (h : v.readCount = .ok n) : n.toNat ≤ 9223372036854775807 := by
  unfold readCount at h
  split at h
  · rename_i i
    split at h
    · rename_i hnonneg
      obtain rfl := Except.ok.inj h
      have hlt := i.toNatClampNeg_lt
      rw [Int64.toNat_toUInt64_of_le hnonneg]
      omega
    · cases h
  · cases h

/-- A count that is read, or is the default. -/
theorem count_le {n value : UInt64} (h : (∃ v, readCount v = .ok n) ∨ some value = some n)
    (hvalue : value.toNat ≤ 9223372036854775807) : n.toNat ≤ 9223372036854775807 := by
  rcases h with ⟨v, hread⟩ | habsent
  · exact readCount_le hread
  · exact Option.some.inj habsent ▸ hvalue

theorem holds_fields {fields : Fields} {slots slots' : Slots ts}
    (h : fields.foldlM (fun slots f => (schema.fill f.1 f.2 slots).getD (.ok slots)) slots =
      .ok slots')
    (hslots : schema.Holds slots) : schema.Holds slots' := by
  induction fields generalizing slots with
  | nil => exact Except.ok.inj h ▸ hslots
  | cons f fields ih =>
    rw [List.foldlM_cons] at h
    obtain ⟨next, hnext, hrest⟩ := bind_eq_ok.1 h
    refine ih hrest ?_
    cases hfill : schema.fill f.1 f.2 slots with
    | none =>
      rw [hfill] at hnext
      exact Except.ok.inj hnext ▸ hslots
    | some r =>
      rw [hfill, Option.getD_some] at hnext
      exact Schema.holds_fill (hnext ▸ hfill) hslots

theorem yields_readFields {fields : Fields} (h : readFields schema fields = .ok row) :
    schema.Yields row := by
  rw [readFields] at h
  obtain ⟨slots, hslots, hfinish⟩ := bind_eq_ok.1 h
  exact Schema.yields_finish hfinish (holds_fields hslots (Schema.holds_empty schema))

theorem yields_readRecord (h : readRecord title schema v = .ok row) : schema.Yields row := by
  rw [readRecord] at h
  split at h
  · exact yields_readFields h
  · obtain ⟨⟨row, rest⟩, hrow, rfl⟩ := map_eq_ok.1 h
    exact Schema.yields_inOrder hrow
  · cases h

end Toml.Value

namespace Settings

open Toml

variable {s : Settings} {v : Value} {cs : List Char} {path : FilePath} {f : Files}

theorem isWritable_default : default.IsWritable := ⟨by decide, by decide, by decide⟩

theorem validate_default : default.validate = .ok () := by decide +kernel

theorem maxMessages_le {limits : Limits} (h : Limits.reader format v = .ok limits) :
    limits.maxMessages.toNat ≤ 9223372036854775807 := by
  rw [Limits.reader] at h
  obtain ⟨⟨maxMessages, keepEmpty, ⟨⟩⟩, hrow, h⟩ := bind_eq_ok.1 h
  obtain rfl := Except.ok.inj h
  exact Value.count_le (Value.yields_readRecord hrow).1 isWritable_default.maxMessages

theorem maxLength_le {style : Render.Style} (h : Render.Style.reader format v = .ok style) :
    style.maxLength.toNat ≤ 9223372036854775807 := by
  rw [Render.Style.reader] at h
  obtain ⟨⟨maxLength, templates, ⟨⟩⟩, hrow, h⟩ := bind_eq_ok.1 h
  obtain rfl := Except.ok.inj h
  exact Value.count_le (Value.yields_readRecord hrow).1 isWritable_default.maxLength

theorem queueDepth_le {output : OutputSettings} (h : OutputSettings.reader format v = .ok output) :
    output.queueDepth.toNat ≤ 9223372036854775807 := by
  rw [OutputSettings.reader] at h
  obtain ⟨⟨outputFormat, queueDepth, ⟨⟩⟩, hrow, h⟩ := bind_eq_ok.1 h
  obtain rfl := Except.ok.inj h
  exact Value.count_le (Value.yields_readRecord hrow).2.1 isWritable_default.queueDepth

theorem isWritable_of_reader (h : reader format v = .ok s) : s.IsWritable := by
  rw [reader] at h
  obtain ⟨⟨assembly, render, output, ⟨⟩⟩, hrow, h⟩ := bind_eq_ok.1 h
  obtain rfl := Except.ok.inj h
  obtain ⟨hassembly, hrender, houtput, -⟩ := Value.yields_readRecord hrow
  constructor
  · obtain ⟨v, hread⟩ | habsent := hassembly
    · exact maxMessages_le hread
    · exact Option.some.inj habsent ▸ isWritable_default.maxMessages
  · obtain ⟨v, hread⟩ | habsent := hrender
    · exact maxLength_le hread
    · exact Option.some.inj habsent ▸ isWritable_default.maxLength
  · obtain ⟨v, hread⟩ | habsent := houtput
    · exact queueDepth_le hread
    · exact Option.some.inj habsent ▸ isWritable_default.queueDepth

theorem isWritable_of_ofText (h : ofText cs = .ok s) : s.IsWritable := by
  rw [ofText] at h
  split at h
  · cases h
  · split at h
    · rename_i hreader
      exact Except.ok.inj h ▸ isWritable_of_reader hreader
    · cases h

theorem ofFile_of_read (h : f.read path = .ok (Text.encodeUtf8 cs)) : ofFile path f = (do
    let s ← ofText cs
    s.validate
    return s) := by
  simp only [ofFile, h, Text.decodeUtf8_encodeUtf8]

/-- What is read from a file is what its text says, if that can be used. -/
theorem ofFile_eq_ok : ofFile path f = .ok s ↔
    ∃ cs, f.read path = .ok (Text.encodeUtf8 cs) ∧ ofText cs = .ok s ∧ s.validate = .ok () := by
  constructor
  · intro h
    rw [ofFile] at h
    split at h
    · cases h
    · rename_i hbytes
      split at h
      · cases h
      · rename_i cs hdecode
        obtain ⟨s', hread, h⟩ := bind_eq_ok.1 h
        obtain ⟨⟨⟩, hvalid, h⟩ := bind_eq_ok.1 h
        obtain rfl := Except.ok.inj h
        exact ⟨cs, Text.decodeUtf8_eq_ok.1 hdecode ▸ hbytes, hread, hvalid⟩
  · rintro ⟨cs, hbytes, hread, hvalid⟩
    rw [ofFile_of_read hbytes, hread]
    simp only [bind, Except.bind, hvalid]
    rfl

theorem load_of_find {found : Place × FileEntry} (h : f.find path = .ok found) :
    load path f = ⟨ofFile path f, [], f⟩ := by
  rw [load, h]

theorem load_eq_ok (h : (load path f).result = .ok s) : s.validate = .ok () ∧ s.IsWritable := by
  cases hfind : f.find path with
  | ok found =>
    rw [load_of_find hfind] at h
    obtain ⟨cs, -, hread, hvalid⟩ := ofFile_eq_ok.1 h
    exact ⟨hvalid, isWritable_of_ofText hread⟩
  | error reason =>
    -- Nothing is there to be read: the default settings are what was saved.
    have hdefault : s = default := by
      rw [load, hfind] at h
      dsimp only at h
      split at h
      · cases h
      · exact (Except.ok.inj h).symm
    rw [hdefault]
    exact ⟨validate_default, isWritable_default⟩

end Settings

end Notifications
