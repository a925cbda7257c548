import Notifications.Feed
/-!
What a line brings, by what is left of it without the white space around it: a batch, nothing, or a
warning.
-/
namespace Notifications.Feed

variable {number : Nat} {text : List Char} {line : List UInt8} {b : Batch} {e : Data.Error}

theorem ofText_of_blank (h : Text.trim text = []) : ofText number text = none := by
  simp only [ofText, h]

/-- A blank line is no batch either, though it brings no warning. -/
theorem readChars_nil : ∃ e, Json.readChars Batch.reader [] = .error e := ⟨_, rfl⟩

theorem ofText_of_ok (h : Json.readChars Batch.reader (Text.trim text) = .ok b) :
    ofText number text = some (.batch b) := by
  rw [ofText]
  cases htrim : Text.trim text with
  | nil =>
    obtain ⟨e, he⟩ := readChars_nil
    rw [htrim, he] at h
    cases h
  | cons c r =>
    rw [htrim] at h
    simp only [h]

theorem ofText_of_error (hne : Text.trim text ≠ [])
    (h : Json.readChars Batch.reader (Text.trim text) = .error e) :
    ofText number text = some (.malformed number e) := by
  rw [ofText]
  cases htrim : Text.trim text with
  | nil => exact absurd htrim hne
  | cons c r =>
    rw [htrim] at h
    simp only [h]

theorem ofText_congr {other : List Char} (h : Text.trim text = Text.trim other) :
    ofText number text = ofText number other := by
  rw [ofText, h, ofText]

theorem ofLines_cons_text (h : Text.decodeUtf8 0 line = .ok text) (ls : List (List UInt8)) :
    ofLines number (line :: ls) = (ofText number text).toList ++ ofLines (number + 1) ls := by
  rw [ofLines, h]

theorem ofLines_cons_noText {f : Text.Utf8Fault} (h : Text.decodeUtf8 0 line = .error f)
    (ls : List (List UInt8)) : ofLines number (line :: ls) = [.stopped number f.message] := by
  rw [ofLines, h]

end Notifications.Feed
