import Notifications.Feed
/-!
Bytes cut into lines. Lines that end with their only newline are found again in their join, and what
begins at the start of a line is cut as if it stood alone.
-/
namespace Notifications

variable {a b line : List UInt8}

/-- Bytes that end with a newline and have no other. -/
def IsLine (line : List UInt8) : Prop := ∃ text, line = text ++ [10] ∧ 10 ∉ text

/-- No line has been begun. -/
def AtLineStart (bytes : List UInt8) : Prop := ∀ last ∈ bytes.getLast?, last = 10

/-- A part of a line from its front leaves the line begun, unless it is nothing or the whole
line. -/
theorem IsLine.atLineStart_append_part (h : IsLine line) (hb : b <+: line) :
    AtLineStart (a ++ b) ↔ b = line ∨ b = [] ∧ AtLineStart a := by
  obtain ⟨text, rfl, htext⟩ := h
  by_cases hall : b = text ++ [10]
  · subst hall
    simp [AtLineStart]
  have hpart : b <+: text := (List.prefix_concat_iff.1 hb).resolve_left hall
  rcases List.eq_nil_or_concat b with rfl | ⟨front, last, rfl⟩
  · simp
  · rw [List.concat_eq_append] at hall hpart ⊢
    have hlast : last ≠ 10 := by
      rintro rfl
      exact htext (hpart.subset (by simp))
    simpa [AtLineStart, hall] using hlast

/-- What stands since the last newline. -/
theorem exists_open_line (bytes : List UInt8) :
    ∃ front tail, bytes = front ++ tail ∧ AtLineStart front ∧ 10 ∉ tail := by
  induction bytes with
  | nil => exact ⟨[], [], rfl, by simp [AtLineStart], by simp⟩
  | cons c bytes ih =>
    obtain ⟨front, tail, rfl, hfront, htail⟩ := ih
    cases front with
    | nil =>
      by_cases hc : c = 10
      · exact ⟨[c], tail, rfl, by simp [AtLineStart, hc], htail⟩
      · exact ⟨[], c :: tail, rfl, by simp [AtLineStart], by simp [Ne.symm hc, htail]⟩
    | cons d front => exact ⟨c :: d :: front, tail, rfl, by simpa [AtLineStart] using hfront, htail⟩

namespace Feed

theorem lines_cons_newline (r : List UInt8) : lines (10 :: r) = [10] :: lines r := by
  rw [lines, if_pos rfl]

theorem lines_text_append {text : List UInt8} (h : 10 ∉ text) (r : List UInt8) :
    lines (text ++ 10 :: r) = (text ++ [10]) :: lines r := by
  induction text with
  | nil => exact lines_cons_newline r
  | cons c text ih =>
    obtain ⟨hc, htext⟩ := not_or.1 (mt List.mem_cons.2 h)
    rw [List.cons_append, lines, if_neg (Ne.symm hc), ih htext]
    rfl

theorem lines_line_append (h : IsLine line) (r : List UInt8) :
    lines (line ++ r) = line :: lines r := by
  obtain ⟨text, rfl, htext⟩ := h
  rw [List.append_assoc, List.singleton_append, lines_text_append htext]

theorem lines_flatten {ls : List (List UInt8)} (h : ∀ l ∈ ls, IsLine l) :
    lines ls.flatten = ls := by
  induction ls with
  | nil => rfl
  | cons l ls ih =>
    rw [List.forall_mem_cons] at h
    rw [List.flatten_cons, lines_line_append h.1, ih h.2]

theorem lines_cons {c : UInt8} (hc : c ≠ 10) {l : List UInt8} {ls : List (List UInt8)}
    (h : lines b = l :: ls) : lines (c :: b) = (c :: l) :: ls := by
  rw [lines, if_neg hc, h]

theorem lines_open {text : List UInt8} (h : 10 ∉ text) (hne : text ≠ []) : lines text = [text] := by
  induction text with
  | nil => exact absurd rfl hne
  | cons c text ih =>
    obtain ⟨hc, htext⟩ := not_or.1 (mt List.mem_cons.2 h)
    by_cases hrest : text = []
    · rw [hrest, lines, if_neg (Ne.symm hc)]
      rfl
    · exact lines_cons (Ne.symm hc) (ih htext hrest)

theorem eq_nil_of_lines (h : lines a = []) : a = [] := by
  rw [← flatten_lines a, h, List.flatten_nil]

theorem lines_append (ha : AtLineStart a) (b : List UInt8) :
    lines (a ++ b) = lines a ++ lines b := by
  induction a with
  | nil => rfl
  | cons c a ih =>
    have hrest : a ≠ [] → AtLineStart a := by
      intro hne
      obtain ⟨d, a, rfl⟩ := List.exists_cons_of_ne_nil hne
      simpa [AtLineStart] using ha
    by_cases hc : c = 10
    · have hstart : AtLineStart a := by
        by_cases hne : a = []
        · simp [AtLineStart, hne]
        · exact hrest hne
      rw [hc, List.cons_append, lines_cons_newline, lines_cons_newline, ih hstart, List.cons_append]
    · -- the first line of `a` gets one byte more, so it must not be cut differently before `b`
      have hne : a ≠ [] := by
        rintro rfl
        exact hc (ha c rfl)
      cases h : lines a with
      | nil => exact absurd (eq_nil_of_lines h) hne
      | cons l ls =>
        have happend := ih (hrest hne)
        rw [h, List.cons_append] at happend
        rw [List.cons_append, lines_cons hc happend, lines_cons hc h, List.cons_append]

/-- A line that is added is cut off as one exactly when no line has been begun before it. -/
theorem lines_append_line_iff (h : IsLine line) (r : List UInt8) :
    lines (a ++ line ++ r) = lines a ++ line :: lines r ↔ AtLineStart a := by
  constructor
  · intro heq
    obtain ⟨front, tail, rfl, hfront, htail⟩ := exists_open_line a
    obtain ⟨text, rfl, htext⟩ := h
    have hopen : 10 ∉ tail ++ text := by simp [htail, htext]
    have hjoined : front ++ tail ++ (text ++ [10]) ++ r = front ++ (tail ++ text ++ 10 :: r) := by
      simp
    -- the tail and the line make one line, so no line is left for the tail alone
    rw [hjoined, lines_append hfront, lines_text_append hopen, lines_append hfront] at heq
    have hlength := congrArg List.length heq
    simp only [List.length_append, List.length_cons] at hlength
    have htail : tail = [] := eq_nil_of_lines (List.length_eq_zero_iff.1 (by omega))
    rwa [htail, List.append_nil]
  · intro ha
    rw [List.append_assoc, lines_append ha, lines_line_append h]

end Feed

end Notifications
