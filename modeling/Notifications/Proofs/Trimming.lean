import Mathlib.Data.List.TakeWhile
import Notifications.Text.Blank
/-!
Trimmed text. White space around a text makes no difference to what is left of it, and nothing is
lost of a text that neither begins nor ends with white space.
-/
namespace Notifications.Text

variable {before text after : List Char}

theorem trim_eq_nil (h : ∀ c ∈ text, isBlank c = true) : trim text = [] := by
  have hdrop : text.dropWhile isBlank = [] := List.dropWhile_eq_nil_iff.2 h
  rw [trim, hdrop]
  rfl

theorem trim_blank_append (h : ∀ c ∈ before, isBlank c = true) (text : List Char) :
    trim (before ++ text) = trim text := by
  rw [trim, List.dropWhile_append_of_pos h, trim]

theorem trim_append_blank (h : ∀ c ∈ after, isBlank c = true) (text : List Char) :
    trim (text ++ after) = trim text := by
  by_cases hall : ∀ c ∈ text, isBlank c = true
  · rw [trim_eq_nil hall, trim_eq_nil]
    exact List.forall_mem_append.2 ⟨hall, h⟩
  · -- what is dropped from the front of the text is the same with the white space behind it
    have hne : text.dropWhile isBlank ≠ [] := mt List.dropWhile_eq_nil_iff.1 hall
    have hfront : (text ++ after).dropWhile isBlank = text.dropWhile isBlank ++ after := by
      rw [List.dropWhile_append, if_neg (by simpa using hne)]
    have hback : ∀ c ∈ after.reverse, isBlank c = true := fun c hc => h c (List.mem_reverse.1 hc)
    rw [trim, hfront, List.reverse_append, List.dropWhile_append_of_pos hback, trim]

theorem trim_padded (hbefore : ∀ c ∈ before, isBlank c = true)
    (hafter : ∀ c ∈ after, isBlank c = true) (text : List Char) :
    trim (before ++ text ++ after) = trim text := by
  rw [trim_append_blank hafter, trim_blank_append hbefore]

/-- A text between two marks that are no white space. -/
theorem trim_between {first last : Char} (hfirst : isBlank first = false)
    (hlast : isBlank last = false) (text : List Char) :
    trim (first :: text ++ [last]) = first :: text ++ [last] := by
  have hfront : (first :: text ++ [last]).dropWhile isBlank = first :: text ++ [last] := by
    rw [List.cons_append, List.dropWhile_cons, hfirst]
    rfl
  have hback : (first :: text ++ [last]).reverse.dropWhile isBlank =
      (first :: text ++ [last]).reverse := by
    rw [List.reverse_append, List.reverse_singleton, List.singleton_append,
      List.dropWhile_cons, hlast]
    rfl
  rw [trim, hfront, hback, List.reverse_reverse]

end Notifications.Text
