import Mathlib.Data.List.Basic
import Notifications.FederatedId
/-! Which ids are shown alike: the sign between value and domain may stand within these as well. -/
namespace Notifications.FederatedId

variable {a b : FederatedId}

/-- The value of `a` runs on through the sign into what is the domain of `b`. -/
def RunsInto (a b : FederatedId) : Prop :=
  (a.domain = "" ∧ b.domain ≠ "" ∧ a.value = b.value ++ "@" ++ b.domain) ∨
    (a.domain ≠ "" ∧ ∃ part, a.value = b.value ++ "@" ++ part ∧ b.domain = part ++ "@" ++ a.domain)

def Confusable (a b : FederatedId) : Prop := a.RunsInto b ∨ b.RunsInto a

theorem RunsInto.length_lt (h : a.RunsInto b) : b.value.length < a.value.length := by
  rcases h with ⟨-, -, hvalue⟩ | ⟨-, part, hvalue, -⟩
  all_goals
    have hlength := congrArg String.length hvalue
    simp only [String.length_append] at hlength
    have hsign : "@".length = 1 := rfl
    omega

theorem Confusable.ne (h : a.Confusable b) : a ≠ b := by
  rintro rfl
  rcases h with h | h
  all_goals exact Nat.lt_irrefl _ h.length_lt

theorem RunsInto.display_eq (h : a.RunsInto b) : a.display = b.display := by
  rcases h with ⟨ha, hb, hvalue⟩ | ⟨ha, part, hvalue, hdomain⟩
  · rw [display, if_pos ha, display, if_neg hb, hvalue]
  · have hb : b.domain ≠ "" := by
      intro he
      have hlength := congrArg String.length (hdomain.symm.trans he)
      simp at hlength
    rw [display, if_neg ha, display, if_neg hb, hvalue, hdomain]
    simp only [String.append_assoc]

/-- Where the one value begins the other, the values are equal or the sign begins what is left. -/
theorem runs_on_of_append {v w d e : String} {more : List Char} (hw : w.toList = v.toList ++ more)
    (hd : '@' :: d.toList = more ++ '@' :: e.toList) :
    (v = w ∧ d = e) ∨ ∃ part, w = v ++ "@" ++ part ∧ d = part ++ "@" ++ e := by
  cases more with
  | nil =>
    left
    simp_all [← String.toList_inj]
  | cons sign part =>
    right
    simp only [List.cons_append, List.cons.injEq] at hd
    obtain ⟨rfl, hd⟩ := hd
    refine ⟨String.ofList part, ?_, ?_⟩
    · simp [← String.toList_inj, hw]
    · simp [← String.toList_inj, hd]

theorem append_sign_eq {v w d e : String} (h : v ++ "@" ++ d = w ++ "@" ++ e) :
    (v = w ∧ d = e) ∨ (∃ part, v = w ++ "@" ++ part ∧ e = part ++ "@" ++ d) ∨
      ∃ part, w = v ++ "@" ++ part ∧ d = part ++ "@" ++ e := by
  have hchars : v.toList ++ '@' :: d.toList = w.toList ++ '@' :: e.toList := by
    simpa [← String.toList_inj] using h
  rcases List.append_eq_append_iff.1 hchars with ⟨more, hw, hd⟩ | ⟨more, hv, he⟩
  · exact (runs_on_of_append hw hd).imp_right Or.inr
  · rcases runs_on_of_append hv he with ⟨hvalue, hdomain⟩ | hrun
    · exact Or.inl ⟨hvalue.symm, hdomain.symm⟩
    · exact Or.inr (Or.inl hrun)

theorem eq_or_confusable (h : a.display = b.display) : a = b ∨ a.Confusable b := by
  obtain ⟨v, d⟩ := a
  obtain ⟨w, e⟩ := b
  simp only [display] at h
  by_cases hd : d = "" <;> by_cases he : e = ""
  · left
    simp_all
  · rw [if_pos hd, if_neg he] at h
    exact Or.inr (Or.inl (Or.inl ⟨hd, he, h⟩))
  · rw [if_neg hd, if_pos he] at h
    exact Or.inr (Or.inr (Or.inl ⟨he, hd, h.symm⟩))
  · rw [if_neg hd, if_neg he] at h
    rcases append_sign_eq h with ⟨rfl, rfl⟩ | hrun | hrun
    · exact Or.inl rfl
    · exact Or.inr (Or.inl (Or.inr ⟨hd, hrun⟩))
    · exact Or.inr (Or.inr (Or.inr ⟨he, hrun⟩))

theorem display_eq_iff : a.display = b.display ↔ a = b ∨ a.Confusable b := by
  refine ⟨eq_or_confusable, ?_⟩
  rintro (rfl | h | h)
  · rfl
  · exact h.display_eq
  · exact h.display_eq.symm

end Notifications.FederatedId
