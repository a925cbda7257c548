import Notifications.Text.Digit
/-! The decimal digits of a number, as they are written. -/
namespace Notifications.Text

variable {c : Char}

/-- The digits of a whole number; zero is the only one that begins with a zero. -/
def IsNumeral (digits : List Char) : Prop :=
  digits = ['0'] ∨ ∃ d ds, digits = d :: ds ∧ d ≠ '0' ∧ ∀ c ∈ digits, isDigit c = true

theorem IsNumeral.isDigit_of_mem {digits : List Char} (h : IsNumeral digits) :
    ∀ c ∈ digits, isDigit c = true := by
  rcases h with rfl | ⟨d, ds, rfl, -, h⟩
  · intro c hc
    rw [List.mem_singleton.1 hc]
    rfl
  · exact h

theorem IsNumeral.ne_nil {digits : List Char} (h : IsNumeral digits) : digits ≠ [] := by
  rcases h with rfl | ⟨d, ds, rfl, -, -⟩ <;> exact List.cons_ne_nil _ _

theorem isDigit_ne {d : Char} (hc : isDigit c = true) (hd : isDigit d = false) : c ≠ d := by
  rintro rfl
  rw [hc] at hd
  cases hd

theorem toDigits_head {k : Nat} (hk : 0 < k) : ∃ d ds, Nat.toDigits 10 k = d :: ds ∧ d ≠ '0' := by
  have hdigit : ∀ m < 10, 0 < m → Nat.digitChar m ≠ '0' := by decide
  induction k using Nat.strongRecOn with
  | ind k ih =>
    rw [Nat.toDigits_eq_if (by decide)]
    split
    · exact ⟨_, [], rfl, hdigit k ‹_› hk⟩
    · obtain ⟨d, ds, h, hd⟩ := ih (k / 10) (by omega) (by omega)
      exact ⟨d, ds ++ [Nat.digitChar (k % 10)], by rw [h]; rfl, hd⟩

theorem isNumeral_toDigits (k : Nat) : IsNumeral (Nat.toDigits 10 k) := by
  rcases Nat.eq_zero_or_pos k with rfl | hk
  · exact Or.inl rfl
  · obtain ⟨d, ds, h, hd⟩ := toDigits_head hk
    exact Or.inr ⟨d, ds, h, hd, fun c hc => Nat.isDigit_of_mem_toDigits (by decide) (by decide) hc⟩

end Notifications.Text
