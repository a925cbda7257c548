import Mathlib.Tactic.SplitIfs
import Notifications.Notice
/-! The latest of some times is one of them and no earlier than any, and zero stands for none. -/
namespace Notifications.Notice

variable {times : List Int64} {t : Int64}

instance instLawfulOrderMaxInt64 : Std.LawfulOrderMax Int64 := by
  have hmax : ∀ a b : Int64, max a b = if a ≤ b then b else a := fun _ _ => rfl
  apply Std.LawfulOrderMax.of_max_le_iff
  · intro a b c
    rw [hmax]
    split_ifs with hab
    · exact ⟨fun hbc => ⟨Int64.le_trans hab hbc, hbc⟩, And.right⟩
    · have hba := (Int64.le_total a b).resolve_left hab
      exact ⟨fun hac => ⟨hac, Int64.le_trans hba hac⟩, And.left⟩
  · intro a b
    rw [hmax]
    split_ifs with hab
    · exact Or.inr rfl
    · exact Or.inl rfl

/-- The latest of some times, and zero if there are none. -/
def IsLatest (times : List Int64) (t : Int64) : Prop :=
  if times = [] then t = 0 else t ∈ times ∧ ∀ u ∈ times, u ≤ t

theorem isLatest_latest (times : List Int64) : IsLatest times (latest times) := by
  cases times with
  | nil => rfl
  | cons t times =>
    rw [IsLatest, if_neg (List.cons_ne_nil t times)]
    exact List.max?_eq_some_iff.1 List.max?_cons'

theorem latest_mem (h : times ≠ []) : latest times ∈ times := by
  have hlatest := isLatest_latest times
  rw [IsLatest, if_neg h] at hlatest
  exact hlatest.1

theorem le_latest (h : t ∈ times) : t ≤ latest times := by
  have hlatest := isLatest_latest times
  rw [IsLatest, if_neg (List.ne_nil_of_mem h)] at hlatest
  exact hlatest.2 t h

theorem latest_le_iff (h : times ≠ []) : latest times ≤ t ↔ ∀ u ∈ times, u ≤ t := by
  constructor
  · intro hle u hu
    exact Int64.le_trans (le_latest hu) hle
  · intro hall
    exact hall _ (latest_mem h)

theorem latest_concat (h : times ≠ []) (t : Int64) :
    latest (times ++ [t]) = max (latest times) t := by
  cases times with
  | nil => exact absurd rfl h
  | cons u times => simp [latest, List.foldl_append]

end Notifications.Notice
