import Mathlib.Data.List.Induction
import Mathlib.Data.List.Permutation
import Notifications.Assembly
/-! Of equal elements the first stays: what becomes of the last element, of order and of parts. -/
namespace Notifications

variable {α : Type} [DecidableEq α]

/-- A further element stays exactly when it is new. -/
theorem eraseDups_concat (l : List α) (a : α) :
    (l ++ [a]).eraseDups = if a ∈ l then l.eraseDups else l.eraseDups ++ [a] := by
  rw [List.eraseDups_append]
  by_cases ha : a ∈ l <;> simp [List.removeAll, ha, List.eraseDups_cons]

/-- A map that tells the elements apart tells repeats from others. -/
theorem eraseDups_map {β : Type} [DecidableEq β] {f : α → β} {l : List α}
    (h : ∀ a ∈ l, ∀ b ∈ l, f a = f b → a = b) : (l.map f).eraseDups = l.eraseDups.map f := by
  induction l using List.reverseRecOn with
  | nil => rfl
  | append_singleton l a ih =>
    have hold : (l.map f).eraseDups = l.eraseDups.map f := by
      apply ih
      intro b hb c hc
      exact h b (List.mem_append_left _ hb) c (List.mem_append_left _ hc)
    have hmem : f a ∈ l.map f ↔ a ∈ l := by
      refine ⟨fun hfa => ?_, List.mem_map_of_mem⟩
      obtain ⟨b, hb, hba⟩ := List.mem_map.1 hfa
      have := h b (List.mem_append_left _ hb) a (by simp) hba
      exact this ▸ hb
    rw [List.map_append, List.map_singleton, eraseDups_concat, eraseDups_concat, hold]
    by_cases ha : a ∈ l
    · rw [if_pos (hmem.2 ha), if_pos ha]
    · rw [if_neg (mt hmem.1 ha), if_neg ha, List.map_append, List.map_singleton]

theorem filter_eraseDups (p : α → Bool) (l : List α) :
    l.eraseDups.filter p = (l.filter p).eraseDups := by
  induction l using List.reverseRecOn with
  | nil => rfl
  | append_singleton l a ih =>
    cases hp : p a with
    | false => by_cases ha : a ∈ l <;> simp [eraseDups_concat, ha, hp, ih]
    | true => by_cases ha : a ∈ l <;> simp [eraseDups_concat, ha, hp, ih]

/-- Of a second list what is new stays. -/
theorem eraseDups_append_eq (l m : List α) :
    (l ++ m).eraseDups = l.eraseDups ++ m.eraseDups.filter (· ∉ l) := by
  rw [List.eraseDups_append, filter_eraseDups]
  simp [List.removeAll]

theorem eraseDups_append_congr {l l' m m' : List α} (hl : l.eraseDups = l'.eraseDups)
    (hm : m.eraseDups = m'.eraseDups) : (l ++ m).eraseDups = (l' ++ m').eraseDups := by
  have hmem : ∀ a, a ∈ l ↔ a ∈ l' := by
    intro a
    rw [← List.mem_eraseDups, hl, List.mem_eraseDups]
  simp only [eraseDups_append_eq, hl, hm, hmem]

theorem eraseDups_append_of_subset {l m : List α} (h : ∀ a ∈ m, a ∈ l) :
    (l ++ m).eraseDups = l.eraseDups := by
  have hnone : m.eraseDups.filter (· ∉ l) = [] := by
    apply List.filter_eq_nil_iff.2
    intro a ha
    simpa using h a (List.mem_eraseDups.1 ha)
  rw [eraseDups_append_eq, hnone, List.append_nil]

/-- The elements stand in the order of their first occurrences. -/
theorem pairwise_idxOf_eraseDups (l : List α) :
    l.eraseDups.Pairwise fun a b => l.idxOf a < l.idxOf b := by
  induction l using List.reverseRecOn with
  | nil => exact List.Pairwise.nil
  | append_singleton l a ih =>
    have hold : l.eraseDups.Pairwise fun b c => (l ++ [a]).idxOf b < (l ++ [a]).idxOf c := by
      refine ih.imp_of_mem fun hb hc hbc => ?_
      rw [List.mem_eraseDups] at hb hc
      rwa [List.idxOf_append_of_mem hb, List.idxOf_append_of_mem hc]
    rw [eraseDups_concat]
    split
    · exact hold
    · rename_i ha
      refine List.pairwise_append.2 ⟨hold, List.pairwise_singleton _ _, ?_⟩
      intro b hb c hc
      rw [List.mem_eraseDups] at hb
      rw [List.mem_singleton.1 hc, List.idxOf_append_of_mem hb, List.idxOf_append_of_notMem ha]
      have := List.idxOf_lt_length_of_mem hb
      omega

theorem nodup_eraseDups (l : List α) : l.eraseDups.Nodup := by
  refine (pairwise_idxOf_eraseDups l).imp ?_
  intro a b hab he
  subst he
  exact Nat.lt_irrefl _ hab

namespace Notice

/-- The set of messages met is never more than a list of them. -/
theorem dropSeen_eq (seen : Std.HashSet Message) (messages : List Message) :
    dropSeen seen messages = (messages.filter fun m => !seen.contains m).eraseDups := by
  induction messages generalizing seen with
  | nil => rfl
  | cons m r ih =>
    rw [dropSeen]
    split
    · rename_i hm
      rw [ih, List.filter_cons_of_neg (by simp [hm])]
    · rename_i hm
      rw [ih, List.filter_cons_of_pos (by simp [hm]), List.eraseDups_cons, List.filter_filter]
      congr 2
      apply List.filter_congr
      intro a _
      have heq : (m == a) = (a == m) := Bool.beq_comm
      simp [Std.HashSet.contains_insert, heq]

theorem dropRepeats_eq_eraseDups (messages : List Message) :
    dropRepeats messages = messages.eraseDups := by
  rw [dropRepeats, dropSeen_eq, List.filter_eq_self.2]
  simp

end Notice

end Notifications
