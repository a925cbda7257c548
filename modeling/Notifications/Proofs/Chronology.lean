import Mathlib.Data.List.Pairwise
import Notifications.Notice
/-! What sorting by time gives is settled by what stands at each time, and in which order. -/
namespace Notifications

section Keyed

variable {α κ : Type} (key : α → κ) {R : κ → κ → Prop} [DecidableRel R]
  (trans : ∀ x y z, R x y → R y z → R x z) (total : ∀ x y, R x y ∨ R y x)

include trans in
theorem decide_key_trans (a b c : α) (hab : decide (R (key a) (key b)))
    (hbc : decide (R (key b) (key c))) : decide (R (key a) (key c)) := by
  rw [decide_eq_true_eq] at hab hbc ⊢
  exact trans _ _ _ hab hbc

include total in
theorem decide_key_total (a b : α) : decide (R (key a) (key b)) || decide (R (key b) (key a)) := by
  simpa using total (key a) (key b)

include trans total

theorem pairwise_mergeSort_key (l : List α) :
    (l.mergeSort fun a b => R (key a) (key b)).Pairwise fun a b => R (key a) (key b) := by
  have hsorted :=
    List.pairwise_mergeSort (decide_key_trans key trans) (decide_key_total key total) l
  simpa using hsorted

/-- A sort that is stable leaves the elements of one key as they stood. -/
theorem filter_mergeSort_key [DecidableEq κ] (l : List α) (k : κ) :
    (l.mergeSort fun a b => R (key a) (key b)).filter (key · = k) = l.filter (key · = k) := by
  have hrefl : R k k := by simpa using total k k
  have hone : (l.filter (key · = k)).Pairwise fun a b => decide (R (key a) (key b)) := by
    apply List.pairwise_of_forall_mem_list
    intro a ha b hb
    have hak : key a = k := by simpa using (List.mem_filter.1 ha).2
    have hbk : key b = k := by simpa using (List.mem_filter.1 hb).2
    simpa [hak, hbk] using hrefl
  have hsub : (l.filter (key · = k)).Sublist (l.mergeSort fun a b => R (key a) (key b)) :=
    List.sublist_mergeSort (decide_key_trans key trans) (decide_key_total key total) hone
      List.filter_sublist
  have hpart := hsub.filter (key · = k)
  rw [List.filter_filter] at hpart
  simp only [Bool.and_self] at hpart
  exact (hpart.eq_of_length ((List.mergeSort_perm l _).filter _).length_eq.symm).symm

end Keyed

namespace Notice

variable {messages sorted : List Message}

def OldestFirst (messages : List Message) : Prop := messages.Pairwise fun a b => a.time ≤ b.time

/-- The newest of some messages: none is later, and of those of its time it stands last. -/
structure IsNewest (m : Message) (messages : List Message) : Prop where
  last : messages.getLast? = some m
  latest : ∀ n ∈ messages, n.time ≤ m.time

theorem OldestFirst.isNewest {m : Message} (h : OldestFirst messages)
    (hm : messages.getLast? = some m) : IsNewest m messages := by
  obtain ⟨older, rfl⟩ := List.getLast?_eq_some_iff.1 hm
  refine ⟨hm, fun n hn => ?_⟩
  rcases List.mem_append.1 hn with hn | hn
  · exact (List.pairwise_append.1 h).2.2 n hn m (List.mem_singleton_self m)
  · rw [List.mem_singleton.1 hn]
    exact Int64.le_refl _

/-- The stable sort by time, said without an algorithm: oldest first, and at each time the same
messages in the same order. -/
structure Chronology (messages sorted : List Message) : Prop where
  oldestFirst : OldestFirst sorted
  sameTime : ∀ t, sorted.filter (·.time = t) = messages.filter (·.time = t)

theorem chronology_byTime (messages : List Message) : Chronology messages (byTime messages) := by
  have trans : ∀ x y z : Int64, x ≤ y → y ≤ z → x ≤ z := fun _ _ _ => Int64.le_trans
  constructor
  · exact pairwise_mergeSort_key Message.time trans Int64.le_total messages
  · exact filter_mergeSort_key Message.time trans Int64.le_total messages

theorem mem_iff_of_sameTime {l l' : List Message}
    (h : ∀ t, l.filter (·.time = t) = l'.filter (·.time = t)) (m : Message) : m ∈ l ↔ m ∈ l' := by
  have hm := congrArg (m ∈ ·) (h m.time)
  simpa using hm

theorem head_le_of_oldestFirst {a m : Message} (h : OldestFirst (a :: messages))
    (hm : m ∈ a :: messages) : a.time ≤ m.time := by
  rcases List.mem_cons.1 hm with rfl | hm
  · exact Int64.le_refl _
  · exact (List.pairwise_cons.1 h).1 m hm

/-- Lists in order that agree at each time agree. -/
theorem eq_of_oldestFirst {s t : List Message} (hs : OldestFirst s) (ht : OldestFirst t)
    (h : ∀ u, s.filter (·.time = u) = t.filter (·.time = u)) : s = t := by
  induction s generalizing t with
  | nil =>
    cases t with
    | nil => rfl
    | cons b t => exact absurd ((mem_iff_of_sameTime h b).2 List.mem_cons_self) List.not_mem_nil
  | cons a s ih =>
    cases t with
    | nil => exact absurd ((mem_iff_of_sameTime h a).1 List.mem_cons_self) List.not_mem_nil
    | cons b t =>
      have hab : a.time = b.time := by
        apply Int64.le_antisymm
        · exact head_le_of_oldestFirst hs ((mem_iff_of_sameTime h b).2 List.mem_cons_self)
        · exact head_le_of_oldestFirst ht ((mem_iff_of_sameTime h a).1 List.mem_cons_self)
      have hhead := h a.time
      simp only [List.filter_cons, hab, decide_true, if_true, List.cons.injEq] at hhead
      obtain ⟨rfl, hrest⟩ := hhead
      have htail : ∀ u, s.filter (·.time = u) = t.filter (·.time = u) := by
        intro u
        by_cases hu : a.time = u
        · exact hu ▸ hrest
        · simpa [List.filter_cons, hu] using h u
      rw [ih hs.of_cons ht.of_cons htail]

theorem Chronology.unique {other : List Message} (h : Chronology messages sorted)
    (h' : Chronology messages other) : sorted = other := by
  apply eq_of_oldestFirst h.oldestFirst h'.oldestFirst
  intro t
  rw [h.sameTime, h'.sameTime]

/-- What sorting by time gives depends on each time's own messages only. -/
theorem byTime_congr {l l' : List Message}
    (h : ∀ t, l.filter (·.time = t) = l'.filter (·.time = t)) : byTime l = byTime l' := by
  apply (chronology_byTime l).unique
  refine ⟨(chronology_byTime l').oldestFirst, fun t => ?_⟩
  rw [(chronology_byTime l').sameTime, h]

end Notice

end Notifications
