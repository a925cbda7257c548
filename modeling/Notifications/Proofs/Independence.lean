import Notifications.Proofs.Separation
/-!
Conversations do not influence one another: how the records of one stand among those of others has
no effect on its group, and on the order of the groups only where two of them are of one time.
-/
namespace Notifications

open Notice (Group)
open Record (Conversation)

variable {batch other : Batch}

/-- The first of two groups stands before the second in what is assembled. -/
def Precedes (batch : Batch) (a b : Group) : Prop :=
  b.lastTime < a.lastTime ∨ b.lastTime = a.lastTime ∧ firstPlace batch a.id < firstPlace batch b.id

theorem Precedes.asymm {a b : Group} (h : Precedes batch a b) : ¬ Precedes batch b a := by
  intro h'
  rcases h with hlater | ⟨hsame, hplace⟩
  · rcases h' with hlater' | ⟨hsame', -⟩
    · exact Int64.lt_asymm hlater hlater'
    · exact Int64.ne_of_lt hlater hsame'.symm
  · rcases h' with hlater' | ⟨-, hplace'⟩
    · exact Int64.ne_of_lt hlater' hsame.symm
    · exact Nat.lt_asymm hplace hplace'

/-- Records of different conversations can change places. -/
theorem recordsOf_swap (before behind : Batch) {c d : Conversation}
    (h : c.id.display ≠ d.id.display) (id : String) :
    recordsOf (before ++ c :: d :: behind) id = recordsOf (before ++ d :: c :: behind) id := by
  by_cases hc : c.id.display = id
  · have hd : d.id.display ≠ id := fun hd => h (hc.trans hd.symm)
    simp [recordsOf, hc, hd]
  · simp [recordsOf, List.filter_cons, hc]

section SameRecords

variable (same : ∀ id, recordsOf batch id = recordsOf other id)

include same

theorem shownIds_perm_of_sameRecords : (shownIds batch).Perm (shownIds other) := by
  rw [List.perm_ext_iff_of_nodup (nodup_shownIds batch) (nodup_shownIds other)]
  intro id
  rw [← recordsOf_ne_nil, ← recordsOf_ne_nil, same id]

theorem assemble_perm_of_sameRecords (limits : Limits) :
    (assemble limits batch).Perm (assemble limits other) := by
  have hbatch := assemble_perm_recordsOf limits batch
  simp only [same] at hbatch
  have hids := (shownIds_perm_of_sameRecords same).flatMap_right fun id =>
    assemble limits (recordsOf other id)
  exact (hbatch.trans hids).trans (assemble_perm_recordsOf limits other).symm

/-- The groups stand in the same order if those of one time first occur in the same order. -/
theorem assemble_eq_of_ties
    (ties : ∀ a ∈ assemble limits batch, ∀ b ∈ assemble limits batch, b.lastTime = a.lastTime →
      firstPlace batch a.id < firstPlace batch b.id →
      firstPlace other a.id < firstPlace other b.id) :
    assemble limits batch = assemble limits other := by
  have hbatch : (assemble limits batch).Pairwise (Precedes other) := by
    refine (pairwise_assemble limits batch).imp_of_mem ?_
    intro a b ha hb hab
    rcases hab with hlater | ⟨htime, hplace⟩
    · exact Or.inl hlater
    · exact Or.inr ⟨htime, ties a ha b hb htime hplace⟩
  have hother : (assemble limits other).Pairwise (Precedes other) := pairwise_assemble limits other
  refine List.Perm.eq_of_pairwise ?_ hbatch hother (assemble_perm_of_sameRecords same limits)
  intro a b _ _ hab hba
  exact absurd hba hab.asymm

/-- Batches that hold the same records of each conversation in the same order are assembled into the
same groups, and into the same list if no two of the groups are of one time. -/
theorem assemble_of_sameRecords (limits : Limits) :
    (assemble limits batch).Perm (assemble limits other) ∧
      (((assemble limits batch).map Group.lastTime).Nodup →
        assemble limits batch = assemble limits other) := by
  refine ⟨assemble_perm_of_sameRecords same limits, ?_⟩
  intro apart
  apply assemble_eq_of_ties same
  intro a ha b hb htime hplace
  rw [List.inj_on_of_nodup_map apart hb ha htime] at hplace
  exact absurd hplace (Nat.lt_irrefl _)

end SameRecords

/-- Another's record comes before both records of a conversation, where it came between them. -/
theorem assemble_of_sameRecords_swapped :
    let swapped : Batch := [interleaved[1], interleaved[0], interleaved[2]]
    (∀ id, recordsOf interleaved id = recordsOf swapped id) ∧
      ((assemble .unlimited interleaved).map Group.lastTime).Nodup ∧
      (assemble .unlimited interleaved).Perm (assemble .unlimited swapped) ∧
      assemble .unlimited interleaved = assemble .unlimited swapped := by
  intro swapped
  have same : ∀ id, recordsOf interleaved id = recordsOf swapped id :=
    recordsOf_swap [] [interleaved[2]] (by cbv)
  have htimes : (assemble .unlimited interleaved).map Group.lastTime = [30, 0] := by
    rw [assemble_eq_plain]
    cbv
  have apart : ((assemble .unlimited interleaved).map Group.lastTime).Nodup := by
    rw [htimes]
    decide
  obtain ⟨hperm, heq⟩ := assemble_of_sameRecords same .unlimited
  exact ⟨same, apart, hperm, heq apart⟩

end Notifications
