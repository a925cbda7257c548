import Mathlib
import Notifications.Proofs.Merging
/-!
The activity time of a group is never taken from its messages: it is the latest of the times of its
records, in which zero stands for a record without messages.
-/
namespace Notifications

open Notice (Group IsLatest latest latest_mem le_latest)
open Record (Conversation)

variable {batch : Batch} {g : Group} {limits : Limits} {id : String}

/-- The times of all messages of the records shown under an id. -/
def timesOf (batch : Batch) (id : String) : List Int64 :=
  (recordsOf batch id).flatMap fun c => c.messages.map (·.time.ms)

/-- A record without messages stands beside messages that all come before the epoch, so that its
zero is later than any of them. -/
def ZeroIsLater (batch : Batch) (id : String) : Prop :=
  (∃ c ∈ recordsOf batch id, c.messages = []) ∧ timesOf batch id ≠ [] ∧
    ∀ t ∈ timesOf batch id, t < 0

theorem mem_timesOf {t : Int64} :
    t ∈ timesOf batch id ↔ ∃ c ∈ recordsOf batch id, t ∈ c.messages.map (·.time.ms) := by
  simp [timesOf]

theorem group_lastTime_of_empty {c : Conversation} (h : c.messages = []) :
    c.group.lastTime = 0 := by
  simp [Conversation.group, h, latest]

namespace MergedFrom

theorem record_le_lastTime (h : MergedFrom (recordsOf batch id) g) {c : Conversation}
    (hc : c ∈ recordsOf batch id) : c.group.lastTime ≤ g.lastTime := by
  rw [h.lastTime]
  exact le_latest (List.mem_map_of_mem hc)

theorem time_le_lastTime (h : MergedFrom (recordsOf batch id) g) {t : Int64}
    (ht : t ∈ timesOf batch id) : t ≤ g.lastTime := by
  obtain ⟨c, hc, htc⟩ := mem_timesOf.1 ht
  exact Int64.le_trans (le_latest htc) (h.record_le_lastTime hc)

theorem zero_le_lastTime (h : MergedFrom (recordsOf batch id) g)
    (hempty : ∃ c ∈ recordsOf batch id, c.messages = []) : 0 ≤ g.lastTime := by
  obtain ⟨c, hc, hnil⟩ := hempty
  have hle := h.record_le_lastTime hc
  rwa [group_lastTime_of_empty hnil] at hle

/-- The time is that of a message unless it comes from a record without messages. -/
theorem lastTime_mem_or_zero (h : MergedFrom (recordsOf batch id) g) :
    g.lastTime ∈ timesOf batch id ∨
      g.lastTime = 0 ∧ ∃ c ∈ recordsOf batch id, c.messages = [] := by
  have hne : (recordsOf batch id).map (·.group.lastTime) ≠ [] := by simpa using h.ne_nil
  obtain ⟨c, hc, htime⟩ := List.mem_map.1 (latest_mem hne)
  rw [h.lastTime, ← htime]
  by_cases hnil : c.messages = []
  · exact Or.inr ⟨group_lastTime_of_empty hnil, c, hc, hnil⟩
  · left
    apply mem_timesOf.2
    exact ⟨c, hc, latest_mem (by simpa using hnil)⟩

theorem lastTime_eq_zero (h : MergedFrom (recordsOf batch id) g) (hz : ZeroIsLater batch id) :
    g.lastTime = 0 := by
  rcases h.lastTime_mem_or_zero with hmem | ⟨hzero, -⟩
  · have hneg := hz.2.2 _ hmem
    exact absurd (h.zero_le_lastTime hz.1) (Int64.not_le.2 hneg)
  · exact hzero

theorem isLatest_lastTime (h : MergedFrom (recordsOf batch id) g) (hz : ¬ ZeroIsLater batch id) :
    IsLatest (timesOf batch id) g.lastTime := by
  rw [IsLatest]
  split
  · rename_i hnone
    rcases h.lastTime_mem_or_zero with hmem | ⟨hzero, -⟩
    · rw [hnone] at hmem
      cases hmem
    · exact hzero
  · rename_i hsome
    refine ⟨?_, fun t ht => h.time_le_lastTime ht⟩
    rcases h.lastTime_mem_or_zero with hmem | ⟨hzero, hempty⟩
    · exact hmem
    · -- A message at or after the epoch is now at zero itself.
      have hlate : ∃ t ∈ timesOf batch id, ¬ t < 0 := by
        by_contra hall
        push Not at hall
        exact hz ⟨hempty, hsome, hall⟩
      obtain ⟨t, ht, hle⟩ := hlate
      have heq : t = 0 := by
        apply Int64.le_antisymm
        · exact hzero ▸ h.time_le_lastTime ht
        · exact Int64.not_lt.1 hle
      rw [hzero, ← heq]
      exact ht

end MergedFrom

/-- A group has the time of its latest message exactly when no zero of an empty record is later. -/
theorem lastTime_isLatest_iff (hg : g ∈ assemble limits batch) :
    (IsLatest (timesOf batch g.id) g.lastTime ↔ ¬ ZeroIsLater batch g.id) ∧
      (ZeroIsLater batch g.id → g.lastTime = 0) := by
  obtain ⟨h, hmerged, hfinish⟩ := exists_merged hg
  have htime : h.lastTime = g.lastTime := by rw [← hfinish, Group.finish]
  refine ⟨⟨?_, fun hz => htime ▸ hmerged.isLatest_lastTime hz⟩,
    fun hz => htime ▸ hmerged.lastTime_eq_zero hz⟩
  intro hlatest hz
  rw [IsLatest, if_neg hz.2.1, ← htime, hmerged.lastTime_eq_zero hz] at hlatest
  exact Int64.lt_irrefl (hz.2.2 0 hlatest.1)

/-- A message before the epoch, then nothing, then a message after it, all of one conversation. -/
def aroundEpoch : Batch :=
  [⟨⟨"c", ""⟩, "n", false, [⟨⟨"A", none⟩, .ofMs (-5) (by decide), .knock⟩]⟩,
    ⟨⟨"c", ""⟩, "n", false, []⟩,
    ⟨⟨"c", ""⟩, "n", false, [⟨⟨"A", none⟩, .ofMs 7 (by decide), .knock⟩]⟩]

theorem lastTime_aroundEpoch :
    let g : Group := ⟨"c", "n", none,
      [⟨⟨"A", none⟩, -5, .knock⟩, ⟨⟨"A", none⟩, 7, .knock⟩], false, 7⟩
    g ∈ assemble .unlimited aroundEpoch ∧
      (IsLatest (timesOf aroundEpoch g.id) g.lastTime ↔ ¬ ZeroIsLater aroundEpoch g.id) ∧
      (ZeroIsLater aroundEpoch g.id → g.lastTime = 0) := by
  intro g
  have hassemble : assemble .unlimited aroundEpoch = [g] := by
    rw [assemble_eq_plain]
    cbv
  have hg : g ∈ assemble .unlimited aroundEpoch := by
    rw [hassemble]
    exact List.mem_singleton_self g
  exact ⟨hg, lastTime_isLatest_iff hg⟩

/-- An empty record, then a message before the epoch. -/
def emptyBeforeEpoch : Batch :=
  [⟨⟨"c", ""⟩, "n", false, []⟩,
    ⟨⟨"c", ""⟩, "n", false, [⟨⟨"A", none⟩, .ofMs (-1) (by decide), .knock⟩]⟩]

/-- The only message is of time -1, and the group is given as active at 0. -/
theorem lastTime_emptyBeforeEpoch :
    let g : Group := ⟨"c", "n", none, [⟨⟨"A", none⟩, -1, .knock⟩], false, 0⟩
    assemble .unlimited emptyBeforeEpoch = [g] ∧ timesOf emptyBeforeEpoch g.id = [-1] ∧
      ¬ IsLatest (timesOf emptyBeforeEpoch g.id) g.lastTime := by
  intro g
  have htimes : timesOf emptyBeforeEpoch g.id = [-1] := by cbv
  refine ⟨?_, htimes, ?_⟩
  · rw [assemble_eq_plain]
    cbv
  · intro hlatest
    rw [htimes, IsLatest, if_neg (List.cons_ne_nil _ _)] at hlatest
    exact absurd (List.mem_singleton.1 hlatest.1) (by decide)

end Notifications
