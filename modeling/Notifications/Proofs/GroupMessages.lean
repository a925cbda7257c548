import Mathlib
import Notifications.Proofs.Chronology
import Notifications.Proofs.Merging
/-!
The messages of an assembled group. Each record is sorted by itself before the records are joined,
freed of repeats, sorted again and cut; what comes out is what sorting once at the end gives.
-/
namespace Notifications

open Notice (Group Message Chronology byTime newest)
open Record (Conversation)

variable {batch : Batch} {id : String} {g : Group} {limits : Limits}

/-- The messages of some records, as the records have them. -/
def noticesIn (records : List Conversation) : List Message :=
  records.flatMap fun c => c.messages.map Record.Message.notice

/-- The messages of the records shown under an id. -/
def noticesOf (batch : Batch) (id : String) : List Message := noticesIn (recordsOf batch id)

/-- Sorting a record by itself leaves each time's own messages as they stood, and repeats are of one
time, so it decides neither which of them stays nor how ties come out. -/
theorem byTime_eraseDups_records (records : List Conversation) :
    byTime (records.flatMap (·.group.messages)).eraseDups =
      byTime (noticesIn records).eraseDups := by
  apply Notice.byTime_congr
  intro t
  have hrecord : ∀ c : Conversation, c.group.messages.filter (·.time = t) =
      (c.messages.map Record.Message.notice).filter (·.time = t) :=
    fun c => (Notice.chronology_byTime _).sameTime t
  simp only [noticesIn, filter_eraseDups, List.filter_flatMap, hrecord]

theorem MergedFrom.messages_finish {records : List Conversation} (h : MergedFrom records g) :
    (g.finish limits).messages =
      newest limits.maxMessages.toNat (byTime (noticesIn records).eraseDups) := by
  rw [Group.finish, Notice.dropRepeats_eq_eraseDups, h.messages]
  exact congrArg (newest _) (byTime_eraseDups_records _)

namespace Notice

variable {limit : Nat} {messages : List Message}

theorem newest_eq_self (h : limit = 0 ∨ messages.length ≤ limit) :
    newest limit messages = messages := by
  rw [newest]
  split
  · rfl
  · rename_i hlimit
    rw [Nat.sub_eq_zero_of_le (h.resolve_left hlimit), List.drop_zero]

theorem newest_suffix (limit : Nat) (messages : List Message) :
    newest limit messages <:+ messages := by
  rw [newest]
  split
  · exact List.suffix_rfl
  · exact List.drop_suffix _ _

theorem length_newest (h : limit ≠ 0) :
    (newest limit messages).length = min limit messages.length := by
  rw [newest, if_neg h, List.length_drop]
  omega

theorem newest_eq_nil : newest limit messages = [] ↔ messages = [] := by
  constructor
  · intro h
    by_cases hlimit : limit = 0
    · rwa [newest_eq_self (Or.inl hlimit)] at h
    · have hlength : (newest limit messages).length = min limit messages.length :=
        length_newest hlimit
      rw [h, List.length_nil] at hlength
      exact List.length_eq_zero_iff.1 (by omega)
  · rintro rfl
    exact newest_eq_self (Or.inr (Nat.zero_le _))

theorem byTime_eraseDups_eq_nil : byTime messages.eraseDups = [] ↔ messages = [] := by
  simp only [List.eq_nil_iff_forall_not_mem, byTime, List.mem_mergeSort, List.mem_eraseDups]

end Notice

theorem noticesOf_ne_nil :
    noticesOf batch id ≠ [] ↔ ∃ c ∈ recordsOf batch id, c.messages ≠ [] := by
  simp [noticesOf, noticesIn]

theorem MergedFrom.finish_ne_nil (h : MergedFrom (recordsOf batch id) g) :
    (g.finish limits).messages ≠ [] ↔ ∃ c ∈ recordsOf batch id, c.messages ≠ [] := by
  rw [h.messages_finish, ne_eq, Notice.newest_eq_nil, Notice.byTime_eraseDups_eq_nil]
  exact noticesOf_ne_nil

theorem messages_eq_newest (hg : g ∈ assemble limits batch) : g.messages =
    newest limits.maxMessages.toNat (byTime (noticesOf batch g.id).eraseDups) := by
  obtain ⟨h, hmerged, hfinish⟩ := exists_merged hg
  have hmessages : (h.finish limits).messages = _ := hmerged.messages_finish
  rwa [hfinish] at hmessages

/-- The messages of a group are those of its records without repeats and in order, or the newest of
them as far as the limit reaches. -/
theorem messages_of_mem_assemble (hg : g ∈ assemble limits batch) :
    ∃ all, Chronology (noticesOf batch g.id).eraseDups all ∧
      (limits.maxMessages.toNat = 0 ∨ all.length ≤ limits.maxMessages.toNat → g.messages = all) ∧
      (limits.maxMessages.toNat ≠ 0 → limits.maxMessages.toNat < all.length →
        g.messages <:+ all ∧ g.messages.length = limits.maxMessages.toNat) := by
  refine ⟨_, Notice.chronology_byTime _, ?_, ?_⟩
  · intro hlimit
    rw [messages_eq_newest hg, Notice.newest_eq_self hlimit]
  · intro hlimit hlong
    rw [messages_eq_newest hg]
    refine ⟨Notice.newest_suffix _ _, ?_⟩
    rw [Notice.length_newest hlimit, Nat.min_eq_left (Nat.le_of_lt hlong)]

/-- Two records of one conversation around another's, with a repeat and a tie between them. -/
def interleaved : Batch :=
  [⟨⟨"c", "d"⟩, "Old", false,
      [⟨⟨"A", none⟩, .ofMs 30 (by decide), .knock⟩,
        ⟨⟨"B", none⟩, .ofMs (-10) (by decide), .knock⟩]⟩,
    ⟨⟨"e", ""⟩, "Other", true, []⟩,
    ⟨⟨"c", "d"⟩, "New", true,
      [⟨⟨"D", none⟩, .ofMs (-10) (by decide), .knock⟩,
        ⟨⟨"A", none⟩, .ofMs 30 (by decide), .knock⟩]⟩]

theorem messages_of_interleaved :
    let limits : Limits := ⟨2, false⟩
    let g : Group := ⟨"c@d", "New", none,
      [⟨⟨"D", none⟩, -10, .knock⟩, ⟨⟨"A", none⟩, 30, .knock⟩], true, 30⟩
    g ∈ assemble limits interleaved ∧
      ∃ all, Chronology (noticesOf interleaved g.id).eraseDups all ∧
        (limits.maxMessages.toNat = 0 ∨ all.length ≤ limits.maxMessages.toNat → g.messages = all) ∧
        (limits.maxMessages.toNat ≠ 0 → limits.maxMessages.toNat < all.length →
          g.messages <:+ all ∧ g.messages.length = limits.maxMessages.toNat) := by
  intro limits g
  have hassemble : assemble limits interleaved = [g] := by
    rw [assemble_eq_plain]
    cbv
  have hg : g ∈ assemble limits interleaved := by
    rw [hassemble]
    exact List.mem_singleton_self g
  exact ⟨hg, messages_of_mem_assemble hg⟩

end Notifications
