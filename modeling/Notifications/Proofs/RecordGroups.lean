import Notifications.Proofs.Chronology
import Notifications.Proofs.Latest
/-!
The group of one record. It has the messages of the record, each as often as it stands there, in a
stable order by time; the time of the group is found apart from that order, and is that of the
message which comes last in it.
-/
namespace Notifications

open Notice (Chronology Group IsLatest IsNewest byTime)
open Record (Conversation)

variable {times : List Int64} {t u : Int64}

theorem Notice.IsLatest.unique (ht : IsLatest times t) (hu : IsLatest times u) : t = u := by
  rw [IsLatest] at ht hu
  split at ht
  · rename_i hnone
    rw [if_pos hnone] at hu
    exact ht.trans hu.symm
  · rename_i hsome
    rw [if_neg hsome] at hu
    exact Int64.le_antisymm (hu.2 t ht.1) (ht.2 u hu.1)

theorem Notice.IsNewest.isLatest {m : Notice.Message} {messages : List Notice.Message}
    (h : IsNewest m messages) : IsLatest (messages.map (·.time)) m.time := by
  have hm : m ∈ messages := List.mem_of_getLast? h.last
  have hsome : messages.map (·.time) ≠ [] := List.ne_nil_of_mem (List.mem_map_of_mem hm)
  rw [IsLatest, if_neg hsome]
  refine ⟨List.mem_map_of_mem hm, fun t ht => ?_⟩
  obtain ⟨n, hn, rfl⟩ := List.mem_map.1 ht
  exact h.latest n hn

theorem Notice.IsLatest.perm {times' : List Int64} (h : IsLatest times t)
    (hperm : times.Perm times') :
    IsLatest times' t := by
  rw [IsLatest] at h ⊢
  by_cases hnone : times = []
  · subst hnone
    rw [if_pos rfl] at h
    rwa [if_pos hperm.nil_eq.symm]
  · have hsome : times' ≠ [] := fun he => hnone (he ▸ hperm).eq_nil
    rw [if_neg hnone] at h
    rw [if_neg hsome]
    exact ⟨hperm.mem_iff.1 h.1, fun u hu => h.2 u (hperm.mem_iff.2 hu)⟩

namespace Record.Conversation

theorem group_messages_perm (c : Conversation) :
    c.group.messages.Perm (c.messages.map Message.notice) :=
  List.mergeSort_perm _ _

theorem chronology_group (c : Conversation) :
    Chronology (c.messages.map Message.notice) c.group.messages :=
  Notice.chronology_byTime _

theorem group_lastTime_of_isNewest (c : Conversation) {m : Notice.Message}
    (h : IsNewest m c.group.messages) :
    c.group.lastTime = m.time := by
  have htimes : (c.group.messages.map (·.time)).Perm (c.messages.map (·.time.ms)) := by
    have hperm := c.group_messages_perm.map Notice.Message.time
    rwa [List.map_map] at hperm
  exact (Notice.isLatest_latest _).unique (h.isLatest.perm htimes)

end Record.Conversation

/-- Whatever the messages of a record and their times: the group has them all and no other, in
order, and its time is the latest of theirs, which is that of its last message; a record without
messages is given the time zero. -/
theorem group_of_conversation (c : Conversation) :
    let notices := c.messages.map Record.Message.notice
    c.group.messages.Perm notices ∧ Chronology notices c.group.messages ∧
      IsLatest (c.messages.map (·.time.ms)) c.group.lastTime ∧
      (c.messages = [] ∧ c.group.messages = [] ∧ c.group.lastTime = 0 ∨
        ∃ m, IsNewest m c.group.messages ∧ c.group.lastTime = m.time) ∧
      c.group.image = none ∧ ∀ m ∈ c.group.messages, m.author.image = none := by
  intro notices
  refine ⟨c.group_messages_perm, c.chronology_group, Notice.isLatest_latest _, ?_, rfl, ?_⟩
  · cases hlast : c.group.messages.getLast? with
    | none =>
      have hgroup : c.group.messages = [] := List.getLast?_eq_none_iff.1 hlast
      have hnil : c.messages = [] := by simpa [hgroup] using c.group_messages_perm
      refine .inl ⟨hnil, hgroup, ?_⟩
      rw [Conversation.group, hnil]
      rfl
    | some m =>
      have hnewest : IsNewest m c.group.messages := c.chronology_group.oldestFirst.isNewest hlast
      exact .inr ⟨m, hnewest, c.group_lastTime_of_isNewest hnewest⟩
  · intro m hm
    obtain ⟨record, -, rfl⟩ := List.mem_map.1 (c.group_messages_perm.mem_iff.1 hm)
    rfl

end Notifications
