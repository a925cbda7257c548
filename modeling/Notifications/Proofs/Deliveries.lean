import Notifications.Proofs.Interchange
/-!
How often and in how many parts the records of a conversation are handed over. Records that come
again are not seen as long as the name and form they bring are the current ones, and a record that
comes in parts is not told from the whole.
-/
namespace Notifications

open Notice (Group latest_le_iff)
open Record (Conversation Message)

variable {batch again : Batch} {c : Conversation} {parts : List (List Message)} {id : String}

theorem heading?_append_of_shown (h : id ∈ shownIds again) :
    heading? (recordsOf (batch ++ again) id) = heading? (recordsOf again id) := by
  rw [recordsOf_append, heading?_append]
  apply Option.or_of_isSome
  simpa [heading?] using recordsOf_ne_nil.2 h

/-- What a batch is headed with is seen where every group is kept. -/
theorem heading?_eq_of_assemble_eq {other : Batch}
    (h : assemble .unlimited batch = assemble .unlimited other) (hid : id ∈ shownIds batch) :
    heading? (recordsOf batch id) = heading? (recordsOf other id) := by
  have hshown : id ∈ (assemble .unlimited batch).map Group.id :=
    mem_ids_assemble.2 ⟨mem_shownIds.1 hid, Or.inl rfl⟩
  obtain ⟨g, hg, rfl⟩ := List.mem_map.1 hshown
  have hg' : g ∈ assemble .unlimited other := h ▸ hg
  rw [heading?_of_mem_assemble hg, heading?_of_mem_assemble hg']

theorem interchangeable_append_known (known : ∀ c ∈ again, c ∈ batch)
    (current : ∀ id ∈ shownIds again,
      heading? (recordsOf again id) = heading? (recordsOf batch id)) :
    Interchangeable (batch ++ again) batch where
  ids := by
    rw [shownIds, List.map_append]
    apply eraseDups_append_of_subset
    intro id hid
    obtain ⟨c, hc, rfl⟩ := List.mem_map.1 hid
    exact List.mem_map_of_mem (known c hc)
  alike id := by
    rw [recordsOf_append]
    apply Alike.append_known
    · intro c hc
      have hagain := mem_recordsOf.1 hc
      exact mem_recordsOf.2 ⟨known c hagain.1, hagain.2⟩
    · intro hne
      exact current id (recordsOf_ne_nil.1 hne)

/-- Records that come again change nothing, whatever the limits are, exactly when the last of them
for each id brings the name and form that the id has already. -/
theorem assemble_redelivered_iff (known : ∀ c ∈ again, c ∈ batch) :
    (∀ limits, assemble limits (batch ++ again) = assemble limits batch) ↔
      ∀ id ∈ shownIds again, heading? (recordsOf again id) = heading? (recordsOf batch id) := by
  constructor
  · intro h id hid
    have hshown : id ∈ shownIds (batch ++ again) := by
      obtain ⟨c, hc, hdisplay⟩ := mem_shownIds.1 hid
      exact mem_shownIds.2 ⟨c, List.mem_append_right _ hc, hdisplay⟩
    rw [← heading?_append_of_shown hid]
    exact heading?_eq_of_assemble_eq (h .unlimited) hshown
  · intro current limits
    exact (interchangeable_append_known known current).assemble_eq limits

/-- All records of two interleaved conversations come again in reverse, and then all but the first.
The first alone would bring back an old name. -/
theorem assemble_redelivered_interleaved :
    let again := interleaved.reverse ++ interleaved.drop 1
    (∀ c ∈ again, c ∈ interleaved) ∧
      (∀ limits, assemble limits (interleaved ++ again) = assemble limits interleaved) ∧
      ∃ limits, assemble limits (interleaved ++ interleaved.take 1) ≠
        assemble limits interleaved := by
  intro again
  have known : ∀ c ∈ again, c ∈ interleaved := by
    intro c hc
    rcases List.mem_append.1 hc with hc | hc
    · exact List.mem_reverse.1 hc
    · exact List.mem_of_mem_drop hc
  refine ⟨known, (assemble_redelivered_iff known).2 ?_, ?_⟩
  · have hids : shownIds again = ["c@d", "e"] := by cbv
    rw [hids, List.forall_mem_cons, List.forall_mem_singleton]
    exact ⟨by cbv, by cbv⟩
  · by_contra hall
    push Not at hall
    have hids : shownIds (interleaved.take 1) = ["c@d"] := by cbv
    have hcurrent := (assemble_redelivered_iff fun c hc => List.mem_of_mem_take hc).1 hall
    rw [hids, List.forall_mem_singleton] at hcurrent
    have hold : heading? (recordsOf (interleaved.take 1) "c@d") = some ("Old", false) := by cbv
    have hnew : heading? (recordsOf interleaved "c@d") = some ("New", true) := by cbv
    rw [hold, hnew] at hcurrent
    exact absurd hcurrent (by decide)

/-- The records of a conversation whose messages are handed over in parts. -/
def Record.Conversation.inParts (c : Conversation) (parts : List (List Message)) :
    List Conversation :=
  parts.map fun part => { c with messages := part }

theorem id_of_mem_inParts {part : Conversation} (h : part ∈ c.inParts parts) : part.id = c.id := by
  obtain ⟨messages, -, rfl⟩ := List.mem_map.1 h
  rfl

theorem noticesIn_inParts (c : Conversation) (parts : List (List Message)) :
    noticesIn (c.inParts parts) = parts.flatten.map Message.notice := by
  rw [noticesIn, Conversation.inParts, List.flatMap_map, List.map_flatten, List.flatMap_def]

section Parts

variable (filled : ∀ part ∈ parts, part ≠ []) (whole : parts.flatten = c.messages)
  (hc : c.messages ≠ [])

include whole hc

theorem parts_ne_nil : parts ≠ [] := by
  rintro rfl
  exact hc whole.symm

theorem shownIds_inParts : shownIds (c.inParts parts) = [c.id.display] := by
  apply eq_singleton_of_nodup (nodup_shownIds _)
  intro id
  rw [mem_shownIds]
  constructor
  · rintro ⟨part, hpart, rfl⟩
    rw [id_of_mem_inParts hpart]
  · rintro rfl
    obtain ⟨messages, hmessages⟩ := List.exists_mem_of_ne_nil parts (parts_ne_nil whole hc)
    exact ⟨_, List.mem_map_of_mem hmessages, rfl⟩

include filled

/-- The whole is as late as the latest part, for no part is without messages. -/
theorem lastTime_inParts (t : Int64) :
    (∀ part ∈ c.inParts parts, part.group.lastTime ≤ t) ↔ c.group.lastTime ≤ t := by
  calc (∀ part ∈ c.inParts parts, part.group.lastTime ≤ t)
    _ ↔ ∀ messages ∈ parts, ({ c with messages := messages } : Conversation).group.lastTime ≤ t :=
      List.forall_mem_map
    _ ↔ ∀ messages ∈ parts, ∀ m ∈ messages, m.time.ms ≤ t :=
      forall₂_congr fun messages hmessages => group_lastTime_le_iff (filled messages hmessages)
    _ ↔ ∀ m ∈ parts.flatten, m.time.ms ≤ t := List.forall_mem_flatten.symm
    _ ↔ c.group.lastTime ≤ t := by rw [whole, group_lastTime_le_iff hc]

theorem alike_inParts : Alike (c.inParts parts) [c] where
  heading := by
    obtain ⟨last, hlast⟩ :=
      Option.ne_none_iff_exists'.1 (mt List.getLast?_eq_none_iff.1 (parts_ne_nil whole hc))
    rw [heading?, Conversation.inParts, List.getLast?_map, hlast]
    rfl
  notices := by
    rw [noticesIn_inParts, whole, noticesIn, List.flatMap_singleton]
  lastTime t := by
    rw [List.forall_mem_singleton]
    exact lastTime_inParts filled whole hc t

theorem interchangeable_inParts : Interchangeable (c.inParts parts) [c] where
  ids := shownIds_inParts whole hc
  alike id := by
    have hids : shownIds (c.inParts parts) = shownIds [c] := shownIds_inParts whole hc
    by_cases hid : id ∈ shownIds [c]
    · have hshow : c.id.display = id := by simpa [mem_shownIds] using hid
      have hparts : ∀ part ∈ c.inParts parts, part.id.display = id := by
        intro part hpart
        rw [id_of_mem_inParts hpart, hshow]
      rw [recordsOf_eq_self hparts, recordsOf_eq_self (List.forall_mem_singleton.2 hshow)]
      exact alike_inParts filled whole hc
    · rw [recordsOf_eq_nil hid, recordsOf_eq_nil (hids ▸ hid)]
      exact .refl []

/-- Whether a conversation's messages are handed over at once or in parts makes no difference,
whatever comes before and behind. -/
theorem assemble_inParts (before behind : Batch) (limits : Limits) :
    assemble limits (before ++ c.inParts parts ++ behind) =
      assemble limits (before ++ [c] ++ behind) := by
  have hparts := interchangeable_inParts filled whole hc
  exact (((Interchangeable.refl before).append hparts).append (.refl behind)).assemble_eq limits

end Parts

/-- A message that is in two parts, a tie between parts, and other records of the conversation
before and behind. -/
theorem assemble_inParts_interleaved :
    let knock (name : String) (t : Record.Time) : Message := ⟨⟨name, none⟩, t, .knock⟩
    let early : Record.Time := .ofMs (-10) (by decide)
    let late : Record.Time := .ofMs 30 (by decide)
    let parts := [[knock "A" late, knock "E" early], [knock "A" late], [knock "D" early]]
    let c : Conversation := ⟨⟨"c", "d"⟩, "Now", false, parts.flatten⟩
    (∀ part ∈ parts, part ≠ []) ∧ parts.flatten = c.messages ∧ c.messages ≠ [] ∧
      ∀ limits, assemble limits (interleaved ++ c.inParts parts ++ interleaved) =
        assemble limits (interleaved ++ [c] ++ interleaved) := by
  intro knock early late parts c
  have filled : ∀ part ∈ parts, part ≠ [] := by simp [parts]
  have hc : c.messages ≠ [] := by simp [c, parts]
  exact ⟨filled, rfl, hc, assemble_inParts filled rfl hc interleaved interleaved⟩

end Notifications
