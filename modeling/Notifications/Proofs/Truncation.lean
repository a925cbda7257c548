import Notifications.Proofs.Quotation
/-!
What a limit does to the text of a line. A text that is too long is cut behind as many characters as
the limit says; the ellipsis is not counted, so a text once cut is still too long, and the next cut
is made in what was kept.
-/
namespace Notifications.Render

open Data (Dictionary)
open Notice (Message)

variable {s t : String} {limit a b : Nat}

theorem truncate_of_fits (h : limit = 0 ∨ s.length ≤ limit) : truncate limit s = s := if_pos h

theorem truncate_of_longer (hlimit : limit ≠ 0) (h : limit < s.length) :
    truncate limit s = String.ofList (s.toList.take limit) ++ "..." :=
  if_neg (not_or.2 ⟨hlimit, Nat.not_le.2 h⟩)

/-- The cut goes between two characters, and as many as the limit says come before it. -/
theorem exists_truncate_eq (hlimit : limit ≠ 0) (h : limit < s.length) :
    ∃ kept rest : String, s = kept ++ rest ∧ kept.length = limit ∧
      truncate limit s = kept ++ "..." := by
  refine ⟨String.ofList (s.toList.take limit), String.ofList (s.toList.drop limit), ?_, ?_,
    truncate_of_longer hlimit h⟩
  · rw [← String.ofList_append, List.take_append_drop, String.ofList_toList]
  · rw [String.length_ofList, List.length_take, String.length_toList, Nat.min_eq_left h.le]

theorem length_truncate_le (hlimit : limit ≠ 0) : (truncate limit s).length ≤ limit + 3 := by
  rcases Nat.lt_or_ge limit s.length with hlonger | hfits
  · obtain ⟨kept, -, -, hkept, hcut⟩ := exists_truncate_eq hlimit hlonger
    rw [hcut, String.length_append, hkept]
    exact Nat.le_refl _
  · rw [truncate_of_fits (.inr hfits)]
    omega

theorem truncate_eq_truncate_iff (hlimit : limit ≠ 0) (hs : limit < s.length)
    (ht : limit < t.length) :
    truncate limit s = truncate limit t ↔ s.toList.take limit = t.toList.take limit := by
  rw [truncate_of_longer hlimit hs, truncate_of_longer hlimit ht, String.append_left_inj,
    String.ofList_inj]

/-- A tighter limit finds what it keeps in what a wider one has kept. -/
theorem truncate_truncate (h : b = 0 ∨ a ≠ 0 ∧ a ≤ b) (s : String) :
    truncate a (truncate b s) = truncate a s := by
  by_cases hfits : b = 0 ∨ s.length ≤ b
  · rw [truncate_of_fits hfits]
  · obtain ⟨hb, hlonger⟩ := not_or.1 hfits
    obtain ⟨ha, hab⟩ := h.resolve_left hb
    obtain ⟨kept, rest, rfl, hkept, hcut⟩ := exists_truncate_eq hb (Nat.not_le.1 hlonger)
    have hkeeps : a ≤ kept.toList.length := by rwa [String.length_toList, hkept]
    -- With the ellipsis the text is too long for the tighter limit, be that the same one.
    have hellipsis : a < (kept ++ "...").length := by
      rw [String.length_append, hkept]
      exact Nat.lt_of_le_of_lt hab (Nat.lt_add_of_pos_right (by decide))
    rw [hcut, truncate_eq_truncate_iff ha hellipsis (Nat.lt_of_le_of_lt hab (Nat.not_le.1 hlonger)),
      String.toList_append, String.toList_append, List.take_append_of_le_length hkeeps,
      List.take_append_of_le_length hkeeps]

theorem truncate_idem (limit : Nat) (s : String) :
    truncate limit (truncate limit s) = truncate limit s :=
  truncate_truncate ((Nat.eq_zero_or_pos limit).imp_right fun h => ⟨h.ne', Nat.le_refl limit⟩) s

namespace Style

/-- The limit is the last that a text meets, whatever the message: what is cut is what is shown
without a limit. -/
theorem text_line_eq_truncate (limit : UInt64) (templates : Dictionary) (m : Message) :
    (line ⟨limit, templates⟩ m).text = truncate limit.toNat (line ⟨0, templates⟩ m).text := by
  have hfull : (line ⟨0, templates⟩ m).text = fullText ⟨templates⟩ m.content := text_line rfl
  rw [hfull, line]

theorem line_eq_line_iff (s : Style) (m m' : Message) : s.line m = s.line m' ↔
    m.author.name = m'.author.name ∧ m.time = m'.time ∧ (s.line m).text = (s.line m').text := by
  rw [line, line, Line.mk.injEq, and_comm (b := m.time = m'.time)]

/-- A text is shown whole without a limit, which is what zero stands for, and under a limit that it
does not exceed; else it is shown up to the limit, with an ellipsis. It can be cut again, at the
same place or before it, as if it had been whole, and nothing shows what was cut off: two lines of
texts that are too long are equal just when the texts begin alike and come from one author at one
time. -/
theorem line_of_limit (templates : Dictionary) (m : Message) :
    let full := (line ⟨0, templates⟩ m).text
    let shown (limit : UInt64) := (line ⟨limit, templates⟩ m).text
    (∀ limit : UInt64, (limit = 0 ∨ full.length ≤ limit.toNat → shown limit = full) ∧
      (limit ≠ 0 → limit.toNat < full.length →
        ∃ kept rest : String, full = kept ++ rest ∧ kept.length = limit.toNat ∧
          shown limit = kept ++ "...") ∧
      (limit ≠ 0 → (shown limit).length ≤ limit.toNat + 3) ∧
      truncate limit.toNat (shown limit) = shown limit) ∧
    (∀ a b : UInt64, 0 < a → a ≤ b → truncate a.toNat (shown b) = shown a) ∧
    (∀ (m' : Message) (limit : UInt64), limit ≠ 0 → limit.toNat < full.length →
      limit.toNat < (line ⟨0, templates⟩ m').text.length →
      (line ⟨limit, templates⟩ m = line ⟨limit, templates⟩ m' ↔
        m.author.name = m'.author.name ∧ m.time = m'.time ∧
          full.toList.take limit.toNat =
            (line ⟨0, templates⟩ m').text.toList.take limit.toNat)) := by
  intro full shown
  have hshown : ∀ limit, shown limit = truncate limit.toNat full :=
    fun limit => text_line_eq_truncate limit templates m
  have hpositive : ∀ {limit : UInt64}, limit ≠ 0 → limit.toNat ≠ 0 :=
    fun h hzero => h (UInt64.toNat_inj.1 hzero)
  refine ⟨fun limit => ⟨fun hfits => ?_, fun hlimit hlonger => ?_, fun hlimit => ?_, ?_⟩,
    fun a b ha hab => ?_,
    fun m' limit hlimit hlonger hlonger' => ?_⟩
  · rw [hshown, truncate_of_fits (hfits.imp_left fun hzero => congrArg UInt64.toNat hzero)]
  · rw [hshown]
    exact exists_truncate_eq (hpositive hlimit) hlonger
  · rw [hshown]
    exact length_truncate_le (hpositive hlimit)
  · rw [hshown, truncate_idem]
  · have hwider : a.toNat ≠ 0 ∧ a.toNat ≤ b.toNat :=
      ⟨Nat.pos_iff_ne_zero.1 (UInt64.lt_iff_toNat_lt.1 ha), UInt64.le_iff_toNat_le.1 hab⟩
    rw [hshown, hshown, truncate_truncate (.inr hwider)]
  · rw [line_eq_line_iff, text_line_eq_truncate, text_line_eq_truncate limit templates m',
      truncate_eq_truncate_iff (hpositive hlimit) hlonger hlonger']

/-- A reply and a text that was written to look like it, cut behind an accented letter. -/
theorem line_of_limit_accented :
    let reply : Message := ⟨⟨"Ann", none⟩, 5, .text "äöü" true⟩
    let lookalike : Message := ⟨⟨"Ann", none⟩, 5, .text "Replied to you: äh" false⟩
    let shown (limit : UInt64) := (line ⟨limit, .empty⟩ reply).text
    shown 0 = "Replied to you: äöü" ∧ shown 19 = shown 0 ∧ shown 17 = "Replied to you: ä..." ∧
      (shown 17).length ≤ 20 ∧ truncate 17 (shown 17) = shown 17 ∧ truncate 4 (shown 17) = shown 4 ∧
      line ⟨17, .empty⟩ reply = line ⟨17, .empty⟩ lookalike := by
  intro reply lookalike shown
  obtain ⟨hlimit, htighter, halike⟩ := line_of_limit .empty reply
  have hfull : shown 0 = "Replied to you: ä" ++ "öü" := by decide
  have hlonger : 17 < (shown 0).length := by decide
  obtain ⟨-, hcut, hlength, hagain⟩ := hlimit 17
  obtain ⟨kept, rest, hparts, hkept, hcut⟩ := hcut (by decide) hlonger
  obtain rfl : "Replied to you: ä" = kept := by
    have hchars := congrArg String.toList (hfull.symm.trans hparts)
    rw [String.toList_append, String.toList_append] at hchars
    exact String.toList_inj.1
      (List.append_inj_left hchars (by rw [String.length_toList, String.length_toList, hkept]; rfl))
  exact ⟨hfull, (hlimit 19).1 (.inr (by decide)), hcut, hlength (by decide), hagain,
    htighter 4 17 (by decide) (by decide),
    (halike lookalike 17 (by decide) hlonger (by decide)).2 ⟨rfl, rfl, by decide⟩⟩

end Style

end Notifications.Render
