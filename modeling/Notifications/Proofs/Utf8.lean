import Notifications.Text.Utf8
/-!
Text that is written as UTF-8 is read back as it was, other bytes are not read as it, and an ASCII
byte stands in it exactly for its own character. Characters are told apart by the number of bytes
they take.
-/
namespace Notifications.Text

variable {a b d e : UInt8} {c : Char} {i : Nat} {r : List UInt8}

theorem utf8Width_eq (a : UInt8) : utf8Width a =
    if a.toNat < 0x80 then 1
    else if 0xC2 ≤ a.toNat ∧ a.toNat ≤ 0xDF then 2
    else if 0xE0 ≤ a.toNat ∧ a.toNat ≤ 0xEF then 3
    else if 0xF0 ≤ a.toNat ∧ a.toNat ≤ 0xF4 then 4
    else 0 := by
  simp [utf8Width, UInt8.lt_iff_toNat_lt, UInt8.le_iff_toNat_le]

theorem isContinuation_iff : isContinuation b = true ↔ 0x80 ≤ b.toNat ∧ b.toNat ≤ 0xBF := by
  simp [isContinuation, UInt8.le_iff_toNat_le]

theorem followsLead_iff : followsLead a b = true ↔
    0x80 ≤ b.toNat ∧ b.toNat ≤ 0xBF ∧ (a.toNat = 0xE0 → 0xA0 ≤ b.toNat) ∧
      (a.toNat = 0xED → b.toNat ≤ 0x9F) ∧ (a.toNat = 0xF0 → 0x90 ≤ b.toNat) ∧
      (a.toNat = 0xF4 → b.toNat ≤ 0x8F) := by
  simp only [followsLead, isContinuation, beq_iff_eq, ← UInt8.toNat_inj, UInt8.le_iff_toNat_le]
  simp
  grind

theorem decodeUtf8_one (ha : a.toNat < 0x80) (hc : a.toNat = c.toNat) :
    decodeUtf8 i (a :: r) = (c :: ·) <$> decodeUtf8 (i + 1) r := by
  have width : utf8Width a = 1 := by rw [utf8Width_eq, if_pos ha]
  rw [decodeUtf8.eq_def, ← Char.ofNat_toNat c, ← hc]
  simp only [width]

theorem decodeUtf8_two (ha : 0xC2 ≤ a.toNat ∧ a.toNat ≤ 0xDF)
    (hb : 0x80 ≤ b.toNat ∧ b.toNat ≤ 0xBF) (hc : a.toNat % 32 * 64 + b.toNat % 64 = c.toNat) :
    decodeUtf8 i (a :: b :: r) = (c :: ·) <$> decodeUtf8 (i + 2) r := by
  have width : utf8Width a = 2 := by rw [utf8Width_eq, if_neg (by omega), if_pos ha]
  rw [decodeUtf8.eq_def, ← Char.ofNat_toNat c, ← hc]
  simp only [width, isContinuation_iff.2 hb, if_true]
  rfl

theorem decodeUtf8_three (ha : 0xE0 ≤ a.toNat ∧ a.toNat ≤ 0xEF) (hb : followsLead a b = true)
    (hd : 0x80 ≤ d.toNat ∧ d.toNat ≤ 0xBF)
    (hc : (a.toNat % 16 * 64 + b.toNat % 64) * 64 + d.toNat % 64 = c.toNat) :
    decodeUtf8 i (a :: b :: d :: r) = (c :: ·) <$> decodeUtf8 (i + 3) r := by
  have width : utf8Width a = 3 := by
    rw [utf8Width_eq, if_neg (by omega), if_neg (by omega), if_pos ha]
  rw [decodeUtf8.eq_def, ← Char.ofNat_toNat c, ← hc]
  simp only [width, hb, isContinuation_iff.2 hd, Bool.not_true, Bool.false_eq_true, if_false]
  rfl

theorem decodeUtf8_four (ha : 0xF0 ≤ a.toNat ∧ a.toNat ≤ 0xF4) (hb : followsLead a b = true)
    (hd : 0x80 ≤ d.toNat ∧ d.toNat ≤ 0xBF) (he : 0x80 ≤ e.toNat ∧ e.toNat ≤ 0xBF)
    (hc : ((a.toNat % 8 * 64 + b.toNat % 64) * 64 + d.toNat % 64) * 64 + e.toNat % 64 = c.toNat) :
    decodeUtf8 i (a :: b :: d :: e :: r) = (c :: ·) <$> decodeUtf8 (i + 4) r := by
  have width : utf8Width a = 4 := by
    rw [utf8Width_eq, if_neg (by omega), if_neg (by omega), if_neg (by omega), if_pos ha]
  rw [decodeUtf8.eq_def, ← Char.ofNat_toNat c, ← hc]
  simp only [width, hb, isContinuation_iff.2 hd, isContinuation_iff.2 he, Bool.not_true,
    Bool.false_eq_true, if_false]
  rfl

/-- No character has the number of a surrogate. -/
theorem toNat_scalar (c : Char) : c.toNat < 0xD800 ∨ 0xDFFF < c.toNat ∧ c.toNat < 0x110000 :=
  c.valid

/-- The bytes of one character are read as it, whatever follows. -/
theorem decodeUtf8_utf8EncodeChar (i : Nat) (c : Char) (r : List UInt8) :
    decodeUtf8 i (String.utf8EncodeChar c ++ r) =
      (c :: ·) <$> decodeUtf8 (i + (String.utf8EncodeChar c).length) r := by
  have scalar := toNat_scalar c
  have hval : c.val.toNat = c.toNat := rfl
  have byte : ∀ n : Nat, n < 256 → (UInt8.ofNat n).toNat = n := fun _ => UInt8.toNat_ofNat_of_lt'
  simp only [String.utf8EncodeChar, hval]
  -- one case for each number of bytes; the lead byte and the first after it keep overlong forms out
  split
  · have ha := byte c.toNat (by omega)
    exact decodeUtf8_one (by omega) ha
  · split
    · have ha := byte (c.toNat / 64 % 32 + 192) (by omega)
      have hb := byte (c.toNat % 64 + 128) (by omega)
      exact decodeUtf8_two (by omega) (by omega) (by omega)
    · split
      · have ha := byte (c.toNat / 4096 % 16 + 224) (by omega)
        have hb := byte (c.toNat / 64 % 64 + 128) (by omega)
        have hd := byte (c.toNat % 64 + 128) (by omega)
        have follows : followsLead (.ofNat (c.toNat / 4096 % 16 + 224))
            (.ofNat (c.toNat / 64 % 64 + 128)) = true := by
          rw [followsLead_iff, ha, hb]
          exact ⟨by omega, by omega, by omega, by omega, by omega, by omega⟩
        exact decodeUtf8_three (by omega) follows (by omega) (by omega)
      · have ha := byte (c.toNat / 262144 % 8 + 240) (by omega)
        have hb := byte (c.toNat / 4096 % 64 + 128) (by omega)
        have hd := byte (c.toNat / 64 % 64 + 128) (by omega)
        have he := byte (c.toNat % 64 + 128) (by omega)
        have follows : followsLead (.ofNat (c.toNat / 262144 % 8 + 240))
            (.ofNat (c.toNat / 4096 % 64 + 128)) = true := by
          rw [followsLead_iff, ha, hb]
          exact ⟨by omega, by omega, by omega, by omega, by omega, by omega⟩
        exact decodeUtf8_four (by omega) follows (by omega) (by omega) (by omega)

theorem decodeUtf8_encodeUtf8 (i : Nat) (cs : List Char) :
    decodeUtf8 i (encodeUtf8 cs) = .ok cs := by
  induction cs generalizing i with
  | nil => rw [encodeUtf8, List.flatMap_nil, decodeUtf8]
  | cons c cs ih =>
    have h := decodeUtf8_utf8EncodeChar i c (encodeUtf8 cs)
    rw [ih] at h
    exact h

/-- A character is told by the number it has, if that is no surrogate. -/
theorem toNat_ofNat_of_scalar {n : Nat} (h : n < 0xD800 ∨ 0xDFFF < n ∧ n < 0x110000) :
    (Char.ofNat n).toNat = n := by
  have hvalid : n.isValidChar := h
  rw [Char.ofNat, dif_pos hvalid]
  rfl

theorem utf8EncodeChar_one (ha : a.toNat < 0x80) :
    String.utf8EncodeChar (Char.ofNat a.toNat) = [a] := by
  have hval : (Char.ofNat a.toNat).val.toNat = a.toNat := toNat_ofNat_of_scalar (by omega)
  rw [String.utf8EncodeChar]
  simp only [hval]
  rw [if_pos (by omega), UInt8.ofNat_toNat]

theorem utf8EncodeChar_two (ha : 0xC2 ≤ a.toNat ∧ a.toNat ≤ 0xDF)
    (hb : 0x80 ≤ b.toNat ∧ b.toNat ≤ 0xBF) :
    String.utf8EncodeChar (Char.ofNat (a.toNat % 32 * 64 + b.toNat % 64)) = [a, b] := by
  let n := a.toNat % 32 * 64 + b.toNat % 64
  have hval : (Char.ofNat n).val.toNat = n := toNat_ofNat_of_scalar (by omega)
  have hlead : n / 64 % 32 + 192 = a.toNat := by omega
  have hlast : n % 64 + 128 = b.toNat := by omega
  rw [String.utf8EncodeChar]
  simp only [n] at hval hlead hlast
  simp only [hval]
  rw [if_neg (by omega), if_pos (by omega), hlead, hlast, UInt8.ofNat_toNat, UInt8.ofNat_toNat]

theorem utf8EncodeChar_three (ha : 0xE0 ≤ a.toNat ∧ a.toNat ≤ 0xEF) (hb : followsLead a b = true)
    (hd : 0x80 ≤ d.toNat ∧ d.toNat ≤ 0xBF) :
    String.utf8EncodeChar (Char.ofNat ((a.toNat % 16 * 64 + b.toNat % 64) * 64 + d.toNat % 64)) =
      [a, b, d] := by
  obtain ⟨hlow, hhigh, hoverlong, hsurrogate, -, -⟩ := followsLead_iff.1 hb
  generalize hn : (a.toNat % 16 * 64 + b.toNat % 64) * 64 + d.toNat % 64 = n
  have hval : (Char.ofNat n).val.toNat = n := toNat_ofNat_of_scalar (by omega)
  have hlead : n / 4096 % 16 + 224 = a.toNat := by omega
  have hsecond : n / 64 % 64 + 128 = b.toNat := by omega
  have hlast : n % 64 + 128 = d.toNat := by omega
  rw [String.utf8EncodeChar]
  simp only [hval]
  rw [if_neg (by omega), if_neg (by omega), if_pos (by omega), hlead, hsecond, hlast,
    UInt8.ofNat_toNat, UInt8.ofNat_toNat, UInt8.ofNat_toNat]

theorem utf8EncodeChar_four (ha : 0xF0 ≤ a.toNat ∧ a.toNat ≤ 0xF4) (hb : followsLead a b = true)
    (hd : 0x80 ≤ d.toNat ∧ d.toNat ≤ 0xBF) (he : 0x80 ≤ e.toNat ∧ e.toNat ≤ 0xBF) :
    String.utf8EncodeChar
      (Char.ofNat (((a.toNat % 8 * 64 + b.toNat % 64) * 64 + d.toNat % 64) * 64 + e.toNat % 64)) =
        [a, b, d, e] := by
  obtain ⟨hlow, hhigh, -, -, hoverlong, hlargest⟩ := followsLead_iff.1 hb
  generalize hn : ((a.toNat % 8 * 64 + b.toNat % 64) * 64 + d.toNat % 64) * 64 + e.toNat % 64 = n
  have hval : (Char.ofNat n).val.toNat = n := toNat_ofNat_of_scalar (by omega)
  have hlead : n / 262144 % 8 + 240 = a.toNat := by omega
  have hsecond : n / 4096 % 64 + 128 = b.toNat := by omega
  have hthird : n / 64 % 64 + 128 = d.toNat := by omega
  have hlast : n % 64 + 128 = e.toNat := by omega
  rw [String.utf8EncodeChar]
  simp only [hval]
  rw [if_neg (by omega), if_neg (by omega), if_neg (by omega), hlead, hsecond, hthird, hlast,
    UInt8.ofNat_toNat, UInt8.ofNat_toNat, UInt8.ofNat_toNat, UInt8.ofNat_toNat]

theorem encodeUtf8_cons (c : Char) (cs : List Char) :
    encodeUtf8 (c :: cs) = String.utf8EncodeChar c ++ encodeUtf8 cs := rfl

theorem utf8Width_eq_one (h : utf8Width a = 1) : a.toNat < 0x80 := by
  grind [utf8Width_eq]

theorem utf8Width_eq_two (h : utf8Width a = 2) : 0xC2 ≤ a.toNat ∧ a.toNat ≤ 0xDF := by
  grind [utf8Width_eq]

theorem utf8Width_eq_three (h : utf8Width a = 3) : 0xE0 ≤ a.toNat ∧ a.toNat ≤ 0xEF := by
  grind [utf8Width_eq]

theorem utf8Width_eq_four (h : utf8Width a = 4) : 0xF0 ≤ a.toNat ∧ a.toNat ≤ 0xF4 := by
  grind [utf8Width_eq]

theorem map_cons_eq_ok {x : Except Utf8Fault (List Char)} {cs : List Char}
    (h : (c :: ·) <$> x = .ok cs) :
    ∃ rest, x = .ok rest ∧ cs = c :: rest := by
  cases x with
  | error e => cases h
  | ok rest => exact ⟨rest, rfl, (Except.ok.inj h).symm⟩

/-- Bytes that are read as a text are its own. -/
theorem encodeUtf8_of_decodeUtf8 {bytes : List UInt8} {cs : List Char}
    (h : decodeUtf8 i bytes = .ok cs) :
    encodeUtf8 cs = bytes := by
  fun_induction decodeUtf8 i bytes generalizing cs with
  | case1 =>
    rw [← Except.ok.inj h]
    rfl
  | case2 i a r hwidth ih =>
    obtain ⟨rest, hr, rfl⟩ := map_cons_eq_ok h
    rw [encodeUtf8_cons, ih hr, utf8EncodeChar_one (utf8Width_eq_one hwidth)]
    rfl
  | case4 i a hwidth b r hb ih =>
    obtain ⟨rest, hr, rfl⟩ := map_cons_eq_ok h
    rw [encodeUtf8_cons, ih hr]
    exact congrArg (· ++ r) (utf8EncodeChar_two (utf8Width_eq_two hwidth) (isContinuation_iff.1 hb))
  | case10 i a hwidth b d r hb hd ih =>
    obtain ⟨rest, hr, rfl⟩ := map_cons_eq_ok h
    rw [encodeUtf8_cons, ih hr]
    exact congrArg (· ++ r) (utf8EncodeChar_three (utf8Width_eq_three hwidth) (by simpa using hb)
      (isContinuation_iff.1 (by simpa using hd)))
  | case17 i a hwidth b d e r hb hd he ih =>
    obtain ⟨rest, hr, rfl⟩ := map_cons_eq_ok h
    rw [encodeUtf8_cons, ih hr]
    exact congrArg (· ++ r) (utf8EncodeChar_four (utf8Width_eq_four hwidth) (by simpa using hb)
      (isContinuation_iff.1 (by simpa using hd)) (isContinuation_iff.1 (by simpa using he)))
  | _ => cases h

theorem decodeUtf8_eq_ok {bytes : List UInt8} {cs : List Char} :
    decodeUtf8 i bytes = .ok cs ↔ bytes = encodeUtf8 cs :=
  ⟨fun h => (encodeUtf8_of_decodeUtf8 h).symm, fun h => h ▸ decodeUtf8_encodeUtf8 i cs⟩

theorem encodeUtf8_append (cs ds : List Char) :
    encodeUtf8 (cs ++ ds) = encodeUtf8 cs ++ encodeUtf8 ds :=
  List.flatMap_append

/-- The bytes of a character that takes more than one are no ASCII bytes. -/
theorem mem_utf8EncodeChar {n : Nat} (hn : n < 0x80) :
    UInt8.ofNat n ∈ String.utf8EncodeChar c ↔ c.toNat = n := by
  have hval : c.val.toNat = c.toNat := rfl
  have same : ∀ m : Nat, m < 256 → (UInt8.ofNat n = UInt8.ofNat m ↔ n = m) := by
    intro m hm
    rw [← UInt8.toNat_inj, UInt8.toNat_ofNat_of_lt' (Nat.lt_trans hn (by decide)),
      UInt8.toNat_ofNat_of_lt' hm]
  have large : ∀ m k : Nat, m < 64 → 0x80 ≤ k → k + m < 256 →
      ¬ UInt8.ofNat n = UInt8.ofNat (m + k) := by
    intro m k _ _ _
    rw [same _ (by omega)]
    omega
  simp only [String.utf8EncodeChar, hval]
  split
  · rw [List.mem_singleton, same _ (by omega), eq_comm]
  · have two := large (c.toNat / 64 % 32) 192 (by omega) (by omega) (by omega)
    have three := large (c.toNat / 4096 % 16) 224 (by omega) (by omega) (by omega)
    have four := large (c.toNat / 262144 % 8) 240 (by omega) (by omega) (by omega)
    have tail : ∀ m, ¬ UInt8.ofNat n = UInt8.ofNat (m % 64 + 128) :=
      fun m => large (m % 64) 128 (by omega) (by omega) (by omega)
    have hc : ¬ c.toNat = n := by omega
    split
    · simp only [List.mem_cons, List.not_mem_nil, two, tail, hc, or_self]
    · split <;> simp only [List.mem_cons, List.not_mem_nil, three, four, tail, hc, or_self]

/-- An ASCII character is in the text when its byte is in the bytes. -/
theorem mem_encodeUtf8 {cs : List Char} (hc : c.toNat < 0x80) :
    UInt8.ofNat c.toNat ∈ encodeUtf8 cs ↔ c ∈ cs := by
  rw [encodeUtf8, List.mem_flatMap]
  constructor
  · rintro ⟨d, hd, h⟩
    exact Char.toNat_inj.1 ((mem_utf8EncodeChar hc).1 h) ▸ hd
  · exact fun h => ⟨c, h, (mem_utf8EncodeChar hc).2 rfl⟩

end Notifications.Text
