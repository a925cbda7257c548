import Notifications.Json.Printer
/-!
Strings in a JSON text. A whole string is scanned, in any way to write it, as the token it was
written from, and holds no control character as it is printed. Texts are spelled by strings in many
ways, and each such string reads as the text; one of them is the string that is printed for it.
-/
namespace Notifications.Json

open Text (hexValue?)

variable {p : Piece} {q : Quoted} {pieces done : List Piece} {cs r : List Char}

/-- The letters of the short escapes, with the characters they stand for. -/
def shortEscapes : List (Char × Char) :=
  [('"', '"'), ('\\', '\\'), ('/', '/'), ('b', '\x08'), ('f', '\x0c'), ('n', '\n'), ('r', '\r'),
    ('t', '\t')]

/-- A hexadecimal digit, in either case. -/
def HexDigit (d : Nat) (c : Char) : Prop := c = d.digitChar ∨ c = d.digitChar.toUpper

/-- The ways to write a piece of a string. -/
inductive Piece.Written : Piece → List Char → Prop
  | plain {c : Char} (hquote : c ≠ '"') (hslash : c ≠ '\\') (hcontrol : 0x20 ≤ c.toNat) :
    Written (.plain c) [c]
  | escape {letter c : Char} (h : (letter, c) ∈ shortEscapes) : Written (.escape c) ['\\', letter]
  | unit {n : Nat} {c₃ c₂ c₁ c₀ : Char} (hn : n < 0x10000) (h₃ : HexDigit (n / 4096 % 16) c₃)
      (h₂ : HexDigit (n / 256 % 16) c₂) (h₁ : HexDigit (n / 16 % 16) c₁)
      (h₀ : HexDigit (n % 16) c₀) :
      Written (.unit n) ['\\', 'u', c₃, c₂, c₁, c₀]

/-- The ways to write pieces one after another. -/
inductive Piece.AllWritten : List Piece → List Char → Prop
  | nil : AllWritten [] []
  | cons {p : Piece} {ps : List Piece} {w cs : List Char} (hp : p.Written w)
    (hps : AllWritten ps cs) :
      AllWritten (p :: ps) (w ++ cs)

/-- The ways to write a string: between quotes, which end it. -/
def Quoted.Written (q : Quoted) (cs : List Char) : Prop :=
  q.ending = .closed ∧ ∃ body, Piece.AllWritten q.pieces body ∧ cs = '"' :: body ++ ['"']

/-- A piece that can be written. -/
def Piece.IsProper : Piece → Prop
  | .plain c => c ≠ '"' ∧ c ≠ '\\' ∧ 0x20 ≤ c.toNat
  | .escape c => ∃ letter, (letter, c) ∈ shortEscapes
  | .unit n => n < 0x10000

structure Quoted.IsWhole (q : Quoted) : Prop where
  closed : q.ending = .closed
  proper : ∀ p ∈ q.pieces, p.IsProper

/-- A case for each short escape. -/
theorem cases_of_mem_shortEscapes {letter c : Char} (h : (letter, c) ∈ shortEscapes) :
    shortEscape? letter = some c ∧ escapeLetter c = letter ∧ isControl letter = false := by
  simp only [shortEscapes, List.mem_cons, Prod.mk.injEq, List.not_mem_nil, or_false] at h
  rcases h with ⟨rfl, rfl⟩ | ⟨rfl, rfl⟩ | ⟨rfl, rfl⟩ | ⟨rfl, rfl⟩ | ⟨rfl, rfl⟩ | ⟨rfl, rfl⟩ |
    ⟨rfl, rfl⟩ | ⟨rfl, rfl⟩ <;> exact ⟨rfl, rfl, rfl⟩

theorem Piece.IsProper.written_chars (hp : p.IsProper) : p.Written p.chars := by
  cases p with
  | plain c =>
    obtain ⟨hquote, hslash, hcontrol⟩ := hp
    exact .plain hquote hslash hcontrol
  | escape c =>
    obtain ⟨letter, h⟩ := hp
    obtain ⟨-, rfl, -⟩ := cases_of_mem_shortEscapes h
    exact .escape h
  | unit n => exact .unit hp (.inl rfl) (.inl rfl) (.inl rfl) (.inl rfl)

theorem Quoted.IsWhole.written_chars (h : q.IsWhole) : q.Written q.chars := by
  obtain ⟨pieces, ending⟩ := q
  obtain ⟨hclosed, hproper⟩ := h
  refine ⟨hclosed, _, ?_, rfl⟩
  clear hclosed
  induction pieces with
  | nil => exact .nil
  | cons p ps ih =>
    rw [List.forall_mem_cons] at hproper
    exact .cons hproper.1.written_chars (ih hproper.2)

/-! ### Scanning -/

theorem hexDigit_value {d : Nat} (hd : d < 16) {c : Char} (h : HexDigit d c) :
    hexValue? c = some d ∧ c.utf8Size = 1 := by
  have hdigits : ∀ d < 16, (hexValue? d.digitChar = some d ∧ d.digitChar.utf8Size = 1) ∧
      hexValue? d.digitChar.toUpper = some d ∧ d.digitChar.toUpper.utf8Size = 1 := by decide
  rcases h with rfl | rfl
  · exact (hdigits d hd).1
  · exact (hdigits d hd).2

theorem scan_hexDigit {d bytes code : Nat} (hd : d < 16) {c : Char} (hc : HexDigit d c) :
    scan (.hex done bytes (some code)) (c :: r) =
      if bytes + 1 < 4 then scan (.hex done (bytes + 1) (some (code * 16 + d))) r
      else scan (.string (.unit (code * 16 + d) :: done)) r := by
  obtain ⟨hvalue, hsize⟩ := hexDigit_value hd hc
  have hstep : hexStep done bytes (some code) c =
      if bytes + 1 < 4 then .next (.hex done (bytes + 1) (some (code * 16 + d)))
      else .next (.string (.unit (code * 16 + d) :: done)) := by
    simp only [hexStep, hvalue, hsize]
    rfl
  by_cases h : bytes + 1 < 4 <;> simp only [scan, hstep, h, if_true, if_false]

theorem Piece.Written.scan_eq (hp : p.Written cs) :
    scan (.string done) (cs ++ r) = scan (.string (p :: done)) r := by
  cases hp with
  | plain hquote hslash hcontrol => simp [scan, hquote, hslash]
  | @escape letter c h =>
    obtain ⟨hvalue, -, -⟩ := cases_of_mem_shortEscapes h
    have hletter : letter ≠ 'u' := by
      rintro rfl
      cases hvalue
    simp [scan, hletter, hvalue]
  | @unit n c₃ c₂ c₁ c₀ hn h₃ h₂ h₁ h₀ =>
    have hcode : (((0 * 16 + n / 4096 % 16) * 16 + n / 256 % 16) * 16 + n / 16 % 16) * 16 + n % 16 =
        n := by
      omega
    have hdigit : ∀ k, k % 16 < 16 := fun k => Nat.mod_lt k (by decide)
    have hstart : ∀ cs, scan (.string done) ('\\' :: 'u' :: cs) = scan (.hex done 0 (some 0)) cs :=
      fun cs => rfl
    simp only [List.cons_append, List.nil_append, hstart]
    rw [scan_hexDigit (hdigit _) h₃, if_pos (by decide), scan_hexDigit (hdigit _) h₂,
      if_pos (by decide), scan_hexDigit (hdigit _) h₁, if_pos (by decide),
      scan_hexDigit (hdigit _) h₀, if_neg (by decide), hcode]

theorem Piece.AllWritten.scan_eq (h : AllWritten pieces cs) :
    scan (.string done) (cs ++ r) = scan (.string (pieces.reverse ++ done)) r := by
  induction h generalizing done with
  | nil => rfl
  | cons hp _ ih =>
    rw [List.append_assoc, hp.scan_eq, ih, List.reverse_cons, List.append_assoc]
    rfl

theorem Quoted.Written.scan_eq (h : q.Written cs) (r : List Char) :
    scan .between (cs ++ r) = .string q :: scan .between r := by
  obtain ⟨pieces, ending⟩ := q
  obtain ⟨rfl, body, hbody, rfl⟩ := h
  have start : ∀ r, scan .between ('"' :: r) = scan (.string []) r := fun r => by rw [scan]; rfl
  have finish : ∀ done r, scan (.string done) ('"' :: r) =
      quotedToken done .closed :: scan .between r :=
    fun done r => by rw [scan]; rfl
  rw [List.cons_append, List.cons_append, start, List.append_assoc, hbody.scan_eq,
    List.singleton_append, finish, quotedToken, List.append_nil, List.reverse_reverse]

/-! ### Control characters -/

theorem isControl_digitChar : ∀ d < 16, isControl (Nat.digitChar d) = false := by decide

theorem Piece.IsProper.isControl_chars (hp : p.IsProper) : ∀ c ∈ p.chars, isControl c = false := by
  have hslash : isControl '\\' = false := rfl
  cases p with
  | plain c => simpa [Piece.chars, isControl] using hp.2.2
  | escape c =>
    obtain ⟨letter, h⟩ := hp
    obtain ⟨-, rfl, hletter⟩ := cases_of_mem_shortEscapes h
    simpa [Piece.chars, hslash] using hletter
  | unit n =>
    have hdigit : ∀ k, isControl (Nat.digitChar (k % 16)) = false :=
      fun k => isControl_digitChar _ (Nat.mod_lt k (by decide))
    have hu : isControl 'u' = false := rfl
    simp [Piece.chars, hexUnit, hslash, hu, hdigit]

theorem Quoted.IsWhole.isControl_chars (h : q.IsWhole) : ∀ c ∈ q.chars, isControl c = false := by
  intro c hc
  simp only [Quoted.chars, List.mem_append, List.mem_cons, List.mem_flatMap, List.not_mem_nil,
    or_false] at hc
  rcases hc with (rfl | ⟨p, hp, hc⟩) | rfl
  · rfl
  · exact (h.proper p hp).isControl_chars c hc
  · rfl

/-! ### Texts -/

/-- The characters that pieces spell: each is a piece of its own, but for those beyond the first
plane, which two UTF-16 units may stand for. -/
inductive Piece.Spell : List Piece → List Char → Prop
  | nil : Spell [] []
  | plain {ps : List Piece} {cs : List Char} (c : Char) (h : Spell ps cs) :
    Spell (.plain c :: ps) (c :: cs)
  | escape {ps : List Piece} {cs : List Char} (c : Char) (h : Spell ps cs) :
    Spell (.escape c :: ps) (c :: cs)
  | unit {ps : List Piece} {cs : List Char} (c : Char) (hc : c.toNat < 0x10000) (h : Spell ps cs) :
      Spell (.unit c.toNat :: ps) (c :: cs)
  | pair {ps : List Piece} {cs : List Char} (c : Char) (hc : 0x10000 ≤ c.toNat) (h : Spell ps cs) :
      Spell (.unit (0xD800 + (c.toNat - 0x10000) / 0x400) ::
        .unit (0xDC00 + (c.toNat - 0x10000) % 0x400) :: ps) (c :: cs)

/-- The string is a way to spell the text. A surrogate without its other half spells nothing. -/
def Quoted.Spells (q : Quoted) (s : String) : Prop := q.IsWhole ∧ Piece.Spell q.pieces s.toList

namespace Quoted

theorem isProper_pieceOf (c : Char) : (pieceOf c).IsProper := by
  rw [pieceOf]
  split
  · rename_i hescape
    refine ⟨escapeLetter c, ?_⟩
    rcases hescape with rfl | rfl | rfl | rfl | rfl | rfl | rfl <;> decide
  · rename_i hescape
    split
    · rename_i hcontrol
      have hsmall : c.toNat < 0x20 := by simpa [isControl] using hcontrol
      exact Nat.lt_trans hsmall (by decide)
    · rename_i hcontrol
      exact ⟨fun h => hescape (by simp [h]), fun h => hescape (by simp [h]),
        by simpa [isControl] using hcontrol⟩

theorem isWhole_ofText (s : String) : (ofText s).IsWhole where
  closed := rfl
  proper := by simp [ofText, isProper_pieceOf]

theorem spell_pieceOf (c : Char) {cs : List Char} (h : Piece.Spell pieces cs) :
    Piece.Spell (pieceOf c :: pieces) (c :: cs) := by
  rw [pieceOf]
  split
  · exact .escape c h
  · split
    · rename_i hcontrol
      have hsmall : c.toNat < 0x20 := by simpa [isControl] using hcontrol
      exact .unit c (Nat.lt_trans hsmall (by decide)) h
    · exact .plain c h

theorem spells_ofText (s : String) : (ofText s).Spells s := by
  refine ⟨isWhole_ofText s, ?_⟩
  rw [ofText]
  induction s.toList with
  | nil => exact .nil
  | cons c cs ih => exact spell_pieceOf c ih

theorem charsOf_of_spell (h : Piece.Spell pieces cs) (hproper : ∀ p ∈ pieces, p.IsProper) :
    charsOf .closed pieces = .ok cs := by
  induction h with
  | nil => rfl
  | plain c _ ih =>
    obtain ⟨⟨-, -, hcontrol⟩, hrest⟩ := List.forall_mem_cons.1 hproper
    have hplain : isControl c = false := by simpa [isControl] using hcontrol
    rw [charsOf, hplain, ih hrest]
    rfl
  | escape c _ ih =>
    rw [charsOf, ih (List.forall_mem_cons.1 hproper).2]
    rfl
  | unit c hc _ ih =>
    have hvalid : c.toNat < 0xD800 ∨ 0xDFFF < c.toNat ∧ c.toNat < 0x110000 := c.valid
    have hleading : isLeading c.toNat = false := by
      simp only [isLeading, Bool.and_eq_false_iff, decide_eq_false_iff_not]
      omega
    have htrailing : isTrailing c.toNat = false := by
      simp only [isTrailing, Bool.and_eq_false_iff, decide_eq_false_iff_not]
      omega
    rw [charsOf.eq_def]
    simp only [htrailing, hleading, Bool.false_eq_true, if_false,
      ih (List.forall_mem_cons.1 hproper).2, Char.ofNat_toNat]
    rfl
  | pair c hc _ ih =>
    have hvalid : c.toNat < 0xD800 ∨ 0xDFFF < c.toNat ∧ c.toNat < 0x110000 := c.valid
    have hleading : isLeading (0xD800 + (c.toNat - 0x10000) / 0x400) = true := by
      simp only [isLeading, Bool.and_eq_true, decide_eq_true_eq]
      omega
    have hbefore : isTrailing (0xD800 + (c.toNat - 0x10000) / 0x400) = false := by
      simp only [isTrailing, Bool.and_eq_false_iff, decide_eq_false_iff_not]
      omega
    have htrailing : isTrailing (0xDC00 + (c.toNat - 0x10000) % 0x400) = true := by
      simp only [isTrailing, Bool.and_eq_true, decide_eq_true_eq]
      omega
    have hjoin : joinSurrogates (0xD800 + (c.toNat - 0x10000) / 0x400)
        (0xDC00 + (c.toNat - 0x10000) % 0x400) = c.toNat := by
      rw [joinSurrogates]
      omega
    have hrest := ih (List.forall_mem_cons.1 (List.forall_mem_cons.1 hproper).2).2
    rw [charsOf]
    simp only [hbefore, hleading, htrailing, Bool.false_eq_true, if_false, if_true, hjoin, hrest,
      Char.ofNat_toNat]
    rfl

theorem Spells.text_eq {s : String} (h : q.Spells s) : q.text = .ok s := by
  obtain ⟨pieces, ending⟩ := q
  obtain ⟨⟨rfl, hproper⟩, hspell⟩ := h
  rw [text, charsOf_of_spell hspell hproper]
  exact congrArg Except.ok String.ofList_toList

theorem text_ofText (s : String) : (ofText s).text = .ok s := (spells_ofText s).text_eq

end Quoted

end Notifications.Json
