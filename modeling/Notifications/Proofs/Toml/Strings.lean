import Notifications.Proofs.Toml.Scanning
import Notifications.Toml.Printer
/-!
Printed strings read back. Whichever way a string is spelled, the scanner makes one token of it,
with the very characters that were printed.
-/
namespace Notifications.Toml

variable {s s' s'' : ScanState} {c : Char} {cs cs' : List Char} {ts ts' : List Token} {o : Opened}
  {spans : Bool} {k : Nat}

/-- As many quotes in a row may stand in a string as they are. -/
def runLimit (spans : Bool) : Nat := if spans then 2 else 0

theorem runLimit_le (spans : Bool) : runLimit spans ≤ 2 := by cases spans <;> decide

theorem spans_of_lt (h : k < runLimit spans) : spans = true := by
  cases spans with
  | false => exact absurd h (Nat.not_lt_zero k)
  | true => rfl

/-- A string that is open, with some quotes at its end that may belong to it. -/
def held (o : Opened) : Nat → ScanState
  | 0 => .string o .content
  | k + 1 => .string o (.quotes (k + 1))

/-- The quotes belong to the string after all. -/
def Opened.keep (o : Opened) (k : Nat) : Opened :=
  { o with done := List.replicate k o.quote.mark ++ o.done }

theorem Opened.keep_zero (o : Opened) : o.keep 0 = o := rfl

theorem step_held (hk : k ≤ 2) (hc : c ≠ o.quote.mark) :
    scanStep c (held o k) = contentStep (o.keep k) c := by
  cases k with
  | zero => rfl
  | succ k =>
    have hlt : k + 1 < 3 := by omega
    simp only [held, scanStep, stringStep, beq_false_of_ne hc, Bool.false_eq_true, if_false, hlt,
      if_true]
    rfl

theorem step_held_mark (h : o.spans = true) (hk : k < 5) :
    scanStep o.quote.mark (held o k) = some ([], held o (k + 1)) := by
  cases k with
  | zero => simp [held, scanStep, stringStep, contentStep, h]
  | succ k => simp [held, scanStep, stringStep, hk]

theorem contentStep_plain (hmark : c ≠ o.quote.mark) (hescape : c ≠ '\\' ∨ o.quote = .literal)
    (hc : isPlain c = true ∨ o.spans = true ∧ c = '\n') :
    contentStep o c = some ([], .string (o.push c) .content) := by
  have hback : (c == '\\' && o.quote == .basic) = false := by
    rcases hescape with h | h
    · simp [h]
    · simp [h]
  rw [contentStep, beq_false_of_ne hmark, hback]
  rcases hc with hplain | ⟨hspans, rfl⟩
  · have hnewline : c ≠ '\n' := by
      rintro rfl
      cases hplain
    have hreturn : c ≠ '\r' := by
      rintro rfl
      cases hplain
    simp [beq_false_of_ne hnewline, beq_false_of_ne hreturn, hplain]
  · simp [hspans]

theorem hexValue?_hexDigit (n : Nat) : Text.hexValue? (hexDigit n) = some (n % 16) := by
  have hdigits : ∀ m < 16, Text.hexValue? (Nat.digitChar m).toUpper = some m := by decide
  exact hdigits (n % 16) (Nat.mod_lt n (by decide))

theorem charOf?_toNat (c : Char) : charOf? c.toNat = some c := by
  have hvalid : c.toNat.isValidChar := c.valid
  rw [charOf?, if_pos hvalid, Char.ofNat_toNat]

theorem contentStep_backslash (h : o.quote = .basic) :
    contentStep o '\\' = some ([], .string o .escape) := by
  simp [contentStep, h, Quote.mark]

/-- A short escape stands for its character. -/
theorem scans_shortEscape (h : o.quote = .basic) {d : Char} (hd : shortEscape? d = some c) :
    Scans (.string o .content) ['\\', d] [] (.string (o.push c) .content) := by
  have hstep : escapeStep o d = some ([], .string (o.push c) .content) := by
    have hne : d ≠ 'u' ∧ d ≠ 'U' ∧ d ≠ ' ' ∧ d ≠ '\t' ∧ d ≠ '\n' ∧ d ≠ '\r' := by
      refine ⟨?_, ?_, ?_, ?_, ?_, ?_⟩ <;> (rintro rfl; cases hd)
    simp [escapeStep, hne, hd]
  exact .goOn (contentStep_backslash h) (.single hstep)

/-- A character spelled by the four digits of its code. -/
theorem scans_hexEscape (h : o.quote = .basic) (hc : c.toNat < 256) :
    Scans (.string o .content) ['\\', 'u', '0', '0', hexDigit (c.toNat / 16), hexDigit c.toNat] []
      (.string (o.push c) .content) := by
  have hhigh := hexValue?_hexDigit (c.toNat / 16)
  have hlow := hexValue?_hexDigit c.toNat
  have hcode : c.toNat / 16 % 16 * 16 + c.toNat % 16 = c.toNat := by omega
  have hzero : Text.hexValue? '0' = some 0 := rfl
  have hstart : scanStep 'u' (.string o .escape) = some ([], .string o (.hex 4 0)) := rfl
  have hfirst : scanStep '0' (.string o (.hex 4 0)) = some ([], .string o (.hex 3 0)) := by
    simp [scanStep, stringStep, hzero]
  have hsecond : scanStep '0' (.string o (.hex 3 0)) = some ([], .string o (.hex 2 0)) := by
    simp [scanStep, stringStep, hzero]
  have hthird : scanStep (hexDigit (c.toNat / 16)) (.string o (.hex 2 0)) =
      some ([], .string o (.hex 1 (c.toNat / 16 % 16))) := by
    simp [scanStep, stringStep, hhigh]
  have hlast : scanStep (hexDigit c.toNat) (.string o (.hex 1 (c.toNat / 16 % 16))) =
      some ([], .string (o.push c) .content) := by
    simp [scanStep, stringStep, hlow, hcode, charOf?_toNat]
  exact .goOn (contentStep_backslash h)
    (.goOn hstart (.goOn hfirst (.goOn hsecond (.goOn hthird (.single hlast)))))

theorem isPlain_of_not_isControl (h : isControl c = false) : isPlain c = true := by
  simp only [isControl, Bool.or_eq_false_iff, decide_eq_false_iff_not, Nat.not_lt,
    beq_eq_false_iff_ne] at h
  simp [isPlain, h]

/-- A character that is no quote standing as it is reads as itself, in whatever way it is
escaped. -/
theorem scans_escaped (h : o.quote = .basic) (hquote : c = '"' → runLimit o.spans ≤ k) :
    Scans (.string o .content) (escaped o.spans k c) [] (.string (o.push c) .content) := by
  rw [escaped]
  split
  · rename_i hc
    subst hc
    have hrun : (if o.spans then 2 else 0) ≤ k := hquote rfl
    rw [if_pos hrun]
    exact scans_shortEscape h rfl
  rename_i hmark
  split
  · rename_i hc
    subst hc
    exact scans_shortEscape h rfl
  rename_i hescape
  split
  · rename_i hc
    subst hc
    exact scans_shortEscape h rfl
  split
  · rename_i hc
    subst hc
    exact scans_shortEscape h rfl
  split
  · rename_i hc
    subst hc
    split
    · rename_i hspans
      exact .single (contentStep_plain (by simp [h, Quote.mark]) (.inl (by decide))
        (.inr ⟨hspans, rfl⟩))
    · exact scans_shortEscape h rfl
  split
  · rename_i hc
    subst hc
    exact scans_shortEscape h rfl
  split
  · rename_i hc
    subst hc
    exact scans_shortEscape h rfl
  split
  · rename_i hcontrol
    refine scans_hexEscape h ?_
    simp only [isControl, Bool.or_eq_true, decide_eq_true_eq, beq_iff_eq] at hcontrol
    omega
  · rename_i hcontrol
    have hplain : isPlain c = true := isPlain_of_not_isControl (by simpa using hcontrol)
    exact .single (contentStep_plain (by simpa [h, Quote.mark] using hmark) (.inl hescape)
      (.inl hplain))

/-- A chunk of characters that begins with no quote is read as well behind quotes that belong to the
string. -/
theorem Scans.of_keep (hk : k ≤ 2) (hc : c ≠ o.quote.mark)
    (h : Scans (.string (o.keep k) .content) (c :: cs) ts s) : Scans (held o k) (c :: cs) ts s := by
  have hstep : scanStep c (held o k) = scanStep c (.string (o.keep k) .content) := step_held hk hc
  exact h.of_step_eq hstep

/-- What is printed of a character begins with a backslash, unless the character stands as it is. -/
theorem head_escaped (spans : Bool) (k : Nat) (c : Char) : ∃ d r, escaped spans k c = d :: r ∧
    (d = '\\' ∨ d = c ∧ c ≠ '\r' ∧ (c = '"' → k < runLimit spans)) := by
  rw [escaped]
  split
  · rename_i hc
    by_cases hrun : (if spans then 2 else 0) ≤ k
    · rw [if_pos hrun]
      exact ⟨_, _, rfl, .inl rfl⟩
    · rw [if_neg hrun]
      exact ⟨_, _, rfl, .inr ⟨hc.symm, by simp [hc], fun _ => Nat.lt_of_not_le hrun⟩⟩
  rename_i hmark
  split
  · exact ⟨_, _, rfl, .inl rfl⟩
  split
  · exact ⟨_, _, rfl, .inl rfl⟩
  split
  · exact ⟨_, _, rfl, .inl rfl⟩
  split
  · rename_i hc
    split
    · exact ⟨_, _, rfl, .inr ⟨hc.symm, by simp [hc], fun h => absurd h hmark⟩⟩
    · exact ⟨_, _, rfl, .inl rfl⟩
  split
  · exact ⟨_, _, rfl, .inl rfl⟩
  split
  · exact ⟨_, _, rfl, .inl rfl⟩
  rename_i hreturn
  split
  · exact ⟨_, _, rfl, .inl rfl⟩
  · exact ⟨_, _, rfl, .inr ⟨rfl, hreturn, fun h => absurd h hmark⟩⟩

theorem escapeAll_quote (h : k < runLimit spans) (cs : List Char) :
    escapeAll spans k ('"' :: cs) = '"' :: escapeAll spans (k + 1) cs := by
  have hraw : escaped spans k '"' = ['"'] := by
    rw [escaped, if_pos rfl]
    exact if_neg (Nat.not_le.2 h)
  have hcount : '"' = '"' ∧ k < (if spans then 2 else 0) := ⟨rfl, h⟩
  rw [escapeAll, if_pos hcount, hraw]
  rfl

theorem escapeAll_other (h : ¬ (c = '"' ∧ k < runLimit spans)) (cs : List Char) :
    escapeAll spans k (c :: cs) = escaped spans k c ++ escapeAll spans 0 cs := by
  have hcount : ¬ (c = '"' ∧ k < (if spans then 2 else 0)) := h
  rw [escapeAll, if_neg hcount]

/-- The content of a string in double quotes. -/
theorem scans_escapeAll (spans : Bool) (cs done : List Char) (hk : k ≤ runLimit spans) :
    ∃ done' k', k' ≤ runLimit spans ∧
      List.replicate k' '"' ++ done' = cs.reverse ++ (List.replicate k '"' ++ done) ∧
      Scans (held ⟨.basic, spans, done⟩ k) (escapeAll spans k cs) []
        (held ⟨.basic, spans, done'⟩ k') := by
  induction cs generalizing done k with
  | nil => exact ⟨done, k, hk, rfl, .nil⟩
  | cons c cs ih =>
    have hlimit := runLimit_le spans
    by_cases hquote : c = '"' ∧ k < runLimit spans
    · obtain ⟨rfl, hlt⟩ := hquote
      obtain ⟨done', k', hk', hdone, hscans⟩ := ih done (k := k + 1) hlt
      have hspans : spans = true := spans_of_lt hlt
      refine ⟨done', k', hk', ?_, ?_⟩
      · rw [hdone]
        simp [List.replicate_succ]
      · rw [escapeAll_quote hlt]
        exact .goOn (step_held_mark (o := ⟨.basic, spans, done⟩) hspans (by omega)) hscans
    · obtain ⟨done', k', hk', hdone, hscans⟩ :=
        ih (c :: (List.replicate k '"' ++ done)) (Nat.zero_le _)
      refine ⟨done', k', hk', ?_, ?_⟩
      · rw [hdone]
        simp
      · obtain ⟨d, r, hd, hhead⟩ := head_escaped spans k c
        have hmark : d ≠ '"' := by
          rintro rfl
          rcases hhead with hback | ⟨hc, -, hlt⟩
          · cases hback
          · exact hquote ⟨hc.symm, hlt hc.symm⟩
        have hchunk :
            Scans (.string (Opened.keep ⟨.basic, spans, done⟩ k) .content) (escaped spans k c) []
            (held ⟨.basic, spans, c :: (List.replicate k '"' ++ done)⟩ 0) :=
          scans_escaped rfl fun hc => Nat.le_of_not_lt fun hlt => hquote ⟨hc, hlt⟩
        rw [escapeAll_other hquote]
        refine Scans.goOnAll ?_ hscans
        rw [hd] at hchunk ⊢
        exact hchunk.of_keep (Nat.le_trans hk hlimit) hmark

theorem le_longestRun (c : Char) (now : Nat) (cs : List Char) : now ≤ longestRun c now cs := by
  induction cs generalizing now with
  | nil => exact Nat.le_refl _
  | cons d cs ih =>
    rw [longestRun]
    split
    · exact Nat.le_of_succ_le (ih (now + 1))
    · exact Nat.le_max_left _ _

/-- A character that a string in single quotes can hold. -/
def isLiteral (spans : Bool) (c : Char) : Bool := isPlain c || (spans && c == '\n')

/-- The content of a string in single quotes. -/
theorem scans_literal (spans : Bool) (cs done : List Char)
    (hrun : longestRun '\'' k cs ≤ runLimit spans)
    (hcs : cs.all (isLiteral spans) = true) :
    ∃ done' k', k' ≤ runLimit spans ∧
      List.replicate k' '\'' ++ done' = cs.reverse ++ (List.replicate k '\'' ++ done) ∧
      Scans (held ⟨.literal, spans, done⟩ k) cs [] (held ⟨.literal, spans, done'⟩ k') := by
  induction cs generalizing done k with
  | nil => exact ⟨done, k, hrun, rfl, .nil⟩
  | cons c cs ih =>
    have hlimit := runLimit_le spans
    rw [List.all_cons, Bool.and_eq_true] at hcs
    rw [longestRun] at hrun
    by_cases hquote : c = '\''
    · subst hquote
      rw [if_pos rfl] at hrun
      obtain ⟨done', k', hk', hdone, hscans⟩ := ih done hrun hcs.2
      have hlt : k + 1 ≤ runLimit spans := Nat.le_trans (le_longestRun _ _ _) hrun
      have hspans : spans = true := spans_of_lt hlt
      refine ⟨done', k', hk', ?_, ?_⟩
      · rw [hdone]
        simp [List.replicate_succ]
      · exact .goOn (step_held_mark (o := ⟨.literal, spans, done⟩) hspans (by omega)) hscans
    · rw [if_neg hquote, Nat.max_le] at hrun
      obtain ⟨done', k', hk', hdone, hscans⟩ :=
        ih (c :: (List.replicate k '\'' ++ done)) hrun.2 hcs.2
      refine ⟨done', k', hk', ?_, ?_⟩
      · rw [hdone]
        simp
      · have hstep := step_held (o := ⟨.literal, spans, done⟩) (Nat.le_trans hrun.1 hlimit) hquote
        have hc : isPlain c = true ∨ spans = true ∧ c = '\n' := by simpa [isLiteral] using hcs.1
        rw [contentStep_plain hquote (.inr rfl) hc] at hstep
        exact .goOn hstep hscans

/-- A character that stands behind a string begins other tokens. -/
structure Follows (q : Quote) (c : Char) (ts : List Token) (s : ScanState) : Prop where
  ne_mark : c ≠ q.mark
  start : startToken c = some (ts, s)

theorem follows_newline (q : Quote) : Follows q '\n' [.newline] .between :=
  ⟨by cases q <;> decide, rfl⟩

theorem follows_space (q : Quote) : Follows q ' ' [.space] .between := ⟨by cases q <;> decide, rfl⟩

/-- The token of a string that ends with the quotes held. -/
theorem token_of_done (spans : Bool) {q : Quote} {done : List Char}
    (h : List.replicate k q.mark ++ done = cs.reverse) :
    (Opened.keep ⟨q, spans, done⟩ k).token = .text spans (String.ofList cs) := by
  rw [Opened.token]
  simp only [Opened.keep, h, List.reverse_reverse]

/-- Behind the closing quotes the next token begins. -/
theorem scans_close {q : Quote} {done : List Char} (hc : Follows q c ts s)
    (h : List.replicate k q.mark ++ done = cs.reverse) (hk : k ≤ runLimit spans) :
    Scans (held ⟨q, spans, done⟩ k) (List.replicate (if spans then 3 else 1) q.mark ++ [c])
      (.text spans (String.ofList cs) :: ts) s := by
  have htoken := token_of_done spans h
  cases spans with
  | false =>
    obtain rfl : k = 0 := Nat.le_zero.1 hk
    have hclose : scanStep q.mark (held ⟨q, false, done⟩ 0) =
        some ([.text false (String.ofList cs)], .between) := by
      rw [← htoken]
      simp [held, scanStep, stringStep, contentStep, Opened.keep_zero]
    exact .cons hclose (.single hc.start)
  | true =>
    have hk : k ≤ 2 := hk
    let o : Opened := ⟨q, true, done⟩
    have hend : scanStep c (held o (k + 3)) = some (.text true (String.ofList cs) :: ts, s) := by
      have hmark : (c == o.quote.mark) = false := beq_false_of_ne hc.ne_mark
      have hlong : ¬ k + 3 < 3 := by omega
      rw [← htoken]
      simp only [held, scanStep, stringStep, hmark, hlong, startAfter, hc.start]
      rfl
    exact .goOn (step_held_mark (o := o) rfl (by omega))
      (.goOn (step_held_mark (o := o) rfl (by omega))
      (.goOn (step_held_mark (o := o) rfl (by omega)) (.single hend)))

namespace Spelling

variable {s : Spelling}

/-- The characters can be spelled so. Whatever has escapes can spell all. -/
def Fits (s : Spelling) (cs : List Char) : Prop :=
  s.quote = .literal → longestRun '\'' 0 cs ≤ runLimit s.spans ∧ cs.all (isLiteral s.spans) = true

/-- What stands between the quotes. -/
def content (s : Spelling) (cs : List Char) : List Char :=
  match s.quote with
  | .basic => escapeAll s.spans 0 cs
  | .literal => cs

theorem print_line (q : Quote) (cs : List Char) :
    print ⟨q, false⟩ cs = q.mark :: (content ⟨q, false⟩ cs ++ [q.mark]) := rfl

theorem print_lines (q : Quote) (cs : List Char) : print ⟨q, true⟩ cs =
    q.mark :: q.mark :: q.mark :: ((if '\n' ∈ cs then ['\n'] else []) ++
      (content ⟨q, true⟩ cs ++ [q.mark, q.mark, q.mark])) := by
  have hprint : print ⟨q, true⟩ cs = [q.mark, q.mark, q.mark] ++
      (if cs.contains '\n' then ['\n'] else []) ++ content ⟨q, true⟩ cs ++
        [q.mark, q.mark, q.mark] := rfl
  rw [hprint]
  simp

theorem scans_content (h : s.Fits cs) : ∃ done k, k ≤ runLimit s.spans ∧
    List.replicate k s.quote.mark ++ done = cs.reverse ∧
    Scans (held ⟨s.quote, s.spans, []⟩ 0) (s.content cs) [] (held ⟨s.quote, s.spans, done⟩ k) := by
  obtain ⟨q, spans⟩ := s
  cases q with
  | basic =>
    obtain ⟨done, k, hk, hdone, hscans⟩ := scans_escapeAll spans cs [] (Nat.zero_le _)
    exact ⟨done, k, hk, hdone.trans (List.append_nil _), hscans⟩
  | literal =>
    obtain ⟨hrun, hcs⟩ := h rfl
    obtain ⟨done, k, hk, hdone, hscans⟩ := scans_literal spans cs [] hrun hcs
    exact ⟨done, k, hk, hdone.trans (List.append_nil _), hscans⟩

/-- The content begins with no quote where one would end it, and breaks the line only with the
text. -/
theorem head_content (h : s.Fits (c :: cs)) : ∃ d r, s.content (c :: cs) = d :: r ∧ d ≠ '\r' ∧
    (d = '\n' → c = '\n') ∧ (s.spans = false → d ≠ s.quote.mark) := by
  obtain ⟨q, spans⟩ := s
  cases q with
  | basic =>
    obtain ⟨d, r, hd, hhead⟩ := head_escaped spans 0 c
    have hcontent : content ⟨.basic, spans⟩ (c :: cs) = d :: (r ++ escapeAll spans
        (if c = '"' ∧ 0 < (if spans then 2 else 0) then 0 + 1 else 0) cs) := by
      show escapeAll spans 0 (c :: cs) = _
      rw [escapeAll, hd]
      rfl
    refine ⟨d, _, hcontent, ?_⟩
    rcases hhead with rfl | ⟨rfl, hreturn, hquote⟩
    · exact ⟨by decide, fun h => absurd h (by decide), fun _ => (by decide : '\\' ≠ '"')⟩
    · refine ⟨hreturn, id, ?_⟩
      rintro rfl hmark
      exact absurd (hquote hmark) (by decide)
  | literal =>
    obtain ⟨hrun, hcs⟩ := h rfl
    rw [List.all_cons, Bool.and_eq_true] at hcs
    refine ⟨c, cs, rfl, ?_, id, ?_⟩
    · rintro rfl
      cases spans <;> exact absurd hcs.1 (by decide)
    · intro hspans hmark
      have hquote : c = '\'' := hmark
      have hspans : spans = false := hspans
      rw [longestRun, if_pos hquote, hspans] at hrun
      exact absurd (Nat.le_trans (le_longestRun _ _ _) hrun) (by decide)

theorem step_mark (q : Quote) : scanStep q.mark .between = some ([], .quote q) := by cases q <;> rfl

theorem step_second_mark (q : Quote) : scanStep q.mark (.quote q) = some ([], .twoQuotes q) := by
  simp [scanStep]

theorem step_third_mark (q : Quote) :
    scanStep q.mark (.twoQuotes q) = some ([], .string ⟨q, true, []⟩ .first) := by simp [scanStep]

theorem scans_empty {q : Quote} {next : ScanState} (hc : Follows q c ts next) :
    Scans .between [q.mark, q.mark, c] (.text false "" :: ts) next := by
  have hend : scanStep c (.twoQuotes q) = some (.text false "" :: ts, next) := by
    simp [scanStep, hc.ne_mark, startAfter, hc.start]
  exact .goOn (step_mark q) (.goOn (step_second_mark q) (.single hend))

/-- A string that spans no lines is entered by one quote. -/
theorem scans_print_line {q : Quote} {next : ScanState} {e : Char} (he : Follows q e ts next)
    (h : Fits ⟨q, false⟩ (c :: cs)) : Scans .between (print ⟨q, false⟩ (c :: cs) ++ [e])
      (.text false (String.ofList (c :: cs)) :: ts) next := by
  obtain ⟨done, k, hk, hdone, hscans⟩ := scans_content h
  obtain ⟨d, r, hd, -, -, hmark⟩ := head_content h
  have hinside := hscans.goOnAll (scans_close he hdone hk)
  have henter : scanStep d (.quote q) = scanStep d (held ⟨q, false, []⟩ 0) := by
    simp [scanStep, held, stringStep, beq_false_of_ne (hmark rfl)]
  rw [print_line, hd]
  rw [hd] at hinside
  have hall : Scans .between (q.mark :: (d :: r ++ ([q.mark] ++ [e]))) _ next :=
    .goOn (step_mark q) (hinside.of_step_eq henter)
  simpa using hall

/-- Behind the opening quotes of a text without line breaks there is none either. -/
theorem head_lines {q : Quote} (h : Fits ⟨q, true⟩ cs) (hnewline : '\n' ∉ cs) (e : Char) : ∃ d r,
    content ⟨q, true⟩ cs ++ ([q.mark, q.mark, q.mark] ++ [e]) = d :: r ∧ d ≠ '\r' ∧ d ≠ '\n' := by
  cases cs with
  | nil =>
    have hcontent : content ⟨q, true⟩ [] = [] := by cases q <;> rfl
    rw [hcontent]
    exact ⟨q.mark, [q.mark, q.mark, e], rfl, by cases q <;> decide, by cases q <;> decide⟩
  | cons c cs =>
    obtain ⟨d, r, hd, hreturn, hbreak, -⟩ := head_content h
    rw [hd]
    refine ⟨d, _, List.cons_append, hreturn, fun hc => hnewline ?_⟩
    rw [hbreak hc]
    exact List.mem_cons_self

/-- A string that may span lines is entered by three quotes, and a line break behind them is not
part of it. -/
theorem scans_print_lines {q : Quote} {next : ScanState} (hc : Follows q c ts next)
    (h : Fits ⟨q, true⟩ cs) :
    Scans .between (print ⟨q, true⟩ cs ++ [c]) (.text true (String.ofList cs) :: ts) next := by
  obtain ⟨done, k, hk, hdone, hscans⟩ := scans_content h
  let rest := content ⟨q, true⟩ cs ++ ([q.mark, q.mark, q.mark] ++ [c])
  have hinside : Scans (held ⟨q, true, []⟩ 0) rest (.text true (String.ofList cs) :: ts) next :=
    hscans.goOnAll (scans_close hc hdone hk)
  have hfirst : Scans (.string ⟨q, true, []⟩ .first) ((if '\n' ∈ cs then ['\n'] else []) ++ rest)
      (.text true (String.ofList cs) :: ts) next := by
    by_cases hnewline : '\n' ∈ cs
    · rw [if_pos hnewline]
      have hskip : scanStep '\n' (.string ⟨q, true, []⟩ .first) = some ([], held ⟨q, true, []⟩ 0) :=
        rfl
      exact .goOn hskip hinside
    · have hhead : ∃ d r, rest = d :: r ∧ d ≠ '\r' ∧ d ≠ '\n' := head_lines h hnewline c
      obtain ⟨d, r, hd, hreturn, hbreak⟩ := hhead
      have henter : scanStep d (.string ⟨q, true, []⟩ .first) =
          scanStep d (held ⟨q, true, []⟩ 0) := by
        simp [scanStep, held, stringStep, hreturn, hbreak]
      rw [if_neg hnewline, List.nil_append, hd]
      rw [hd] at hinside
      exact hinside.of_step_eq henter
  have hall :=
    Scans.goOn (step_mark q) (.goOn (step_second_mark q) (.goOn (step_third_mark q) hfirst))
  rw [print_lines]
  simpa [rest] using hall

theorem scans_print {next : ScanState} (hc : Follows s.quote c ts next) (h : s.Fits cs) :
    Scans .between (s.print cs ++ [c]) (.text s.spans (String.ofList cs) :: ts) next := by
  obtain ⟨q, spans⟩ := s
  cases spans with
  | true => exact scans_print_lines hc h
  | false =>
    cases cs with
    | nil =>
      have hcontent : content ⟨q, false⟩ [] = [] := by cases q <;> rfl
      rw [print_line, hcontent]
      exact scans_empty hc
    | cons d cs => exact scans_print_line hc h

end Spelling

theorem isLiteral_of_printable (h : isUnprintable c = false) (hnewline : spans = true ∨ c ≠ '\n') :
    isLiteral spans c = true := by
  by_cases hbreak : c = '\n'
  · subst hbreak
    simp [isLiteral, hnewline.resolve_right (by simp)]
  · by_cases htab : c = '\t'
    · subst htab
      rfl
    · have hcontrol : isControl c = false := by simpa [isUnprintable, hbreak, htab] using h
      simp [isLiteral, isPlain_of_not_isControl hcontrol]

theorem all_isLiteral (hprintable : (Traits.ofChars cs).unprintable = false)
    (hnewline : spans = true ∨ (Traits.ofChars cs).newline = false) :
    cs.all (isLiteral spans) = true := by
  rw [List.all_eq_true]
  intro c hc
  have hc' : isUnprintable c = false := by
    simp only [Traits.ofChars, List.any_eq_false] at hprintable
    simpa using hprintable c hc
  refine isLiteral_of_printable hc' (hnewline.imp_right ?_)
  rintro hnone rfl
  simp [Traits.ofChars, hc] at hnone

/-- The spelling that is chosen for a text is one that it allows. -/
theorem fits_spelling (cs : List Char) : (Traits.ofChars cs).spelling.Fits cs := by
  intro hquote
  rw [Traits.spelling] at hquote ⊢
  split at hquote
  · cases hquote
  rename_i hprintable
  split at hquote
  · cases hquote
  split at hquote
  · rename_i hplain hone
    simp only [hprintable, hplain, hone]
    simp only [Bool.and_eq_true, decide_eq_true_eq, Bool.not_eq_true'] at hone
    exact ⟨Nat.le_of_eq hone.1, all_isLiteral (by simpa using hprintable) (.inr hone.2)⟩
  split at hquote
  · cases hquote
  split at hquote
  · rename_i hplain hone hlong hthree
    simp only [hprintable, hplain, hone, hlong, hthree]
    exact ⟨hthree, all_isLiteral (by simpa using hprintable) (.inl rfl)⟩
  · cases hquote

/-- A printed text at the end of a line reads as one token, which is the text. -/
theorem scans_printText (s : String) : ∃ spans, Scans .between (printText s ++ ['\n'])
    [.text spans s, .newline] .between := by
  have hscans := Spelling.scans_print (follows_newline _) (fits_spelling s.toList)
  rw [String.ofList_toList] at hscans
  exact ⟨_, hscans⟩

theorem fits_keySpelling (cs : List Char) :
    Spelling.Fits ⟨(Traits.ofChars cs).keySpelling, false⟩ cs := by
  rintro (hquote : (Traits.ofChars cs).keySpelling = .literal)
  rw [Traits.keySpelling] at hquote
  split at hquote
  · rename_i hplain
    simp only [Bool.and_eq_true, Bool.not_eq_true', decide_eq_true_eq] at hplain
    obtain ⟨⟨⟨hprintable, hnewline⟩, -⟩, hsingle⟩ := hplain
    exact ⟨Nat.le_of_eq hsingle, all_isLiteral hprintable (.inr hnewline)⟩
  · cases hquote

end Notifications.Toml
