import Notifications.Toml.Token
/-!
What the scanner makes of a part of a text, whatever comes behind it. Parts that end between two
tokens can be put one behind the other.
-/
namespace Notifications.Toml

/-- From one state to another some characters are read, and complete some tokens. -/
inductive Scans : ScanState → List Char → List Token → ScanState → Prop
  | nil {s} : Scans s [] [] s
  | cons {s s' s'' c cs ts ts'} (step : scanStep c s = some (ts, s')) (rest : Scans s' cs ts' s'') :
      Scans s (c :: cs) (ts ++ ts') s''

variable {s s' s'' : ScanState} {c : Char} {cs cs' : List Char} {ts ts' : List Token}

namespace Scans

theorem append (h : Scans s cs ts s') (h' : Scans s' cs' ts' s'') :
    Scans s (cs ++ cs') (ts ++ ts') s'' := by
  induction h with
  | nil => exact h'
  | cons step _ ih =>
    rw [List.append_assoc]
    exact .cons step (ih h')

theorem single (h : scanStep c s = some (ts, s')) : Scans s [c] ts s' := by
  have hcons : Scans s [c] (ts ++ []) s' := .cons h .nil
  rwa [List.append_nil] at hcons

/-- The first character goes into a token that is still open. -/
theorem goOn (h : scanStep c s = some ([], s')) (rest : Scans s' cs ts s'') :
    Scans s (c :: cs) ts s'' :=
  .cons h rest

theorem goOnAll (h : Scans s cs [] s') (h' : Scans s' cs' ts s'') : Scans s (cs ++ cs') ts s'' :=
  h.append h'

/-- Only the first step looks at the state before. -/
theorem of_step_eq (h : scanStep c s = scanStep c s') (hscans : Scans s' (c :: cs) ts s'') :
    Scans s (c :: cs) ts s'' := by
  cases hscans with
  | cons step rest => exact .cons (h.trans step) rest

theorem scan_append (h : Scans s cs ts s') (r : List Char) :
    scan s (cs ++ r) = (scan s' r).map (ts ++ ·) := by
  induction h with
  | nil => simp
  | cons step _ ih =>
    rename_i s₁ s₂ s₃ c cs ts ts' _
    rw [List.cons_append, scan, step]
    show (scan s₂ (cs ++ r)).bind (fun us => some (ts ++ us)) = _
    rw [ih, Option.bind_map, Option.map_eq_bind]
    simp only [Function.comp_def, List.append_assoc]

end Scans

theorem isWord_ne {d : Char} (hc : isWord c = true) (hd : isWord d = false) : c ≠ d := by
  rintro rfl
  rw [hc] at hd
  cases hd

theorem startToken_word (h : isWord c = true) : startToken c = some ([], .word [c]) := by
  have hne : ∀ d, isWord d = false → c ≠ d := fun d => isWord_ne h
  simp [startToken, h, hne ' ' rfl, hne '\t' rfl, hne '\n' rfl, hne '\r' rfl, hne '#' rfl,
    hne '"' rfl, hne '\'' rfl, hne '[' rfl, hne ']' rfl, hne '{' rfl, hne '}' rfl, hne ',' rfl,
    hne '=' rfl]

theorem scans_wordRest (h : cs.all isWord = true) (done : List Char) :
    Scans (.word done) cs [] (.word (cs.reverse ++ done)) := by
  induction cs generalizing done with
  | nil => exact .nil
  | cons c cs ih =>
    rw [List.all_cons, Bool.and_eq_true] at h
    have hstep : scanStep c (.word done) = some ([], .word (c :: done)) := by simp [scanStep, h.1]
    have hrest := ih h.2 (c :: done)
    rw [List.reverse_cons, List.append_assoc]
    exact .goOn hstep hrest

/-- A word ends at the first character that cannot be in one. -/
theorem scans_word (h : cs.all isWord = true) (hne : cs ≠ []) (hc : isWord c = false)
    (hstart : startToken c = some (ts, s)) : Scans .between (cs ++ [c]) (.word cs :: ts) s := by
  have hend : scanStep c (.word cs.reverse) = some (.word cs :: ts, s) := by
    simp [scanStep, hc, startAfter, hstart]
  cases cs with
  | nil => exact absurd rfl hne
  | cons d cs =>
    rw [List.all_cons, Bool.and_eq_true] at h
    have hrest := scans_wordRest h.2 [d]
    rw [← List.reverse_cons] at hrest
    exact .goOn (startToken_word h.1) (hrest.goOnAll (.single hend))

end Notifications.Toml
