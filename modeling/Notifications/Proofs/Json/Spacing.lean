import Notifications.Proofs.Json.Numbers
import Notifications.Proofs.Json.Strings
/-!
Texts as tokens with blanks about them. Each token is written in one of its ways, and blanks may
stand before, between and behind the tokens. The scanner gets the tokens back, unless there are
numbers that run into what follows.
-/
namespace Notifications.Json

variable {t : Token} {ts us : List Token} {c : Char} {cs ds w : List Char}

/-- The ways to write a token. -/
inductive Token.Written : Token → List Char → Prop
  | null : Written .null ['n', 'u', 'l', 'l']
  | yes : Written (.bool true) ['t', 'r', 'u', 'e']
  | no : Written (.bool false) ['f', 'a', 'l', 's', 'e']
  | number {n : Number} {w : List Char} (h : n.Written w) : Written (.number n) w
  | string {q : Quoted} {w : List Char} (h : q.Written w) : Written (.string q) w
  | openArray : Written .openArray ['[']
  | closeArray : Written .closeArray [']']
  | openObject : Written .openObject ['{']
  | closeObject : Written .closeObject ['}']
  | comma : Written .comma [',']
  | colon : Written .colon [':']

/-- The characters that may stand between tokens. -/
def IsBlank (c : Char) : Prop := c = ' ' ∨ c = '\t' ∨ c = '\n' ∨ c = '\r'

/-- The ways to write some tokens one after another. -/
inductive Spaced : List Token → List Char → Prop
  | nil : Spaced [] []
  | blank {ts : List Token} {c : Char} {cs : List Char} (hc : IsBlank c) (h : Spaced ts cs) :
    Spaced ts (c :: cs)
  | token {t : Token} {ts : List Token} {w cs : List Char} (ht : t.Written w) (h : Spaced ts cs) :
      Spaced (t :: ts) (w ++ cs)

theorem Spaced.append (h : Spaced ts cs) (hu : Spaced us ds) : Spaced (ts ++ us) (cs ++ ds) := by
  induction h with
  | nil => exact hu
  | blank hc _ ih => exact .blank hc ih
  | token ht _ ih =>
    rw [List.cons_append, List.append_assoc]
    exact .token ht ih

theorem Token.Written.spaced (ht : t.Written w) : Spaced [t] w := by
  have h := Spaced.token ht .nil
  rwa [List.append_nil] at h

/-- The tokens that can follow a value. -/
def Token.EndsValue (t : Token) : Prop := t = .comma ∨ t = .closeArray ∨ t = .closeObject

/-- Behind each number stands a token that is no part of it, or none. -/
def Separated : List Token → Prop
  | [] => True
  | t :: ts => ((∃ n, t = .number n) → ∀ u ∈ ts.head?, u.EndsValue) ∧ Separated ts

theorem IsBlank.startToken_eq (hc : IsBlank c) : startToken c = .next .between := by
  rcases hc with rfl | rfl | rfl | rfl <;> rfl

theorem Spaced.numberEnds (h : Spaced ts cs) (hts : ∀ t ∈ ts.head?, t.EndsValue) :
    NumberEnds cs := by
  cases h with
  | nil =>
    intro c hc
    cases hc
  | blank hc _ =>
    intro d hd
    cases hd
    rcases hc with rfl | rfl | rfl | rfl <;> decide
  | token ht _ =>
    intro d hd
    rcases hts _ rfl with rfl | rfl | rfl <;> cases ht <;> cases hd <;> decide

/-- The tokens that begin and end themselves. -/
theorem scan_mark {t : Token} (h : startToken c = .emit t .between) (r : List Char) :
    scan .between (c :: r) = t :: scan .between r := by
  rw [scan, h]

theorem Spaced.scan_eq (h : Spaced ts cs) (hts : Separated ts) : scan .between cs = ts := by
  induction h with
  | nil => rfl
  | blank hc _ ih =>
    rw [scan, hc.startToken_eq]
    exact ih hts
  | @token t ts w cs ht h ih =>
    obtain ⟨hnumber, hrest⟩ := hts
    have hscan := ih hrest
    cases ht with
    | null => exact congrArg (Token.null :: ·) hscan
    | yes => exact congrArg (Token.bool true :: ·) hscan
    | no => exact congrArg (Token.bool false :: ·) hscan
    | number hn => rw [hn.scan_eq (h.numberEnds (hnumber ⟨_, rfl⟩)), hscan]
    | string hq => rw [hq.scan_eq, hscan]
    | openArray => exact (scan_mark rfl cs).trans (congrArg _ hscan)
    | closeArray => exact (scan_mark rfl cs).trans (congrArg _ hscan)
    | openObject => exact (scan_mark rfl cs).trans (congrArg _ hscan)
    | closeObject => exact (scan_mark rfl cs).trans (congrArg _ hscan)
    | comma => exact (scan_mark rfl cs).trans (congrArg _ hscan)
    | colon => exact (scan_mark rfl cs).trans (congrArg _ hscan)

end Notifications.Json
