import Notifications.Proofs.Toml.Strings
import Notifications.Proofs.Toml.Words
import Notifications.Settings.Text
/-!
Lines of a TOML text and the statements they make. Lines that end where no token goes on can be put
one behind the other, and the text they make has their statements in order.
-/
namespace Notifications.Toml

open Settings (assignmentLine headerLine)
open Text (isNumeral_toDigits)

variable {cs cs' : List Char} {sts sts' : List Statement} {lines : List (List Token)} {v : Value}
  {t : Token}

/-- The tokens of some lines. -/
def joinLines (lines : List (List Token)) : List Token := lines.flatMap (· ++ [.newline])

/-- A text that ends at the end of a line, with the tokens of its lines and the statements they
make. -/
structure SpelledIn (lines : List (List Token)) (cs : List Char) (sts : List Statement) : Prop where
  scans : Scans .between cs (joinLines lines) .between
  joins : ∀ r, joinMoments (joinLines lines ++ r) = joinLines lines ++ joinMoments r
  cuts : ∀ r, cutLines .margin [] (joinLines lines ++ r) = lines ++ cutLines .margin [] r
  statements : statements? lines = some sts

/-- A text of whole lines makes some statements, whatever comes behind it. -/
def Spells (cs : List Char) (sts : List Statement) : Prop := ∃ lines, SpelledIn lines cs sts

theorem statements?_append {lines' : List (List Token)} (h : statements? lines = some sts)
    (h' : statements? lines' = some sts') : statements? (lines ++ lines') = some (sts ++ sts') := by
  rw [statements?] at h h' ⊢
  rw [List.map_append, List.filter_append, List.mapM_append, h, h']
  rfl

namespace Spells

theorem nil : Spells [] [] := ⟨[], .nil, fun _ => rfl, fun _ => rfl, rfl⟩

theorem append (h : Spells cs sts) (h' : Spells cs' sts') : Spells (cs ++ cs') (sts ++ sts') := by
  obtain ⟨lines, h⟩ := h
  obtain ⟨lines', h'⟩ := h'
  have hjoin : joinLines (lines ++ lines') = joinLines lines ++ joinLines lines' :=
    List.flatMap_append
  refine ⟨lines ++ lines', ?_, fun r => ?_, fun r => ?_,
    statements?_append h.statements h'.statements⟩
  · rw [hjoin]
    exact h.scans.append h'.scans
  · rw [hjoin, List.append_assoc, h.joins, h'.joins, List.append_assoc]
  · rw [hjoin, List.append_assoc, h.cuts, h'.cuts, List.append_assoc]

theorem flatMap {α : Type} {print : α → List Char} {statement : α → Statement} {l : List α}
    (h : ∀ a ∈ l, Spells (print a) [statement a]) : Spells (l.flatMap print) (l.map statement) := by
  induction l with
  | nil => exact nil
  | cons a l ih =>
    rw [List.forall_mem_cons] at h
    exact h.1.append (ih h.2)

/-- A text without a byte order mark is parsed by its statements. -/
theorem parse_eq (h : Spells cs sts) (hmark : cs.head? ≠ some '\uFEFF') :
    parse cs = (ofSections (sections sts).1 (sections sts).2).map (.table .headed) := by
  obtain ⟨lines, h⟩ := h
  have htokens : tokens? cs = some (joinLines lines) := by
    have hscan := h.scans.scan_append []
    rw [List.append_nil] at hscan
    rw [tokens?, if_neg hmark, hscan]
    simp [scan, ScanState.finish]
  have hjoins : joinMoments (joinLines lines) = joinLines lines := by
    have hnil := h.joins []
    simpa [joinMoments] using hnil
  have hcuts : cutLines .margin [] (joinLines lines) = lines ++ [[]] := by
    have hnil := h.cuts []
    rwa [List.append_nil] at hnil
  have hstatements : statements? (lines ++ [[]]) = some sts := by
    have hblank : statements? [[]] = some [] := rfl
    simpa using statements?_append h.statements hblank
  rw [parse, htokens]
  simp only [Option.bind_eq_bind, Option.bind_some, hjoins, hcuts, hstatements]
  rw [Option.map_eq_bind]
  rfl

theorem blank : Spells ['\n'] [] := by
  refine ⟨[[]], .single rfl, fun r => ?_, fun r => ?_, rfl⟩
  · simp [joinLines, joinMoments]
  · simp [joinLines, cutLines, Within.goesOn]

theorem scans_comment (h : cs.all isPlain = true) :
    Scans .comment (cs ++ ['\n']) [.newline] .between := by
  induction cs with
  | nil => exact .single rfl
  | cons c cs ih =>
    rw [List.all_cons, Bool.and_eq_true] at h
    have hnewline : c ≠ '\n' := by
      rintro rfl
      cases h.1
    have hreturn : c ≠ '\r' := by
      rintro rfl
      cases h.1
    have hstep : scanStep c .comment = some ([], .comment) := by
      simp [scanStep, hnewline, hreturn, h.1]
    exact .goOn hstep (ih h.2)

theorem comment (h : cs.all isPlain = true) : Spells ('#' :: cs ++ ['\n']) [] := by
  have hstart : scanStep '#' .between = some ([], .comment) := rfl
  refine ⟨[[]], .goOn hstart (scans_comment h), fun r => ?_, fun r => ?_, rfl⟩
  · simp [joinLines, joinMoments]
  · simp [joinLines, cutLines, Within.goesOn]

theorem header {name : String} {key : Key} (hword : name.toList.all isWord = true)
    (hne : name.toList ≠ [])
    (hkey : Key.ofTokens [.word name.toList] = some key) :
    Spells (headerLine name) [.header false key] := by
  have hclose : startToken ']' = some ([.closeArray], .between) := rfl
  have hopen : scanStep '[' .between = some ([.openArray], .between) := rfl
  have hend : scanStep '\n' .between = some ([.newline], .between) := rfl
  have hscans :
      Scans .between (headerLine name) [.openArray, .word name.toList, .closeArray, .newline]
        .between := by
    have hrest := Scans.cons hopen ((scans_word hword hne rfl hclose).append (.single hend))
    simpa [headerLine] using hrest
  refine ⟨[[.openArray, .word name.toList, .closeArray]], hscans, fun r => ?_, fun r => ?_, ?_⟩
  · simp [joinLines, joinMoments]
  · simp [joinLines, cutLines, Within.next, Within.goesOn]
  · have hstatement : Statement.ofTokens [.openArray, .word name.toList, .closeArray] =
        some (.header false key) := by
      simp [Statement.ofTokens, headerKey?, hkey]
    simp [statements?, trimGaps, isGap, hstatement]

end Spells

/-- The tokens that are values by themselves. -/
inductive Token.Denotes : Token → Value → Prop
  | word {cs : List Char} {v : Value} (h : scalar? cs = some v) : Denotes (.word cs) v
  | text {spans : Bool} {s : String} : Denotes (.text spans s) (.text s)

theorem Token.Denotes.ofTokens (h : t.Denotes v) : Value.ofTokens [.space, t] = some v := by
  cases h with
  | word h =>
    simp [Value.ofTokens, Partial.start, Partial.step, Partial.stepToken, Partial.beginValue,
      Partial.place, h, Partial.finish]
  | text => rfl

/-- What stands at the end of a line is read as a value. -/
def Prints (cs : List Char) (v : Value) : Prop :=
  ∃ t, Scans .between (cs ++ ['\n']) [t, .newline] .between ∧ t.Denotes v

theorem prints_text (s : String) : Prints (printText s) (.text s) := by
  obtain ⟨spans, hscans⟩ := scans_printText s
  exact ⟨_, hscans, .text⟩

theorem prints_word (hword : cs.all isWord = true) (hne : cs ≠ []) (h : scalar? cs = some v) :
    Prints cs v := by
  have hend : startToken '\n' = some ([.newline], .between) := rfl
  exact ⟨_, scans_word hword hne rfl hend, .word h⟩

theorem prints_bool (b : Bool) : Prints (printBool b) (.bool b) := by
  cases b
  · exact prints_word rfl (by decide) rfl
  · exact prints_word rfl (by decide) rfl

theorem printCount?_eq {n : UInt64} (h : n.toNat ≤ 9223372036854775807) :
    printCount? n = some (Nat.toDigits 10 n.toNat) := by
  have hmax : Int64.maxValue.toInt = 9223372036854775807 := rfl
  rw [printCount?, hmax, if_pos (by omega)]

theorem prints_count {n : UInt64} (h : n.toNat ≤ 9223372036854775807) :
    Prints (Nat.toDigits 10 n.toNat) (.integer n.toInt64) := by
  have hmax : (n.toNat : Int) ≤ Int64.maxValue.toInt := by
    have hvalue : Int64.maxValue.toInt = 9223372036854775807 := rfl
    omega
  have hnumeral := isNumeral_toDigits n.toNat
  refine prints_word ?_ hnumeral.ne_nil (scalar?_toDigits hmax)
  exact List.all_eq_true.2 fun c hc => isWord_of_isDigit (hnumeral.isDigit_of_mem c hc)

/-- A name that needs no quotes. -/
def IsBareName (name : String) : Prop := name ≠ "" ∧ name.toList.all isBare = true

instance (name : String) : Decidable (IsBareName name) := inferInstanceAs (Decidable (_ ∧ _))

theorem IsBareName.toList_ne_nil {name : String} (h : IsBareName name) : name.toList ≠ [] := by
  simpa [String.toList_eq_nil_iff] using h.1

theorem isWord_of_isBare {c : Char} (h : isBare c = true) : isWord c = true := by simp [isWord, h]

theorem IsBareName.isWord {name : String} (h : IsBareName name) : name.toList.all isWord = true :=
  List.all_eq_true.2 fun c hc => isWord_of_isBare (List.all_eq_true.1 h.2 c hc)

theorem printKey_of_isBareName {name : String} (h : IsBareName name) :
    printKey name = name.toList := by
  have hempty : name.isEmpty = false := by simpa [String.isEmpty_eq_false_iff] using h.1
  rw [printKey, hempty, h.2]
  rfl

theorem addWord_bare {word name : List Char} (k : KeyPart) (h : word.all isBare = true)
    (hne : name ++ word ≠ []) :
    KeyPart.addWord name word k = k.addName (String.ofList (name ++ word)) := by
  induction word generalizing name with
  | nil =>
    rw [List.append_nil] at hne ⊢
    simp [KeyPart.addWord, hne]
  | cons c word ih =>
    rw [List.all_cons, Bool.and_eq_true] at h
    have hdot : c ≠ '.' := by
      rintro rfl
      exact absurd h.1 (by decide)
    rw [KeyPart.addWord, if_pos h.1, ih h.2 (by simp)]
    · simp
    · exact hdot

/-- The tokens that are names by themselves. -/
inductive Token.Names : Token → String → Prop
  | word {name : String} (h : IsBareName name) : Names (.word name.toList) name
  | text {name : String} : Names (.text false name) name

theorem Token.Names.addToken {name : String} (h : t.Names name) :
    KeyPart.addToken .start t = some ⟨[name], false⟩ := by
  cases h with
  | word h =>
    rw [KeyPart.addToken, addWord_bare .start h.2 h.toList_ne_nil]
    simp [KeyPart.addName, KeyPart.start]
  | text => rfl

theorem Token.Names.ofTokens {name : String} (h : t.Names name) :
    Key.ofTokens [t] = some ⟨[], name⟩ := by
  simp [Key.ofTokens, h.addToken, KeyPart.finish, depthLimit]

theorem Token.Names.ofTokens_space {name : String} (h : t.Names name) :
    Key.ofTokens [t, .space] = some ⟨[], name⟩ := by
  have hspace : ∀ k, KeyPart.addToken k .space = some k := fun _ => rfl
  simp [Key.ofTokens, h.addToken, hspace, KeyPart.finish, depthLimit]

/-- What stands before the mark of an assignment is read as the key. -/
def PrintsKey (name : String) : Prop :=
  ∃ t, Scans .between (printKey name ++ [' ']) [t, .space] .between ∧ t.Names name

theorem IsBareName.printsKey {name : String} (h : IsBareName name) : PrintsKey name := by
  have hspace : startToken ' ' = some ([.space], .between) := rfl
  rw [PrintsKey, printKey_of_isBareName h]
  exact ⟨_, scans_word h.isWord h.toList_ne_nil rfl hspace, .word h⟩

/-- Any name can be a key: one that is not bare is printed in quotes. -/
theorem printsKey (name : String) : PrintsKey name := by
  by_cases h : IsBareName name
  · exact h.printsKey
  · have hquoted : printKey name =
        Spelling.print ⟨(Traits.ofChars name.toList).keySpelling, false⟩ name.toList := by
      rw [printKey, if_neg]
      simpa [IsBareName, String.isEmpty_eq_false_iff] using h
    have hscans := Spelling.scans_print (follows_space _) (fits_keySpelling name.toList)
    rw [String.ofList_toList, ← hquoted] at hscans
    exact ⟨_, hscans, .text⟩

/-- A line that gives a key a value. -/
theorem Spells.assignment {key : String} (hkey : PrintsKey key) (h : Prints cs v) :
    Spells (assignmentLine key cs) [.assignment ⟨⟨[], key⟩, v⟩] := by
  obtain ⟨k, hfront, hk⟩ := hkey
  obtain ⟨t, hscans, ht⟩ := h
  have hspace : scanStep ' ' .between = some ([.space], .between) := rfl
  have hequals : scanStep '=' .between = some ([.equals], .between) := rfl
  have hline :
      Scans .between (assignmentLine key cs) [k, .space, .equals, .space, t, .newline]
        .between := by
    have hall := (hfront.append (.cons hequals (.single hspace))).append hscans
    simpa [assignmentLine] using hall
  have hstatement : Statement.ofTokens [k, .space, .equals, .space, t] =
      some (.assignment ⟨⟨[], key⟩, v⟩) := by
    have hof := hk.ofTokens_space
    cases hk <;> simp [Statement.ofTokens, assignment?, hof, ht.ofTokens]
  refine ⟨[[k, .space, .equals, .space, t]], hline, fun r => ?_, fun r => ?_, ?_⟩
  · cases hk <;> cases ht <;> simp [joinLines, joinMoments]
  · cases hk <;> cases ht <;> simp [joinLines, cutLines, Within.next, Within.goesOn]
  · have htrim : trimGaps [k, .space, .equals, .space, t] = [k, .space, .equals, .space, t] := by
      cases hk <;> cases ht <;> simp [trimGaps, isGap]
    simp [statements?, htrim, hstatement]

end Notifications.Toml
