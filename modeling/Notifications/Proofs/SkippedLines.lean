import Notifications.Proofs.LineReading
/-!
Lines judged one by one. A line that is text and no batch is passed over and leaves the others as
they are; a line that is no text takes all lines behind it with it.
-/
namespace Notifications.Feed

variable {input : List UInt8} {before bad after : List (List UInt8)}

/-- The batch that a line holds, by its own bytes. -/
def batchOf? (line : List UInt8) : Option Batch :=
  match Text.decodeUtf8 0 line with
  | .error _ => none
  | .ok text => (Json.readChars Batch.reader (Text.trim text)).toOption

def isText (line : List UInt8) : Bool := (Text.decodeUtf8 0 line).isOk

theorem bind_batch?_ofText (number : Nat) (text : List Char) :
    (ofText number text).bind batch? = (Json.readChars Batch.reader (Text.trim text)).toOption := by
  cases h : Json.readChars Batch.reader (Text.trim text) with
  | ok b =>
    rw [ofText_of_ok h]
    rfl
  | error e =>
    by_cases hblank : Text.trim text = []
    · rw [ofText_of_blank hblank]
      rfl
    · rw [ofText_of_error hblank h]
      rfl

/-- The batches read are those of the lines up to the first that is no text. -/
theorem batches_ofLines (number : Nat) (ls : List (List UInt8)) :
    batches (ofLines number ls) = (ls.takeWhile isText).filterMap batchOf? := by
  induction ls generalizing number with
  | nil => rfl
  | cons line ls ih =>
    cases h : Text.decodeUtf8 0 line with
    | error f =>
      have htext : isText line = false := by rw [isText, h]; rfl
      rw [ofLines_cons_noText h, List.takeWhile_cons, htext]
      rfl
    | ok text =>
      have htext : isText line = true := by rw [isText, h]; rfl
      have hbatch : (ofText number text).bind batch? = batchOf? line := by
        rw [bind_batch?_ofText, batchOf?, h]
      have hone : batches (ofText number text).toList = (batchOf? line).toList := by
        rw [← hbatch]
        cases ofText number text with
        | none => rfl
        | some f => cases f <;> rfl
      rw [ofLines_cons_text h, List.takeWhile_cons, htext, batches, List.filterMap_append]
      have hrest := ih (number + 1)
      rw [batches] at hone hrest
      rw [hone, hrest, if_pos rfl, List.filterMap_cons]
      cases batchOf? line <;> rfl

theorem batches_ofBytes (input : List UInt8) :
    batches (ofBytes input) = ((lines input).takeWhile isText).filterMap batchOf? :=
  batches_ofLines 1 (lines input)

theorem takeWhile_isText_append (ls ms : List (List UInt8)) :
    (ls ++ ms).takeWhile isText =
      ls.takeWhile isText ++ if ls.all isText then ms.takeWhile isText else [] := by
  induction ls with
  | nil => rfl
  | cons l ls ih =>
    rw [List.cons_append, List.takeWhile_cons, List.takeWhile_cons, List.all_cons, ih]
    cases isText l <;> rfl

theorem filterMap_takeWhile_eq_nil (h : ∀ line ∈ bad, batchOf? line = none) :
    (bad.takeWhile isText).filterMap batchOf? = [] :=
  List.filterMap_eq_nil_iff.2 fun line hline => h line ((List.takeWhile_prefix _).subset hline)

/-- Lines that hold no batch leave those before and behind them, if all are text. -/
theorem batches_around (hlines : lines input = before ++ bad ++ after)
    (h : ∀ line ∈ bad, batchOf? line = none) :
    batches (ofBytes input) = (before.takeWhile isText).filterMap batchOf? ++
      if before.all isText && bad.all isText then (after.takeWhile isText).filterMap batchOf?
      else [] := by
  rw [batches_ofBytes, hlines, takeWhile_isText_append, takeWhile_isText_append, List.all_append]
  cases before.all isText with
  | false => simp
  | true => cases bad.all isText <;> simp [filterMap_takeWhile_eq_nil h]

/-- Every line is read by itself exactly when none behind a line that is no text holds a batch.
Where lines without a batch are put in the place of others, or in none, or taken out, the batches
are the same exactly when both kinds are text or neither is, or else what is behind them does not
matter. -/
theorem batches_lineByLine_iff (input : List UInt8) :
    (batches (ofBytes input) = (lines input).filterMap batchOf? ↔
      ∀ line ∈ (lines input).dropWhile isText, batchOf? line = none) ∧
    ∀ changed before bad other after, lines input = before ++ bad ++ after →
      lines changed = before ++ other ++ after →
      (∀ line ∈ bad, batchOf? line = none) → (∀ line ∈ other, batchOf? line = none) →
      (batches (ofBytes input) = batches (ofBytes changed) ↔
        bad.all isText = other.all isText ∨ before.all isText = false ∨
          ∀ line ∈ after.takeWhile isText, batchOf? line = none) := by
  constructor
  · have hsplit : (lines input).filterMap batchOf? =
        ((lines input).takeWhile isText).filterMap batchOf? ++
          ((lines input).dropWhile isText).filterMap batchOf? := by
      rw [← List.filterMap_append, List.takeWhile_append_dropWhile]
    rw [batches_ofBytes, hsplit, ← List.filterMap_eq_nil_iff, List.self_eq_append_right]
  · intro changed before bad other after hinput hchanged hbad hother
    rw [batches_around hinput hbad, batches_around hchanged hother, List.append_right_inj,
      ← List.filterMap_eq_nil_iff]
    generalize (after.takeWhile isText).filterMap batchOf? = behind
    -- what may differ is whether the lines behind are read
    cases before.all isText <;> cases bad.all isText <;> cases other.all isText <;> simp

/-- A line that is text makes no difference to the batches around it. -/
theorem batches_lineByLine_without :
    let input : List UInt8 := [91, 93, 10, 120, 10, 91, 93]
    let changed : List UInt8 := [91, 93, 10, 91, 93]
    lines input = [[91, 93, 10]] ++ [[120, 10]] ++ [[91, 93]] ∧
      lines changed = [[91, 93, 10]] ++ [] ++ [[91, 93]] ∧ batchOf? [120, 10] = none ∧
      batches (ofBytes input) = batches (ofBytes changed) := by
  intro input changed
  have hinput : lines input = [[91, 93, 10]] ++ [[120, 10]] ++ [[91, 93]] := by decide +kernel
  have hchanged : lines changed = [[91, 93, 10]] ++ [] ++ [[91, 93]] := by decide +kernel
  have hjunk : batchOf? [120, 10] = none := by decide +kernel
  have htext : [[120, 10]].all isText = [].all isText := by decide +kernel
  refine ⟨hinput, hchanged, hjunk, ?_⟩
  apply ((batches_lineByLine_iff input).2 changed _ _ _ _ hinput hchanged ?_ ?_).2
  · exact Or.inl htext
  · exact List.forall_mem_singleton.2 hjunk
  · simp

/-- Of three lines the second is no text, so the third is not read. -/
theorem batches_behind_noText :
    let input : List UInt8 := [91, 93, 10] ++ [255, 10] ++ [91, 93, 10]
    batches (ofBytes input) = [[]] ∧ (lines input).filterMap batchOf? = [[], []] := by
  decide +kernel

end Notifications.Feed
