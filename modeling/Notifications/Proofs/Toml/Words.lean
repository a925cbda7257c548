import Notifications.Proofs.Digits
import Notifications.Toml.Printer
/-! Printed numbers as values: digits only are no date and no time of day, so they are read as an
integer. -/
namespace Notifications.Toml

open Text (IsNumeral isDigit isDigit_ne isNumeral_toDigits)

variable {ds : List Char} {n : UInt64}

theorem isWord_of_isDigit {c : Char} (h : isDigit c = true) : isWord c = true := by
  simp [isWord, isBare, h]

theorem after?_digits {cs : List Char} (h : ∀ c ∈ cs, isDigit c = true) {mark : Char}
    (hmark : isDigit mark = false) : after? mark cs = none := by
  cases cs with
  | nil => rfl
  | cons c cs => rw [after?, if_neg (isDigit_ne (h c List.mem_cons_self) hmark)]

theorem fixed?_subset {count low high m : Nat} {cs rest : List Char}
    (h : fixed? count low high cs = some (m, rest)) : rest ⊆ cs := by
  simp only [fixed?] at h
  split at h
  · cases h
    exact List.drop_subset _ _
  · cases h

theorem isMoment_digits (h : ∀ c ∈ ds, isDigit c = true) : isMoment ds = false := by
  have hdate : afterDate? ds = none := by
    rw [afterDate?]
    cases hyear : fixed? 4 0 9999 ds with
    | none => rfl
    | some p =>
      have hrest : after? '-' p.2 = none :=
        after?_digits (fun c hc => h c (fixed?_subset hyear hc)) rfl
      simp [hrest]
  have htime : afterTime? ds = none := by
    rw [afterTime?]
    cases hhour : fixed? 2 0 23 ds with
    | none => rfl
    | some p =>
      have hrest : after? ':' p.2 = none :=
        after?_digits (fun c hc => h c (fixed?_subset hhour hc)) rfl
      simp [hrest]
  rw [isMoment, hdate, htime]
  rfl

theorem digits?_digits (h : ∀ c ∈ ds, isDigit c = true) (hne : ds ≠ []) :
    digits? isDigit ds = some ds := by
  induction ds with
  | nil => exact absurd rfl hne
  | cons d ds ih =>
    rw [List.forall_mem_cons] at h
    cases ds with
    | nil => rw [digits?, if_pos h.1]
    | cons e ds =>
      have he : ∀ r, e :: ds ≠ '_' :: r := by
        rintro r hr
        obtain ⟨rfl, -⟩ := List.cons.inj hr
        exact absurd (h.2 '_' List.mem_cons_self) (by decide)
      rw [digits?, if_pos h.1, ih h.2 (List.cons_ne_nil e ds)]
      · rfl
      · exact List.cons_ne_nil e ds
      · exact he

theorem whole?_numeral (h : IsNumeral ds) : whole? ds = some ds := by
  have hzero : ¬ (ds.head? = some '0' ∧ ds.length ≠ 1) := by
    rcases h with rfl | ⟨d, ds, rfl, hd, -⟩ <;> simp_all
  rw [whole?, digits?_digits h.isDigit_of_mem h.ne_nil]
  simp only [Option.bind_eq_bind, Option.bind_some, if_neg hzero]
  rfl

theorem decimal?_numeral (h : IsNumeral ds) :
    decimal? ds = some (Nat.ofDigitChars 10 ds 0 : Int) := by
  have hsign : splitSign ds = (false, ds) := by
    rw [splitSign]
    · rintro r rfl
      exact absurd (h.isDigit_of_mem '-' List.mem_cons_self) (by decide)
    · rintro r rfl
      exact absurd (h.isDigit_of_mem '+' List.mem_cons_self) (by decide)
  rw [decimal?, hsign]
  simp only [whole?_numeral h]
  rfl

/-- A numeral has no mark of another base. -/
theorem integer?_numeral (h : IsNumeral ds)
    (hmax : (Nat.ofDigitChars 10 ds 0 : Int) ≤ Int64.maxValue.toInt) :
    integer? ds = some (.ofInt (Nat.ofDigitChars 10 ds 0)) := by
  have hrange : Int64.minValue.toInt ≤ (Nat.ofDigitChars 10 ds 0 : Int) ∧
      (Nat.ofDigitChars 10 ds 0 : Int) ≤ Int64.maxValue.toInt := by
    have hmin : Int64.minValue.toInt ≤ 0 := by decide
    exact ⟨by omega, hmax⟩
  rw [integer?, decimal?_numeral h]
  · simp only [Option.bind_eq_bind, Option.bind_some, if_pos hrange]
    rfl
  · rintro r rfl
    exact absurd (h.isDigit_of_mem 'x' (by simp)) (by decide)
  · rintro r rfl
    exact absurd (h.isDigit_of_mem 'o' (by simp)) (by decide)
  · rintro r rfl
    exact absurd (h.isDigit_of_mem 'b' (by simp)) (by decide)

/-- The count that an integer of 64 bits stands for. -/
theorem scalar?_toDigits (h : n.toNat ≤ Int64.maxValue.toInt) :
    scalar? (Nat.toDigits 10 n.toNat) = some (.integer n.toInt64) := by
  have hnumeral := isNumeral_toDigits n.toNat
  have hdigits := hnumeral.isDigit_of_mem
  have hvalue : Nat.ofDigitChars 10 (Nat.toDigits 10 n.toNat) 0 = n.toNat :=
    Nat.ofDigitChars_ten_toDigits
  have hinteger := integer?_numeral hnumeral (by rw [hvalue]; exact h)
  have htrue : Nat.toDigits 10 n.toNat ≠ ['t', 'r', 'u', 'e'] := by
    intro heq
    exact absurd (hdigits 't' (by simp [heq])) (by decide)
  have hfalse : Nat.toDigits 10 n.toNat ≠ ['f', 'a', 'l', 's', 'e'] := by
    intro heq
    exact absurd (hdigits 'f' (by simp [heq])) (by decide)
  have hcount : Int64.ofInt n.toNat = n.toInt64 := by
    rw [Int64.ofInt_eq_ofNat, ← UInt64.toInt64_ofNat', UInt64.ofNat_toNat]
  rw [scalar?, if_neg htrue, if_neg hfalse, isMoment_digits hdigits, hinteger, hvalue, hcount]
  rfl

end Notifications.Toml
