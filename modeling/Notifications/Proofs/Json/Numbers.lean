import Notifications.Json.Printer
import Notifications.Proofs.Digits
/-!
Numbers in a JSON text. A whole one is scanned, in any way to write it, as the token it was written
from, provided that what follows is no part of a number. Without fraction and exponent it reads as
the integer.
-/
namespace Notifications.Json

open Text (IsNumeral isDigit isDigit_ne isNumeral_toDigits)

variable {n : Number} {part : NumberPart} {ds r cs : List Char}

/-- What follows does not go on with a number. -/
def NumberEnds (r : List Char) : Prop :=
  ∀ c ∈ r.head?, isDigit c = false ∧ c ≠ '.' ∧ c ≠ 'e' ∧ c ≠ 'E'

/-- A number that can stand in a text: it has digits wherever there are some to be. -/
structure Number.IsWhole (n : Number) : Prop where
  whole : IsNumeral n.whole
  fraction : ∀ c ∈ n.fraction, isDigit c = true
  exponent : ∀ e, n.exponent = some e → e.digits ≠ [] ∧ ∀ c ∈ e.digits, isDigit c = true

/-- The ways to write an exponent: the case of its mark is free, and a plus sign may be left out. -/
inductive Exponent.Written : Option Exponent → List Char → Prop
  | none : Written none []
  | some {e : Exponent} {mark : Char} {sign : List Char} (hmark : mark = 'e' ∨ mark = 'E')
      (hsign : e.negative = true ∧ sign = ['-'] ∨ e.negative = false ∧ (sign = ['+'] ∨ sign = [])) :
      Written (some e) (mark :: (sign ++ e.digits))

/-- A number up to its exponent. -/
def Number.front (n : Number) : List Char :=
  (if n.negative then ['-'] else []) ++ n.whole ++
    (if n.fraction.isEmpty then [] else '.' :: n.fraction)

/-- The ways to write a number. -/
def Number.Written (n : Number) (cs : List Char) : Prop :=
  n.IsWhole ∧ ∃ power, Exponent.Written n.exponent power ∧ cs = n.front ++ power

theorem Number.IsWhole.written_chars (h : n.IsWhole) : n.Written n.chars := by
  obtain ⟨negative, whole, fraction, exponent⟩ := n
  refine ⟨h, _, ?_, rfl⟩
  cases exponent with
  | none => exact .none
  | some e =>
    refine .some (.inl rfl) ?_
    cases e.negative <;> simp

/-! ### Scanning -/

/-- Digits that leave the scanner in its part of the number. -/
theorem scan_digits {add : Number → Char → Number}
    (hstep : ∀ n c, isDigit c = true → numberStep part n c = some (.next (.number part (add n c))))
    (hds : ∀ c ∈ ds, isDigit c = true) :
    scan (.number part n) (ds ++ r) = scan (.number part (ds.foldl add n)) r := by
  induction ds generalizing n with
  | nil => rfl
  | cons d ds ih =>
    rw [List.forall_mem_cons] at hds
    rw [List.cons_append, List.foldl_cons, ← ih hds.2, scan]
    simp only [hstep n d hds.1]

theorem foldl_addWhole (ds : List Char) (n : Number) :
    ds.foldl Number.addWhole n = { n with whole := n.whole ++ ds } := by
  induction ds generalizing n with
  | nil => simp
  | cons d ds ih => simp [ih, Number.addWhole]

theorem foldl_addFraction (ds : List Char) (n : Number) :
    ds.foldl Number.addFraction n = { n with fraction := n.fraction ++ ds } := by
  induction ds generalizing n with
  | nil => simp
  | cons d ds ih => simp [ih, Number.addFraction]

theorem foldl_addPower (ds : List Char) (n : Number) :
    ds.foldl Number.addPower n =
      { n with exponent := n.exponent.map fun e => { e with digits := e.digits ++ ds } } := by
  induction ds generalizing n with
  | nil => simp
  | cons d ds ih => simp [ih, Number.addPower, Function.comp_def]

theorem scan_numberEnds (hpart : part.complete = true) (hr : NumberEnds r) :
    scan (.number part n) r = .number n :: scan .between r := by
  cases r with
  | nil => simp [scan, ScanState.finish, hpart]
  | cons c r =>
    obtain ⟨hdigit, hpoint, he, hE⟩ := hr c rfl
    have hstep : numberStep part n c = none := by
      cases part with
      | zero | whole | fraction | power => simp [numberStep, hdigit, hpoint, he, hE]
      | sign | point | mark | markSign => cases hpart
    simp only [scan, hstep, afterNumber]
    split <;> rfl

/-- The first digit of a number that is not zero. -/
theorem startToken_digit {d : Char} (hd : isDigit d = true) (hzero : d ≠ '0') :
    startToken d = .next (.number .whole ⟨false, [d], [], none⟩) := by
  have hne : ∀ e, isDigit e = false → d ≠ e := fun e => isDigit_ne hd
  simp [startToken, isSpace, hd, hzero, hne ' ' rfl, hne '\t' rfl, hne '\n' rfl, hne '\r' rfl,
    hne '"' rfl, hne '-' rfl]

/-- A numeral is scanned from where a number begins, or from after its sign. -/
theorem scan_numeral {digits : List Char} (h : IsNumeral digits) (r : List Char) :
    ∃ part, (part = .zero ∨ part = .whole) ∧
      scan .between (digits ++ r) = scan (.number part ⟨false, digits, [], none⟩) r ∧
      scan (.number .sign ⟨true, [], [], none⟩) (digits ++ r) =
        scan (.number part ⟨true, digits, [], none⟩) r := by
  rcases h with rfl | ⟨d, ds, rfl, hzero, hdigits⟩
  · exact ⟨.zero, .inl rfl, rfl, rfl⟩
  · rw [List.forall_mem_cons] at hdigits
    obtain ⟨hd, hds⟩ := hdigits
    have hstep : ∀ n c, isDigit c = true →
        numberStep .whole n c = some (.next (.number .whole (n.addWhole c))) := by
      intro n c hc
      simp [numberStep, hc]
    refine ⟨.whole, .inr rfl, ?_, ?_⟩
    · simp only [List.cons_append, scan, startToken_digit hd hzero]
      rw [scan_digits hstep hds, foldl_addWhole]
      rfl
    · simp only [List.cons_append, scan, numberStep, beq_false_of_ne hzero, hd, Bool.false_eq_true,
        if_true, if_false]
      rw [scan_digits hstep hds, foldl_addWhole]
      rfl

theorem scan_fraction (hpart : part = .zero ∨ part = .whole) (hn : n.fraction = [])
    (hds : ∀ c ∈ ds, isDigit c = true) (hne : ds ≠ []) (r : List Char) :
    scan (.number part n) ('.' :: (ds ++ r)) =
      scan (.number .fraction { n with fraction := ds }) r := by
  have hpoint : scan (.number part n) ('.' :: (ds ++ r)) = scan (.number .point n) (ds ++ r) := by
    rcases hpart with rfl | rfl <;> rfl
  have hstep : ∀ n c, isDigit c = true →
      numberStep .fraction n c = some (.next (.number .fraction (n.addFraction c))) := by
    intro n c hc
    simp [numberStep, hc]
  obtain ⟨d, ds, rfl⟩ := List.exists_cons_of_ne_nil hne
  rw [List.forall_mem_cons] at hds
  rw [hpoint, List.cons_append, scan]
  simp only [numberStep, hds.1, if_true]
  rw [scan_digits hstep hds.2, foldl_addFraction]
  simp [Number.addFraction, hn]

theorem Number.IsWhole.scan_front (h : n.IsWhole) (r : List Char) :
    ∃ part, (part = .zero ∨ part = .whole ∨ part = .fraction) ∧
      scan .between (n.front ++ r) = scan (.number part { n with exponent := none }) r := by
  obtain ⟨negative, whole, fraction, exponent⟩ := n
  obtain ⟨hwhole, hfraction, -⟩ := h
  simp only at hwhole hfraction
  have signed : ∀ r, ∃ part, (part = .zero ∨ part = .whole) ∧
      scan .between ((if negative then ['-'] else []) ++ (whole ++ r)) =
        scan (.number part ⟨negative, whole, [], none⟩) r := by
    intro r
    obtain ⟨part, hpart, hplus, hminus⟩ := scan_numeral hwhole r
    refine ⟨part, hpart, ?_⟩
    cases negative with
    | false => exact hplus
    | true => exact hminus
  simp only [front, List.append_assoc]
  cases fraction with
  | nil =>
    obtain ⟨part, hpart, hscan⟩ := signed r
    exact ⟨part, hpart.imp_right .inl, hscan⟩
  | cons d ds =>
    obtain ⟨part, hpart, hscan⟩ := signed ('.' :: (d :: ds ++ r))
    refine ⟨.fraction, .inr (.inr rfl), hscan.trans ?_⟩
    exact scan_fraction hpart rfl hfraction (List.cons_ne_nil d ds) r

theorem scan_power {e : Exponent} {power : List Char}
    (hpart : part = .zero ∨ part = .whole ∨ part = .fraction)
    (hdigits : e.digits ≠ [] ∧ ∀ c ∈ e.digits, isDigit c = true)
    (h : Exponent.Written (some e) power)
    (r : List Char) :
    scan (.number part n) (power ++ r) = scan (.number .power { n with exponent := some e }) r := by
  obtain ⟨negative, digits⟩ := e
  obtain ⟨hne, hds⟩ := hdigits
  simp only at hne hds
  cases h with
  | @some _ mark sign hmark hsign =>
  have hstart : ∀ cs, scan (.number part n) (mark :: cs) =
      scan (.number .mark { n with exponent := some ⟨false, []⟩ }) cs := by
    intro cs
    rcases hpart with rfl | rfl | rfl <;> rcases hmark with rfl | rfl <;> rfl
  have hstep : ∀ n c, isDigit c = true →
      numberStep .power n c = some (.next (.number .power (n.addPower c))) := by
    intro n c hc
    simp [numberStep, hc]
  obtain ⟨d, ds, rfl⟩ := List.exists_cons_of_ne_nil hne
  rw [List.forall_mem_cons] at hds
  -- the first digit ends the marks, the others follow it
  have hrun : ∀ part, part = .mark ∨ part = .markSign →
      scan (.number part { n with exponent := some ⟨negative, []⟩ }) (d :: (ds ++ r)) =
        scan (.number .power { n with exponent := some ⟨negative, d :: ds⟩ }) r := by
    intro part hpart
    have hfirst : numberStep part { n with exponent := some ⟨negative, []⟩ } d =
        some (.next (.number .power { n with exponent := some ⟨negative, [d]⟩ })) := by
      rcases hpart with rfl | rfl <;> simp [numberStep, hds.1, Number.addPower]
    rw [scan]
    simp only [hfirst]
    rw [scan_digits hstep hds.2, foldl_addPower]
    rfl
  simp only [List.cons_append, List.append_assoc, hstart]
  rcases hsign with ⟨rfl, rfl⟩ | ⟨rfl, rfl | rfl⟩
  · exact hrun .markSign (.inr rfl)
  · exact hrun .markSign (.inr rfl)
  · exact hrun .mark (.inl rfl)

theorem Number.Written.scan_eq (h : n.Written cs) (hr : NumberEnds r) :
    scan .between (cs ++ r) = .number n :: scan .between r := by
  obtain ⟨hn, power, hpower, rfl⟩ := h
  obtain ⟨part, hpart, hfront⟩ := hn.scan_front (power ++ r)
  rw [List.append_assoc, hfront]
  obtain ⟨negative, whole, fraction, exponent⟩ := n
  cases exponent with
  | none =>
    cases hpower
    refine scan_numberEnds ?_ hr
    rcases hpart with rfl | rfl | rfl <;> rfl
  | some e =>
    rw [scan_power hpart (hn.exponent e rfl) hpower]
    exact scan_numberEnds rfl hr

/-! ### Control characters -/

theorem isControl_isDigit {c : Char} (hc : isDigit c = true) : isControl c = false := by
  simp only [isDigit, Bool.and_eq_true, decide_eq_true_eq, Char.le_def,
    UInt32.le_iff_toNat_le] at hc
  simp only [isControl, decide_eq_false_iff_not]
  have h0 : '0'.val.toNat = 48 := rfl
  have hval : c.val.toNat = c.toNat := rfl
  omega

theorem Number.IsWhole.isControl_chars (h : n.IsWhole) : ∀ c ∈ n.chars, isControl c = false := by
  have hsign : ∀ b : Bool, ∀ c ∈ (if b then ['-'] else []), isControl c = false := by
    intro b c hc
    cases b <;> simp at hc
    rw [hc]; rfl
  obtain ⟨negative, whole, fraction, exponent⟩ := n
  obtain ⟨hwhole, hfraction, hexponent⟩ := h
  simp only [chars, List.forall_mem_append]
  refine ⟨⟨⟨hsign negative, fun c hc => isControl_isDigit (hwhole.isDigit_of_mem c hc)⟩, ?_⟩, ?_⟩
  · cases fraction with
    | nil => simp
    | cons d ds =>
      simp only [List.isEmpty_cons, Bool.false_eq_true, if_false]
      exact List.forall_mem_cons.2 ⟨rfl, fun c hc => isControl_isDigit (hfraction c hc)⟩
  · cases exponent with
    | none => simp
    | some e =>
      refine List.forall_mem_cons.2 ⟨rfl, List.forall_mem_append.2 ⟨hsign e.negative, ?_⟩⟩
      exact fun c hc => isControl_isDigit ((hexponent e rfl).2 c hc)

namespace Number

theorem isWhole_ofInt (k : Int) : (ofInt k).IsWhole where
  whole := isNumeral_toDigits _
  fraction := nofun
  exponent := nofun

/-- Every integer of 64 bits, with a sign or without, is read back. -/
theorem integer?_ofInt {k : Int} (hlow : Int64.minValue.toInt ≤ k) (hhigh : k < UInt64.size) :
    (ofInt k).integer? = some k := by
  simp only [integer?, ofInt, Nat.ofDigitChars_ten_toDigits, List.isEmpty_nil, Option.isNone_none,
    Bool.and_self, if_true, decide_eq_true_eq]
  split
  · rw [if_pos ⟨by omega, by omega⟩]
    congr 1
    omega
  · rw [if_pos (by omega)]
    congr 1
    omega

end Number

end Notifications.Json
