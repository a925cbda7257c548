import Mathlib.Data.List.Infix
import Mathlib.Tactic.Ring
import Notifications.Render.Line
/-!
Texts quoted in a template. A template is cut at its placeholders in just one way, and the quoted
text goes where they stood; what it holds itself, and what it makes together with the template, is
not looked at again.
-/
namespace Notifications.Render

variable {c : Char} {cs r p first sep : List Char} {rest ps : List (List Char)} {template : String}

/-- What stands in a template for the text. -/
def placeholder : List Char := ['{', 't', 'e', 'x', 't', '}']

theorem parts_placeholder (r : List Char) : parts (placeholder ++ r) = [] :: parts r := by
  simp [placeholder, parts]

theorem parts_ne_nil (cs : List Char) : parts cs ≠ [] := by
  fun_cases parts cs <;> simp

theorem parts_cons (h : ¬ placeholder <+: c :: r) (hr : parts r = first :: rest) :
    parts (c :: r) = (c :: first) :: rest := by
  rw [parts, hr]
  rintro r' rfl rfl
  exact h (List.prefix_append placeholder r')

/-- A text is cut at its placeholders: joined by them the pieces are the text, and none is left in a
piece. -/
structure CutInto (cs first : List Char) (rest : List (List Char)) : Prop where
  joined : placeholder.intercalate (first :: rest) = cs
  free : ∀ p ∈ first :: rest, ¬ placeholder <:+: p

namespace CutInto

theorem nil : CutInto [] [] [] where
  joined := rfl
  free := by simp [placeholder]

/-- The first piece stands at the beginning of the text. -/
theorem first_prefix (h : CutInto cs first rest) : first <+: cs := by
  rw [← h.joined]
  cases rest with
  | nil => rw [List.intercalate_singleton]
  | cons p ps =>
    rw [List.intercalate_cons_cons, List.append_assoc]
    exact List.prefix_append _ _

theorem placeholder_append (h : CutInto r first rest) :
    CutInto (placeholder ++ r) [] (first :: rest) where
  joined := by rw [List.intercalate_cons_cons, h.joined, List.nil_append]
  free := by
    intro p hp
    rcases List.mem_cons.1 hp with rfl | hp
    · simp [placeholder]
    · exact h.free p hp

theorem cons (h : CutInto r first rest) (hc : ¬ placeholder <+: c :: r) :
    CutInto (c :: r) (c :: first) rest where
  joined := by
    rw [← h.joined]
    cases rest <;> rfl
  free := by
    intro p hp
    rcases List.mem_cons.1 hp with rfl | hp
    · -- A placeholder in the longer piece would be in the old one, or at the beginning of the text.
      rw [List.infix_cons_iff]
      rintro (hbegin | hinside)
      · exact hc (hbegin.trans (List.cons_prefix_cons.2 ⟨rfl, h.first_prefix⟩))
      · exact h.free first List.mem_cons_self hinside
    · exact h.free p (List.mem_cons_of_mem _ hp)

end CutInto

theorem cutInto_parts (cs : List Char) :
    ∃ first rest, parts cs = first :: rest ∧ CutInto cs first rest := by
  induction cs using parts.induct with
  | case1 => exact ⟨[], [], rfl, .nil⟩
  | case2 r ih =>
    obtain ⟨first, rest, hr, hcut⟩ := ih
    exact ⟨[], first :: rest, hr ▸ parts_placeholder r, hcut.placeholder_append⟩
  | case3 c r _ hr => exact absurd hr (parts_ne_nil r)
  | case4 c r hc _ _ _ ih =>
    obtain ⟨first, rest, hr, hcut⟩ := ih
    have hbegin : ¬ placeholder <+: c :: r := by
      rintro ⟨r', hr'⟩
      obtain ⟨rfl, rfl⟩ := List.cons.inj hr'
      exact hc r' rfl rfl
    exact ⟨c :: first, rest, parts_cons hbegin hr, hcut.cons hbegin⟩

/-- A placeholder begins nowhere inside another one, so none begins in a piece and ends behind
it. -/
theorem not_prefix_append (hp : ¬ placeholder <+: c :: p) (r : List Char) :
    ¬ placeholder <+: c :: (p ++ (placeholder ++ r)) := by
  intro h
  have hshort : p.length < 5 := by
    by_contra hlong
    have hlength : placeholder.length ≤ (c :: p).length := by simp [placeholder]; omega
    exact hp (List.prefix_of_prefix_length_le h (List.prefix_append (c :: p) _) hlength)
  have hbrace : (c :: (p ++ (placeholder ++ r)))[p.length + 1]? = some '{' := by simp [placeholder]
  have hletter : ∀ k < 5, placeholder[k + 1]? ≠ some '{' := by decide
  obtain ⟨t, ht⟩ := h
  rw [← ht, List.getElem?_append_left (by simp [placeholder]; omega)] at hbrace
  exact hletter p.length hshort hbrace

theorem parts_append (hp : ¬ placeholder <:+: p) (r : List Char) :
    parts (p ++ (placeholder ++ r)) = p :: parts r := by
  induction p with
  | nil => exact parts_placeholder r
  | cons c p ih =>
    obtain ⟨hbegin, hinside⟩ := not_or.1 (mt List.infix_cons_iff.2 hp)
    exact parts_cons (not_prefix_append hbegin r) (ih hinside)

theorem parts_of_free (hp : ¬ placeholder <:+: p) : parts p = [p] := by
  induction p with
  | nil => rfl
  | cons c p ih =>
    obtain ⟨hbegin, hinside⟩ := not_or.1 (mt List.infix_cons_iff.2 hp)
    exact parts_cons hbegin (ih hinside)

/-- There is one way to cut a text. -/
theorem CutInto.parts_eq (h : CutInto cs first rest) : parts cs = first :: rest := by
  induction rest generalizing cs first with
  | nil =>
    have hcs : first = cs := by simpa using h.joined
    rw [← hcs]
    exact parts_of_free (h.free first List.mem_cons_self)
  | cons second rest ih =>
    have hrest : CutInto (placeholder.intercalate (second :: rest)) second rest :=
      ⟨rfl, fun p hp => h.free p (List.mem_cons_of_mem _ hp)⟩
    rw [← h.joined, List.intercalate_cons_cons, List.append_assoc,
      parts_append (h.free first List.mem_cons_self), ih hrest]

/-- A text that is cut at all has a placeholder in it, and one that is not has none. -/
theorem CutInto.placeholder_infix_iff (h : CutInto cs first rest) :
    placeholder <:+: cs ↔ rest ≠ [] := by
  cases rest with
  | nil =>
    have hcs : first = cs := by simpa using h.joined
    exact iff_of_false (hcs ▸ h.free first List.mem_cons_self) (by simp)
  | cons second rest =>
    refine iff_of_true ?_ (by simp)
    rw [← h.joined, List.intercalate_cons_cons]
    exact ⟨first, _, rfl⟩

theorem length_intercalate (sep first : List Char) (rest : List (List Char)) :
    (sep.intercalate (first :: rest)).length =
      (first :: rest).flatten.length + rest.length * sep.length := by
  induction rest generalizing first with
  | nil => simp
  | cons second rest ih =>
    have hrest := ih second
    simp only [List.intercalate_cons_cons, List.flatten_cons, List.length_append, List.length_cons,
      Nat.succ_mul]
      at hrest ⊢
    omega

/-- What joins pieces stands between the first two of them. -/
theorem infix_intercalate (h : rest ≠ []) : sep <:+: sep.intercalate (first :: rest) := by
  obtain ⟨second, others, rfl⟩ := List.exists_cons_of_ne_nil h
  rw [List.intercalate_cons_cons]
  exact ⟨first, _, rfl⟩

theorem quote_of_cut (h : CutInto template.toList first rest) (body : String) :
    quote template body =
    if rest = [] then template ++ " " ++ body
    else String.ofList (body.toList.intercalate (first :: rest)) := by
  rw [quote, h.parts_eq]
  cases rest <;> rfl

namespace Style

variable {s : Style} {m : Notice.Message}

theorem text_line (h : s.maxLength = 0) : (s.line m).text = fullText ⟨s.templates⟩ m.content := by
  simp [line, truncate, h]

/-- A message that quotes the user is shown in the template that is set for it: with the text in the
place of every placeholder, of which there is one way to find them, or behind the template if it has
none. -/
theorem line_of_quotation {body : String} (hlimit : s.maxLength = 0)
    (htemplate : s.templates.get? quotingSelfKey = some template)
    (hm : m.content = .text body true) :
    let line := (s.line m).text
    (placeholder <:+: template.toList → ∃ first rest, CutInto template.toList first rest ∧
      (∀ first' rest', CutInto template.toList first' rest' → first' = first ∧ rest' = rest) ∧
      1 ≤ rest.length ∧
      line.toList = body.toList.intercalate (first :: rest) ∧
      (line.length : Int) = template.length + rest.length * (body.length - 6)) ∧
    (¬ placeholder <:+: template.toList → line = template ++ " " ++ body) ∧
    body.toList <:+: line.toList := by
  intro line
  obtain ⟨first, rest, -, hcut⟩ := cutInto_parts template.toList
  have hline : line = quote template body := by
    simp [line, text_line hlimit, hm, fullText, Templates.text, Templates.find?, htemplate]
  rw [quote_of_cut hcut] at hline
  have hplace := hcut.placeholder_infix_iff
  by_cases hrest : rest = []
  · rw [if_pos hrest] at hline
    have hnone : ¬ placeholder <:+: template.toList := by simp [hplace, hrest]
    refine ⟨fun h => absurd h hnone, fun _ => hline, ?_⟩
    rw [hline, String.toList_append]
    exact (List.suffix_append _ _).isInfix
  · rw [if_neg hrest] at hline
    have hjoined : line.toList = body.toList.intercalate (first :: rest) := by
      rw [hline, String.toList_ofList]
    refine ⟨fun _ => ⟨first, rest, hcut, ?_, List.length_pos_iff.2 hrest, hjoined, ?_⟩,
      fun h => absurd (hplace.2 hrest) h, ?_⟩
    · intro first' rest' hcut'
      exact List.cons.inj (hcut'.parts_eq.symm.trans hcut.parts_eq)
    · have hbody := length_intercalate body.toList first rest
      have htext := length_intercalate placeholder first rest
      rw [← hjoined, String.length_toList, String.length_toList] at hbody
      rw [hcut.joined, String.length_toList, show placeholder.length = 6 from rfl] at htext
      rw [hbody, htext]
      push_cast
      ring
    · rw [hjoined]
      exact infix_intercalate hrest

/-- A text and a template that make placeholders where they meet, and a template whose placeholder
is not closed. -/
theorem line_of_quotation_meeting :
    let meeting : Style := ⟨0, .ofList [(quotingSelfKey, "\x7bte\x7btext\x7dxt\x7d")]⟩
    let unclosed : Style := ⟨0, .ofList [(quotingSelfKey, "\x7btext")]⟩
    let m : Notice.Message := ⟨⟨"Ann", none⟩, 5, .text "xt\x7d\x7bte" true⟩
    meeting.templates.get? quotingSelfKey = some "\x7bte\x7btext\x7dxt\x7d" ∧
      (meeting.line m).text = "\x7btext\x7d\x7btext\x7d" ∧
      unclosed.templates.get? quotingSelfKey = some "\x7btext" ∧
      (unclosed.line m).text = "\x7btext xt\x7d\x7bte" := by
  intro meeting unclosed m
  have hmeeting : meeting.templates.get? quotingSelfKey = some "\x7bte\x7btext\x7dxt\x7d" := rfl
  have hunclosed : unclosed.templates.get? quotingSelfKey = some "\x7btext" := rfl
  obtain ⟨hplace, -, -⟩ := line_of_quotation (s := meeting) (m := m) rfl hmeeting rfl
  obtain ⟨-, hplain, -⟩ := line_of_quotation (s := unclosed) (m := m) rfl hunclosed rfl
  have hcut : CutInto "\x7bte\x7btext\x7dxt\x7d".toList ['{', 't', 'e'] [['x', 't', '}']] :=
    ⟨by decide, by decide⟩
  obtain ⟨first, rest, -, hunique, -, hline, -⟩ := hplace (by decide)
  obtain ⟨rfl, rfl⟩ := hunique _ _ hcut
  exact ⟨hmeeting, String.toList_inj.1 (hline.trans (by decide)), hunclosed, hplain (by decide)⟩

end Style

end Notifications.Render
