import Notifications.Proofs.Json.Spacing
import Notifications.Json.Reader
/-!
Trees as text. A whole tree is what a complete JSON value has: a text of its tokens scans as them,
the tokens build the tree again, so reading the text is reading the tree. As it is printed the text
has no control characters.
-/
namespace Notifications.Json

mutual
/-- Nothing in the tree is broken off, and its numbers and strings, keys among them, are as they
should be. -/
def Node.All (number : Number → Prop) (string : Quoted → Prop) : Node → Prop
  | .null | .bool _ => True
  | .number n => number n
  | .string q => string q
  | .array items => items.All number string
  | .object fields => fields.All number string
  | .broken _ => False

def Items.All (number : Number → Prop) (string : Quoted → Prop) : Items → Prop
  | .last e => e = .closed
  | .item n rest => n.All number string ∧ rest.All number string

def Fields.All (number : Number → Prop) (string : Quoted → Prop) : Fields → Prop
  | .last e => e = .closed
  | .field key value rest => string key ∧ value.All number string ∧ rest.All number string
end

/-- A tree that a text can have. -/
def Node.IsWhole (n : Node) : Prop := n.All Number.IsWhole Quoted.IsWhole

def Items.IsWhole (items : Items) : Prop := items.All Number.IsWhole Quoted.IsWhole

def Fields.IsWhole (fields : Fields) : Prop := fields.All Number.IsWhole Quoted.IsWhole

mutual
/-- The tokens of the text of a tree. -/
def Node.tokens : Node → List Token
  | .null => [.null]
  | .bool b => [.bool b]
  | .number n => [.number n]
  | .string q => [.string q]
  | .array items => .openArray :: items.tokens true
  | .object fields => .openObject :: fields.tokens true
  | .broken b => [.broken b]

def Items.tokens (first : Bool) : Items → List Token
  | .last _ => [.closeArray]
  | .item n rest => (if first then [] else [.comma]) ++ n.tokens ++ rest.tokens false

def Fields.tokens (first : Bool) : Fields → List Token
  | .last _ => [.closeObject]
  | .field key value rest =>
    (if first then [] else [.comma]) ++ .string key :: .colon :: value.tokens ++ rest.tokens false
end

theorem Items.isWhole_ofList {l : List Node} (h : ∀ n ∈ l, n.IsWhole) :
    (Items.ofList l).IsWhole := by
  induction l with
  | nil => rfl
  | cons n l ih =>
    rw [List.forall_mem_cons] at h
    exact ⟨h.1, ih h.2⟩

theorem Fields.isWhole_ofList {l : List (String × Node)} (h : ∀ f ∈ l, f.2.IsWhole) :
    (Fields.ofList l).IsWhole := by
  induction l with
  | nil => rfl
  | cons f l ih =>
    rw [List.forall_mem_cons] at h
    exact ⟨Quoted.isWhole_ofText f.1, h.1, ih h.2⟩

namespace Node

theorem isWhole_ofText (s : String) : (ofText s).IsWhole := Quoted.isWhole_ofText s

theorem isWhole_ofInt (k : Int) : (ofInt k).IsWhole := Number.isWhole_ofInt k

theorem isWhole_bool (b : Bool) : (bool b).IsWhole := trivial

theorem isWhole_list {l : List Node} (h : ∀ n ∈ l, n.IsWhole) : (list l).IsWhole :=
  Items.isWhole_ofList h

theorem isWhole_record {l : List (String × Node)} (h : ∀ f ∈ l, f.2.IsWhole) : (record l).IsWhole :=
  Fields.isWhole_ofList h

end Node

/-! ### Scanning -/

theorem Items.head_tokens (items : Items) (ts : List Token) :
    ∀ t ∈ (items.tokens false ++ ts).head?, t.EndsValue := by
  intro t ht
  cases items with
  | last e =>
    cases ht
    exact .inr (.inl rfl)
  | item n rest =>
    cases ht
    exact .inl rfl

theorem Fields.head_tokens (fields : Fields) (ts : List Token) :
    ∀ t ∈ (fields.tokens false ++ ts).head?, t.EndsValue := by
  intro t ht
  cases fields with
  | last e =>
    cases ht
    exact .inr (.inr rfl)
  | field key value rest =>
    cases ht
    exact .inl rfl

theorem separated_cons {t : Token} {ts : List Token} (ht : ∀ n, t ≠ .number n) (h : Separated ts) :
    Separated (t :: ts) :=
  ⟨fun ⟨n, hn⟩ => absurd hn (ht n), h⟩

theorem separated_separator (first : Bool) {ts : List Token} (h : Separated ts) :
    Separated ((if first then [] else [.comma]) ++ ts) := by
  cases first with
  | true => exact h
  | false => exact separated_cons (by simp) h

mutual
theorem Node.separated_tokens (n : Node) {ts : List Token} (h : Separated ts)
    (hts : ∀ t ∈ ts.head?, t.EndsValue) : Separated (n.tokens ++ ts) := by
  cases n with
  | null => exact separated_cons (by simp) h
  | bool b => exact separated_cons (by simp) h
  | number n => exact ⟨fun _ => hts, h⟩
  | string q => exact separated_cons (by simp) h
  | array items => exact separated_cons (by simp) (Items.separated_tokens items true h)
  | object fields => exact separated_cons (by simp) (Fields.separated_tokens fields true h)
  | broken b => exact separated_cons (by simp) h

theorem Items.separated_tokens (items : Items) (first : Bool) {ts : List Token} (h : Separated ts) :
    Separated (items.tokens first ++ ts) := by
  cases items with
  | last e => exact separated_cons (by simp) h
  | item n rest =>
    rw [Items.tokens, List.append_assoc, List.append_assoc]
    exact separated_separator first
      (Node.separated_tokens n (Items.separated_tokens rest false h) (rest.head_tokens ts))

theorem Fields.separated_tokens (fields : Fields) (first : Bool) {ts : List Token}
    (h : Separated ts) :
    Separated (fields.tokens first ++ ts) := by
  cases fields with
  | last e => exact separated_cons (by simp) h
  | field key value rest =>
    have hvalue :=
      Node.separated_tokens value (Fields.separated_tokens rest false h) (rest.head_tokens ts)
    rw [Fields.tokens]
    simp only [List.append_assoc, List.cons_append]
    exact separated_separator first (separated_cons (by simp) (separated_cons (by simp) hvalue))
end

theorem spaced_separator (first : Bool) :
    Spaced (if first then [] else [.comma]) (if first then [] else [',']) := by
  cases first with
  | true => exact .nil
  | false => exact Token.Written.comma.spaced

mutual
/-- A tree as it is printed, without blanks. -/
theorem Node.IsWhole.spaced_chars {n : Node} (h : n.IsWhole) : Spaced n.tokens n.chars := by
  cases n with
  | null => exact Token.Written.null.spaced
  | bool b =>
    cases b with
    | true => exact Token.Written.yes.spaced
    | false => exact Token.Written.no.spaced
  | number n => exact (Token.Written.number (Number.IsWhole.written_chars h)).spaced
  | string q => exact (Token.Written.string (Quoted.IsWhole.written_chars h)).spaced
  | array items => exact .token .openArray (Items.IsWhole.spaced_chars h true)
  | object fields => exact .token .openObject (Fields.IsWhole.spaced_chars h true)
  | broken b => exact h.elim

theorem Items.IsWhole.spaced_chars {items : Items} (h : items.IsWhole) (first : Bool) :
    Spaced (items.tokens first) (items.chars first) := by
  cases items with
  | last e => exact Token.Written.closeArray.spaced
  | item n rest =>
    obtain ⟨hn, hrest⟩ := h
    rw [Items.tokens, Items.chars]
    exact ((spaced_separator first).append (Node.IsWhole.spaced_chars hn)).append
      (Items.IsWhole.spaced_chars hrest false)

theorem Fields.IsWhole.spaced_chars {fields : Fields} (h : fields.IsWhole) (first : Bool) :
    Spaced (fields.tokens first) (fields.chars first) := by
  cases fields with
  | last e => exact Token.Written.closeObject.spaced
  | field key value rest =>
    obtain ⟨hkey, hvalue, hrest⟩ := h
    have hmember :
        Spaced (.string key :: .colon :: value.tokens) (key.chars ++ ':' :: value.chars) :=
      .token (.string hkey.written_chars) (.token .colon (Node.IsWhole.spaced_chars hvalue))
    rw [Fields.tokens, Fields.chars]
    simpa only [List.append_assoc, List.cons_append] using
      ((spaced_separator first).append hmember).append (Fields.IsWhole.spaced_chars hrest false)
end

/-! ### Building -/

/-- Goes on once a value is complete. -/
def resume (n : Node) (st : List Frame) (ts : List Token) : Document :=
  match place n st with
  | .done n => ⟨n, !ts.isEmpty⟩
  | .more awaiting st => build awaiting st ts

/-- A value may come next. -/
def Awaiting.TakesValue (awaiting : Awaiting) : Prop :=
  awaiting = .value ∨ awaiting = .firstItem ∨ awaiting = .nextItem

theorem Awaiting.TakesValue.move_eq {awaiting : Awaiting} (h : awaiting.TakesValue) {t : Token}
    (ht : t ≠ .closeArray) (st : List Frame) : move st awaiting t = beginValue st t := by
  rcases h with rfl | rfl | rfl
  · rfl
  all_goals
    cases t with
    | closeArray => exact absurd rfl ht
    | _ => rfl

theorem build_completes {awaiting : Awaiting} {st st' : List Frame} {t : Token} {n : Node}
    (h : move st awaiting t = .completes n st') (ts : List Token) :
    build awaiting st (t :: ts) = resume n st' ts := by
  rw [build, h]
  rfl

theorem build_leads {awaiting awaiting' : Awaiting} {st st' : List Frame} {t : Token}
    (h : move st awaiting t = .leads awaiting' st') (ts : List Token) :
    build awaiting st (t :: ts) = build awaiting' st' ts := by
  rw [build, h]

theorem build_opens {awaiting awaiting' : Awaiting} {st : List Frame} {t : Token} {f : Frame}
    (h : move st awaiting t = .opens awaiting' f) (ts : List Token) :
    build awaiting st (t :: ts) = build awaiting' (f :: st) ts := by
  rw [build, h]

mutual
theorem Node.IsWhole.build_tokens {n : Node} (h : n.IsWhole) {awaiting : Awaiting}
    (ha : awaiting.TakesValue) (st : List Frame) (ts : List Token) :
    build awaiting st (n.tokens ++ ts) = resume n st ts := by
  have hmove := fun t ht => ha.move_eq (t := t) ht st
  cases n with
  | null => exact build_completes (hmove .null (by simp)) ts
  | bool b => exact build_completes (hmove (.bool b) (by simp)) ts
  | number n => exact build_completes (hmove (.number n) (by simp)) ts
  | string q => exact build_completes (hmove (.string q) (by simp)) ts
  | array items =>
    rw [Node.tokens, List.cons_append, build_opens (hmove .openArray (by simp))]
    exact Items.IsWhole.build_tokens h true [] st ts
  | object fields =>
    rw [Node.tokens, List.cons_append, build_opens (hmove .openObject (by simp))]
    exact Fields.IsWhole.build_tokens h true [] st ts
  | broken b => exact h.elim

theorem Items.IsWhole.build_tokens {items : Items} (h : items.IsWhole) (first : Bool)
    (done : List Node) (st : List Frame) (ts : List Token) :
    build (if first then .firstItem else .itemEnd) (.array done :: st) (items.tokens first ++ ts) =
      resume (.array (.ofReversed items done)) st ts := by
  cases items with
  | last e =>
    obtain rfl : e = .closed := h
    cases first <;> exact build_completes rfl ts
  | item n rest =>
    obtain ⟨hn, hrest⟩ := h
    -- the item is placed in the open array, and the rest is built after it
    have item : ∀ awaiting : Awaiting, awaiting.TakesValue →
        build awaiting (.array done :: st) (n.tokens ++ (rest.tokens false ++ ts)) =
          resume (.array (.ofReversed (.item n rest) done)) st ts := by
      intro awaiting ha
      rw [Node.IsWhole.build_tokens hn ha]
      exact Items.IsWhole.build_tokens hrest false (n :: done) st ts
    rw [Items.tokens, List.append_assoc, List.append_assoc]
    cases first with
    | true => exact item .firstItem (by simp [Awaiting.TakesValue])
    | false =>
      simp only [Bool.false_eq_true, if_false, List.singleton_append]
      rw [build_leads rfl]
      exact item .nextItem (by simp [Awaiting.TakesValue])

theorem Fields.IsWhole.build_tokens {fields : Fields} (h : fields.IsWhole) (first : Bool)
    (done : List (Quoted × Node)) (st : List Frame) (ts : List Token) :
    build (if first then .firstKey else .fieldEnd) (.object done :: st)
        (fields.tokens first ++ ts) =
      resume (.object (.ofReversed fields done)) st ts := by
  cases fields with
  | last e =>
    obtain rfl : e = .closed := h
    cases first <;> exact build_completes rfl ts
  | field key value rest =>
    obtain ⟨-, hvalue, hrest⟩ := h
    have member : build (.colon key) (.object done :: st)
        (.colon :: (value.tokens ++ (rest.tokens false ++ ts))) =
          resume (.object (.ofReversed (.field key value rest) done)) st ts := by
      rw [build_leads rfl, Node.IsWhole.build_tokens hvalue (Or.inl rfl)]
      exact Fields.IsWhole.build_tokens hrest false ((key, value) :: done) st ts
    rw [Fields.tokens]
    simp only [List.append_assoc, List.cons_append]
    cases first with
    | true => exact member
    | false =>
      simp only [Bool.false_eq_true, if_false, List.singleton_append]
      rw [build_leads rfl, build_leads rfl]
      exact member
end

/-- A text of a whole tree has that tree, and nothing follows in it. -/
theorem Node.IsWhole.ofChars_spaced {n : Node} {cs : List Char} (h : n.IsWhole)
    (hcs : Spaced n.tokens cs) :
    Document.ofChars cs = ⟨n, false⟩ := by
  have hseparated : Separated (n.tokens ++ []) := n.separated_tokens trivial (by simp)
  have hvalue : Awaiting.value.TakesValue := Or.inl rfl
  have hbuild := h.build_tokens hvalue [] []
  rw [List.append_nil] at hseparated hbuild
  rw [Document.ofChars, Json.tokens, hcs.scan_eq hseparated]
  exact hbuild

/-- To read a text of a whole tree is to read the tree. -/
theorem Node.IsWhole.readChars_spaced {α : Type} {n : Node} {cs : List Char} (h : n.IsWhole)
    (hcs : Spaced n.tokens cs) (r : Reader α) : readChars r cs = r ⟨.text maxDepth, n⟩ := by
  rw [readChars, h.ofChars_spaced hcs]
  cases r ⟨.text maxDepth, n⟩ <;> rfl

theorem Node.IsWhole.readChars_chars {α : Type} {n : Node} (h : n.IsWhole) (r : Reader α) :
    readChars r n.chars = r ⟨.text maxDepth, n⟩ :=
  h.readChars_spaced h.spaced_chars r

/-! ### Control characters -/

theorem isControl_all {cs : List Char} (h : cs.all (fun c => !isControl c) = true) :
    ∀ c ∈ cs, isControl c = false := by
  simpa using h

theorem isControl_separator (first : Bool) :
    ∀ c ∈ (if first then [] else [',']), isControl c = false := by
  cases first with
  | true => exact isControl_all rfl
  | false => exact isControl_all rfl

mutual
theorem Node.IsWhole.isControl_chars {n : Node} (h : n.IsWhole) :
    ∀ c ∈ n.chars, isControl c = false := by
  cases n with
  | null => exact isControl_all rfl
  | bool b => cases b <;> exact isControl_all rfl
  | number n => exact Number.IsWhole.isControl_chars h
  | string q => exact Quoted.IsWhole.isControl_chars h
  | array items =>
    rw [Node.chars, List.forall_mem_cons]
    exact ⟨rfl, Items.IsWhole.isControl_chars h true⟩
  | object fields =>
    rw [Node.chars, List.forall_mem_cons]
    exact ⟨rfl, Fields.IsWhole.isControl_chars h true⟩
  | broken b => exact h.elim

theorem Items.IsWhole.isControl_chars {items : Items} (h : items.IsWhole) (first : Bool) :
    ∀ c ∈ items.chars first, isControl c = false := by
  cases items with
  | last e => exact List.forall_mem_singleton.2 rfl
  | item n rest =>
    obtain ⟨hn, hrest⟩ := h
    rw [Items.chars, List.forall_mem_append, List.forall_mem_append]
    exact ⟨⟨isControl_separator first, Node.IsWhole.isControl_chars hn⟩,
      Items.IsWhole.isControl_chars hrest false⟩

theorem Fields.IsWhole.isControl_chars {fields : Fields} (h : fields.IsWhole) (first : Bool) :
    ∀ c ∈ fields.chars first, isControl c = false := by
  cases fields with
  | last e => exact List.forall_mem_singleton.2 rfl
  | field key value rest =>
    obtain ⟨hkey, hvalue, hrest⟩ := h
    rw [Fields.chars]
    simp only [List.forall_mem_append, List.forall_mem_cons]
    exact ⟨⟨⟨isControl_separator first, hkey.isControl_chars⟩, rfl,
      Node.IsWhole.isControl_chars hvalue⟩, Fields.IsWhole.isControl_chars hrest false⟩
end

end Notifications.Json
