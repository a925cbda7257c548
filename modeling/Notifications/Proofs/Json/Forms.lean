import Mathlib.Data.List.Nodup
import Notifications.Proofs.Json.Passing
import Notifications.Proofs.Json.Records
/-!
The forms an object may have. Each field has a name and values that may stand under it, and some may
be left out; the order of the fields is free, and others may stand between them. An object in any
such form is read as the same record.
-/
namespace Notifications.Json

open Data (Error Field Row Schema lookup_eq_none lookup_filter_ne)

variable {n : Node} {others P : Node → Prop} {l : List (String × Node)} {s s' : Source}
  {number : Number → Prop} {string : Quoted → Prop}

/-- The node is a string that spells the text. -/
def Node.Spells (text : String) (n : Node) : Prop := ∃ q, n = .string q ∧ q.Spells text

/-- A field that an object may have, or must have if it is not optional. -/
structure FieldForm where
  name : String
  value : Node → Prop
  optional : Prop

namespace FieldForm

def required (name : String) (value : Node → Prop) : FieldForm := ⟨name, value, False⟩

/-- What may be found under the name. -/
def Allows (f : FieldForm) : Option Node → Prop
  | some n => f.value n
  | none => f.optional

end FieldForm

variable {form : FieldForm} {forms : List FieldForm}

/-- The fields of an object: each of those that it may have stands there once at most, in a form of
its own, and the values of the others are as they may be. -/
structure Shown (forms : List FieldForm) (others : Node → Prop) (l : List (String × Node)) :
    Prop where
  once : ((l.map (·.1)).filter (· ∈ forms.map (·.name))).Nodup
  allowed : ∀ f ∈ forms, f.Allows (l.lookup f.name)
  others : ∀ f ∈ l, f.1 ∉ forms.map (·.name) → others f.2

/-- The object is closed and has these fields, the keys spelling their names. -/
inductive Fields.Spell : Fields → List (String × Node) → Prop
  | nil : Spell (.last .closed) []
  | cons {key : Quoted} {name : String} {value : Node} {rest : Fields} {l : List (String × Node)}
      (hkey : key.Spells name) (hrest : Spell rest l) :
      Spell (.field key value rest) ((name, value) :: l)

/-- An object in one of its forms. -/
def Node.IsObject (forms : List FieldForm) (others : Node → Prop) (n : Node) : Prop :=
  ∃ content l, n = .object content ∧ content.Spell l ∧ Shown forms others l

namespace Shown

theorem lookup_of_mem (h : Shown forms others l) {name : String} (hf : (name, n) ∈ l)
    (hname : name ∈ forms.map (·.name)) : l.lookup name = some n := by
  obtain ⟨before, after, rfl⟩ := List.append_of_mem hf
  have hbefore : before.lookup name = none := by
    rw [lookup_eq_none]
    intro hmem
    have once := h.once
    rw [List.map_append, List.filter_append, List.map_cons,
      List.filter_cons_of_pos (by simpa using hname)] at once
    have hfirst : name ∈ (before.map (·.1)).filter (· ∈ forms.map (·.name)) :=
      List.mem_filter.2 ⟨hmem, decide_eq_true hname⟩
    exact (List.nodup_append.1 once).2.2 name hfirst name List.mem_cons_self rfl
  rw [List.lookup_append, hbefore, List.lookup_cons_self, Option.none_or]

theorem value_of_mem (h : Shown forms others l) (hform : form ∈ forms) (hf : (form.name, n) ∈ l) :
    form.value n := by
  have hallowed := h.allowed form hform
  rwa [h.lookup_of_mem hf (List.mem_map_of_mem hform)] at hallowed

/-- What holds of the values of all forms, and of the others, holds of all values. -/
theorem forall_value (h : Shown forms others l) (hforms : ∀ f ∈ forms, ∀ n, f.value n → P n)
    (hothers : ∀ n, others n → P n) : ∀ f ∈ l, P f.2 := by
  intro f hf
  by_cases hname : f.1 ∈ forms.map (·.name)
  · obtain ⟨form, hform, hf1⟩ := List.mem_map.1 hname
    exact hforms form hform f.2 (h.value_of_mem hform (hf1 ▸ hf))
  · exact hothers f.2 (h.others f hf hname)

/-- Without the tag the fields are those of the record that is tagged. -/
theorem without_tag {tag : FieldForm} (h : Shown (tag :: forms) others l)
    (hnew : tag.name ∉ forms.map (·.name)) :
    Shown forms others (l.filter (·.1 ≠ tag.name)) where
  once := by
    have hnames : ((l.filter (·.1 ≠ tag.name)).map (·.1)).Sublist (l.map (·.1)) :=
      List.filter_sublist.map _
    refine h.once.sublist
      ((hnames.filter _).trans (List.monotone_filter_right _ fun name hname => ?_))
    exact decide_eq_true (List.mem_cons_of_mem _ (of_decide_eq_true hname))
  allowed f hf := by
    have hne : f.name ≠ tag.name := fun he => hnew (he ▸ List.mem_map_of_mem hf)
    rw [lookup_filter_ne hne]
    exact h.allowed f (List.mem_cons_of_mem _ hf)
  others f hf hname := by
    obtain ⟨hmem, hne⟩ := List.mem_filter.1 hf
    refine h.others f hmem fun htag => ?_
    rcases List.mem_cons.1 htag with he | hforms
    · exact of_decide_eq_true hne he
    · exact hname hforms

theorem count_tag {tag : FieldForm} (h : Shown (tag :: forms) others l) (hneeded : ¬ tag.optional) :
    (l.map (·.1)).count tag.name = 1 := by
  have hallowed := h.allowed tag List.mem_cons_self
  have hmem : tag.name ∈ l.map (·.1) := by
    by_contra hnone
    rw [lookup_eq_none.2 hnone] at hallowed
    exact hneeded hallowed
  let known (name : String) : Bool := name ∈ (tag :: forms).map (·.name)
  have hknown : known tag.name = true := decide_eq_true List.mem_cons_self
  have hcount := List.count_eq_one_of_mem h.once (List.mem_filter.2 ⟨hmem, hknown⟩)
  exact (List.count_filter (p := known) hknown).symm.trans hcount

end Shown

namespace Fields.Spell

variable {content : Fields}

theorem lists (h : content.Spell l) : content.Lists l := by
  induction h with
  | nil => exact .nil
  | cons hkey _ ih => exact .cons hkey.text_eq ih

theorem all (h : content.Spell l) (hkeys : ∀ q : Quoted, q.IsSound → string q)
    (hvalues : ∀ f ∈ l, f.2.All number string) : content.All number string := by
  induction h with
  | nil => rfl
  | cons hkey _ ih =>
    rw [List.forall_mem_cons] at hvalues
    exact ⟨hkeys _ ⟨_, hkey⟩, hvalues.1, ih hvalues.2⟩

theorem nesting_lt (h : content.Spell l) {d : Nat} (hd : 0 < d)
    (hvalues : ∀ f ∈ l, f.2.nesting < d) :
    content.nesting < d := by
  induction h with
  | nil => exact hd
  | cons _ _ ih =>
    rw [List.forall_mem_cons] at hvalues
    exact Nat.max_lt.2 ⟨hvalues.1, ih hvalues.2⟩

end Fields.Spell

theorem Node.spells_ofText (text : String) : (Node.ofText text).Spells text :=
  ⟨_, rfl, Quoted.spells_ofText text⟩

theorem Fields.spell_ofList (l : List (String × Node)) : (Fields.ofList l).Spell l := by
  induction l with
  | nil => exact .nil
  | cons f l ih => exact .cons (Quoted.spells_ofText f.1) ih

theorem Node.Spells.isWhole {text : String} (h : n.Spells text) : n.IsWhole := by
  obtain ⟨q, rfl, hq⟩ := h
  exact hq.1

theorem Node.Spells.fits {text : String} {depth : Nat} (h : n.Spells text)
    (hdepth : depth < maxDepth) :
    n.Fits depth := by
  obtain ⟨q, rfl, hq⟩ := h
  exact ⟨⟨text, hq⟩, hdepth⟩

theorem Node.fits_bool {depth : Nat} (b : Bool) (hdepth : depth < maxDepth) :
    (Node.bool b).Fits depth :=
  ⟨trivial, hdepth⟩

theorem Node.fits_int64 {depth : Nat} (k : Int64) (hdepth : depth < maxDepth) :
    (Node.ofInt k.toInt).Fits depth := by
  have hsize : Int64.maxValue.toInt < UInt64.size := by decide
  have hinteger := Number.integer?_ofInt (Int64.minValue_le_toInt k)
    (Int.lt_of_le_of_lt (Int64.toInt_le k) hsize)
  have hamount : (Number.ofInt k.toInt).amount?.isSome := by
    rw [Number.amount?, hinteger]
    rfl
  exact ⟨⟨Number.isWhole_ofInt _, hamount⟩, hdepth⟩

theorem Node.isObject_record (h : Shown forms others l) : (Node.record l).IsObject forms others :=
  ⟨_, l, rfl, Fields.spell_ofList l, h⟩

namespace Node.IsObject

theorem isWhole (h : n.IsObject forms others) (hforms : ∀ f ∈ forms, ∀ n, f.value n → n.IsWhole)
    (hothers : ∀ n, others n → n.IsWhole) : n.IsWhole := by
  obtain ⟨content, l, rfl, hspell, hshown⟩ := h
  exact hspell.all (fun q ⟨s, hs⟩ => hs.1) (hshown.forall_value hforms hothers)

theorem fits {depth : Nat} (h : n.IsObject forms others) (hdepth : depth + 1 < maxDepth)
    (hforms : ∀ f ∈ forms, ∀ n, f.value n → n.Fits (depth + 1))
    (hothers : ∀ n, others n → n.Fits (depth + 1)) :
    n.Fits depth := by
  obtain ⟨content, l, rfl, hspell, hshown⟩ := h
  have hvalues := hshown.forall_value hforms hothers
  have hnesting : content.nesting < maxDepth - (depth + 1) := by
    refine hspell.nesting_lt (by omega) fun f hf => ?_
    have hroom := (hvalues f hf).room
    omega
  refine ⟨hspell.all (fun q hq => hq) fun f hf => (hvalues f hf).sound, ?_⟩
  rw [Node.nesting]
  omega

end Node.IsObject

/-! ### Reading -/

namespace Reader

theorem textAs_spells {text : String} (h : n.Spells text) (wanted : String) (s : Source) :
    textAs wanted ⟨s, n⟩ = .ok text := by
  obtain ⟨q, rfl, hq⟩ := h
  rw [textAs, hq.text_eq]
  rfl

theorem text_spells {text : String} (h : n.Spells text) (s : Source) :
    Reader.text ⟨s, n⟩ = .ok text :=
  textAs_spells h _ s

theorem choice_spells {α : Type} {choices : List (String × α)} {name : String} {a : α}
    (h : n.Spells name)
    (ha : choices.lookup name = some a) (s : Source) : choice choices ⟨s, n⟩ = .ok a := by
  obtain ⟨q, rfl, hq⟩ := h
  rw [choice, hq.text_eq]
  simp only [ofFault, bind, Except.bind, Data.choose, ha]

end Reader

open Reader (partOf)

theorem Shown.takes {α : Type} {field : Field Part α} {a : α} (h : Shown forms others l)
    (hform : form ∈ forms)
    (hname : field.name = form.name) (hvalue : ∀ n, form.value n → field.read ⟨s, n⟩ = .ok a)
    (habsent : form.optional → field.absent = some a) : field.Takes a (partOf s l field.name) := by
  have hallowed := h.allowed form hform
  rw [hname, partOf]
  cases hlookup : l.lookup form.name with
  | none =>
    rw [hlookup] at hallowed
    exact habsent hallowed
  | some n =>
    rw [hlookup] at hallowed
    exact hvalue n hallowed

theorem Shown.takes_required {α : Type} {field : Field Part α} {a : α} {value : Node → Prop}
    {name : String}
    (h : Shown forms others l) (hform : .required name value ∈ forms) (hname : field.name = name)
    (hvalue : ∀ n, value n → field.read ⟨s, n⟩ = .ok a) : field.Takes a (partOf s l field.name) :=
  h.takes hform hname hvalue False.elim

theorem Node.IsObject.record_eq {ts : List Type} {schema : Schema Part ts} {row : Row ts}
    (h : n.IsObject forms others) (hs : s.enter = .ok s')
    (names : schema.names = forms.map (·.name))
    (distinct : schema.names.Nodup) (hothers : ∀ n, others n → n.IsWhole)
    (reads : ∀ l, Shown forms others l → schema.Reads (partOf s' l) row) (title : String) :
    Reader.record title schema ⟨s, n⟩ = .ok row := by
  obtain ⟨content, l, rfl, hspell, hshown⟩ := h
  refine Reader.record_object hs
    (Reader.fields_eq hspell.lists distinct ?_ (reads l hshown) ?_) title
  · rw [names]
    exact hshown.once
  · intro f hf hname
    rw [names] at hname
    exact (hothers f.2 (hshown.others f hf hname)).skim_eq

end Notifications.Json
