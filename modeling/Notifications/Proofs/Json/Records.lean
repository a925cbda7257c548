import Notifications.Proofs.Json.Values
import Notifications.Proofs.Slots
/-!
Objects read as records. A walk through an object is followed by what the fields met so far come to:
for a record the slots that they fill, for a tagged record its kind and the fields set aside. So the
order of the fields does not matter, nor do fields that the record does not know.
-/
namespace Notifications.Json

open Data (Error Row Schema Slots choose lookup_concat lookup_eq_none)

variable {α β : Type} {s s' : Source}

/-- An object that is closed and has these fields, under the texts of its keys. -/
inductive Fields.Lists : Fields → List (String × Node) → Prop
  | nil : Lists (.last .closed) []
  | cons {key : Quoted} {name : String} {value : Node} {rest : Fields} {l : List (String × Node)}
      (hkey : key.text = .ok name) (hrest : Lists rest l) :
      Lists (.field key value rest) ((name, value) :: l)

theorem Fields.lists_ofList (l : List (String × Node)) : (Fields.ofList l).Lists l := by
  induction l with
  | nil => exact .nil
  | cons f l ih => exact .cons (Quoted.text_ofText f.1) ih

/-- A walk leads from state to state when each field does, after those before it. -/
theorem Fields.Lists.walk_eq {σ : Type} {meet : σ → String → Except Error Unit}
    {take : σ → String → Node → Except Error σ} {content : Fields} {l : List (String × Node)}
    (h : content.Lists l) (state : List (String × Node) → σ)
    (step : ∀ before name n after, l = before ++ (name, n) :: after →
      meet (state before) name = .ok () ∧
        take (state before) name n = .ok (state (before ++ [(name, n)]))) :
    content.walk meet take (state []) = .ok (state l) := by
  suffices walk : ∀ before, (∀ b name n after, before ++ l = b ++ (name, n) :: after →
      meet (state b) name = .ok () ∧ take (state b) name n = .ok (state (b ++ [(name, n)]))) →
      content.walk meet take (state before) = .ok (state (before ++ l)) from walk [] step
  clear step
  -- the induction is on the fields that are left, for any that have been walked through
  induction h with
  | nil =>
    intro before _
    rw [List.append_nil]
    rfl
  | @cons key name value rest l hkey _ ih =>
    intro before step
    obtain ⟨hmeet, htake⟩ := step before name value l rfl
    have hrest := ih (before ++ [(name, value)]) (by simpa using step)
    rw [List.append_assoc] at hrest
    rw [Fields.walk, hkey]
    simp only [ofFault, bind, Except.bind, hmeet, htake]
    exact hrest

namespace Reader

/-- The value of a field, under the source of the record. -/
def partOf (s : Source) (l : List (String × Node)) (name : String) : Option Part :=
  (l.lookup name).map (⟨s, ·⟩)

@[simp] theorem partOf_cons (name : String) (n : Node) (l : List (String × Node)) (key : String) :
    partOf s ((name, n) :: l) key = if key = name then some ⟨s, n⟩ else partOf s l key := by
  rw [partOf]
  by_cases h : key = name
  · rw [h, List.lookup_cons_self, if_pos rfl, Option.map_some]
  · rw [List.lookup_cons, beq_false_of_ne h, if_neg h, partOf]

@[simp] theorem partOf_nil (key : String) : partOf s [] key = none := rfl

theorem partOf_concat (l : List (String × Node)) (name : String) (n : Node) :
    partOf s (l ++ [(name, n)]) = Schema.extend (partOf s l) name ⟨s, n⟩ := by
  funext key
  rw [partOf, lookup_concat, Schema.extend, partOf]
  cases l.lookup key with
  | some n => rfl
  | none => split <;> rfl

/-- The slots that some fields of an object fill. -/
def slotsOf {ts : List Type} (schema : Schema Part ts) (s : Source) (l : List (String × Node)) :
    Slots ts :=
  schema.filled (partOf s l)

/-- The fields of a record in any order, with others between them that are passed over. -/
theorem fields_eq {ts : List Type} {schema : Schema Part ts} {row : Row ts} {content : Fields}
    {l : List (String × Node)} (hcontent : content.Lists l) (distinct : schema.names.Nodup)
    (once : ((l.map (·.1)).filter (· ∈ schema.names)).Nodup)
    (reads : schema.Reads (partOf s l) row)
    (others : ∀ f ∈ l, f.1 ∉ schema.names → f.2.skim = .ok ()) :
    fields schema s content = .ok row := by
  have hempty : schema.empty = slotsOf schema s [] := (schema.filled_none).symm
  have hfinish : schema.finish (slotsOf schema s l) = .ok row := Schema.finish_filled reads
  rw [fields, hempty, hcontent.walk_eq (slotsOf schema s)]
  · exact hfinish
  · intro before name n after hl
    rw [slotsOf, slotsOf, partOf_concat]
    by_cases hname : name ∈ schema.names
    · -- a known name has not been met, so its slot is empty and its value the one in the row
      have hbefore : before.lookup name = none := by
        rw [lookup_eq_none]
        intro hmem
        rw [hl, List.map_append, List.filter_append, List.map_cons,
          List.filter_cons_of_pos (by simpa)] at once
        exact (List.nodup_append.1 once).2.2 name (List.mem_filter.2 ⟨hmem, by simpa⟩) name
          List.mem_cons_self rfl
      have hnone : partOf s before name = none := by rw [partOf, hbefore, Option.map_none]
      have hv : partOf s l name = some ⟨s, n⟩ := by
        rw [partOf, hl, List.lookup_append, hbefore, List.lookup_cons_self, Option.none_or,
          Option.map_some]
      rw [Schema.isFilled_filled schema hnone, Schema.fill_of_mem distinct reads hv hname hnone]
      exact ⟨rfl, rfl⟩
    · rw [Schema.isFilled_of_notMem hname, Schema.fill_of_notMem hname,
        Schema.filled_extend_of_notMem hname, others (name, n) (by simp [hl]) hname]
      exact ⟨rfl, rfl⟩

theorem record_object {ts : List Type} {schema : Schema Part ts} {row : Row ts} {content : Fields}
    (hs : s.enter = .ok s') (hfields : fields schema s' content = .ok row) (title : String) :
    record title schema ⟨s, .object content⟩ = .ok row := by
  rw [record, hs]
  exact hfields

/-- A record as it is written: it has no other fields, and those it has in any order. -/
theorem record_record {ts : List Type} {schema : Schema Part ts} {row : Row ts}
    {l : List (String × Node)} (hs : s.enter = .ok s') (distinct : schema.names.Nodup)
    (once : (l.map (·.1)).Nodup) (known : ∀ name ∈ l.map (·.1), name ∈ schema.names)
    (reads : schema.Reads (partOf s' l) row) (title : String) :
    record title schema ⟨s, .record l⟩ = .ok row := by
  have hfields : fields schema s' (.ofList l) = .ok row := by
    apply fields_eq (Fields.lists_ofList l) distinct (once.filter _) reads
    intro f hf hname
    exact absurd (known f.1 (List.mem_map_of_mem hf)) hname
  exact record_object hs hfields title

/-- The fields beside the tag, and the kind if the tag is among them. -/
def taggedOf (tagName : String) (a : α) (l : List (String × Node)) : Tagged α :=
  ⟨(l.lookup tagName).map fun _ => a,
    ((l.filter (·.1 ≠ tagName)).map fun f => (.ofText f.1, f.2)).reverse⟩

theorem ofReversed_taggedOf (tagName : String) (a : α) (l : List (String × Node)) :
    Fields.ofReversed (.last .closed) (taggedOf tagName a l).fields =
      .ofList (l.filter (·.1 ≠ tagName)) := by
  rw [taggedOf, Fields.ofReversed, List.foldl_reverse, List.foldr_map]
  rfl

theorem taggedOf_concat_tag (tagName : String) (a : α) (l : List (String × Node)) (n : Node) :
    taggedOf tagName a (l ++ [(tagName, n)]) = { taggedOf tagName a l with tag := some a } := by
  rw [taggedOf, lookup_concat, if_pos rfl]
  cases l.lookup tagName <;> simp [taggedOf]

theorem taggedOf_concat_of_ne {tagName name : String} (h : name ≠ tagName) (a : α)
    (l : List (String × Node)) (n : Node) :
    taggedOf tagName a (l ++ [(name, n)]) =
      { taggedOf tagName a l with
        fields := (.ofText name, n) :: (taggedOf tagName a l).fields } := by
  rw [taggedOf, lookup_concat, if_neg (Ne.symm h)]
  simp [taggedOf, h]

/-- A tagged record with its tag at any place: what is read once the kind is known is the record
without its tag. -/
theorem tagged_object {tagName kind : String} {choices : List (String × α)} {a : α}
    {content : Fields} {l : List (String × Node)} (hs : s.enter = .ok s')
    (hcontent : content.Lists l) (once : (l.map (·.1)).count tagName = 1)
    (tag : ∀ f ∈ l, f.1 = tagName → textAs "variant identifier" ⟨s', f.2⟩ = .ok kind)
    (hkind : choices.lookup kind = some a)
    (aside : ∀ f ∈ l, f.1 ≠ tagName → Source.setAside s' f.2 = .ok ())
    (title : String) (body : α → Reader β) :
    tagged title tagName choices body ⟨s, .object content⟩ =
      body a ⟨.buffer, .record (l.filter (·.1 ≠ tagName))⟩ := by
  have hempty : (⟨none, []⟩ : Tagged α) = taggedOf tagName a [] := rfl
  have hfields : taggedFields tagName choices s' content = .ok (taggedOf tagName a l) := by
    rw [taggedFields, hempty, hcontent.walk_eq (taggedOf tagName a)]
    intro before name n after hl
    by_cases hname : name = tagName
    · subst hname
      have hbefore : name ∉ before.map (·.1) := by
        rw [hl, List.map_append, List.map_cons, List.count_append, List.count_cons_self] at once
        exact List.count_eq_zero.1 (by omega)
      have hnone : (taggedOf name a before).tag = none := by
        rw [taggedOf, lookup_eq_none.2 hbefore, Option.map_none]
      have hread := tag (name, n) (by simp [hl]) rfl
      rw [hnone, taggedOf_concat_tag, if_pos rfl, hread]
      simp only [bind, Except.bind, choose, hkind]
      exact ⟨rfl, rfl⟩
    · have haside := aside (name, n) (by simp [hl]) hname
      rw [taggedOf_concat_of_ne hname, if_neg hname, haside, if_neg (mt And.left hname)]
      exact ⟨rfl, rfl⟩
  have htag : (taggedOf tagName a l).tag = some a := by
    have hmem : tagName ∈ l.map (·.1) := List.count_pos_iff.1 (by omega)
    cases hlookup : l.lookup tagName with
    | none => exact absurd hmem (lookup_eq_none.1 hlookup)
    | some n => rw [taggedOf, hlookup, Option.map_some]
  rw [tagged, hs]
  simp only [bind, Except.bind, hfields, htag, ofReversed_taggedOf]
  rfl

/-- A tagged record as it is written, its tag first. -/
theorem tagged_record {tagName kind : String} {choices : List (String × α)} {a : α}
    {l : List (String × Node)} (hs : s.enter = .ok s') (new : tagName ∉ l.map (·.1))
    (hkind : choices.lookup kind = some a) (aside : ∀ f ∈ l, Source.setAside s' f.2 = .ok ())
    (title : String) (body : α → Reader β) :
    tagged title tagName choices body ⟨s, .record ((tagName, .ofText kind) :: l)⟩ =
      body a ⟨.buffer, .record l⟩ := by
  have others : ∀ f ∈ l, f.1 ≠ tagName := fun f hf he => new (he ▸ List.mem_map_of_mem hf)
  have hfilter : ((tagName, Node.ofText kind) :: l).filter (·.1 ≠ tagName) = l := by
    simpa using others
  rw [Node.record, tagged_object hs (Fields.lists_ofList _) _ _ hkind, hfilter]
  · intro f hf hname
    exact aside f ((List.mem_cons.1 hf).resolve_left fun he => hname (he ▸ rfl))
  · rw [List.map_cons, List.count_cons_self, List.count_eq_zero.2 new]
  · intro f hf hname
    obtain rfl := (List.mem_cons.1 hf).resolve_right fun hmem => others f hmem hname
    exact textAs_ofText _ kind s'

end Reader

end Notifications.Json
