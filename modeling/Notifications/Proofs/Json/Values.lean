import Mathlib.Data.List.Forall2
import Notifications.Json.Printer
import Notifications.Json.Reader
import Notifications.Proofs.Json.Numbers
import Notifications.Proofs.Json.Strings
/-!
Values read back from the trees they are written as: texts, integers, bytes, choices and lists. Such
a tree can also be set aside where there is room for its containers.
-/
namespace Notifications.Json

variable {α : Type} {s s' : Source} {d : Nat}

theorem enter_text : (Source.text (d + 2)).enter = .ok (.text (d + 1)) := rfl

theorem enter_buffer : Source.buffer.enter = .ok .buffer := rfl

namespace Reader

theorem textAs_ofText (wanted t : String) (s : Source) : textAs wanted ⟨s, .ofText t⟩ = .ok t := by
  rw [Node.ofText, textAs, Quoted.text_ofText]
  rfl

@[simp] theorem text_ofText (t : String) (s : Source) : text ⟨s, .ofText t⟩ = .ok t :=
  textAs_ofText _ t s

@[simp] theorem bool_bool (b : Bool) (s : Source) : bool ⟨s, .bool b⟩ = .ok b := rfl

theorem choice_ofText {choices : List (String × α)} {name : String} {a : α}
    (h : choices.lookup name = some a) (s : Source) : choice choices ⟨s, .ofText name⟩ = .ok a := by
  rw [Node.ofText, choice, Quoted.text_ofText]
  simp only [ofFault, bind, Except.bind, Data.choose, h]

theorem integer_ofInt {k : Int} (hlow : Int64.minValue.toInt ≤ k) (hhigh : k < UInt64.size)
    (wanted : String) (s : Source) : integer wanted ⟨s, .ofInt k⟩ = .ok k := by
  have hinteger := Number.integer?_ofInt hlow hhigh
  simp only [integer, Node.ofInt, hinteger]

theorem bounded_ofInt {low high k : Int} (hlow : Int64.minValue.toInt ≤ low)
    (hhigh : high < UInt64.size) (hk : low ≤ k ∧ k ≤ high) (wanted : String) (s : Source) :
    bounded wanted low high ⟨s, .ofInt k⟩ = .ok k := by
  have hinteger := integer_ofInt (k := k) (by omega) (by omega) wanted s
  simp only [bounded, hinteger, bind, Except.bind, if_pos hk]
  rfl

@[simp] theorem int64_ofInt (k : Int64) (s : Source) : int64 ⟨s, .ofInt k.toInt⟩ = .ok k := by
  rw [int64, bounded_ofInt (Int.le_refl _) (by decide)
    ⟨Int64.minValue_le_toInt k, Int64.toInt_le k⟩]
  exact congrArg Except.ok (Int64.ofInt_toInt k)

theorem byte_ofInt (b : UInt8) (s : Source) : byte ⟨s, .ofInt b.toNat⟩ = .ok b := by
  have hb := b.toNat_lt
  rw [byte, bounded_ofInt (by decide) (by decide) (by omega)]
  exact congrArg Except.ok (UInt8.ofNat_toNat)

/-- A list is read when each of its elements is. -/
theorem items_eq {r : Reader α} {l : List α} {nodes : List Node}
    (h : List.Forall₂ (fun a n => r ⟨s, n⟩ = .ok a) l nodes) :
    items r s (.ofList nodes) = .ok l := by
  induction h with
  | nil => rfl
  | @cons a n l nodes hread _ ih =>
    rw [Items.ofList, List.foldr_cons, items, hread]
    exact congrArg (Functor.map (a :: ·)) ih

theorem items_ofList {r : Reader α} {node : α → Node} {l : List α}
    (h : ∀ a ∈ l, r ⟨s, node a⟩ = .ok a) : items r s (.ofList (l.map node)) = .ok l :=
  items_eq (List.forall₂_map_right_iff.2 (List.forall₂_same.2 h))

theorem list_list {r : Reader α} {node : α → Node} {l : List α} (hs : s.enter = .ok s')
    (h : ∀ a ∈ l, r ⟨s', node a⟩ = .ok a) : list r ⟨s, .list (l.map node)⟩ = .ok l := by
  rw [Node.list, list, hs]
  exact items_ofList h

theorem bytes_list (hs : s.enter = .ok s') (l : List UInt8) :
    bytes ⟨s, .list (l.map fun b => .ofInt b.toNat)⟩ = .ok l := by
  rw [Node.list, bytes, hs]
  exact items_ofList fun b _ => byte_ofInt b s'

end Reader

namespace Node

@[simp] theorem check_ofText (t : String) : (ofText t).check d = .ok () := by
  rw [ofText, check, Quoted.check, Quoted.text_ofText]
  rfl

theorem check_ofInt {k : Int} (hlow : Int64.minValue.toInt ≤ k) (hhigh : k < UInt64.size) :
    (ofInt k).check d = .ok () := by
  rw [ofInt, check, Number.amount?, Number.integer?_ofInt hlow hhigh]
  rfl

theorem check_int64 (k : Int64) : (ofInt k.toInt).check d = .ok () := by
  have hsize : Int64.maxValue.toInt < UInt64.size := by decide
  exact check_ofInt (Int64.minValue_le_toInt k) (Int.lt_of_le_of_lt (Int64.toInt_le k) hsize)

theorem check_byte (b : UInt8) : (ofInt b.toNat).check d = .ok () := by
  have hb := b.toNat_lt
  have hlow : Int64.minValue.toInt ≤ 0 := by decide
  have hhigh : (256 : Int) < UInt64.size := by decide
  exact check_ofInt (by omega) (by omega)

theorem check_list {l : List Node} (h : ∀ n ∈ l, n.check (d + 1) = .ok ()) :
    (list l).check (d + 2) = .ok () := by
  have hitems : (Items.ofList l).check (d + 1) = .ok () := by
    induction l with
    | nil => rfl
    | cons n l ih =>
      rw [List.forall_mem_cons] at h
      rw [Items.ofList, List.foldr_cons, Items.check, h.1]
      exact ih h.2
  exact hitems

theorem check_record {l : List (String × Node)} (h : ∀ f ∈ l, f.2.check (d + 1) = .ok ()) :
    (record l).check (d + 2) = .ok () := by
  have hfields : (Fields.ofList l).check (d + 1) = .ok () := by
    induction l with
    | nil => rfl
    | cons f l ih =>
      rw [List.forall_mem_cons] at h
      rw [Fields.ofList, List.foldr_cons, Fields.check, Quoted.check, Quoted.text_ofText, h.1]
      exact ih h.2
  exact hfields

end Node

end Notifications.Json
