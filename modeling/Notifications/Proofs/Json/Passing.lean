import Notifications.Proofs.Json.Trees
/-!
Values that nobody wants. Any whole one is passed over. One that is set aside, to be read later or
not at all, has to be more: its strings spell texts, its numbers can be represented, and there is
room for its containers.
-/
namespace Notifications.Json

variable {number number' : Number → Prop} {string string' : Quoted → Prop}

mutual
/-- How deep the containers of a tree are nested. -/
def Node.nesting : Node → Nat
  | .null | .bool _ | .number _ | .string _ | .broken _ => 0
  | .array items => items.nesting + 1
  | .object fields => fields.nesting + 1

def Items.nesting : Items → Nat
  | .last _ => 0
  | .item n rest => max n.nesting rest.nesting

def Fields.nesting : Fields → Nat
  | .last _ => 0
  | .field _ value rest => max value.nesting rest.nesting
end

mutual
theorem Node.All.imp {n : Node} (h : n.All number string) (hnumber : ∀ k, number k → number' k)
    (hstring : ∀ q, string q → string' q) : n.All number' string' := by
  cases n with
  | null => trivial
  | bool b => trivial
  | number k => exact hnumber k h
  | string q => exact hstring q h
  | array items => exact Items.All.imp h hnumber hstring
  | object fields => exact Fields.All.imp h hnumber hstring
  | broken b => exact h.elim

theorem Items.All.imp {items : Items} (h : items.All number string)
    (hnumber : ∀ k, number k → number' k)
    (hstring : ∀ q, string q → string' q) : items.All number' string' := by
  cases items with
  | last e => exact h
  | item n rest => exact ⟨Node.All.imp h.1 hnumber hstring, Items.All.imp h.2 hnumber hstring⟩

theorem Fields.All.imp {fields : Fields} (h : fields.All number string)
    (hnumber : ∀ k, number k → number' k)
    (hstring : ∀ q, string q → string' q) : fields.All number' string' := by
  cases fields with
  | last e => exact h
  | field key value rest =>
    exact ⟨hstring key h.1, Node.All.imp h.2.1 hnumber hstring,
      Fields.All.imp h.2.2 hnumber hstring⟩
end

theorem Quoted.IsWhole.skim_eq {q : Quoted} (h : q.IsWhole) : q.skim = .ok () := by
  obtain ⟨pieces, ending⟩ := q
  obtain ⟨rfl, hproper⟩ := h
  rw [skim, if_neg]
  · rfl
  · rw [Bool.not_eq_true, List.any_eq_false]
    intro p hp
    have hp := hproper p hp
    cases p with
    | plain c => simpa [isControl] using hp.2.2
    | escape c => simp
    | unit n => simp

mutual
theorem Node.IsWhole.skim_eq {n : Node} (h : n.IsWhole) : n.skim = .ok () := by
  cases n with
  | null => rfl
  | bool b => rfl
  | number k => rfl
  | string q => exact Quoted.IsWhole.skim_eq h
  | array items => exact Items.IsWhole.skim_eq h
  | object fields => exact Fields.IsWhole.skim_eq h
  | broken b => exact h.elim

theorem Items.IsWhole.skim_eq {items : Items} (h : items.IsWhole) : items.skim = .ok () := by
  cases items with
  | last e =>
    obtain rfl : e = .closed := h
    rfl
  | item n rest =>
    obtain ⟨hn, hrest⟩ := h
    rw [Items.skim, Node.IsWhole.skim_eq hn]
    exact Items.IsWhole.skim_eq hrest

theorem Fields.IsWhole.skim_eq {fields : Fields} (h : fields.IsWhole) : fields.skim = .ok () := by
  cases fields with
  | last e =>
    obtain rfl : e = .closed := h
    rfl
  | field key value rest =>
    obtain ⟨hkey, hvalue, hrest⟩ := h
    rw [Fields.skim, hkey.skim_eq, Node.IsWhole.skim_eq hvalue]
    exact Fields.IsWhole.skim_eq hrest
end

/-- A number that is whole and can be represented. -/
def Number.IsSound (k : Number) : Prop := k.IsWhole ∧ k.amount?.isSome

/-- A string that spells a text. -/
def Quoted.IsSound (q : Quoted) : Prop := ∃ s, q.Spells s

theorem Quoted.IsSound.check_eq {q : Quoted} (h : q.IsSound) : q.check = .ok () := by
  obtain ⟨s, hs⟩ := h
  rw [check, hs.text_eq]
  rfl

/-- One container more takes one level of the room. -/
theorem exists_descend {k d : Nat} (h : k + 1 < d) : ∃ d', descend d = .ok d' ∧ k < d' := by
  obtain ⟨e, rfl⟩ : ∃ e, d = e + 2 := ⟨d - 2, by omega⟩
  exact ⟨e + 1, rfl, by omega⟩

mutual
theorem Node.All.check_eq {n : Node} {d : Nat} (h : n.All Number.IsSound Quoted.IsSound)
    (hd : n.nesting < d) :
    n.check d = .ok () := by
  cases n with
  | null => rfl
  | bool b => rfl
  | number k =>
    obtain ⟨-, hk⟩ : k.IsSound := h
    rw [Node.check, if_pos hk]
  | string q => exact Quoted.IsSound.check_eq h
  | array items =>
    obtain ⟨d', hdescend, hd'⟩ := exists_descend hd
    rw [Node.check, hdescend]
    exact Items.All.check_eq h hd'
  | object fields =>
    obtain ⟨d', hdescend, hd'⟩ := exists_descend hd
    rw [Node.check, hdescend]
    exact Fields.All.check_eq h hd'
  | broken b => exact h.elim

theorem Items.All.check_eq {items : Items} {d : Nat} (h : items.All Number.IsSound Quoted.IsSound)
    (hd : items.nesting < d) : items.check d = .ok () := by
  cases items with
  | last e =>
    obtain rfl : e = .closed := h
    rfl
  | item n rest =>
    obtain ⟨hn, hrest⟩ := h
    rw [Items.nesting, Nat.max_lt] at hd
    rw [Items.check, Node.All.check_eq hn hd.1]
    exact Items.All.check_eq hrest hd.2

theorem Fields.All.check_eq {fields : Fields} {d : Nat}
    (h : fields.All Number.IsSound Quoted.IsSound)
    (hd : fields.nesting < d) : fields.check d = .ok () := by
  cases fields with
  | last e =>
    obtain rfl : e = .closed := h
    rfl
  | field key value rest =>
    obtain ⟨hkey, hvalue, hrest⟩ := h
    rw [Fields.nesting, Nat.max_lt] at hd
    rw [Fields.check, hkey.check_eq, Node.All.check_eq hvalue hd.1]
    exact Fields.All.check_eq hrest hd.2
end

/-- A value that can stand inside `depth` containers where it is set aside. -/
structure Node.Fits (depth : Nat) (n : Node) : Prop where
  sound : n.All Number.IsSound Quoted.IsSound
  room : depth + n.nesting < maxDepth

/-- As far as its numbers and containers go the value can stand there; what its strings spell is
left open. -/
structure Node.IsWellFormed (depth : Nat) (n : Node) : Prop where
  sound : n.All Number.IsSound Quoted.IsWhole
  room : depth + n.nesting < maxDepth

theorem Node.Fits.isWhole {n : Node} {depth : Nat} (h : n.Fits depth) : n.IsWhole :=
  h.sound.imp (fun _ hk => hk.1) fun _ ⟨_, hs⟩ => hs.1

theorem Node.Fits.check_eq {n : Node} {depth d : Nat} (h : n.Fits depth)
    (hd : maxDepth ≤ depth + d) :
    n.check d = .ok () := by
  have hroom := h.room
  exact h.sound.check_eq (by omega)

end Notifications.Json
