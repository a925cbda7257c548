/-!
Bytes as UTF-8 text. Reading reports where the text stops being well formed: after how many bytes,
and how many bytes make up the part that no longer fits.
-/
namespace Notifications.Text

/-- Where bytes stop being UTF-8: `length` is missing when the input ends inside a character. -/
structure Utf8Fault where
  index : Nat
  length : Option Nat
  deriving DecidableEq, Repr

def Utf8Fault.message (f : Utf8Fault) : String :=
  match f.length with
  | some n => s!"invalid utf-8 sequence of {n} bytes from index {f.index}"
  | none => s!"incomplete utf-8 byte sequence from index {f.index}"

def encodeUtf8 (cs : List Char) : List UInt8 := cs.flatMap String.utf8EncodeChar

/-- The bytes of one text do not come after those of another. -/
def ByteLE (a b : String) : Prop := encodeUtf8 a.toList ≤ encodeUtf8 b.toList

instance (a b : String) : Decidable (ByteLE a b) :=
  inferInstanceAs (Decidable (encodeUtf8 a.toList ≤ encodeUtf8 b.toList))

/-- Texts in the order of their bytes. -/
def sortByBytes (texts : List String) : List String := texts.mergeSort fun a b => ByteLE a b

def isContinuation (b : UInt8) : Bool := 0x80 ≤ b && b ≤ 0xBF

/-- The bytes that may follow the first one: overlong forms, surrogates and values past the last
code point are left out here. -/
def followsLead (lead b : UInt8) : Bool :=
  if lead == 0xE0 then 0xA0 ≤ b && b ≤ 0xBF
  else if lead == 0xED then 0x80 ≤ b && b ≤ 0x9F
  else if lead == 0xF0 then 0x90 ≤ b && b ≤ 0xBF
  else if lead == 0xF4 then 0x80 ≤ b && b ≤ 0x8F
  else isContinuation b

private def low (b : UInt8) : Nat := b.toNat % 64

/-- How many bytes a character has that starts with `lead`, none if no character does. -/
def utf8Width (lead : UInt8) : Nat :=
  if lead < 0x80 then 1
  else if 0xC2 ≤ lead && lead ≤ 0xDF then 2
  else if 0xE0 ≤ lead && lead ≤ 0xEF then 3
  else if 0xF0 ≤ lead && lead ≤ 0xF4 then 4
  else 0

/-- Reads the characters of `bytes`, the first of which stands at `index`. -/
def decodeUtf8 (index : Nat) : List UInt8 → Except Utf8Fault (List Char)
  | [] => .ok []
  | a :: r =>
    match utf8Width a with
    | 1 => (Char.ofNat a.toNat :: ·) <$> decodeUtf8 (index + 1) r
    | 2 =>
      match r with
      | [] => .error ⟨index, none⟩
      | b :: r =>
        if isContinuation b then
          (Char.ofNat (a.toNat % 32 * 64 + low b) :: ·) <$> decodeUtf8 (index + 2) r
        else .error ⟨index, some 1⟩
    | 3 =>
      match r with
      | [] => .error ⟨index, none⟩
      | [b] => .error ⟨index, if followsLead a b then none else some 1⟩
      | b :: c :: r =>
        if !followsLead a b then .error ⟨index, some 1⟩
        else if !isContinuation c then .error ⟨index, some 2⟩
        else
          (Char.ofNat ((a.toNat % 16 * 64 + low b) * 64 + low c) :: ·) <$> decodeUtf8 (index + 3) r
    | 4 =>
      match r with
      | [] => .error ⟨index, none⟩
      | [b] => .error ⟨index, if followsLead a b then none else some 1⟩
      | [b, c] =>
        .error ⟨index,
          if !followsLead a b then some 1 else if isContinuation c then none else some 2⟩
      | b :: c :: d :: r =>
        if !followsLead a b then .error ⟨index, some 1⟩
        else if !isContinuation c then .error ⟨index, some 2⟩
        else if !isContinuation d then .error ⟨index, some 3⟩
        else
          (Char.ofNat (((a.toNat % 8 * 64 + low b) * 64 + low c) * 64 + low d) :: ·) <$>
            decodeUtf8 (index + 4) r
    | _ => .error ⟨index, some 1⟩

end Notifications.Text
