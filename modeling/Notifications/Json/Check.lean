import Notifications.Json.Node
/-!
Faults of a tree, met in the order of the text. `Node.skim` passes over a value that nobody wants;
`Node.check` looks at a value that is to be read later: its strings must be text, its numbers must
fit, and it must not be nested too deep.
-/
namespace Notifications.Json

def Broken.fault : Broken → Fault
  | .missing | .word true | .number true => .endInValue
  | .stray => .expectedValue
  | .word false => .expectedWord
  | .number false => .badNumber

/-- Passing over a value does not tell the end of the text from other faults in a number. -/
def Broken.skimFault : Broken → Fault
  | .number _ => .badNumber
  | b => b.fault

/-- The fault at the end of an array whose elements are read one by one. -/
def ArrayEnd.fault? : ArrayEnd → Option Fault
  | .closed => none
  | .missing | .cut => some .endInList
  | .noComma => some .expectedListComma
  | .commaClose => some .trailingComma

def ArrayEnd.skimFault? : ArrayEnd → Option Fault
  | .commaClose => some .expectedValue
  | e => e.fault?

def colonFault (atEnd : Bool) : Fault := if atEnd then .endInObject else .expectedColon

/-- The fault at the end of an object, where a key that has no colon is text already. -/
def ObjectEnd.fault? : ObjectEnd → Option Fault
  | .closed => none
  | .missing | .cut => some .endInObject
  | .noComma => some .expectedObjectComma
  | .commaClose => some .trailingComma
  | .commaEnd => some .endInValue
  | .badKey _ => some .keyNotString
  | .noColon _ atEnd => some (colonFault atEnd)

def ObjectEnd.skimFault? : ObjectEnd → Option Fault
  | .commaClose => some .keyNotString
  | .commaEnd => some .endInObject
  | e => e.fault?

def Fault.orDone : Option Fault → Except Fault Unit
  | none => .ok ()
  | some f => .error f

mutual
def Node.skim : Node → Except Fault Unit
  | .null | .bool _ | .number _ => .ok ()
  | .string q => q.skim
  | .array items => items.skim
  | .object fields => fields.skim
  | .broken b => .error b.skimFault

def Items.skim : Items → Except Fault Unit
  | .last e => Fault.orDone e.skimFault?
  | .item n rest => do n.skim; rest.skim

def Fields.skim : Fields → Except Fault Unit
  | .last e => do
    if let .noColon key _ := e then key.skim
    Fault.orDone e.skimFault?
  | .field key value rest => do key.skim; value.skim; rest.skim
end

/-- The room for nested containers inside one more container. -/
def descend : Nat → Except Fault Nat
  | 0 | 1 => .error .tooDeep
  | depth + 2 => .ok (depth + 1)

def Quoted.check (q : Quoted) : Except Fault Unit := do let _ ← q.text

mutual
def Node.check (depth : Nat) : Node → Except Fault Unit
  | .null | .bool _ => .ok ()
  | .number n => if n.amount?.isSome then .ok () else .error .numberTooLarge
  | .string q => q.check
  | .array items => do items.check (← descend depth)
  | .object fields => do fields.check (← descend depth)
  | .broken b => .error b.fault

def Items.check (depth : Nat) : Items → Except Fault Unit
  | .last e => Fault.orDone e.fault?
  | .item n rest => do n.check depth; rest.check depth

def Fields.check (depth : Nat) : Fields → Except Fault Unit
  | .last e => do
    if let .noColon key _ := e then key.check
    Fault.orDone e.fault?
  | .field key value rest => do key.check; value.check depth; rest.check depth
end

end Notifications.Json
