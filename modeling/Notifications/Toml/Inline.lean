import Notifications.Toml.Scalar
import Notifications.Toml.Token
/-!
Keys and values out of the tokens of a line. Values nest in brackets and braces; the open ones are
kept on a stack while the tokens are read one after another.
-/
namespace Notifications.Toml

/-- Keys have fewer names than this, and values are nested less deep. -/
def depthLimit : Nat := 80

/-- The names of a dotted key read so far, newest first, and whether a name comes next. -/
structure KeyPart where
  names : List String
  wantsName : Bool

namespace KeyPart

def start : KeyPart := ⟨[], true⟩

def addName (k : KeyPart) (name : String) : Option KeyPart :=
  if k.wantsName then some ⟨name :: k.names, false⟩ else none

def addDot (k : KeyPart) : Option KeyPart :=
  if k.wantsName then none else some { k with wantsName := true }

/-- Adds the bare names and dots of a word; `name` is the part of a name before them. -/
def addWord (name : List Char) : List Char → KeyPart → Option KeyPart
  | [], k => if name.isEmpty then some k else k.addName (String.ofList name)
  | '.' :: r, k => do
    let k ← if name.isEmpty then some k else k.addName (String.ofList name)
    addWord [] r (← k.addDot)
  | c :: r, k => if isBare c then addWord (name ++ [c]) r k else none

def addToken (k : KeyPart) : Token → Option KeyPart
  | .word cs => addWord [] cs k
  | .text false s => k.addName s
  | .space | .tab => some k
  | _ => none

def finish (k : KeyPart) : Option Key :=
  match k.names with
  | [] => none
  | name :: path =>
    if k.wantsName ∨ depthLimit ≤ k.names.length then none else some ⟨path.reverse, name⟩

end KeyPart

def Key.ofTokens (ts : List Token) : Option Key := do
  (← ts.foldlM KeyPart.addToken .start).finish

/-- A container that is open, with what it holds so far, newest first. -/
inductive Frame
  | array (done : List Value)
  | table (done : List Assignment)
  /-- A table in which the value of `key` comes next. -/
  | member (done : List Assignment) (key : Key)

/-- What may come next in the innermost open container. -/
inductive Awaiting
  | value
  | item | itemEnd
  /-- A key, or the closing brace if `first`. -/
  | key (first : Bool) (k : KeyPart)
  | fieldEnd
  | nothing (v : Value)

structure Partial where
  awaiting : Awaiting
  stack : List Frame

namespace Partial

def start : Partial := ⟨.value, []⟩

/-- A value is complete. -/
def place (v : Value) : List Frame → Option Partial
  | [] => some ⟨.nothing v, []⟩
  | .array done :: st => some ⟨.itemEnd, .array (v :: done) :: st⟩
  | .member done key :: st => some ⟨.fieldEnd, .table (⟨key, v⟩ :: done) :: st⟩
  | .table _ :: _ => none

def openWith (awaiting : Awaiting) (f : Frame) (st : List Frame) : Option Partial :=
  if depthLimit ≤ st.length + 1 then none else some ⟨awaiting, f :: st⟩

def closeArray : List Frame → Option Partial
  | .array done :: st => place (.array done.reverse) st
  | _ => none

def closeTable : List Frame → Option Partial
  | .table done :: st => do place (.table .inline (← Fields.assignAll [] done.reverse)) st
  | _ => none

/-- A token where a value should begin. -/
def beginValue (st : List Frame) : Token → Option Partial
  | .word cs => do place (← scalar? cs) st
  | .text _ s => place (.text s) st
  | .openArray => openWith .item (.array []) st
  | .openTable => openWith (.key true .start) (.table []) st
  | _ => none

/-- The value of `key` comes next. -/
def beginMember (key : Key) : List Frame → Option Partial
  | .table done :: st => some ⟨.value, .member done key :: st⟩
  | _ => none

/-- A token that is no white space; inside an array a newline is white space too. -/
def stepToken (p : Partial) (t : Token) : Option Partial :=
  match p.awaiting, t with
  | .value, t => beginValue p.stack t
  | .item, .closeArray => closeArray p.stack
  | .item, t => beginValue p.stack t
  | .itemEnd, .comma => some ⟨.item, p.stack⟩
  | .itemEnd, .closeArray => closeArray p.stack
  | .itemEnd, _ => none
  | .key first k, .closeTable =>
    if first && k.names.isEmpty && k.wantsName then closeTable p.stack else none
  | .key _ k, .equals => do beginMember (← k.finish) p.stack
  | .key _ k, t => (k.addToken t).map fun k => ⟨.key false k, p.stack⟩
  | .fieldEnd, .comma => some ⟨.key false .start, p.stack⟩
  | .fieldEnd, .closeTable => closeTable p.stack
  | .fieldEnd, _ => none
  | .nothing _, _ => none

def step (p : Partial) : Token → Option Partial
  | .space | .tab => some p
  | .newline =>
    match p.awaiting with
    | .item | .itemEnd => some p
    | _ => none
  | t => p.stepToken t

def finish (p : Partial) : Option Value :=
  match p.awaiting with
  | .nothing v => some v
  | _ => none

end Partial

def Value.ofTokens (ts : List Token) : Option Value := do (← ts.foldlM Partial.step .start).finish

end Notifications.Toml
