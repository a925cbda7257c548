import Notifications.Json.Token
/-!
The tree of a JSON text. Every text has one: where the text stops being JSON the tree ends, and
says how. Readers walk the tree in the order of the text, so the first fault they meet is the
first in the text.
-/
namespace Notifications.Json

/-- How an array ends. `cut` follows an element that is itself not complete. -/
inductive ArrayEnd
  | closed | missing | noComma | commaClose | cut
  deriving DecidableEq, Repr

/-- How an object ends. -/
inductive ObjectEnd
  | closed | missing | noComma | commaClose | commaEnd
  /-- Something else stands where a key should. -/
  | badKey (found : Token)
  /-- A key has no colon after it. -/
  | noColon (key : Quoted) (atEnd : Bool)
  | cut
  deriving DecidableEq, Repr

mutual
inductive Node
  | null
  | bool (b : Bool)
  | number (n : Number)
  | string (q : Quoted)
  | array (items : Items)
  | object (fields : Fields)
  | broken (b : Broken)

inductive Items
  | last (e : ArrayEnd)
  | item (n : Node) (rest : Items)

inductive Fields
  | last (e : ObjectEnd)
  | field (key : Quoted) (value : Node) (rest : Fields)
end

def Items.ofReversed (e : Items) (done : List Node) : Items :=
  done.foldl (fun rest n => .item n rest) e

def Fields.ofReversed (e : Fields) (done : List (Quoted × Node)) : Fields :=
  done.foldl (fun rest f => .field f.1 f.2 rest) e

/-- A container that is open, with what it holds so far, newest first. -/
inductive Frame
  | array (done : List Node)
  | object (done : List (Quoted × Node))
  /-- An object in which the value of `key` comes next. -/
  | member (done : List (Quoted × Node)) (key : Quoted)

/-- What may come next in the innermost open container. -/
inductive Awaiting
  | value
  | firstItem | nextItem | itemEnd
  | firstKey | nextKey | fieldEnd
  | colon (key : Quoted)

/-- The tree of a text, and whether something follows the value in it. -/
structure Document where
  root : Node
  hasMore : Bool

/-- The tree when no more can be read: the open containers end with `n`. -/
def abandon (n : Node) : List Frame → Node
  | [] => n
  | .array done :: st => abandon (.array (.ofReversed (.last .cut) (n :: done))) st
  | .object done :: st => abandon (.object (.ofReversed (.last .cut) done)) st
  | .member done key :: st => abandon (.object (.ofReversed (.last .cut) ((key, n) :: done))) st

/-- The tree when the innermost array can go no further. -/
def abandonArray (e : ArrayEnd) : List Frame → Node
  | .array done :: st => abandon (.array (.ofReversed (.last e) done)) st
  | st => abandon (.broken .stray) st

/-- The tree when the innermost object can go no further. -/
def abandonObject (e : ObjectEnd) : List Frame → Node
  | .object done :: st => abandon (.object (.ofReversed (.last e) done)) st
  | st => abandon (.broken .stray) st

/-- Where a complete value puts the reader. -/
inductive Placed
  | done (n : Node)
  | more (awaiting : Awaiting) (st : List Frame)

def place (n : Node) : List Frame → Placed
  | [] => .done n
  | .array done :: st => .more .itemEnd (.array (n :: done) :: st)
  | .object done :: st => .more .fieldEnd (.object done :: st)
  | .member done key :: st => .more .fieldEnd (.object ((key, n) :: done) :: st)

/-- The tree when the text ends. -/
def atEnd (st : List Frame) : Awaiting → Node
  | .value | .nextItem => abandon (.broken .missing) st
  | .firstItem | .itemEnd => abandonArray .missing st
  | .firstKey | .fieldEnd => abandonObject .missing st
  | .nextKey => abandonObject .commaEnd st
  | .colon key => abandonObject (.noColon key true) st

/-- The value a token is by itself; a bracket that opens a container stands for it. -/
def Token.node : Token → Node
  | .null => .null
  | .bool b => .bool b
  | .number n => .number n
  | .string q => .string q
  | .openArray => .array (.last .cut)
  | .openObject => .object (.last .cut)
  | .broken b => .broken b
  | .closeArray | .closeObject | .comma | .colon => .broken .stray

/-- What a token does: it opens a container, completes a value, leads on, or is out of place. -/
inductive Move
  | opens (awaiting : Awaiting) (f : Frame)
  | completes (n : Node) (st : List Frame)
  | leads (awaiting : Awaiting) (st : List Frame)
  | fails (n : Node)

/-- A token where a value should begin. -/
def beginValue (st : List Frame) : Token → Move
  | .openArray => .opens .firstItem (.array [])
  | .openObject => .opens .firstKey (.object [])
  | .null => .completes .null st
  | .bool b => .completes (.bool b) st
  | .number n => .completes (.number n) st
  | .string q => .completes (.string q) st
  | .broken b => .fails (abandon (.broken b) st)
  | .closeArray | .closeObject | .comma | .colon => .fails (abandon (.broken .stray) st)

def closeArray : List Frame → Move
  | .array done :: st => .completes (.array (.ofReversed (.last .closed) done)) st
  | st => .fails (abandon (.broken .stray) st)

def closeObject : List Frame → Move
  | .object done :: st => .completes (.object (.ofReversed (.last .closed) done)) st
  | st => .fails (abandon (.broken .stray) st)

/-- The value of `key` comes next. -/
def beginMember (key : Quoted) : List Frame → Move
  | .object done :: st => .leads .value (.member done key :: st)
  | st => .fails (abandon (.broken .stray) st)

def move (st : List Frame) : Awaiting → Token → Move
  | .value, t => beginValue st t
  | .firstItem, .closeArray => closeArray st
  | .firstItem, t => beginValue st t
  | .nextItem, .closeArray => .fails (abandonArray .commaClose st)
  | .nextItem, t => beginValue st t
  | .itemEnd, .comma => .leads .nextItem st
  | .itemEnd, .closeArray => closeArray st
  | .itemEnd, _ => .fails (abandonArray .noComma st)
  | .firstKey, .string q => .leads (.colon q) st
  | .firstKey, .closeObject => closeObject st
  | .firstKey, t => .fails (abandonObject (.badKey t) st)
  | .nextKey, .string q => .leads (.colon q) st
  | .nextKey, .closeObject => .fails (abandonObject .commaClose st)
  | .nextKey, t => .fails (abandonObject (.badKey t) st)
  | .fieldEnd, .comma => .leads .nextKey st
  | .fieldEnd, .closeObject => closeObject st
  | .fieldEnd, _ => .fails (abandonObject .noComma st)
  | .colon key, .colon => beginMember key st
  | .colon key, _ => .fails (abandonObject (.noColon key false) st)

def build : Awaiting → List Frame → List Token → Document
  | awaiting, st, [] => ⟨atEnd st awaiting, false⟩
  | awaiting, st, t :: ts =>
    match move st awaiting t with
    | .opens awaiting f => build awaiting (f :: st) ts
    | .leads awaiting st => build awaiting st ts
    | .fails n => ⟨n, false⟩
    | .completes n st =>
      match place n st with
      | .done n => ⟨n, !ts.isEmpty⟩
      | .more awaiting st => build awaiting st ts

def Document.ofChars (text : List Char) : Document := build .value [] (tokens text)

end Notifications.Json
