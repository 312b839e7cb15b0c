import PromptCanvas.Number.Written
import PromptCanvas.Text.Quoted

/-!
# JSON values

Graph documents, attribute records and request bodies are JSON.  A whole number and a number with a
point or an exponent are told apart, and an object keeps its keys in the order of their first
appearance.
-/

namespace PromptCanvas

inductive Json where
  | null
  | bool (b : Bool)
  | int (n : Int)
  | float (x : Float)
  | str (s : String)
  | arr (items : List Json)
  | obj (fields : List (String × Json))
deriving Inhabited, BEq

namespace Json

/-- The name of a value's type in a message. -/
def typeName : Json → String
  | .null => "NoneType"
  | .bool _ => "bool"
  | .int _ => "int"
  | .float _ => "float"
  | .str _ => "str"
  | .arr _ => "list"
  | .obj _ => "dict"

/-- Every value counts as set except null, false, zero and what is empty. -/
def truthy : Json → Bool
  | .null => false
  | .bool b => b
  | .int n => n != 0
  | .float x => x != 0
  | .str s => !s.isEmpty
  | .arr items => !items.isEmpty
  | .obj fields => !fields.isEmpty

/-- The written value, or null. -/
def ofOption {β : Type} (write : β → Json) : Option β → Json
  | none => .null
  | some b => write b

/-- A text, or null. -/
def ofText? : Option String → Json := ofOption .str

/-! ## Displaying -/

/-- The most digits that a whole number may have where it is read or displayed. -/
def digitLimit : Nat := 4300

/-- The most calls that may be open at once. -/
def callLimit : Nat := 1000

/-- The calls that are left where a value is displayed.  Three are open at least: one of whoever
loads a document, one of the loader, and one of the reader of the entry. -/
def callsLeft : Nat := callLimit - 3

/-- Why a value cannot be displayed. -/
inductive DisplayFault where
  | tooManyDigits
  /-- More calls would have to be open than may be. -/
  | tooDeep
deriving Repr, DecidableEq

/-- A value as it is displayed inside a list or a mapping, with so many calls left.  Each value that
stands within another takes one more. -/
def quoted : Nat → Json → Except DisplayFault String
  | 0, _ => .error .tooDeep
  | _ + 1, .null => .ok "None"
  | _ + 1, .bool b => .ok (if b then "True" else "False")
  | _ + 1, .int n =>
    if Nat.pow 10 digitLimit ≤ n.natAbs then .error .tooManyDigits else .ok (toString n)
  | _ + 1, .float x => .ok (Number.text x)
  | _ + 1, .str s => .ok (Text.quoted s)
  | calls + 1, .arr items => do
    let texts ← items.mapM (quoted calls)
    return "[" ++ ", ".intercalate texts ++ "]"
  | calls + 1, .obj fields => do
    let texts ← fields.mapM fun e => do
      return Text.quoted e.1 ++ ": " ++ (← quoted calls e.2)
    return "\x7b" ++ ", ".intercalate texts ++ "\x7d"

/-- A value as an identifier: a text is itself, any other value is displayed. -/
def display : Json → Except DisplayFault String
  | .str s => .ok s
  | j => quoted callsLeft j

/-! ## All values within a value -/

mutual

/-- The value with every number that has a point or an exponent replaced. -/
def mapFloats (f : Float → Json) : Json → Json
  | .float x => f x
  | .arr items => .arr (mapFloatsItems f items)
  | .obj fields => .obj (mapFloatsFields f fields)
  | j => j

def mapFloatsItems (f : Float → Json) : List Json → List Json
  | [] => []
  | j :: rest => mapFloats f j :: mapFloatsItems f rest

def mapFloatsFields (f : Float → Json) : List (String × Json) → List (String × Json)
  | [] => []
  | (k, j) :: rest => (k, mapFloats f j) :: mapFloatsFields f rest

end

mutual

/-- Every number is finite and no text has half of a surrogate pair: the standard knows no other
values. -/
def isStandard : Json → Bool
  | .float x => x.isFinite
  | .str s => !Text.hasLoneHalf s
  | .arr items => isStandardItems items
  | .obj fields => isStandardFields fields
  | _ => true

def isStandardItems : List Json → Bool
  | [] => true
  | j :: rest => isStandard j && isStandardItems rest

def isStandardFields : List (String × Json) → Bool
  | [] => true
  | (k, j) :: rest => !Text.hasLoneHalf k && isStandard j && isStandardFields rest

end

mutual

/-- How many arrays and objects stand within each other. -/
def depth : Json → Nat
  | .arr items => depthOfItems items + 1
  | .obj fields => depthOfFields fields + 1
  | _ => 0

def depthOfItems : List Json → Nat
  | [] => 0
  | j :: rest => max (depth j) (depthOfItems rest)

def depthOfFields : List (String × Json) → Nat
  | [] => 0
  | (_, j) :: rest => max (depth j) (depthOfFields rest)

end

end Json
end PromptCanvas
