/-!
# Problems of a record

A record that is read from JSON may have several problems at once.  Each has a place, the path from
the record to the value at fault, and a cause.  The wording of a cause is `Cause.message`, and its
short code is `Cause.code`; nothing else in the library spells either.
-/

namespace PromptCanvas
namespace Record

/-- One step of a path into a value. -/
inductive Step where
  | key (name : String)
  | index (i : Nat)
deriving Repr, DecidableEq

def Step.text : Step → String
  | .key name => name
  | .index i => toString i

/-- What is wrong with a value. -/
inductive Cause where
  | missing
  | unknownKey
  | notText
  /-- The text has half of a surrogate pair that stands alone. -/
  | loneHalf
  | tooShort (least : Nat)
  | notWhole
  | fractional
  | unreadableWhole
  | wholeTooLarge
  | notFinite
  | notNumber
  | unreadableNumber
  | notFlag
  | unreadableFlag
  | belowLeast (least : Int)
  | aboveMost (most : Int)
  | notAbove (bound : Int)
  /-- None of the listed texts; `named` if the list is a type of its own. -/
  | notOneOf (labels : List String) (named : Bool)
  | notTuple
  | notList
  | notMapping
  | notRecord (name : String)
  | notBody
  | notPath
deriving Repr, DecidableEq

/-- The alternatives of a choice: quoted, separated by commas, the last by "or". -/
def alternatives : List String → String
  | [] => ""
  | [a] => "'" ++ a ++ "'"
  | [a, b] => "'" ++ a ++ "' or '" ++ b ++ "'"
  | a :: rest => "'" ++ a ++ "', " ++ alternatives rest

namespace Cause

def code : Cause → String
  | .missing => "missing"
  | .unknownKey => "extra_forbidden"
  | .notText => "string_type"
  | .loneHalf => "string_unicode"
  | .tooShort _ => "string_too_short"
  | .notWhole => "int_type"
  | .fractional => "int_from_float"
  | .unreadableWhole => "int_parsing"
  | .wholeTooLarge => "int_parsing_size"
  | .notFinite => "finite_number"
  | .notNumber => "float_type"
  | .unreadableNumber => "float_parsing"
  | .notFlag => "bool_type"
  | .unreadableFlag => "bool_parsing"
  | .belowLeast _ => "greater_than_equal"
  | .aboveMost _ => "less_than_equal"
  | .notAbove _ => "greater_than"
  | .notOneOf _ named => if named then "enum" else "literal_error"
  | .notTuple => "tuple_type"
  | .notList => "list_type"
  | .notMapping => "dict_type"
  | .notRecord _ => "model_type"
  | .notBody => "model_attributes_type"
  | .notPath => "path_type"

def message : Cause → String
  | .missing => "Field required"
  | .unknownKey => "Extra inputs are not permitted"
  | .notText => "Input should be a valid string"
  | .loneHalf =>
    "Input should be a valid string, unable to parse raw data as a unicode string"
  | .tooShort 1 => "String should have at least 1 character"
  | .tooShort n => s!"String should have at least {n} characters"
  | .notWhole => "Input should be a valid integer"
  | .fractional => "Input should be a valid integer, got a number with a fractional part"
  | .unreadableWhole => "Input should be a valid integer, unable to parse string as an integer"
  | .wholeTooLarge => "Unable to parse input string as an integer, exceeded maximum size"
  | .notFinite => "Input should be a finite number"
  | .notNumber => "Input should be a valid number"
  | .unreadableNumber => "Input should be a valid number, unable to parse string as a number"
  | .notFlag => "Input should be a valid boolean"
  | .unreadableFlag => "Input should be a valid boolean, unable to interpret input"
  | .belowLeast n => s!"Input should be greater than or equal to {n}"
  | .aboveMost n => s!"Input should be less than or equal to {n}"
  | .notAbove n => s!"Input should be greater than {n}"
  | .notOneOf labels _ => "Input should be " ++ alternatives labels
  | .notTuple => "Input should be a valid tuple"
  | .notList => "Input should be a valid list"
  | .notMapping => "Input should be a valid dictionary"
  | .notRecord name => "Input should be a valid dictionary or instance of " ++ name
  | .notBody => "Input should be a valid dictionary or object to extract fields from"
  | .notPath => "Input is not a valid path for <class 'pathlib.Path'>"

end Cause

/-- A cause and its place. -/
structure Problem where
  path : List Step
  cause : Cause
deriving Repr, DecidableEq

namespace Problem

def under (step : Step) (p : Problem) : Problem := { p with path := step :: p.path }

/-- The path as a text; the record itself is its root. -/
def place (p : Problem) : String :=
  let joined := ".".intercalate (p.path.map Step.text)
  if joined.isEmpty then "<root>" else joined

/-- The place and the message. -/
def line (p : Problem) : String := p.place ++ ": " ++ p.cause.message

end Problem

end Record
end PromptCanvas
