import PromptCanvas.Json.Value

/-!
# Writing JSON

The shortest spelling: no blanks, and only what must be escaped is escaped.  A half of a surrogate
pair that stands alone is no character and is escaped too.
-/

namespace PromptCanvas
namespace Json

/-- The letter of the short escape that a code point has. -/
def shortEscape? : Nat → Option Char
  | 8 => some 'b'
  | 9 => some 't'
  | 10 => some 'n'
  | 12 => some 'f'
  | 13 => some 'r'
  | 34 => some '"'
  | 92 => some '\\'
  | _ => none

/-- A code point inside a written text. -/
def writtenPoint (n : Nat) : List Char :=
  match shortEscape? n with
  | some letter => ['\\', letter]
  | none =>
    if n < 0x20 || Text.isHalf n then '\\' :: 'u' :: Text.hexPadded 4 n else [Char.ofNat n]

/-- A written text. -/
def writtenText (s : String) : String :=
  String.ofList ('"' :: (Text.codePoints s.toList).flatMap writtenPoint ++ ['"'])

/-- A written number. -/
def writtenFloat (x : Float) : String :=
  if x.isNaN then "NaN" else if x.isFinite then Number.text x
  else if x < 0 then "-Infinity" else "Infinity"

mutual

def written : Json → String
  | .null => "null"
  | .bool b => if b then "true" else "false"
  | .int n => toString n
  | .float x => writtenFloat x
  | .str s => writtenText s
  | .arr items => "[" ++ ",".intercalate (writtenItems items) ++ "]"
  | .obj fields => "\x7b" ++ ",".intercalate (writtenFields fields) ++ "\x7d"

def writtenItems : List Json → List String
  | [] => []
  | j :: rest => written j :: writtenItems rest

def writtenFields : List (String × Json) → List String
  | [] => []
  | (k, j) :: rest => (writtenText k ++ ":" ++ written j) :: writtenFields rest

end

end Json
end PromptCanvas
