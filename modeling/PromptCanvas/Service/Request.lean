import PromptCanvas.Json.Reader
import PromptCanvas.Record.Reading
import PromptCanvas.Text.Encoding

/-!
# Requests and responses

A request names a method and a path and may carry a body.  A body is read before it is acted on; one
that cannot be read is answered without anything being done.
-/

namespace PromptCanvas

open Record

inductive Body where
  | absent
  | text (s : String)
  | json (j : Json)

structure Request where
  method : String
  path : String
  body : Body

structure Response where
  status : Nat
  body : Json

namespace Response

/-- Numbers that are infinite or no numbers have no place in a response. -/
def finite (j : Json) : Json := j.mapFloats fun x => if x.isFinite then .float x else .null

def ok (j : Json) : Response := ⟨200, finite j⟩

/-- A refusal with one sentence. -/
def refused (status : Nat) (detail : String) : Response := ⟨status, .obj [("detail", .str detail)]⟩

/-- A refusal with a list of what is wrong. -/
def invalid (details : List Json) : Response := ⟨422, .obj [("detail", .arr details)]⟩

def notFound : Response := refused 404 "Not Found"

def methodNotAllowed : Response := refused 405 "Method Not Allowed"

/-- The path is that of a resource but for the strokes at its end. -/
def redirected : Response := ⟨307, .str ""⟩

/-- Something went wrong that is nobody's fault. -/
def failed : Response := ⟨500, .str "Internal Server Error"⟩

/-- The response as it is sent.  One that standard JSON has no writing for cannot be sent. -/
def sent (r : Response) : Response := if r.body.isStandard then r else failed

end Response

namespace Body

/-- The place of the body among the parts of a request. -/
def place : Step := .key "body"

/-- A body that is no JSON, with the position where reading stopped. -/
def malformed (position : Nat) : Response :=
  .invalid [.obj [
    ("type", .str "json_invalid"), ("loc", .arr [place.toJson, .int position]),
    ("msg", .str "JSON decode error")]]

/-- A body that cannot be read at all. -/
def unreadable : Response := .refused 400 "There was an error parsing the body"

/-- The most arrays and objects that may stand within each other in a body. -/
def depthLimit : Nat := 967

/-- The JSON of a body that is a text.  A byte order mark counts only where the bytes are read as
they are given. -/
def readText (s : String) : Except Response Json :=
  let points := Text.codePoints s.toList
  match Text.Encoding.reread? points with
  | none => .error unreadable
  | some reread =>
    let result :=
      if reread == points then Json.readMarked depthLimit s
      else Json.read depthLimit (String.ofList (reread.flatMap Text.held))
    match result with
    | .ok j => .ok j
    | .error (.malformed position) => .error (malformed position)
    | .error _ => .error unreadable

/-- The JSON of a body that is there. -/
def json? (b : Body) : Except Response (Option Json) :=
  match b with
  | .absent => .ok none
  | .json j =>
    -- with that many calls left, only a number that is too long cannot be displayed
    if j.depth ≤ depthLimit && (j.quoted (depthLimit + 1)).toOption.isSome then .ok (some j)
    else .error unreadable
  | .text s =>
    if s.isEmpty then .ok none
    else (readText s).map some

/-- Reads a body; what is wrong with it is placed under the body.  A refusal quotes the values at
fault, so it cannot be sent if standard JSON has no writing for one of them. -/
def read {β : Type} (b : Body) (r : Reading β) : Except Response β :=
  match b.json? with
  | .error response => .error response
  | .ok none => .error (.invalid [Problem.toJson ⟨[place], .missing⟩])
  | .ok (some j) =>
    match r j with
    | .ok v => .ok v
    | .error ps =>
      if ps.all fun p => (p.value j).isStandard then
        .error (.invalid (ps.map fun p => (p.under place).toJson))
      else .error .failed

end Body
end PromptCanvas
