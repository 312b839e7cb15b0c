import PromptCanvas.Image.Base64
import PromptCanvas.Image.Format
import PromptCanvas.Record.Reading

/-!
# Image references

An image is known by the base64 text of its file and its media type.  Its data URL is
`data:<media type>;base64,<data>`.
-/

namespace PromptCanvas

structure ImageRef where
  data : String
  mimeType : String
deriving Repr, DecidableEq

/-- Why a text or a file is no image. -/
inductive ImageFault where
  | notDataUrl
  | notRecognised
  | undecodable (fault : Base64.Fault)
deriving Repr, DecidableEq

def ImageFault.message : ImageFault → String
  | .notDataUrl => "Expected a base64 data URL"
  | .notRecognised => "Data is not a recognised image"
  | .undecodable fault => fault.message

/-- The first text stands somewhere in the second. -/
def occursIn (part : List Char) : List Char → Bool
  | [] => part.isEmpty
  | c :: rest => part.isPrefixOf (c :: rest) || occursIn part rest

namespace ImageRef

/-- The media type where none is given. -/
def defaultMimeType : String := "image/png"

def scheme : List Char := "data:".toList

def marker : List Char := ";base64".toList

/-- The media type of an image whose format has none. -/
def unknownMimeType : String := "application/octet-stream"

/-- What looks for an image in the bytes of a file, and finds the media type of its format, if that
has one. -/
abbrev Recogniser : Type := List UInt8 → Except ImageFault (Option String)

/-- The recogniser that goes by the first bytes. -/
def signatures : Recogniser := fun bytes =>
  match ImageFormat.ofBytes? bytes with
  | none => .error .notRecognised
  | some format => .ok (some format.mimeType)

/-- A reference to a file, with the media type that is found in its bytes. -/
def ofFile (recognise : Recogniser) (bytes : List UInt8) : Except ImageFault ImageRef :=
  (recognise bytes).map fun mime => ⟨Base64.encode bytes, mime.getD unknownMimeType⟩

/-- A reference to a file, its media type found from its first bytes. -/
def ofBytes (bytes : List UInt8) : Except ImageFault ImageRef := ofFile signatures bytes

/-- Reads a data URL.  The first comma ends the header; what stands in the header between the
scheme and the marker is the media type. -/
def ofDataUrl (url : String) : Except ImageFault ImageRef :=
  let cs := url.toList
  if scheme.isPrefixOf cs && occursIn (marker ++ [',']) cs then
    let header := cs.takeWhile (· != ',')
    let payload := (cs.dropWhile (· != ',')).drop 1
    let mime := (header.take (header.length - marker.length)).drop scheme.length
    .ok ⟨String.ofList payload, if mime.isEmpty then defaultMimeType else String.ofList mime⟩
  else .error .notDataUrl

def toDataUrl (r : ImageRef) : String := "data:" ++ r.mimeType ++ ";base64," ++ r.data

/-- The bytes of the file. -/
def toBytes (r : ImageRef) : Except Base64.Fault (List UInt8) := Base64.decode false r.data

/-- A reference to an uploaded image: a data URL, or the bare base64 text of a file, which is
decoded strictly.  The media type is that of the bytes, whatever the URL says. -/
def ofUploadBy (recognise : Recogniser) (text : String) : Except ImageFault ImageRef :=
  if scheme.isPrefixOf text.toList then
    match ofDataUrl text with
    | .error f => .error f
    | .ok r =>
      match r.toBytes with
      | .error f => .error (.undecodable f)
      | .ok bytes => ofFile recognise bytes
  else
    match Base64.decode true text with
    | .error f => .error (.undecodable f)
    | .ok bytes => ofFile recognise bytes

open Record in
/-- Reads the members of a reference; others are ignored. -/
def readMembers (o : List (String × Json)) : Checked ImageRef :=
  Checked.both mk (Reading.required o "data" Reading.text)
    (Reading.given o "mime_type" Reading.text defaultMimeType)

open Record in
def read : Reading ImageRef := Reading.record "ImageRef" readMembers

def toJson (r : ImageRef) : Json := .obj [("data", .str r.data), ("mime_type", .str r.mimeType)]

end ImageRef
end PromptCanvas
