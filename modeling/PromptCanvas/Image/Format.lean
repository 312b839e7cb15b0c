/-!
# Image formats

An image file is recognised by the bytes that it starts with.
-/

namespace PromptCanvas

inductive ImageFormat where
  | png
  | gif
  | jpeg
  | bmp
  | tiff
deriving Repr, DecidableEq

namespace ImageFormat

def all : List ImageFormat := [.png, .gif, .jpeg, .bmp, .tiff]

/-- The ways in which a file of the format may start. -/
def signatures : ImageFormat → List (List UInt8)
  | .png => [[0x89, 0x50, 0x4e, 0x47, 0x0d, 0x0a, 0x1a, 0x0a]]
  | .gif => [[0x47, 0x49, 0x46, 0x38, 0x37, 0x61], [0x47, 0x49, 0x46, 0x38, 0x39, 0x61]]
  | .jpeg => [[0xff, 0xd8, 0xff]]
  | .bmp => [[0x42, 0x4d]]
  | .tiff => [[0x49, 0x49, 0x2a, 0x00], [0x4d, 0x4d, 0x00, 0x2a]]

def mimeType : ImageFormat → String
  | .png => "image/png"
  | .gif => "image/gif"
  | .jpeg => "image/jpeg"
  | .bmp => "image/bmp"
  | .tiff => "image/tiff"

/-- The format of a file. -/
def ofBytes? (bytes : List UInt8) : Option ImageFormat :=
  all.find? fun f => f.signatures.any (·.isPrefixOf bytes)

end ImageFormat
end PromptCanvas
