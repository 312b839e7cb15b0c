import PromptCanvas.Prompt.Preview
import PromptCanvas.Settings.Basic
import PromptCanvas.View.Canvas
import PromptCanvas.View.Drawn

/-!
# The workspace

One canvas of doubles with the preview that follows its store.
-/

namespace PromptCanvas

structure Workspace where
  settings : Settings
  canvas : Canvas Float
  preview : Preview
  /-- What ties the preview to the store. -/
  following : Subscription

namespace Workspace

/-- A workspace on a store, for a canvas of a size. -/
def ofStore (settings : Settings) (store : Store Float) (width height : Float) : Workspace :=
  let (store, preview, following) := Preview.follow store
  { settings, canvas := ⟨store, .ofSize width height⟩, preview, following }

/-- The size of a canvas that nobody has measured. -/
def usualSize : Float × Float := (1280, 800)

/-- A new workspace, with its own source of ids. -/
def startWith (ids : IdSource) (settings : Settings) : Workspace :=
  ofStore settings (.startWith ids settings.metrics) usualSize.1 usualSize.2

def store (w : Workspace) : Store Float := w.canvas.store

def graph (w : Workspace) : Graph Float := w.canvas.store.graph

def document (w : Workspace) : Json := w.graph.toDocument

def apply (w : Workspace) (e : Canvas.Event Float) : Workspace × Canvas.Answer :=
  let (canvas, answer) := w.canvas.apply e
  ({ w with canvas }, answer)

/-- Changes the store from outside the canvas. -/
def edit (w : Workspace) (op : Store.Operation Float) : Workspace × Store.Reply :=
  let (store, reply) := w.canvas.store.apply op
  ({ w with canvas := { w.canvas with store } }, reply)

def dirty (w : Workspace) : Bool := w.preview.dirty w.store

/-- The prompt for the graph as it is now. -/
def current (w : Workspace) (library : SubjectLibrary) :
    Workspace × Except Prompt.MissingPhrase CompiledPrompt :=
  let (preview, result) := w.preview.current w.store library w.settings.defaultAspectRatio
  ({ w with preview }, result)

/-- Asks for a new prompt. -/
def markPreview (w : Workspace) : Workspace := { w with preview := w.preview.mark }

/-- The preview no longer hears of changes. -/
def closePreview (w : Workspace) : Workspace :=
  { w with canvas := { w.canvas with store := w.store.unsubscribe w.following } }

def frame (w : Workspace) : Frame Float := w.canvas.engine.render w.canvas.store

end Workspace
end PromptCanvas
