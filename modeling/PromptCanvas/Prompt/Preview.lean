import PromptCanvas.Prompt.Compile
import PromptCanvas.Store.Basic

/-!
# The live preview

The preview keeps the last prompt and compiles anew only when it has to: after a change of the
store that it was told of, after it was marked, or if there is no prompt yet.
-/

namespace PromptCanvas

structure Preview where
  cached : Option CompiledPrompt
  /-- Marked as out of date by hand. -/
  marked : Bool
  /-- How many changes of the store had been told when the prompt was compiled. -/
  seen : Nat
  compiles : Nat
deriving Repr, DecidableEq

namespace Preview

variable {α : Type}

/-- Follows a store from now on. -/
def follow (s : Store α) : Store α × Preview × Subscription :=
  let (s', u) := s.subscribe .preview
  (s', ⟨none, true, s.told .preview, 0⟩, u)

/-- Asks for a new prompt, for instance because a profile changed. -/
def mark (p : Preview) : Preview := { p with marked := true }

/-- The prompt may be out of date. -/
def dirty (p : Preview) (s : Store α) : Bool := p.marked || p.seen != s.told .preview

/-- The prompt for the store's graph.  A compilation that fails changes nothing. -/
def current (p : Preview) (s : Store α) (library : SubjectLibrary) (defaultRatio : String) :
    Preview × Except Prompt.MissingPhrase CompiledPrompt :=
  let compileAnew : Preview × Except Prompt.MissingPhrase CompiledPrompt :=
    match s.graph.compile library defaultRatio none with
    | .error e => (p, .error e)
    | .ok c => (⟨some c, false, s.told .preview, p.compiles + 1⟩, .ok c)
  match p.cached with
  | none => compileAnew
  | some c => if p.dirty s then compileAnew else (p, .ok c)

end Preview
end PromptCanvas
