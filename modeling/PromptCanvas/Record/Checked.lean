import PromptCanvas.Record.Problem

/-!
# Checked values

A value that passed its checks, or all the problems found.  Two checks side by side both run, and
the problems of the first come first.
-/

namespace PromptCanvas
namespace Record

/-- A value, or the problems that were found instead. -/
abbrev Checked (β : Type) := Except (List Problem) β

namespace Checked

variable {β γ δ : Type}

/-- A single problem with the value as a whole. -/
def fail (cause : Cause) : Checked β := .error [⟨[], cause⟩]

/-- Runs both checks; the value exists if neither found a problem. -/
def both (f : β → γ → δ) : Checked β → Checked γ → Checked δ
  | .ok b, .ok c => .ok (f b c)
  | .ok _, .error q => .error q
  | .error p, .ok _ => .error p
  | .error p, .error q => .error (p ++ q)

/-- Applies a checked function to one more checked argument. -/
def ap (f : Checked (β → γ)) (b : Checked β) : Checked γ := both (fun g x => g x) f b

/-- Keeps the first value if the second check found nothing. -/
def guardedBy (b : Checked β) (c : Checked Unit) : Checked β := both (fun x _ => x) b c

/-- Says that a value stands one step further in. -/
def under (step : Step) : Checked β → Checked β
  | .ok b => .ok b
  | .error ps => .error (ps.map (Problem.under step))

/-- Checks every item, naming each by its position from `i` on. -/
def eachFrom (check : β → Checked γ) (i : Nat) : List β → Checked (List γ)
  | [] => .ok []
  | b :: rest => both List.cons ((check b).under (.index i)) (eachFrom check (i + 1) rest)

def each (check : β → Checked γ) (bs : List β) : Checked (List γ) := eachFrom check 0 bs

end Checked

end Record
end PromptCanvas
