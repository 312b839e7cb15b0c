import PromptCanvas.Graph.Document
import PromptCanvas.Proofs.Node.Fit

/-!
# Entries of a document, read and written

A node that is read from an entry has the entry's id, and its attributes fit its kind.  A node whose
attributes fit, and every edge, is read back from the entry it was written as.
-/

namespace PromptCanvas

/-- The id that an entry gives itself. -/
def entryId? : Json → Option String
  | .obj fields => (Keyed.find? "id" fields).bind fun j => j.display.toOption
  | _ => none

theorem identifierIn_eq_ok {fields : List (String × Json)} {key id : String} :
    identifierIn fields key = .ok id ↔
      ∃ j, Keyed.find? key fields = some j ∧ j.display = .ok id := by
  unfold identifierIn
  cases Keyed.find? key fields with
  | none => exact iff_of_false nofun nofun
  | some j => simp only [identifierOf, mapError_eq_ok, Option.some.injEq, exists_eq_left']

namespace Node

variable {α : Type} [Scalar α]

/-- A node that is read has the id of its entry, and its attributes fit. -/
theorem of_ofEntry_eq_ok {j : Json} {n : Node α} (h : ofEntry j = .ok n) :
    entryId? j = some n.id ∧ n.kind.Fits n.attributes := by
  cases j with
  | obj fields =>
    obtain ⟨kind, -, h⟩ := bind_eq_ok.mp h
    obtain ⟨position, -, h⟩ := bind_eq_ok.mp h
    obtain ⟨id, hid, h⟩ := bind_eq_ok.mp h
    obtain ⟨attributes, ha, h⟩ := bind_eq_ok.mp h
    obtain ⟨x, -, h⟩ := bind_eq_ok.mp h
    obtain ⟨y, -, h⟩ := bind_eq_ok.mp h
    obtain ⟨parent, -, h⟩ := bind_eq_ok.mp h
    cases h
    obtain ⟨j, hj, hdisplay⟩ := identifierIn_eq_ok.mp hid
    refine ⟨?_, Kind.fits_of_readAttributes (mapError_eq_ok.mp ha)⟩
    rw [entryId?, hj, Option.bind_some, hdisplay]
    rfl
  | _ => cases h

theorem kindIn_toEntry (k : Kind) (id : Json) (rest : List (String × Json)) :
    kindIn (("id", id) :: ("kind", .str k.name) :: rest) = .ok k := by
  have hname : Kind.ofName? k.name = some k := by cases k <;> decide +kernel
  simp [kindIn, Keyed.find?, hname]

/-- A node whose attributes fit is read back from its entry. -/
theorem ofEntry_toEntry {n : Node Float} (h : n.kind.Fits n.attributes) :
    ofEntry n.toEntry = .ok n := by
  obtain ⟨id, kind, attributes, position, collapsed, parent⟩ := n
  have ha := Kind.readAttributes_writeAttributes h
  -- The parts are read in this order, each from the member that it was written as.
  refine bind_eq_ok.mpr ⟨kind, kindIn_toEntry kind _ _, ?_⟩
  refine bind_eq_ok.mpr ⟨[("x", .float position.x), ("y", .float position.y)], rfl, ?_⟩
  refine bind_eq_ok.mpr ⟨id, rfl, ?_⟩
  refine bind_eq_ok.mpr ⟨attributes, mapError_eq_ok.mpr ha, ?_⟩
  refine bind_eq_ok.mpr ⟨position.x, rfl, ?_⟩
  refine bind_eq_ok.mpr ⟨position.y, rfl, ?_⟩
  refine bind_eq_ok.mpr ⟨parent, ?_, rfl⟩
  cases parent <;> rfl

end Node

theorem Edge.ofEntry_toEntry (e : Edge) : ofEntry e.toEntry = .ok e := rfl

end PromptCanvas
