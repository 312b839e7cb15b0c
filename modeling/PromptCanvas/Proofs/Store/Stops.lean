import PromptCanvas.Proofs.Json.Displayable
import PromptCanvas.Proofs.Number.Range
import PromptCanvas.Proofs.Store.Loading

/-!
# Where loading stops

An entry that cannot be read is left out, whatever is wrong with it, except for a few faults.  A
whole number that is beyond every double has no place on the canvas.  An identifier, a kind or a
parent that cannot be displayed is no text.  And an entry that is left out is named in a warning,
for which its id, or the entry itself if it has no members, has to be displayed.  `Node.Stops` and
`Edge.Stops` are the entries that have such a fault.  All but the first fault are foreign to what is
read from a text.
-/

namespace PromptCanvas

open Document

/-! ## Values that cannot be displayed -/

namespace Json

/-- The entries of a document can be displayed if it can be. -/
theorem Displayable.entries {calls : Nat} {document : Json}
    (h : Displayable (calls + 2) document) {key : String} {j : Json}
    (hj : j ∈ (entries (members document).1 key).1) : Displayable calls j := by
  cases document with
  | obj fields =>
    unfold Document.entries at hj
    cases hfound : Keyed.find? key (members (.obj fields)).1 with
    | none =>
      rw [hfound] at hj
      exact absurd hj List.not_mem_nil
    | some value =>
      rw [hfound, Option.getD_some] at hj
      cases value with
      | arr items => exact (h.find? hfound).mem hj
      | _ => exact absurd hj List.not_mem_nil
  | _ => exact absurd hj List.not_mem_nil

/-- The entries of what is read from a text can be displayed. -/
theorem IsRead.displayable_of_mem {document : Json} (h : document.IsRead) {key : String} {j : Json}
    (hj : j ∈ (entries (members document).1 key).1) : Displayable callsLeft j := by
  have hshown : document.Displayable (callsLeft - 2 + 2) := h.displayable
  exact (hshown.entries hj).mono (Nat.sub_le _ _)

end Json

namespace Document

theorem describe_obj_eq_error_iff {fields : List (String × Json)} {f : Json.DisplayFault} :
    describe (.obj fields) = .error f ↔
      ∃ j, Keyed.find? "id" fields = some j ∧ j.display = .error f := by
  rw [describe]
  cases Keyed.find? "id" fields with
  | none => exact iff_of_false (by rintro ⟨⟩) nofun
  | some j =>
    rw [Option.getD_some, ← Json.display_eq_error_iff]
    simp only [Option.some.injEq, exists_eq_left']

/-- Whoever can be displayed can be named. -/
theorem describe_ne_error {j : Json} (h : j.Displayable Json.callsLeft) (f : Json.DisplayFault) :
    describe j ≠ .error f := by
  intro hf
  cases j with
  | obj fields =>
    obtain ⟨id, hid, hdisplay⟩ := describe_obj_eq_error_iff.mp hf
    exact (h.find? hid).display_ne_error (Nat.le_succ _) f hdisplay
  | _ =>
    obtain ⟨text, htext⟩ := Json.quoted_isOk_iff.mpr h
    dsimp only [describe] at hf
    rw [htext] at hf
    cases hf

theorem passOver_eq_ok_iff {caught : List ErrorClass} {j : Json} {e : EntryError} :
    passOver caught j e = .ok () ↔ e.errorClass ∈ caught ∧ ∃ text, describe j = .ok text := by
  unfold passOver
  rw [← List.contains_iff_mem]
  by_cases hcaught : caught.contains e.errorClass = true
  · rw [if_pos hcaught]
    cases describe j with
    | ok text => exact iff_of_true rfl ⟨hcaught, text, rfl⟩
    | error f => exact iff_of_false nofun nofun
  · rw [if_neg hcaught]
    exact iff_of_false nofun fun h => hcaught h.1

/-- An entry that cannot be read is passed over unless there is a reason against it. -/
theorem passOver_eq_ok_iff_not {β : Type} {caught : List ErrorClass} {j : Json} {e : EntryError}
    {read : Except EntryError β} {Stops : Prop} (h : read = .error e)
    (hcaught : e.errorClass ∉ caught → Stops) (hname : ∀ f, describe j = .error f → Stops)
    (hstops : Stops → ∃ e', read = .error e' ∧
      (e'.errorClass ∉ caught ∨ ∃ f, describe j = .error f)) :
    passOver caught j e = .ok () ↔ ¬ Stops := by
  rw [passOver_eq_ok_iff]
  constructor
  · rintro ⟨hin, text, htext⟩ h'
    obtain ⟨e', he', hout | ⟨f, hf⟩⟩ := hstops h'
    · rw [h] at he'
      cases he'
      exact hout hin
    · rw [htext] at hf
      cases hf
  · intro hgoes
    refine ⟨Decidable.byContradiction fun he => hgoes (hcaught he), ?_⟩
    cases htext : describe j with
    | ok text => exact ⟨text, rfl⟩
    | error f => exact absurd (hname f htext) hgoes

end Document

/-! ## The parts of an entry -/

/-- The member is a whole number beyond every double. -/
def HugeAt (fields : List (String × Json)) (key : String) : Prop :=
  ∃ n, Keyed.find? key fields = some (.int n) ∧ Number.Huge n

/-- The member is there and cannot be displayed. -/
def HiddenAt (fields : List (String × Json)) (key : String) (f : Json.DisplayFault) : Prop :=
  ∃ j, Keyed.find? key fields = some j ∧ j.display = .error f

theorem not_hiddenAt_of_displayable {fields : List (String × Json)}
    (h : (Json.obj fields).Displayable Json.callsLeft) (key : String) (f : Json.DisplayFault) :
    ¬ HiddenAt fields key f := by
  rintro ⟨j, hj, hf⟩
  exact (h.find? hj).display_ne_error (Nat.le_succ _) f hf

/-- Errors that are not caught where the nodes are read. -/
def EntryError.Escapes (e : EntryError) : Prop := e.errorClass ∉ [ErrorClass.key, .value, .type]

instance (e : EntryError) : Decidable e.Escapes := inferInstanceAs (Decidable (_ ∉ _))

section Parts

variable {fields : List (String × Json)} {key : String} {e : EntryError}

theorem readCoordinate_eq_outOfRange_iff {j : Json} :
    readCoordinate j = .error .outOfRange ↔ ∃ n, j = .int n ∧ Number.Huge n := by
  constructor
  · intro h
    unfold readCoordinate at h
    split at h
    · cases h
    · rename_i n
      split at h
      · cases h
      · rename_i hn
        exact ⟨n, rfl, Number.ofInt?_eq_none_iff.mp hn⟩
    · cases h
    · split at h <;> cases h
    · cases h
  · rintro ⟨n, rfl, hn⟩
    rw [readCoordinate, Number.ofInt?_eq_none_iff.mpr hn]

theorem coordinateIn_eq_outOfRange_iff :
    coordinateIn fields key = .error .outOfRange ↔ HugeAt fields key := by
  unfold coordinateIn HugeAt
  cases Keyed.find? key fields with
  | none => exact iff_of_false nofun nofun
  | some j => simpa only [Option.some.injEq] using readCoordinate_eq_outOfRange_iff

theorem hugeAt_of_escapes (h : coordinateIn fields key = .error e) (he : e.Escapes) :
    HugeAt fields key := by
  rw [← coordinateIn_eq_outOfRange_iff, h]
  unfold coordinateIn at h
  split at h
  · unfold readCoordinate at h
    split at h
    · cases h
    · split at h
      · cases h
      · cases h
        rfl
    · cases h
    · split at h <;> cases h
      exact absurd (by decide) he
    · cases h
      exact absurd (by decide) he
  · cases h

theorem identifierIn_eq_error_iff :
    identifierIn fields key = .error e ↔
      Keyed.find? key fields = none ∧ e = .missingKey key ∨
        ∃ f, HiddenAt fields key f ∧ e = .undisplayable f := by
  unfold identifierIn HiddenAt
  cases Keyed.find? key fields with
  | none => simp [eq_comm]
  | some j => cases hj : j.display <;> simp [identifierOf, hj, Except.mapError, eq_comm]

theorem kindIn_of_hiddenAt {f : Json.DisplayFault} (h : HiddenAt fields "kind" f) :
    kindIn fields = .error (.undisplayable f) := by
  obtain ⟨j, hj, hf⟩ := h
  unfold kindIn
  rw [hj]
  cases j with
  | str s => cases hf
  | _ =>
    dsimp only
    rw [Json.display_eq_error_iff.mp hf]

theorem hiddenAt_kind_of_escapes (h : kindIn fields = .error e) (he : e.Escapes) :
    HiddenAt fields "kind" .tooDeep := by
  unfold kindIn at h
  split at h
  · cases h
    exact absurd (by decide) he
  · split at h <;> cases h
    exact absurd (by decide) he
  · rename_i j _ hj
    split at h
    · cases h
      exact absurd (by decide) he
    · rename_i f hf
      cases h
      cases f with
      | tooManyDigits => exact absurd (by decide) he
      | tooDeep => exact ⟨j, hj, Json.display_eq_error_iff.mpr hf⟩

theorem parentIn_of_hiddenAt {f : Json.DisplayFault} (h : HiddenAt fields "parent_id" f) :
    parentIn fields = .error (.undisplayable f) := by
  obtain ⟨j, hj, hf⟩ := h
  unfold parentIn
  rw [hj]
  cases j with
  | null => cases hf
  | _ =>
    dsimp only
    rw [identifierOf, hf]
    rfl

theorem hiddenAt_parent_of_escapes (h : parentIn fields = .error e) (he : e.Escapes) :
    HiddenAt fields "parent_id" .tooDeep := by
  unfold parentIn at h
  split at h
  · cases h
  · cases h
  · rename_i j _ hj
    rw [identifierOf] at h
    cases hf : j.display with
    | ok text =>
      rw [hf] at h
      cases h
    | error f =>
      rw [hf] at h
      cases h
      cases f with
      | tooManyDigits => exact absurd (by decide) he
      | tooDeep => exact ⟨j, hj, hf⟩

theorem not_escapes_of_positionIn (h : positionIn fields = .error e) : ¬ e.Escapes := by
  unfold positionIn at h
  split at h
  · cases h
  · split at h <;> cases h
    exact fun he => he (show ErrorClass.type ∈ _ by decide)

end Parts

/-! ## Entries -/

namespace Node

/-- An entry that can be read but for a coordinate, and that one is huge. -/
def Overflows (j : Json) : Prop :=
  ∃ fields kind position id attributes, j = .obj fields ∧ kindIn fields = .ok kind ∧
    positionIn fields = .ok position ∧ identifierIn fields "id" = .ok id ∧
    kind.readAttributes ((Keyed.find? "attributes" fields).getD .null) = .ok attributes ∧
    (HugeAt position "x" ∨ (∃ x, coordinateIn position "x" = .ok x) ∧ HugeAt position "y")

/-- Entries at which loading stops. -/
inductive Stops : Json → Prop
  /-- The entry cannot be named, and cannot be read for the same reason. -/
  | unnamed {j : Json} {f : Json.DisplayFault} (h : describe j = .error f) : Stops j
  | kind {fields : List (String × Json)} (h : HiddenAt fields "kind" .tooDeep) :
      Stops (.obj fields)
  | coordinate {j : Json} (h : Overflows j) : Stops j
  /-- The entry can be read but for its parent. -/
  | parent {fields position : List (String × Json)} {kind : Kind} {id : String}
      {attributes : kind.Attributes} {x y : Float} (hkind : kindIn fields = .ok kind)
      (hposition : positionIn fields = .ok position) (hid : identifierIn fields "id" = .ok id)
      (ha : kind.readAttributes ((Keyed.find? "attributes" fields).getD .null) = .ok attributes)
      (hx : coordinateIn position "x" = .ok x) (hy : coordinateIn position "y" = .ok y)
      (h : HiddenAt fields "parent_id" .tooDeep) : Stops (.obj fields)

variable {α : Type} [Scalar α] {j : Json}

theorem stops_of_escapes {e : EntryError} (h : ofEntry (α := α) j = .error e) (he : e.Escapes) :
    Stops j := by
  cases j with
  | obj fields =>
    -- the faults are looked for in the order in which the entry is read
    obtain hkind | ⟨kind, hkind, h⟩ := bind_eq_error.mp h
    · exact .kind (hiddenAt_kind_of_escapes hkind he)
    obtain hposition | ⟨position, hposition, h⟩ := bind_eq_error.mp h
    · exact absurd he (not_escapes_of_positionIn hposition)
    obtain hid | ⟨id, hid, h⟩ := bind_eq_error.mp h
    · rcases identifierIn_eq_error_iff.mp hid with ⟨-, rfl⟩ | ⟨f, hf, -⟩
      · exact absurd (show ErrorClass.key ∈ _ by decide) he
      · exact .unnamed (describe_obj_eq_error_iff.mpr hf)
    obtain ha | ⟨attributes, ha, h⟩ := bind_eq_error.mp h
    · cases hread : kind.readAttributes ((Keyed.find? "attributes" fields).getD .null) with
      | error f =>
        rw [hread] at ha
        cases ha
        exact absurd (show ErrorClass.value ∈ _ by decide) he
      | ok a => rw [hread] at ha; cases ha
    have ha := mapError_eq_ok.mp ha
    obtain hx | ⟨x, hx, h⟩ := bind_eq_error.mp h
    · exact .coordinate ⟨fields, kind, position, id, attributes, rfl, hkind, hposition, hid, ha,
        Or.inl (hugeAt_of_escapes hx he)⟩
    obtain hy | ⟨y, hy, h⟩ := bind_eq_error.mp h
    · exact .coordinate ⟨fields, kind, position, id, attributes, rfl, hkind, hposition, hid, ha,
        Or.inr ⟨⟨x, hx⟩, hugeAt_of_escapes hy he⟩⟩
    obtain hparent | ⟨parent, -, h⟩ := bind_eq_error.mp h
    · exact .parent hkind hposition hid ha hx hy (hiddenAt_parent_of_escapes hparent he)
    · cases h
  | _ =>
    cases h
    exact absurd (show ErrorClass.type ∈ _ by decide) he

/-- An entry that can be read up to its place fails by the first fault after that. -/
theorem ofEntry_eq_error_of_place {fields position : List (String × Json)} {kind : Kind}
    {id : String} {attributes : kind.Attributes} {e : EntryError} (hkind : kindIn fields = .ok kind)
    (hposition : positionIn fields = .ok position) (hid : identifierIn fields "id" = .ok id)
    (ha : kind.readAttributes ((Keyed.find? "attributes" fields).getD .null) = .ok attributes)
    (h : coordinateIn position "x" = .error e ∨ ∃ x, coordinateIn position "x" = .ok x ∧
      (coordinateIn position "y" = .error e ∨ ∃ y, coordinateIn position "y" = .ok y ∧
        parentIn fields = .error e)) : ofEntry (α := α) (.obj fields) = .error e := by
  refine bind_eq_error.mpr (Or.inr ⟨kind, hkind, ?_⟩)
  refine bind_eq_error.mpr (Or.inr ⟨position, hposition, ?_⟩)
  refine bind_eq_error.mpr (Or.inr ⟨id, hid, ?_⟩)
  refine bind_eq_error.mpr (Or.inr ⟨attributes, mapError_eq_ok.mpr ha, ?_⟩)
  rcases h with hx | ⟨x, hx, hy | ⟨y, hy, hparent⟩⟩
  · exact bind_eq_error.mpr (Or.inl hx)
  · exact bind_eq_error.mpr (Or.inr ⟨x, hx, bind_eq_error.mpr (Or.inl hy)⟩)
  · refine bind_eq_error.mpr (Or.inr ⟨x, hx, ?_⟩)
    refine bind_eq_error.mpr (Or.inr ⟨y, hy, ?_⟩)
    exact bind_eq_error.mpr (Or.inl hparent)

/-- An entry that cannot be named cannot be read. -/
theorem exists_ofEntry_eq_error {f : Json.DisplayFault} (h : describe j = .error f) :
    ∃ e, ofEntry (α := α) j = .error e := by
  cases hread : ofEntry (α := α) j with
  | error e => exact ⟨e, rfl⟩
  | ok n =>
    cases j with
    | obj fields =>
      obtain ⟨i, hi, hdisplay⟩ := describe_obj_eq_error_iff.mp h
      have hid := (of_ofEntry_eq_ok hread).1
      rw [entryId?, hi, Option.bind_some, hdisplay] at hid
      cases hid
    | _ => cases hread

/-- An entry at which loading stops cannot be read, and the error is not caught or the entry cannot
be named. -/
theorem Stops.exists_error (h : Stops j) : ∃ e, ofEntry (α := α) j = .error e ∧
    (e.Escapes ∨ ∃ f, describe j = .error f) := by
  cases h with
  | unnamed h =>
    obtain ⟨e, he⟩ := exists_ofEntry_eq_error (α := α) h
    exact ⟨e, he, Or.inr ⟨_, h⟩⟩
  | kind h =>
    exact ⟨_, bind_eq_error.mpr (Or.inl (kindIn_of_hiddenAt h)), Or.inl (by decide)⟩
  | coordinate h =>
    obtain ⟨fields, kind, position, id, attributes, rfl, hkind, hposition, hid, ha, hhuge⟩ := h
    refine ⟨.outOfRange, ofEntry_eq_error_of_place hkind hposition hid ha ?_, Or.inl (by decide)⟩
    rcases hhuge with hx | ⟨⟨x, hx⟩, hy⟩
    · exact Or.inl (coordinateIn_eq_outOfRange_iff.mpr hx)
    · exact Or.inr ⟨x, hx, Or.inl (coordinateIn_eq_outOfRange_iff.mpr hy)⟩
  | parent hkind hposition hid ha hx hy h =>
    have hparent := parentIn_of_hiddenAt h
    exact ⟨_, ofEntry_eq_error_of_place hkind hposition hid ha
      (Or.inr ⟨_, hx, Or.inr ⟨_, hy, hparent⟩⟩), Or.inl (by decide)⟩

/-- An entry that cannot be read is passed over unless loading stops there. -/
theorem passOver_eq_ok_iff_not_stops {e : EntryError} (h : ofEntry (α := α) j = .error e) :
    passOver [.key, .value, .type] j e = .ok () ↔ ¬ Stops j :=
  passOver_eq_ok_iff_not h (stops_of_escapes h) (fun _ => .unnamed) Stops.exists_error

/-- What can be displayed has no fault but a huge coordinate. -/
theorem stops_iff_overflows (h : j.Displayable Json.callsLeft) : Stops j ↔ Overflows j := by
  refine ⟨fun hstops => ?_, .coordinate⟩
  cases hstops with
  | unnamed hname => exact absurd hname (describe_ne_error h _)
  | kind hkind => exact absurd hkind (not_hiddenAt_of_displayable h _ _)
  | coordinate hover => exact hover
  | parent _ _ _ _ _ _ hparent => exact absurd hparent (not_hiddenAt_of_displayable h _ _)

end Node

namespace Edge

/-- Entries at which loading stops. -/
inductive Stops : Json → Prop
  /-- The entry cannot be named, and cannot be read for the same reason. -/
  | unnamed {j : Json} {f : Json.DisplayFault} (h : describe j = .error f) : Stops j
  | source {fields : List (String × Json)} {id : String} {f : Json.DisplayFault}
      (hid : identifierIn fields "id" = .ok id) (h : HiddenAt fields "source" f) :
      Stops (.obj fields)
  | target {fields : List (String × Json)} {id source : String} {f : Json.DisplayFault}
      (hid : identifierIn fields "id" = .ok id)
      (hsource : identifierIn fields "source" = .ok source) (h : HiddenAt fields "target" f) :
      Stops (.obj fields)

variable {j : Json}

theorem stops_of_not_caught {e : EntryError} (h : ofEntry j = .error e)
    (he : e.errorClass ∉ [ErrorClass.key, .type]) : Stops j := by
  cases j with
  | obj fields =>
    obtain hid | ⟨id, hid, h⟩ := bind_eq_error.mp h
    · rcases identifierIn_eq_error_iff.mp hid with ⟨-, rfl⟩ | ⟨f, hf, -⟩
      · exact absurd (show ErrorClass.key ∈ _ by decide) he
      · exact .unnamed (describe_obj_eq_error_iff.mpr hf)
    obtain hsource | ⟨source, hsource, h⟩ := bind_eq_error.mp h
    · rcases identifierIn_eq_error_iff.mp hsource with ⟨-, rfl⟩ | ⟨f, hf, -⟩
      · exact absurd (show ErrorClass.key ∈ _ by decide) he
      · exact .source hid hf
    obtain htarget | ⟨target, -, h⟩ := bind_eq_error.mp h
    · rcases identifierIn_eq_error_iff.mp htarget with ⟨-, rfl⟩ | ⟨f, hf, -⟩
      · exact absurd (show ErrorClass.key ∈ _ by decide) he
      · exact .target hid hsource hf
    · cases h
  | _ =>
    cases h
    exact absurd (show ErrorClass.type ∈ _ by decide) he

/-- An entry at which loading stops cannot be read, and the error is not caught or the entry cannot
be named. -/
theorem Stops.exists_error (h : Stops j) : ∃ e, ofEntry j = .error e ∧
    (e.errorClass ∉ [ErrorClass.key, .type] ∨ ∃ f, describe j = .error f) := by
  have huncaught : ∀ f : Json.DisplayFault,
      (EntryError.undisplayable f).errorClass ∉ [ErrorClass.key, .type] := by
    intro f
    cases f <;> decide
  have hidden : ∀ {fields key f}, HiddenAt fields key f →
      identifierIn fields key = .error (.undisplayable f) :=
    fun h => identifierIn_eq_error_iff.mpr (Or.inr ⟨_, h, rfl⟩)
  cases h with
  | unnamed h =>
    cases j with
    | obj fields =>
      have hid := hidden (describe_obj_eq_error_iff.mp h)
      exact ⟨_, bind_eq_error.mpr (Or.inl hid), Or.inr ⟨_, h⟩⟩
    | _ => exact ⟨_, rfl, Or.inr ⟨_, h⟩⟩
  | @source _ _ f hid h =>
    refine ⟨_, bind_eq_error.mpr (Or.inr ⟨_, hid, ?_⟩), Or.inl (huncaught f)⟩
    exact bind_eq_error.mpr (Or.inl (hidden h))
  | @target _ _ _ f hid hsource h =>
    refine ⟨_, bind_eq_error.mpr (Or.inr ⟨_, hid, ?_⟩), Or.inl (huncaught f)⟩
    refine bind_eq_error.mpr (Or.inr ⟨_, hsource, ?_⟩)
    exact bind_eq_error.mpr (Or.inl (hidden h))

/-- An entry that cannot be read is passed over unless loading stops there. -/
theorem passOver_eq_ok_iff_not_stops {e : EntryError} (h : ofEntry j = .error e) :
    passOver [.key, .type] j e = .ok () ↔ ¬ Stops j :=
  passOver_eq_ok_iff_not h (stops_of_not_caught h) (fun _ => .unnamed) Stops.exists_error

/-- What can be displayed has no fault. -/
theorem not_stops_of_displayable (h : j.Displayable Json.callsLeft) : ¬ Stops j := by
  intro hstops
  cases hstops with
  | unnamed hname => exact describe_ne_error h _ hname
  | source _ hsource => exact not_hiddenAt_of_displayable h _ _ hsource
  | target _ _ htarget => exact not_hiddenAt_of_displayable h _ _ htarget

end Edge

namespace Document

theorem exists_readEdges_eq_ok_iff {items : List Json} :
    (∃ r, readEdges items = .ok r) ↔ ∀ j ∈ items, ¬ Edge.Stops j := by
  induction items with
  | nil => exact iff_of_true ⟨_, rfl⟩ fun j hj => absurd hj List.not_mem_nil
  | cons j rest ih =>
    have hmap : ∀ f : List Edge × List LoadWarning → List Edge × List LoadWarning,
        (∃ r, (readEdges rest).map f = .ok r) ↔ ∃ r, readEdges rest = .ok r := by
      intro f
      cases readEdges rest with
      | ok r => exact iff_of_true ⟨_, rfl⟩ ⟨r, rfl⟩
      | error e => exact iff_of_false (by rintro ⟨r, ⟨⟩⟩) (by rintro ⟨r, ⟨⟩⟩)
    rw [List.forall_mem_cons, ← ih, readEdges]
    cases hread : Edge.ofEntry j with
    | ok edge =>
      have hgoes : ¬ Edge.Stops j := by
        intro hstops
        obtain ⟨e, he, -⟩ := hstops.exists_error
        rw [hread] at he
        cases he
      rw [and_iff_right hgoes]
      exact hmap _
    | error e =>
      have hpass := Edge.passOver_eq_ok_iff_not_stops hread
      dsimp only
      cases hover : passOver [.key, .type] j e with
      | ok u =>
        rw [and_iff_right (hpass.mp hover)]
        exact hmap _
      | error f =>
        refine iff_of_false (by rintro ⟨r, ⟨⟩⟩) fun h => ?_
        rw [hpass.mpr h.1] at hover
        cases hover

theorem exists_stops_of_readEdges_eq_error {items : List Json} {e : EntryError}
    (h : readEdges items = .error e) : ∃ j ∈ items, Edge.Stops j := by
  by_contra hnone
  have hgoes : ∀ j ∈ items, ¬ Edge.Stops j := fun j hj hstops => hnone ⟨j, hj, hstops⟩
  obtain ⟨r, hr⟩ := exists_readEdges_eq_ok_iff.mpr hgoes
  rw [h] at hr
  cases hr

end Document
end PromptCanvas
