import PromptCanvas.Proofs.Library.Listing
import PromptCanvas.Proofs.Library.Stamps

/-!
# The store as two finite maps

`Maps` is what the store should be: a map of profiles and a map of assets, each changed at the id of
a call and nowhere else.  The store keeps records as JSON text beside columns of their own, in
tables that are sorted when they are listed; nothing of this shows in its answers, which are those
of the maps, as long as every text of the calls is one of characters.

A text with half of a pair passes every check of a record, but no table takes it: a record of such
texts is not put, and an id that is such a text is neither looked for nor deleted.  The call fails
then, and nothing changes but the clock, where that was read before.  What carries the proof is
`Matches`, which every call keeps if the maps leave out the calls that fail.
-/

namespace PromptCanvas

/-! ## The two tables -/

theorem toLex_le_iff {γ δ : Type} [LinearOrder γ] [LinearOrder δ] {x y : γ} {c d : δ} :
    toLex (x, c) ≤ toLex (y, d) ↔ x < y ∨ ¬ y < x ∧ c ≤ d := by
  rw [Prod.Lex.toLex_le_toLex, not_lt]
  constructor
  · exact Or.imp_right fun h => ⟨h.1.le, h.2⟩
  · rintro (hlt | ⟨hle, h⟩)
    · exact Or.inl hlt
    · exact hle.lt_or_eq.imp_right fun heq => ⟨heq, h⟩

namespace SubjectProfile

/-- Profiles are listed by their names and then by their ids, both by code points. -/
def rank (p : SubjectProfile) : List Nat ×ₗ List Nat :=
  toLex (Text.codePoints p.name.toList, Text.codePoints p.id.toList)

def table : Table SubjectRow SubjectProfile (List Nat ×ₗ List Nat) where
  row := .ofProfile
  id := SubjectRow.id
  payload := SubjectRow.payload
  precedes := SubjectRow.precedes
  read := read
  key := SubjectProfile.id
  rank := rank
  Sound p := p.Valid ∧ Text.areWhole p.texts = true
  id_row _ := rfl
  found _ h := Payload.record?_profile h.1 h.2
  listed _ h := Payload.record?_profile h.1 h.2
  precedes_row p q _ _ := by
    rw [rank, rank, toLex_le_iff, SubjectRow.precedes, Bool.or_eq_true, Bool.and_eq_true,
      Bool.not_eq_true', Bool.eq_false_iff, ne_eq, Text.isBefore_iff, Text.isBefore_iff,
      Text.upTo_iff]
    rfl
  key_eq p q hp hq h :=
    Text.eq_of_codePoints_eq (hp.1.held _ List.mem_cons_self) (hq.1.held _ List.mem_cons_self)
      (Prod.mk.inj (toLex_inj.mp h)).2

end SubjectProfile

namespace StoredAsset

/-- Assets are listed by their stamps, the latest first, and then by their ids. -/
def rank (a : StoredAsset) : (List Nat)ᵒᵈ ×ₗ List Nat :=
  toLex (.toDual (Text.codePoints (a.createdAt.getD "").toList), Text.codePoints a.id.toList)

def table : Table AssetRow StoredAsset ((List Nat)ᵒᵈ ×ₗ List Nat) where
  row := .ofAsset
  id := AssetRow.id
  payload := AssetRow.payload
  precedes := AssetRow.precedes
  read := read
  key := StoredAsset.id
  rank := rank
  Sound a := a.Valid ∧ Text.areWhole a.texts = true ∧ ∃ m : Moment, a.createdAt = some m.text
  id_row _ := rfl
  found _ h := Payload.record?_asset h.1 h.2.1
  listed _ h := Payload.record?_asset h.1 h.2.1
  precedes_row a b ha hb := by
    obtain ⟨-, -, m, hm⟩ := ha
    obtain ⟨-, -, n, hn⟩ := hb
    rw [rank, rank, toLex_le_iff, OrderDual.toDual_lt_toDual, OrderDual.toDual_lt_toDual,
      AssetRow.precedes]
    simp only [AssetRow.ofAsset, hm, hn, Option.elim, Option.getD, Stamp.ofText_text,
      Stamp.precedes, Bool.or_eq_true, Bool.and_eq_true, Bool.not_eq_true', Bool.eq_false_iff,
      ne_eq, Text.isBefore_iff, Text.upTo_iff]
  key_eq a b ha hb h :=
    Text.eq_of_codePoints_eq (ha.1.held _ List.mem_cons_self) (hb.1.held _ List.mem_cons_self)
      (Prod.mk.inj (toLex_inj.mp h)).2

end StoredAsset

/-! ## Calls -/

namespace AssetStore

inductive Call where
  | putSubject (p : SubjectProfile)
  | deleteSubject (id : String)
  | putAsset (id : String) (image : ImageRef) (label : Option String)
  | deleteAsset (id : String)
  | clear

/-- What a call is answered with. -/
inductive Answer where
  /-- Whether the profile was put. -/
  | put (result : Except Refusal Bool)
  | stored (result : Except Refusal (Option StoredAsset))
  /-- Whether there was anything to delete. -/
  | deleted (result : Except LookupFault Bool)
  | cleared

/-- The answer of a call that did not fail. -/
def Answer.given? : Answer → Option Answer
  | .put (.error _) | .stored (.error _) | .deleted (.error _) => none
  | answer => some answer

namespace Call

/-- Records are as their checks let them through. -/
def Valid : Call → Prop
  | .putSubject p => p.Valid
  | .putAsset id image label =>
    Text.IsFilled id ∧ ∀ s ∈ id :: (image.texts ++ label.toList), Text.IsHeld s
  | .deleteSubject _ | .deleteAsset _ | .clear => True

instance : DecidablePred Valid
  | .putSubject p => inferInstanceAs (Decidable p.Valid)
  | .putAsset id image label => inferInstanceAs (Decidable (Text.IsFilled id ∧
      ∀ s ∈ id :: (image.texts ++ label.toList), Text.IsHeld s))
  | .deleteSubject _ | .deleteAsset _ | .clear => inferInstanceAs (Decidable True)

/-- Every text of the call is a text of characters. -/
def isEncodable : Call → Bool
  | .putSubject p => Text.areWhole p.texts
  | .putAsset id image label => Text.areWhole (id :: (image.texts ++ label.toList))
  | .deleteSubject id | .deleteAsset id => !Text.hasLoneHalf id
  | .clear => true

/-- The call may change what the store has of this subject. -/
def TouchesSubject (id : String) : Call → Prop
  | .putSubject p => p.id = id
  | .deleteSubject id' => id' = id
  | .clear => True
  | _ => False

/-- The call may change what the store has of this asset. -/
def TouchesAsset (id : String) : Call → Prop
  | .putAsset id' _ _ | .deleteAsset id' => id' = id
  | .clear => True
  | _ => False

/-- Makes calls one after the other and gathers the answers. -/
def run {σ ρ : Type} (make : σ → Call → σ × ρ) (s : σ) : List Call → σ × List ρ
  | [] => (s, [])
  | c :: calls =>
    let (s, answer) := make s c
    let (s, answers) := run make s calls
    (s, answer :: answers)

end Call

/-- Makes a call. -/
def make (s : AssetStore) : Call → AssetStore × Answer
  | .putSubject p => let (s, result) := s.putSubject p; (s, .put result)
  | .deleteSubject id => let (s, found) := s.deleteSubject id; (s, .deleted found)
  | .putAsset id image label =>
    let (s, result) := s.putAsset (.str id) image (Json.ofText? label); (s, .stored result)
  | .deleteAsset id => let (s, found) := s.deleteAsset id; (s, .deleted found)
  | .clear => (s.clear, .cleared)

/-! ## The maps -/

/-- What the store should be, beside a clock that was read so many times. -/
structure Maps where
  subjects : String → Option SubjectProfile
  assets : String → Option StoredAsset
  clock : Nat → Moment
  stamped : Nat

namespace Maps

def emptyBeside (clock : Nat → Moment) : Maps := ⟨fun _ => none, fun _ => none, clock, 0⟩

/-- What becomes of an upload at the next reading of the clock. -/
def upload (m : Maps) (id : String) (image : ImageRef) (label : Option String) : StoredAsset :=
  ⟨id, image, label, some (m.clock (m.stamped + 1)).text⟩

def make (m : Maps) : Call → Maps × Answer
  | .putSubject p =>
    ({ m with subjects := Function.update m.subjects p.id (some p), stamped := m.stamped + 1 },
      .put (.ok true))
  | .deleteSubject id =>
    ({ m with subjects := Function.update m.subjects id none },
      .deleted (.ok (m.subjects id).isSome))
  | .putAsset id image label =>
    let a := m.upload id image label
    ({ m with assets := Function.update m.assets id (some a), stamped := m.stamped + 1 },
      .stored (.ok (some a)))
  | .deleteAsset id =>
    ({ m with assets := Function.update m.assets id none }, .deleted (.ok (m.assets id).isSome))
  | .clear => ({ m with subjects := fun _ => none, assets := fun _ => none }, .cleared)

/-- The maps beside a call that failed: an upload has read the clock by then. -/
def leaveOut (m : Maps) : Call → Maps
  | .putAsset _ _ _ => { m with stamped := m.stamped + 1 }
  | _ => m

/-- Makes a call unless it has to fail. -/
def makeEncodable (m : Maps) (c : Call) : Maps × Option Answer :=
  if c.isEncodable then (m.make c).map id some else (m.leaveOut c, none)

end Maps

/-! ## What every call keeps -/

/-- The store has what the maps have. -/
structure Matches (s : AssetStore) (m : Maps) : Prop where
  subjects : ∃ rows, s.subjects = some rows ∧ SubjectProfile.table.Holds rows m.subjects
  assets : ∃ rows, s.assets = some rows ∧ StoredAsset.table.Holds rows m.assets
  clock : s.clock = m.clock
  stamped : s.stamped = m.stamped

theorem rowsFor_some {ρ : Type} (id : String) (rows : List ρ) :
    rowsFor id (some rows) =
      if Text.hasLoneHalf id then .error .notCharacters else .ok rows := rfl

variable {s : AssetStore} {m : Maps}

theorem matches_emptyBeside (clock : Nat → Moment) :
    Matches (.emptyBeside clock) (.emptyBeside clock) :=
  ⟨⟨[], rfl, Table.holds_nil⟩, ⟨[], rfl, Table.holds_nil⟩, rfl, rfl⟩

theorem Matches.putSubject (h : Matches s m) {p : SubjectProfile} (hp : p.Valid)
    (hwhole : Text.areWhole p.texts = true) :
    Matches (s.make (.putSubject p)).1 (m.make (.putSubject p)).1 ∧
      (s.make (.putSubject p)).2 = (m.make (.putSubject p)).2 := by
  obtain ⟨⟨rows, hrows, hsubjects⟩, hassets, hclock, hstamped⟩ := h
  rw [make, AssetStore.putSubject, Maps.make, SubjectProfile.isStandard_toJson, hwhole,
    Bool.not_true, if_neg Bool.false_ne_true]
  dsimp only
  rw [hrows]
  exact ⟨⟨⟨_, rfl, hsubjects.insert ⟨hp, hwhole⟩⟩, hassets, hclock, congrArg (· + 1) hstamped⟩, rfl⟩

/-- An id that is not there may as well be set to nothing. -/
theorem update_none_eq_self {β : Type} {f : String → Option β} {id : String}
    (h : (f id).isSome = false) : Function.update f id none = f := by
  rw [Option.isSome_eq_false_iff, Option.isNone_iff_eq_none] at h
  rw [← h, Function.update_eq_self]

theorem Matches.deleteSubject (h : Matches s m) {id : String} (hid : Text.hasLoneHalf id = false) :
    Matches (s.make (.deleteSubject id)).1 (m.make (.deleteSubject id)).1 ∧
      (s.make (.deleteSubject id)).2 = (m.make (.deleteSubject id)).2 := by
  obtain ⟨⟨rows, hrows, hsubjects⟩, hassets, hclock, hstamped⟩ := h
  rw [make, AssetStore.deleteSubject, Maps.make, hrows, rowsFor_some, hid,
    if_neg Bool.false_ne_true]
  dsimp only
  have hany : rows.any (·.id == id) = (m.subjects id).isSome := hsubjects.any_eq id
  rw [hany]
  cases hfound : (m.subjects id).isSome with
  | false =>
    rw [update_none_eq_self hfound]
    exact ⟨⟨⟨rows, hrows, hsubjects⟩, hassets, hclock, hstamped⟩, rfl⟩
  | true => exact ⟨⟨⟨_, rfl, hsubjects.erase id⟩, hassets, hclock, hstamped⟩, rfl⟩

theorem asset_eq_ok {id : String} (hid : Text.IsFilled id) (image : ImageRef)
    (label : Option String) (stamp : String) :
    asset (.str id) image (Json.ofText? label) stamp = .ok ⟨id, image, label, some stamp⟩ := by
  rw [asset, Text.filledText_of_isFilled hid, Record.Reading.optional_text_ofText?]
  rfl

theorem valid_upload {id : String} {image : ImageRef} {label : Option String}
    (h : (Call.putAsset id image label).Valid) : (m.upload id image label).Valid := by
  refine ⟨h.1, fun t ht => ?_⟩
  have hstamp : Text.IsHeld (m.clock (m.stamped + 1)).text :=
    (Text.isWhole_iff.mp (Moment.isWhole_text _)).1
  have htexts : (m.upload id image label).texts =
      (id :: (image.texts ++ label.toList)) ++ [(m.clock (m.stamped + 1)).text] := rfl
  rw [htexts, List.mem_append, List.mem_singleton] at ht
  rcases ht with ht | rfl
  · exact h.2 t ht
  · exact hstamp

/-- The time that an upload is stamped with is a text of characters. -/
theorem areWhole_upload (m : Maps) (id : String) (image : ImageRef) (label : Option String) :
    Text.areWhole (m.upload id image label).texts =
      Text.areWhole (id :: (image.texts ++ label.toList)) := by
  have htexts : (m.upload id image label).texts =
      (id :: (image.texts ++ label.toList)) ++ [(m.clock (m.stamped + 1)).text] := rfl
  have hstamp : Text.areWhole [(m.clock (m.stamped + 1)).text] = true := by
    simpa [Text.areWhole] using (Text.isWhole_iff.mp (Moment.isWhole_text _)).2
  rw [htexts, Text.areWhole_append, hstamp, Bool.and_true]

theorem Matches.asset_eq (h : Matches s m) {id : String} {image : ImageRef} {label : Option String}
    (hvalid : (Call.putAsset id image label).Valid) :
    asset (.str id) image (Json.ofText? label) (s.clock (s.stamped + 1)).text =
      .ok (m.upload id image label) := by
  rw [asset_eq_ok hvalid.1, h.clock, h.stamped]
  rfl

theorem Matches.putAsset (h : Matches s m) {id : String} {image : ImageRef} {label : Option String}
    (hvalid : (Call.putAsset id image label).Valid)
    (hwhole : Text.areWhole (id :: (image.texts ++ label.toList)) = true) :
    Matches (s.make (.putAsset id image label)).1 (m.make (.putAsset id image label)).1 ∧
      (s.make (.putAsset id image label)).2 = (m.make (.putAsset id image label)).2 := by
  have ha := h.asset_eq hvalid
  obtain ⟨hsubjects, ⟨rows, hrows, hassets⟩, hclock, hstamped⟩ := h
  rw [← areWhole_upload m] at hwhole
  rw [make, AssetStore.putAsset, Maps.make]
  dsimp only
  rw [ha]
  dsimp only
  rw [StoredAsset.isStandard_toJson, hwhole, Bool.not_true, if_neg Bool.false_ne_true, hrows]
  exact ⟨⟨hsubjects, ⟨_, rfl, hassets.insert ⟨valid_upload hvalid, hwhole, _, rfl⟩⟩, hclock,
    congrArg (· + 1) hstamped⟩, rfl⟩

theorem Matches.deleteAsset (h : Matches s m) {id : String} (hid : Text.hasLoneHalf id = false) :
    Matches (s.make (.deleteAsset id)).1 (m.make (.deleteAsset id)).1 ∧
      (s.make (.deleteAsset id)).2 = (m.make (.deleteAsset id)).2 := by
  obtain ⟨hsubjects, ⟨rows, hrows, hassets⟩, hclock, hstamped⟩ := h
  rw [make, AssetStore.deleteAsset, Maps.make, hrows, rowsFor_some, hid, if_neg Bool.false_ne_true]
  dsimp only
  have hany : rows.any (·.id == id) = (m.assets id).isSome := hassets.any_eq id
  rw [hany]
  cases hfound : (m.assets id).isSome with
  | false =>
    rw [update_none_eq_self hfound]
    exact ⟨⟨hsubjects, ⟨rows, hrows, hassets⟩, hclock, hstamped⟩, rfl⟩
  | true => exact ⟨⟨hsubjects, ⟨_, rfl, hassets.erase id⟩, hclock, hstamped⟩, rfl⟩

theorem Matches.clear (h : Matches s m) :
    Matches (s.make .clear).1 (m.make .clear).1 ∧ (s.make .clear).2 = (m.make .clear).2 := by
  obtain ⟨⟨rows, hrows, -⟩, ⟨rows', hrows', -⟩, hclock, hstamped⟩ := h
  rw [make, AssetStore.clear, hrows, hrows']
  exact ⟨⟨⟨[], rfl, Table.holds_nil⟩, ⟨[], rfl, Table.holds_nil⟩, hclock, hstamped⟩, rfl⟩

/-- A call of characters is answered as the maps answer it, and the store has what the maps have
then. -/
theorem Matches.make (h : Matches s m) {c : Call} (hc : c.Valid) (hencodable : c.isEncodable = true) :
    Matches (s.make c).1 (m.make c).1 ∧ (s.make c).2 = (m.make c).2 := by
  cases c with
  | putSubject p => exact h.putSubject hc hencodable
  | deleteSubject id => exact h.deleteSubject ((Bool.not_eq_true' _).mp hencodable)
  | putAsset id image label => exact h.putAsset hc hencodable
  | deleteAsset id => exact h.deleteAsset ((Bool.not_eq_true' _).mp hencodable)
  | clear => exact h.clear

theorem deleteSubject_of_hasLoneHalf {rows : List SubjectRow} (hrows : s.subjects = some rows)
    {id : String} (hid : Text.hasLoneHalf id = true) :
    s.deleteSubject id = (s, .error .notCharacters) := by
  rw [AssetStore.deleteSubject, hrows, rowsFor_some, hid]
  rfl

theorem deleteAsset_of_hasLoneHalf {rows : List AssetRow} (hrows : s.assets = some rows)
    {id : String} (hid : Text.hasLoneHalf id = true) :
    s.deleteAsset id = (s, .error .notCharacters) := by
  rw [AssetStore.deleteAsset, hrows, rowsFor_some, hid]
  rfl

/-- Any other call fails, and the store has what it had. -/
theorem Matches.make_of_not_encodable (h : Matches s m) {c : Call} (hc : c.Valid)
    (hencodable : c.isEncodable = false) :
    (s.make c).1 = { s with stamped := (m.leaveOut c).stamped } ∧ (s.make c).2.given? = none := by
  have hsame : s = { s with stamped := m.stamped } := by rw [← h.stamped]
  cases c with
  | putSubject p =>
    have hwhole : Text.areWhole p.texts = false := hencodable
    rw [AssetStore.make, AssetStore.putSubject, SubjectProfile.isStandard_toJson, hwhole]
    exact ⟨hsame, rfl⟩
  | deleteSubject id =>
    obtain ⟨rows, hrows, -⟩ := h.subjects
    have hid : Text.hasLoneHalf id = true := (Bool.not_eq_false' _).mp hencodable
    rw [AssetStore.make, deleteSubject_of_hasLoneHalf hrows hid]
    exact ⟨hsame, rfl⟩
  | putAsset id image label =>
    -- The clock was read before the record was found unwritable.
    have hwhole : Text.areWhole (m.upload id image label).texts = false :=
      (areWhole_upload m id image label).trans hencodable
    rw [AssetStore.make, AssetStore.putAsset]
    dsimp only
    rw [h.asset_eq hc]
    dsimp only
    rw [StoredAsset.isStandard_toJson, hwhole]
    exact ⟨by rw [Maps.leaveOut, ← h.stamped]; rfl, rfl⟩
  | deleteAsset id =>
    obtain ⟨rows, hrows, -⟩ := h.assets
    have hid : Text.hasLoneHalf id = true := (Bool.not_eq_false' _).mp hencodable
    rw [AssetStore.make, deleteAsset_of_hasLoneHalf hrows hid]
    exact ⟨hsame, rfl⟩
  | clear => cases hencodable

theorem Matches.leaveOut (h : Matches s m) (c : Call) :
    Matches { s with stamped := (m.leaveOut c).stamped } (m.leaveOut c) := by
  cases c <;> exact ⟨h.subjects, h.assets, h.clock, rfl⟩

theorem given?_make (m : Maps) (c : Call) : (m.make c).2.given? = some (m.make c).2 := by
  cases c <;> rfl

/-- Whatever its texts are, a call is answered as the maps answer it that leave out what fails. -/
theorem Matches.makeEncodable (h : Matches s m) {c : Call} (hc : c.Valid) :
    Matches (s.make c).1 (m.makeEncodable c).1 ∧
      (s.make c).2.given? = (m.makeEncodable c).2 := by
  rw [Maps.makeEncodable]
  by_cases hencodable : c.isEncodable = true
  · rw [if_pos hencodable]
    obtain ⟨hnext, hanswer⟩ := h.make hc hencodable
    exact ⟨hnext, by rw [hanswer, given?_make]; rfl⟩
  · rw [if_neg hencodable]
    obtain ⟨hstore, hfailed⟩ := h.make_of_not_encodable hc (Bool.not_eq_true _ ▸ hencodable)
    exact ⟨hstore ▸ h.leaveOut c, hfailed⟩

theorem run_cons {σ ρ : Type} (make : σ → Call → σ × ρ) (s : σ) (c : Call) (calls : List Call) :
    Call.run make s (c :: calls) =
      ((Call.run make (make s c).1 calls).1, (make s c).2 :: (Call.run make (make s c).1 calls).2) :=
  rfl

theorem Matches.run (h : Matches s m) {calls : List Call} (hcalls : ∀ c ∈ calls, c.Valid) :
    Matches (Call.run AssetStore.make s calls).1 (Call.run Maps.makeEncodable m calls).1 ∧
      (Call.run AssetStore.make s calls).2.map Answer.given? =
        (Call.run Maps.makeEncodable m calls).2 := by
  induction calls generalizing s m with
  | nil => exact ⟨h, rfl⟩
  | cons c calls ih =>
    obtain ⟨hc, hcalls⟩ := List.forall_mem_cons.mp hcalls
    obtain ⟨hnext, hanswer⟩ := h.makeEncodable hc
    obtain ⟨hend, hanswers⟩ := ih hnext hcalls
    rw [run_cons, run_cons, List.map_cons]
    exact ⟨hend, congrArg₂ List.cons hanswer hanswers⟩

/-- All answers are those of the maps just if every text of the calls is one of characters. -/
theorem Matches.answers_eq_iff (h : Matches s m) {calls : List Call}
    (hcalls : ∀ c ∈ calls, c.Valid) :
    (Call.run AssetStore.make s calls).2 = (Call.run Maps.make m calls).2 ↔
      ∀ c ∈ calls, c.isEncodable = true := by
  induction calls generalizing s m with
  | nil => exact iff_of_true rfl fun c hc => absurd hc List.not_mem_nil
  | cons c calls ih =>
    obtain ⟨hc, hcalls⟩ := List.forall_mem_cons.mp hcalls
    rw [run_cons, run_cons, List.cons.injEq, List.forall_mem_cons]
    by_cases hencodable : c.isEncodable = true
    · obtain ⟨hnext, hanswer⟩ := h.make hc hencodable
      rw [ih hnext hcalls, and_iff_right hanswer, and_iff_right hencodable]
    · -- The maps answer where the store fails.
      have hfailed := (h.make_of_not_encodable hc (Bool.not_eq_true _ ▸ hencodable)).2
      refine iff_of_false (fun heq => ?_) fun hall => hencodable hall.1
      rw [heq.1, given?_make] at hfailed
      cases hfailed

/-! ## What the store answers -/

/-- Looking for an id finds what the map has there, if the id is a text of characters. -/
theorem Matches.subject? (h : Matches s m) (id : String) :
    s.subject? id =
      if Text.hasLoneHalf id then .error .notCharacters else .ok (m.subjects id) := by
  obtain ⟨rows, hrows, hsubjects⟩ := h.subjects
  rw [AssetStore.subject?, hrows, rowsFor_some]
  cases Text.hasLoneHalf id with
  | false => exact congrArg (Except.mapError LookupFault.tooDeep) (hsubjects.found?_eq id)
  | true => rfl

theorem Matches.asset? (h : Matches s m) (id : String) :
    s.asset? id = if Text.hasLoneHalf id then .error .notCharacters else .ok (m.assets id) := by
  obtain ⟨rows, hrows, hassets⟩ := h.assets
  rw [AssetStore.asset?, hrows, rowsFor_some]
  cases Text.hasLoneHalf id with
  | false => exact congrArg (Except.mapError LookupFault.tooDeep) (hassets.found?_eq id)
  | true => rfl

theorem Matches.listSubjects (h : Matches s m) :
    ∃ ps, s.listSubjects = .ok ps ∧ ps.Pairwise (fun p q => p.rank < q.rank) ∧
      ∀ p, p ∈ ps ↔ m.subjects p.id = some p := by
  obtain ⟨rows, hrows, hsubjects⟩ := h.subjects
  rw [AssetStore.listSubjects, subjectRows, hrows]
  exact hsubjects.records_eq

theorem Matches.listAssets (h : Matches s m) :
    ∃ as, s.listAssets = .ok as ∧ as.Pairwise (fun a b => a.rank < b.rank) ∧
      ∀ a, a ∈ as ↔ m.assets a.id = some a := by
  obtain ⟨rows, hrows, hassets⟩ := h.assets
  rw [AssetStore.listAssets, assetRows, hrows]
  exact hassets.records_eq

/-- A profile is kept under its own id. -/
theorem Matches.id_eq (h : Matches s m) {id : String} {p : SubjectProfile}
    (hp : m.subjects id = some p) : p.id = id := by
  obtain ⟨rows, -, ps, -, hlists, -⟩ := h.subjects
  exact hlists.key_eq hp

theorem Matches.library (h : Matches s m) :
    ∃ l, s.library = .ok l ∧ (Keyed.keys l).Nodup ∧ ∀ id, Keyed.find? id l = m.subjects id := by
  obtain ⟨ps, hps, hranks, hmem⟩ := h.listSubjects
  have hnodup : (Keyed.keys (ps.map fun p => (p.id, p))).Nodup := by
    rw [Keyed.keys, List.map_map]
    refine List.pairwise_map.mpr (hranks.imp_of_mem fun {p q} hp hq hlt heq => ?_)
    rw [hmem] at hp hq
    have hsame : p = q := Option.some.inj (hp.symm.trans ((congrArg m.subjects heq).trans hq))
    exact hlt.ne (congrArg SubjectProfile.rank hsame)
  refine ⟨ps.map fun p => (p.id, p), ?_, hnodup, fun id => Option.ext fun p => ?_⟩
  · rw [AssetStore.library, hps]
    exact congrArg Except.ok (Keyed.ofList_of_nodup hnodup)
  · rw [Keyed.find?_eq_some_iff hnodup, List.mem_map]
    constructor
    · rintro ⟨q, hq, heq⟩
      obtain ⟨rfl, rfl⟩ := Prod.mk.inj heq
      exact (hmem q).mp hq
    · intro hp
      have hid := h.id_eq hp
      exact ⟨p, (hmem p).mpr (hid ▸ hp), by rw [hid]⟩

theorem subjects_makeEncodable (m : Maps) {c : Call} {id : String} (h : ¬ c.TouchesSubject id) :
    (m.makeEncodable c).1.subjects id = m.subjects id := by
  rw [Maps.makeEncodable]
  split
  · cases c with
    | putSubject p => exact Function.update_of_ne (Ne.symm h) _ _
    | deleteSubject id' => exact Function.update_of_ne (Ne.symm h) _ _
    | putAsset id' image label => rfl
    | deleteAsset id' => rfl
    | clear => exact absurd trivial h
  · cases c <;> rfl

theorem assets_makeEncodable (m : Maps) {c : Call} {id : String} (h : ¬ c.TouchesAsset id) :
    (m.makeEncodable c).1.assets id = m.assets id := by
  rw [Maps.makeEncodable]
  split
  · cases c with
    | putSubject p => rfl
    | deleteSubject id' => rfl
    | putAsset id' image label => exact Function.update_of_ne (Ne.symm h) _ _
    | deleteAsset id' => exact Function.update_of_ne (Ne.symm h) _ _
    | clear => exact absurd trivial h
  · cases c <;> rfl

/-- A call that touches no subject leaves their table as it is. -/
theorem subjects_of_untouched (s : AssetStore) {c : Call} (h : ∀ id, ¬ c.TouchesSubject id) :
    (s.make c).1.subjects = s.subjects := by
  cases c with
  | putSubject p => exact absurd rfl (h p.id)
  | deleteSubject id => exact absurd rfl (h id)
  | putAsset id image label =>
    show (s.putAsset (.str id) image (Json.ofText? label)).1.subjects = s.subjects
    unfold putAsset
    dsimp only
    repeat' split
    all_goals rfl
  | deleteAsset id =>
    show (s.deleteAsset id).1.subjects = s.subjects
    unfold deleteAsset
    split
    · rfl
    · split <;> rfl
  | clear => exact absurd trivial (h "")

/-- A call that touches no asset leaves their table as it is. -/
theorem assets_of_untouched (s : AssetStore) {c : Call} (h : ∀ id, ¬ c.TouchesAsset id) :
    (s.make c).1.assets = s.assets := by
  cases c with
  | putSubject p =>
    show (s.putSubject p).1.assets = s.assets
    unfold putSubject
    dsimp only
    repeat' split
    all_goals rfl
  | deleteSubject id =>
    show (s.deleteSubject id).1.assets = s.assets
    unfold deleteSubject
    split
    · rfl
    · split <;> rfl
  | putAsset id image label => exact absurd rfl (h id)
  | deleteAsset id => exact absurd rfl (h id)
  | clear => exact absurd trivial (h "")

/-- Whatever the clock tells, a store that was empty answers a row of calls as two maps do just if
every text of the calls is one of characters.  A call with another text fails and changes nothing
but the clock, and so in any row the other calls are answered as if those that fail were not there.
After it, whatever is looked for is what the maps have, unless the id is no text of characters
itself, and what is listed is all there is, once, and in order.  A further call changes nothing but
what it is about. -/
theorem answers_as_maps_iff_encodable (clock : Nat → Moment) (calls : List Call)
    (hcalls : ∀ c ∈ calls, c.Valid) :
    let s := (Call.run AssetStore.make (.emptyBeside clock) calls).1
    let m := (Call.run Maps.makeEncodable (.emptyBeside clock) calls).1
    ((Call.run AssetStore.make (.emptyBeside clock) calls).2 =
        (Call.run Maps.make (.emptyBeside clock) calls).2 ↔
      ∀ c ∈ calls, c.isEncodable = true) ∧
    (Call.run AssetStore.make (.emptyBeside clock) calls).2.map Answer.given? =
      (Call.run Maps.makeEncodable (.emptyBeside clock) calls).2 ∧
    (∀ id, s.subject? id =
      if Text.hasLoneHalf id then .error .notCharacters else .ok (m.subjects id)) ∧
    (∀ id, s.asset? id =
      if Text.hasLoneHalf id then .error .notCharacters else .ok (m.assets id)) ∧
    (∃ ps, s.listSubjects = .ok ps ∧ ps.Pairwise (fun p q => p.rank < q.rank) ∧
      ∀ p, p ∈ ps ↔ m.subjects p.id = some p) ∧
    (∃ as, s.listAssets = .ok as ∧ as.Pairwise (fun a b => a.rank < b.rank) ∧
      ∀ a, a ∈ as ↔ m.assets a.id = some a) ∧
    (∃ l, s.library = .ok l ∧ (Keyed.keys l).Nodup ∧ ∀ id, Keyed.find? id l = m.subjects id) ∧
    ∀ c, c.Valid →
      (∀ id, ¬ c.TouchesSubject id → (s.make c).1.subject? id = s.subject? id) ∧
      (∀ id, ¬ c.TouchesAsset id → (s.make c).1.asset? id = s.asset? id) ∧
      ((∀ id, ¬ c.TouchesSubject id) → (s.make c).1.listSubjects = s.listSubjects) ∧
      ((∀ id, ¬ c.TouchesAsset id) → (s.make c).1.listAssets = s.listAssets) ∧
      (c.isEncodable = false → (s.make c).1 = { s with stamped := (s.make c).1.stamped }) := by
  intro s m
  have hempty := matches_emptyBeside clock
  obtain ⟨hmatches, hanswers⟩ := hempty.run hcalls
  refine ⟨hempty.answers_eq_iff hcalls, hanswers, hmatches.subject?, hmatches.asset?,
    hmatches.listSubjects, hmatches.listAssets, hmatches.library, fun c hc => ?_⟩
  have hnext := (hmatches.makeEncodable hc).1
  refine ⟨fun id h => ?_, fun id h => ?_, fun h => ?_, fun h => ?_, fun h => ?_⟩
  · rw [hnext.subject?, hmatches.subject?, subjects_makeEncodable _ h]
  · rw [hnext.asset?, hmatches.asset?, assets_makeEncodable _ h]
  · rw [AssetStore.listSubjects, AssetStore.listSubjects, subjectRows, subjectRows,
      subjects_of_untouched _ h]
  · rw [AssetStore.listAssets, AssetStore.listAssets, assetRows, assetRows,
      assets_of_untouched _ h]
  · rw [(hmatches.make_of_not_encodable hc h).1]

/-- A profile with a quote, a line break and a character past the first plane in its texts. -/
def ada : SubjectProfile where
  id := "ada"
  name := "Ada"
  description := some "says \"hi\"\n🙂"
  gender := some .woman
  bodyType := none
  type := .realPerson
  images := [⟨"aGk=", "image/png"⟩]
  tags := ["lead"]

/-- One half of a surrogate pair, alone. -/
def loneHalf : String := String.singleton (Char.ofNat 0x10d800)

/-- Profiles and assets come and go; one profile has half of a pair in its description. -/
def comings : List Call := [
  .putSubject ada, .putSubject { ada with id := "zed", name := "Zed" },
  .putAsset "b" ⟨"aGk=", "image/png"⟩ none, .putSubject { ada with name := "Ada L." },
  .putSubject { ada with description := some loneHalf },
  .putAsset "a" ⟨"aGk=", "image/png"⟩ (some "Mood board"), .deleteSubject "zed",
  .deleteAsset "b", .putAsset "b" ⟨"", "image/gif"⟩ none]

theorem answers_as_maps_iff_encodable_comings :
    let clock := fun n => (⟨2026, 3, 1, 9, 30, n, 0⟩ : Moment)
    let s := (Call.run AssetStore.make (.emptyBeside clock) comings).1
    (∀ c ∈ comings, c.Valid) ∧
      (Call.run AssetStore.make (.emptyBeside clock) comings).2 ≠
        (Call.run Maps.make (.emptyBeside clock) comings).2 ∧
      s.subject? "ada" = .ok (some { ada with name := "Ada L." }) ∧ s.subject? "zed" = .ok none ∧
      s.asset? "b" = .ok (some ⟨"b", ⟨"", "image/gif"⟩, none, some "2026-03-01T09:30:06"⟩) := by
  intro clock s
  have hvalid : ∀ c ∈ comings, c.Valid := by decide +kernel
  have hnot : ¬ ∀ c ∈ comings, c.isEncodable = true := by decide +kernel
  obtain ⟨hanswers, -, hsubject, hasset, -⟩ := answers_as_maps_iff_encodable clock comings hvalid
  refine ⟨hvalid, fun h => hnot (hanswers.mp h), ?_, ?_, ?_⟩
  · exact (hsubject "ada").trans (congrArg Except.ok (by decide +kernel))
  · exact (hsubject "zed").trans (congrArg Except.ok (by decide +kernel))
  · exact (hasset "b").trans (congrArg Except.ok (by decide +kernel))

/-- A profile that is not there is asked to be deleted, by an id that no table takes: the maps answer
that it is not there, and the store fails. -/
theorem answers_deleteSubject_loneHalf :
    (Call.run AssetStore.make .empty [.deleteSubject loneHalf]).2 =
        [.deleted (.error .notCharacters)] ∧
      (Call.run Maps.make (.emptyBeside .counted) [.deleteSubject loneHalf]).2 =
        [.deleted (.ok false)] := by
  have hhalf : Text.hasLoneHalf loneHalf = true := by decide
  refine ⟨?_, rfl⟩
  rw [run_cons, AssetStore.make, deleteSubject_of_hasLoneHalf rfl hhalf]
  rfl

end AssetStore
end PromptCanvas
