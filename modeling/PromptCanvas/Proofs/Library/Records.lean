import PromptCanvas.Library.AssetStore
import PromptCanvas.Proofs.Json.RoundTrip
import PromptCanvas.Proofs.Node.Fit

/-!
# Records that come back

A valid record is one that its checks let through.  If it is a record of characters, so that it can
be written at all, then the payload that is written of it is read as the record itself.
-/

namespace PromptCanvas

open Record

/-! ## Texts of records -/

namespace Text

/-- What an id or a name has to be: not empty and a text of characters. -/
def IsFilled (s : String) : Prop := s ≠ "" ∧ hasLoneHalf s = false

instance (s : String) : Decidable (IsFilled s) := inferInstanceAs (Decidable (_ ∧ _))

/-- No text among these has half of a pair that stands alone. -/
def areWhole (ss : List String) : Bool := !ss.any hasLoneHalf

theorem areWhole_cons (s : String) (ss : List String) :
    areWhole (s :: ss) = (!hasLoneHalf s && areWhole ss) := by
  rw [areWhole, List.any_cons, Bool.not_or, areWhole]

theorem areWhole_append (ss ts : List String) :
    areWhole (ss ++ ts) = (areWhole ss && areWhole ts) := by
  rw [areWhole, List.any_append, Bool.not_or, areWhole, areWhole]

theorem filledText_of_isFilled {s : String} (h : IsFilled s) :
    Reading.filledText (.str s) = .ok s := by
  obtain ⟨hne, hwhole⟩ := h
  rw [Reading.filledText, Reading.withCharacters, hwhole, if_neg Bool.false_ne_true,
    if_neg (by simpa using hne)]

theorem isWhole_of_areWhole {ss : List String} (hheld : ∀ s ∈ ss, IsHeld s)
    (h : areWhole ss = true) : ∀ s ∈ ss, IsWhole s := by
  intro s hs
  rw [areWhole, Bool.not_eq_true', List.any_eq_false] at h
  exact isWhole_iff.mpr ⟨hheld s hs, by simpa using h s hs⟩

end Text

namespace Json

theorem isStandard_arr (items : List Json) : (arr items).isStandard = items.all isStandard := by
  rw [isStandard]
  induction items with
  | nil => rfl
  | cons j items ih => rw [isStandardItems, ih, List.all_cons]

theorem isStandard_obj (fields : List (String × Json)) :
    (obj fields).isStandard =
      (Text.areWhole (Keyed.keys fields) && fields.all fun e => e.2.isStandard) := by
  rw [isStandard]
  induction fields with
  | nil => rfl
  | cons e fields ih =>
    have hkeys : Keyed.keys (e :: fields) = e.1 :: Keyed.keys fields := rfl
    rw [isStandardFields, ih, hkeys, Text.areWhole_cons, List.all_cons, Bool.and_assoc,
      Bool.and_assoc, Bool.and_left_comm e.2.isStandard]

theorem isStandard_str (s : String) : (str s).isStandard = !Text.hasLoneHalf s := rfl

theorem isStandard_ofText? (s : Option String) :
    (ofText? s).isStandard = Text.areWhole s.toList := by
  cases s with
  | none => rfl
  | some s => simp [ofText?, ofOption, isStandard, Text.areWhole]

end Json

namespace ImageRef

def texts (r : ImageRef) : List String := [r.data, r.mimeType]

theorem isStandard_toJson (r : ImageRef) : r.toJson.isStandard = Text.areWhole r.texts := by
  have hkeys : Text.areWhole ["data", "mime_type"] = true := by decide
  rw [toJson, Json.isStandard_obj]
  show (Text.areWhole ["data", "mime_type"] && _) = _
  rw [hkeys, Bool.true_and]
  simp [Json.isStandard_str, texts, Text.areWhole]

theorem plain_toJson {n : Nat} {r : ImageRef} (h : ∀ s ∈ r.texts, Text.IsWhole s) :
    Json.Plain (n + 1) r.toJson := by
  obtain ⟨hdata, hrest⟩ := List.forall_mem_cons.mp h
  refine .record ["data", "mime_type"] rfl (by decide) (by decide) (List.forall_mem_cons.mpr ?_)
  exact ⟨.str hdata, List.forall_mem_singleton.mpr (.str (List.forall_mem_singleton.mp hrest))⟩

end ImageRef

/-! ## Profiles -/

namespace SubjectProfile

/-- All that is text in a profile. -/
def texts (p : SubjectProfile) : List String :=
  p.id :: p.name :: (p.description.toList ++ p.bodyType.toList ++ p.images.flatMap ImageRef.texts
    ++ p.tags)

/-- A profile as the checks of its fields let it through. -/
structure Valid (p : SubjectProfile) : Prop where
  id : Text.IsFilled p.id
  name : Text.IsFilled p.name
  held : ∀ s ∈ p.texts, Text.IsHeld s

instance (p : SubjectProfile) : Decidable p.Valid :=
  decidable_of_iff (Text.IsFilled p.id ∧ Text.IsFilled p.name ∧ ∀ s ∈ p.texts, Text.IsHeld s)
    ⟨fun h => ⟨h.1, h.2.1, h.2.2⟩, fun h => ⟨h.id, h.name, h.held⟩⟩

/-- The names of a profile's members. -/
def names : List String :=
  ["id", "name", "description", "gender", "body_type", "type", "images", "tags"]

theorem isStandard_toJson (p : SubjectProfile) :
    p.toJson.isStandard = Text.areWhole p.texts := by
  have hkeys : Text.areWhole names = true := by decide
  have hgender : (Json.ofOption Labelled.toJson p.gender).isStandard = true := by
    cases p.gender with
    | none => rfl
    | some g => cases g <;> decide
  have htype : (Labelled.toJson p.type).isStandard = true := by
    cases p.type <;> decide
  have himages : (Json.arr (p.images.map ImageRef.toJson)).isStandard =
      Text.areWhole (p.images.flatMap ImageRef.texts) := by
    rw [Json.isStandard_arr]
    induction p.images with
    | nil => rfl
    | cons r images ih =>
      rw [List.map_cons, List.all_cons, ih, ImageRef.isStandard_toJson, List.flatMap_cons,
        Text.areWhole_append]
  have htags : (Json.arr (p.tags.map .str)).isStandard = Text.areWhole p.tags := by
    rw [Json.isStandard_arr]
    induction p.tags with
    | nil => rfl
    | cons tag tags ih => rw [List.map_cons, List.all_cons, ih, Text.areWhole_cons, Json.isStandard]
  rw [toJson, Json.isStandard_obj]
  show (Text.areWhole names && _) = _
  rw [hkeys, Bool.true_and]
  simp [Json.isStandard_str, Json.isStandard_ofText?, hgender, htype, himages, htags, texts,
    Text.areWhole_cons, Text.areWhole_append]

theorem plain_toJson {n : Nat} {p : SubjectProfile} (h : ∀ s ∈ p.texts, Text.IsWhole s) :
    Json.Plain (n + 3) p.toJson := by
  simp only [texts, List.forall_mem_cons, List.forall_mem_append, List.mem_flatMap] at h
  obtain ⟨hid, hname, ⟨⟨hdescription, hbody⟩, himages⟩, htags⟩ := h
  have hgender : Json.Plain (n + 2) (Json.ofOption Labelled.toJson p.gender) := by
    cases p.gender with
    | none => exact .null
    | some g =>
      have hlabel : Labelled.label g = Text.hold (Labelled.label g) := by cases g <;> decide
      exact .str ⟨_, hlabel⟩
  have htype : Json.Plain (n + 2) (Labelled.toJson p.type) := by
    have hlabel : Labelled.label p.type = Text.hold (Labelled.label p.type) := by
      cases p.type <;> decide
    exact .str ⟨_, hlabel⟩
  have hrefs : ∀ j ∈ p.images.map ImageRef.toJson, Json.Plain (n + 1) j := by
    intro j hj
    obtain ⟨r, hr, rfl⟩ := List.mem_map.mp hj
    exact ImageRef.plain_toJson fun s hs => himages s ⟨r, hr, hs⟩
  have htexts : ∀ j ∈ p.tags.map Json.str, Json.Plain (n + 1) j := by
    intro j hj
    obtain ⟨s, hs, rfl⟩ := List.mem_map.mp hj
    exact .str (htags s hs)
  refine .record names rfl (by decide) (by decide) ?_
  simp only [List.forall_mem_cons]
  exact ⟨.str hid, .str hname, .ofText? hdescription, hgender, .ofText? hbody, htype, .arr hrefs,
    .arr htexts, fun e he => absurd he List.not_mem_nil⟩

theorem read_toJson {p : SubjectProfile} (h : p.Valid) : read p.toJson = .ok p := by
  have htype : Reading.choice (Labelled.toJson p.type) = .ok p.type := by
    cases p.type <;> exact Reading.choice_toJson (by decide +kernel) (by decide +kernel)
  have hgender := FieldType.optional_choice_toJson Gender.choice_toJson p.gender
  have himages : Reading.row .notTuple ImageRef.read (.arr (p.images.map ImageRef.toJson)) =
      .ok p.images := Checked.each_map fun r _ => ImageRef.read_toJson r
  have htags : Reading.row .notTuple Reading.text (.arr (p.tags.map .str)) = .ok p.tags :=
    Checked.each_map fun _ _ => rfl
  simp [read, toJson, Reading.record, readDetails, Reading.required, Reading.given, Keyed.find?,
    Checked.under, Checked.both, Checked.ap, Reading.optional_text_ofText?, htype, hgender, himages,
    htags, Text.filledText_of_isFilled h.id, Text.filledText_of_isFilled h.name]

end SubjectProfile

/-! ## Assets -/

namespace StoredAsset

/-- All that is text in an asset. -/
def texts (a : StoredAsset) : List String :=
  a.id :: (a.image.texts ++ a.label.toList ++ a.createdAt.toList)

/-- An asset as the checks of its fields let it through. -/
structure Valid (a : StoredAsset) : Prop where
  id : Text.IsFilled a.id
  held : ∀ s ∈ a.texts, Text.IsHeld s

/-- The names of an asset's members. -/
def names : List String := ["id", "image", "label", "created_at"]

theorem isStandard_toJson (a : StoredAsset) : a.toJson.isStandard = Text.areWhole a.texts := by
  have hkeys : Text.areWhole names = true := by decide
  rw [toJson, Json.isStandard_obj]
  show (Text.areWhole names && _) = _
  rw [hkeys, Bool.true_and]
  simp [Json.isStandard_str, Json.isStandard_ofText?, ImageRef.isStandard_toJson, texts,
    Text.areWhole_cons, Text.areWhole_append]

theorem plain_toJson {n : Nat} {a : StoredAsset} (h : ∀ s ∈ a.texts, Text.IsWhole s) :
    Json.Plain (n + 2) a.toJson := by
  simp only [texts, List.forall_mem_cons, List.forall_mem_append] at h
  obtain ⟨hid, ⟨himage, hlabel⟩, hcreated⟩ := h
  refine .record names rfl (by decide) (by decide) ?_
  simp only [List.forall_mem_cons]
  exact ⟨.str hid, ImageRef.plain_toJson himage, .ofText? hlabel, .ofText? hcreated,
    fun e he => absurd he List.not_mem_nil⟩

theorem read_toJson {a : StoredAsset} (h : a.Valid) : read a.toJson = .ok a := by
  simp [read, toJson, Reading.record, Reading.required, Reading.given, Keyed.find?,
    Checked.under, Checked.both, Checked.ap, Reading.optional_text_ofText?, ImageRef.read_toJson,
    Text.filledText_of_isFilled h.id]

end StoredAsset

/-! ## Payloads -/

namespace Payload

theorem record?_ofJson {β : Type} {n : Nat} {r : Reading β} {j : Json} {b : β}
    (hplain : Json.Plain n j) (hread : r j = .ok b) :
    (ofJson j).record? n r = .ok (some b) := by
  rw [record?, ofJson, Json.read_hold_written hplain]
  dsimp only
  rw [hread]
  rfl

/-- A profile that is written comes back as it was. -/
theorem record?_profile {n : Nat} {p : SubjectProfile} (h : p.Valid)
    (hwhole : Text.areWhole p.texts = true) :
    (ofJson p.toJson).record? (n + 3) SubjectProfile.read = .ok (some p) :=
  record?_ofJson (SubjectProfile.plain_toJson (Text.isWhole_of_areWhole h.held hwhole))
    (SubjectProfile.read_toJson h)

/-- An asset that is written comes back as it was. -/
theorem record?_asset {n : Nat} {a : StoredAsset} (h : a.Valid)
    (hwhole : Text.areWhole a.texts = true) :
    (ofJson a.toJson).record? (n + 2) StoredAsset.read = .ok (some a) :=
  record?_ofJson (StoredAsset.plain_toJson (Text.isWhole_of_areWhole h.held hwhole))
    (StoredAsset.read_toJson h)

end Payload

end PromptCanvas
