import PromptCanvas.Node.Attributes
import PromptCanvas.Proofs.Record.Accepted

/-!
# Attributes that fit their kind

A value fits its field if it keeps the field's bounds; what a field may hold apart from bounds is
already its type.  Whatever is read into a record fits it, and so do the attributes that a new node
starts with.  A record that fits is written and read again without change.
-/

namespace PromptCanvas

open Record

/-! ## Fields -/

namespace SkinRealism

/-- The intensity is a percentage. -/
def Fits (s : SkinRealism) : Prop := 0 ≤ s.intensity ∧ s.intensity ≤ 100

theorem fits_of_read {j : Json} {s : SkinRealism} (h : read j = .ok s) : s.Fits := by
  cases j with
  | obj o =>
    -- Only the intensity has bounds; the two other members are passed over.
    obtain ⟨f, d, hf, -, rfl⟩ := Checked.ap_eq_ok.mp (Reading.closed_eq_ok h)
    obtain ⟨enabled, intensity, -, hi, rfl⟩ := Checked.both_eq_ok.mp hf
    rcases Reading.given_eq_ok hi with rfl | ⟨j, hj⟩
    · exact (by decide : (0 : Int) ≤ 60 ∧ (60 : Int) ≤ 100)
    · exact Reading.wholeWithin_eq_ok hj
  | _ => cases h

end SkinRealism

namespace SkinDetails

theorem read_toJson (d : SkinDetails) : read d.toJson = .ok d := by
  have hnames : ∀ name ∈ names, Text.hasLoneHalf name = false := by decide +kernel
  unfold read toJson Reading.record
  refine Reading.closed_of_known hnames ?_ ?_
  · simp [names]
  · simp [Reading.given, Keyed.find?, Reading.flag, Checked.under, Checked.both, Checked.ap]

end SkinDetails

theorem SkinRealism.read_toJson {s : SkinRealism} (h : s.Fits) : read s.toJson = .ok s := by
  have hnames : ∀ name ∈ ["enabled", "intensity", "details"], Text.hasLoneHalf name = false := by
    decide +kernel
  unfold read toJson Reading.record
  refine Reading.closed_of_known hnames ?_ ?_
  · simp
  · simp [Reading.given, Keyed.find?, Reading.flag, Checked.under, Checked.both, Checked.ap,
      Reading.wholeWithin_int h.1 h.2, SkinDetails.read_toJson]

theorem ImageRef.read_toJson (r : ImageRef) : read r.toJson = .ok r := by
  simp [read, toJson, Reading.record, readMembers, Reading.required, Reading.given, Keyed.find?,
    Reading.text, Checked.under, Checked.both]

theorem Gender.choice_toJson (g : Gender) : Reading.choice (Labelled.toJson g) = .ok g := by
  cases g <;> exact Reading.choice_toJson (by decide +kernel) (by decide +kernel)

namespace FieldType

/-- A value keeps the bounds of its field. -/
def Fits : (t : FieldType) → t.Value → Prop
  | .percent, v => ∀ n ∈ v, 0 ≤ n ∧ n ≤ 100
  | .degrees limit, v => ∀ x ∈ v, x ≤ Float.ofInt limit ∧ Float.ofInt (-limit) ≤ x
  | .skin, v => ∀ s ∈ v, s.Fits
  | _, _ => True

theorem fits_of_read {t : FieldType} {j : Json} {v : t.Value} (h : t.read j = .ok v) :
    t.Fits v := by
  cases t with
  | percent => exact fun n hn => Reading.wholeWithin_eq_ok (Reading.optional_eq_ok h n hn)
  | degrees limit => exact fun x hx => Reading.realWithin_eq_ok (Reading.optional_eq_ok h x hx)
  | skin => exact fun s hs => SkinRealism.fits_of_read (Reading.optional_eq_ok h s hs)
  | _ => trivial

theorem optional_choice_toJson {β : Type} [Labelled β]
    (h : ∀ b : β, Reading.choice (Labelled.toJson b) = .ok b) (v : Option β) :
    Reading.optional Reading.choice (Json.ofOption Labelled.toJson v) = .ok v := by
  cases v with
  | none => rfl
  | some b => exact map_eq_ok.mpr ⟨b, h b, rfl⟩

theorem read_write {t : FieldType} {v : t.Value} (h : t.Fits v) : t.read (t.write v) = .ok v := by
  cases t with
  | text => cases v <;> rfl
  | flag => rfl
  | percent =>
    cases v with
    | none => rfl
    | some n => exact map_eq_ok.mpr ⟨n, Reading.wholeWithin_int (h n rfl).1 (h n rfl).2, rfl⟩
  | degrees limit =>
    cases v with
    | none => rfl
    | some x =>
      exact map_eq_ok.mpr ⟨x, Reading.realWithin_float (h x rfl).1 (h x rfl).2, rfl⟩
  | gender => exact optional_choice_toJson Gender.choice_toJson v
  | consistency => cases v <;> exact Reading.choice_toJson (by decide +kernel) (by decide +kernel)
  | aspectRatio =>
    refine optional_choice_toJson (fun r => ?_) v
    cases r <;> exact Reading.choice_toJson (by decide +kernel) (by decide +kernel)
  | setting =>
    refine optional_choice_toJson (fun s => ?_) v
    cases s <;> exact Reading.choice_toJson (by decide +kernel) (by decide +kernel)
  | environmentType =>
    cases v <;> exact Reading.choice_toJson (by decide +kernel) (by decide +kernel)
  | texts => exact Checked.each_map fun _ _ => rfl
  | image =>
    cases v with
    | none => rfl
    | some r => exact map_eq_ok.mpr ⟨r, r.read_toJson, rfl⟩
  | skin =>
    cases v with
    | none => rfl
    | some s => exact map_eq_ok.mpr ⟨s, SkinRealism.read_toJson (h s rfl), rfl⟩

end FieldType

/-! ## Records -/

namespace Attributes

/-- Every value keeps the bounds of its field. -/
def Fit : (fs : List Field) → Attributes fs → Prop
  | [], _ => True
  | f :: fs, (v, rest) => f.type.Fits v ∧ Fit fs rest

variable {fs : List Field}

theorem fit_of_readFields (hinit : ∀ f ∈ fs, f.type.Fits f.initial) {o : List (String × Json)}
    {a : Attributes fs} (h : readFields fs o = .ok a) : Fit fs a := by
  induction fs with
  | nil => trivial
  | cons f fs ih =>
    obtain ⟨v, rest, hv, hrest, rfl⟩ := Checked.both_eq_ok.mp h
    refine ⟨?_, ih (fun g hg => hinit g (List.mem_cons_of_mem f hg)) hrest⟩
    rcases Reading.given_eq_ok hv with rfl | ⟨j, hj⟩
    · exact hinit f List.mem_cons_self
    · exact FieldType.fits_of_read hj

/-- The members of a record are its fields, in their order. -/
theorem map_fst_write (fs : List Field) (a : Attributes fs) :
    (write fs a).map Prod.fst = fs.map Field.name := by
  induction fs with
  | nil => rfl
  | cons f fs ih => rw [write, List.map_cons, List.map_cons, ih]

/-- Fields are read back from the members they were written as, whatever members of other names
stand before them. -/
theorem readFields_append_write (hnd : (fs.map Field.name).Nodup) {a : Attributes fs}
    (ha : Fit fs a) {before : List (String × Json)}
    (hbefore : ∀ f ∈ fs, f.name ∉ before.map Prod.fst) :
    readFields fs (before ++ write fs a) = .ok a := by
  induction fs generalizing before with
  | nil => rfl
  | cons f fs ih =>
    obtain ⟨v, rest⟩ := a
    rw [List.map_cons, List.nodup_cons] at hnd
    have hf : Keyed.find? f.name (before ++ write (f :: fs) (v, rest)) = some (f.type.write v) := by
      rw [Keyed.find?_append_of_not_mem (hbefore f List.mem_cons_self), write, Keyed.find?,
        beq_self_eq_true, if_pos rfl]
    have hrest : readFields fs (before ++ write (f :: fs) (v, rest)) = .ok rest := by
      rw [write, List.append_cons]
      refine ih hnd.2 ha.2 fun g hg => ?_
      rw [List.map_append, List.mem_append]
      rintro (h | h)
      · exact hbefore g (List.mem_cons_of_mem f hg) h
      · have he : g.name = f.name := List.mem_singleton.mp h
        exact hnd.1 (he ▸ List.mem_map_of_mem hg)
    rw [readFields, hrest, Reading.given_of_find? hf (FieldType.read_write ha.1)]
    rfl

theorem readMembers_write (hnd : (fs.map Field.name).Nodup)
    (hwhole : ∀ name ∈ fs.map Field.name, Text.hasLoneHalf name = false) {a : Attributes fs}
    (ha : Fit fs a) : readMembers fs (write fs a) = .ok a := by
  refine Reading.closed_of_known hwhole (fun entry he => ?_) ?_
  · rw [← map_fst_write fs a]
    exact List.mem_map_of_mem he
  · show readFields fs ([] ++ write fs a) = .ok a
    exact readFields_append_write hnd ha fun _ _ => List.not_mem_nil

end Attributes

/-! ## Kinds -/

namespace Kind

/-- The attributes keep the bounds of the kind's fields. -/
def Fits (k : Kind) (a : k.Attributes) : Prop := Attributes.Fit k.fields a

theorem fits_initial (k : Kind) : ∀ f ∈ k.fields, f.type.Fits f.initial := by
  cases k <;> simp [FieldType.Fits]

theorem nodup_names (k : Kind) : (k.fields.map Field.name).Nodup := by
  cases k <;> decide +kernel

theorem hasLoneHalf_name (k : Kind) :
    ∀ name ∈ k.fields.map Field.name, Text.hasLoneHalf name = false := by
  cases k <;> decide +kernel

theorem refuse_eq_ok {β : Type} {k : Kind} {r : Checked β} {b : β} :
    k.refuse r = .ok b ↔ r = .ok b := by
  cases r <;> simp [refuse]

/-- Whatever is read as attributes of a kind fits it. -/
theorem fits_of_readAttributes {k : Kind} {j : Json} {a : k.Attributes}
    (h : k.readAttributes j = .ok a) : k.Fits a := by
  have hmembers : ∃ o, Attributes.readMembers k.fields o = .ok a := by
    have h := refuse_eq_ok.mp h
    split at h
    · cases j with
      | obj o => exact ⟨o, h⟩
      | _ => cases h
    · exact ⟨[], h⟩
  obtain ⟨o, ho⟩ := hmembers
  exact Attributes.fit_of_readFields k.fits_initial (Reading.closed_eq_ok ho)

theorem fits_of_patchAttributes {k : Kind} {a b : k.Attributes} {changes : List (String × Json)}
    (h : k.patchAttributes a changes = .ok b) : k.Fits b :=
  Attributes.fit_of_readFields k.fits_initial (Reading.closed_eq_ok (refuse_eq_ok.mp h))

theorem fits_starting (k : Kind) : k.Fits k.starting := by
  cases k <;> simp [Fits, starting, startingValues, Attributes.Fit, Attributes.initial,
    FieldType.Fits]

/-- Attributes that fit are written and read again without change. -/
theorem readAttributes_writeAttributes {k : Kind} {a : k.Attributes} (h : k.Fits a) :
    k.readAttributes (k.writeAttributes a) = .ok a :=
  refuse_eq_ok.mpr (Attributes.readMembers_write k.nodup_names k.hasLoneHalf_name h)

end Kind
end PromptCanvas
