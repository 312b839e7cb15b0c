import PromptCanvas.Proofs.Keyed
import PromptCanvas.Proofs.Node.Fit

/-!
# Patches

A record is patched by writing it, laying changes over what was written, and reading the whole
again.  It comes to the same to read the changes alone, with the values of the record in the place
of the initial ones: `Attributes.patch_eq`.  So a patch looks at each field by itself, the record
plays no part in what is wrong with a patch, and of two patches in a row the later one counts.
-/

namespace PromptCanvas

/-! ## Changes with unknown keys -/

namespace Keyed

variable {κ β : Type} [BEq κ] [LawfulBEq κ]

theorem filter_set (keep : κ → Bool) (k : κ) (v : β) (m : List (κ × β)) :
    (set k v m).filter (fun e => keep e.1) =
      if keep k then set k v (m.filter fun e => keep e.1) else m.filter fun e => keep e.1 := by
  induction m with
  | nil => cases hk : keep k <;> simp [set, hk]
  | cons e rest ih =>
    obtain ⟨k', v'⟩ := e
    by_cases h : k' = k
    · subst h
      cases hk : keep k' <;> simp [set, hk]
    · cases hk' : keep k' <;> cases hk : keep k <;> simp [set, h, hk, hk', ih]

/-- Keys that are not in a list stay together when changes are laid over it. -/
theorem filter_update (keep : κ → Bool) (m changes : List (κ × β)) :
    (update m changes).filter (fun e => keep e.1) =
      update (m.filter fun e => keep e.1) (changes.filter fun e => keep e.1) := by
  induction changes generalizing m with
  | nil => rfl
  | cons e rest ih =>
    obtain ⟨k, v⟩ := e
    have hstep : ∀ m : List (κ × β), update m ((k, v) :: rest) = update (set k v m) rest :=
      fun _ => rfl
    rw [hstep, ih, filter_set]
    cases hk : keep k <;> simp [update, hk]

end Keyed

open Record

/-! ## Checks -/

namespace Record

namespace Checked

variable {β γ δ : Type}

/-- What is wrong with a pair is what is wrong with its parts. -/
theorem discard_both (f : β → γ → δ) (b : Checked β) (c : Checked γ) :
    (both f b c).map (fun _ => ()) =
      both (fun _ _ => ()) (b.map fun _ => ()) (c.map fun _ => ()) := by
  cases b <;> cases c <;> rfl

end Checked

namespace Reading

variable {β : Type}

theorem discard_closed (names : List String) (o : List (String × Json)) (r : Checked β) :
    (closed names o r).map (fun _ => ()) = closed names o (r.map fun _ => ()) := by
  unfold closed
  split
  · rfl
  · rw [Checked.guardedBy, Checked.discard_both]
    split <;> cases r <;> rfl

/-- A closed record is told by what it knows, and else by which keys it does not know. -/
theorem closed_congr {names : List String} {o o' : List (String × Json)} (r : Checked β)
    (hwhole : (o.any fun e => Text.hasLoneHalf e.1) = o'.any fun e => Text.hasLoneHalf e.1)
    (hunknown : (o.filter fun e => !names.contains e.1) = o'.filter fun e => !names.contains e.1) :
    closed names o r = closed names o' r := by
  unfold closed
  rw [hwhole, hunknown]

/-- Changes that are laid over known members are as closed as the changes by themselves. -/
theorem closed_update {names : List String} (hnames : ∀ name ∈ names, Text.hasLoneHalf name = false)
    {m : List (String × Json)} (hm : ∀ e ∈ m, e.1 ∈ names) (changes : List (String × Json))
    (r : Checked β) :
    closed names (Keyed.update m changes) r = closed names (Keyed.ofList changes) r := by
  refine closed_congr r ?_ ?_
  · have hkeys : ∀ o : List (String × Json), (o.any fun e => Text.hasLoneHalf e.1) = true ↔
        ∃ k ∈ Keyed.keys o, Text.hasLoneHalf k = true := by
      intro o
      rw [← List.any_eq_true, Keyed.keys, List.any_map]
      rfl
    rw [Bool.eq_iff_iff, hkeys, hkeys]
    constructor
    · rintro ⟨k, hk, hhalf⟩
      rcases Keyed.mem_keys_update.mp hk with hchanged | hkept
      · exact ⟨k, Keyed.mem_keys_ofList.mpr hchanged, hhalf⟩
      · obtain ⟨e, he, rfl⟩ := List.mem_map.mp hkept
        rw [hnames e.1 (hm e he)] at hhalf
        cases hhalf
    · rintro ⟨k, hk, hhalf⟩
      exact ⟨k, Keyed.mem_keys_update.mpr (Or.inl (Keyed.mem_keys_ofList.mp hk)), hhalf⟩
  · have hnone : (m.filter fun e => !names.contains e.1) = [] := by
      rw [List.filter_eq_nil_iff]
      intro e he
      simpa using hm e he
    rw [Keyed.ofList, Keyed.filter_update (fun k => !names.contains k),
      Keyed.filter_update (fun k => !names.contains k), hnone]
    rfl

end Reading
end Record

/-! ## Records -/

namespace Attributes

/-- The value of the field at an index. -/
def value : (fs : List Field) → Attributes fs → (i : Fin fs.length) → (fs.get i).type.Value
  | _ :: _, (v, _), ⟨0, _⟩ => v
  | _ :: fs, (_, rest), ⟨i + 1, h⟩ => value fs rest ⟨i, Nat.lt_of_succ_lt_succ h⟩

/-- Reads the fields that are given; what is left out stays as it is. -/
def readOver : (fs : List Field) → Attributes fs → List (String × Json) → Checked (Attributes fs)
  | [], _, _ => .ok ()
  | f :: fs, (v, rest), o =>
    Checked.both Prod.mk (Reading.given o f.name f.type.read v) (readOver fs rest o)

variable {fs : List Field}

theorem find?_write (hnd : (fs.map Field.name).Nodup) (a : Attributes fs) (i : Fin fs.length) :
    Keyed.find? (fs.get i).name (write fs a) = some ((fs.get i).type.write (value fs a i)) := by
  induction fs with
  | nil => exact i.elim0
  | cons f fs ih =>
    obtain ⟨v, rest⟩ := a
    obtain ⟨hnew, hrest⟩ := List.nodup_cons.mp hnd
    obtain ⟨_ | i, hi⟩ := i
    · show Keyed.find? f.name ((f.name, f.type.write v) :: write fs rest) = _
      rw [Keyed.find?, beq_self_eq_true, if_pos rfl]
      rfl
    · have hi : i < fs.length := Nat.lt_of_succ_lt_succ hi
      have hne : f.name ≠ (fs.get ⟨i, hi⟩).name := fun hname =>
        hnew (List.mem_map.mpr ⟨_, List.get_mem fs ⟨i, hi⟩, hname.symm⟩)
      show Keyed.find? (fs.get ⟨i, hi⟩).name ((f.name, f.type.write v) :: write fs rest) = _
      rw [Keyed.find?, if_neg (by simpa using hne)]
      exact ih hrest rest ⟨i, hi⟩

/-- Where the members are the changes and else what a record was written as, reading them is
reading the changes over the record. -/
theorem readFields_eq_readOver {a : Attributes fs} (ha : Fit fs a)
    {o changes : List (String × Json)}
    (ho : ∀ i : Fin fs.length, Keyed.find? (fs.get i).name o =
      (Keyed.find? (fs.get i).name changes).or (some ((fs.get i).type.write (value fs a i)))) :
    readFields fs o = readOver fs a changes := by
  induction fs with
  | nil => rfl
  | cons f fs ih =>
    obtain ⟨v, rest⟩ := a
    have hf : Keyed.find? f.name o = (Keyed.find? f.name changes).or (some (f.type.write v)) :=
      ho ⟨0, Nat.succ_pos fs.length⟩
    have hrest : readFields fs o = readOver fs rest changes :=
      ih ha.2 fun i => ho i.succ
    have hgiven : Reading.given o f.name f.type.read f.initial =
        Reading.given changes f.name f.type.read v := by
      rw [Reading.given, Reading.given, hf]
      cases Keyed.find? f.name changes with
      | none =>
        rw [Option.none_or]
        exact Checked.under_eq_ok.mpr (FieldType.read_write ha.1)
      | some j => rfl
    rw [readFields, readOver, hgiven, hrest]

/-- To patch a record is to read the changes over it. -/
theorem patch_eq (hnd : (fs.map Field.name).Nodup)
    (hwhole : ∀ name ∈ fs.map Field.name, Text.hasLoneHalf name = false) {a : Attributes fs}
    (ha : Fit fs a) (changes : List (String × Json)) :
    patch fs a changes =
      Reading.closed (fs.map Field.name) (Keyed.ofList changes)
        (readOver fs a (Keyed.ofList changes)) := by
  have hknown : ∀ e ∈ write fs a, e.1 ∈ fs.map Field.name := fun e he => by
    rw [← map_fst_write fs a]
    exact List.mem_map_of_mem he
  have hread : readFields fs (Keyed.update (write fs a) changes) =
      readOver fs a (Keyed.ofList changes) :=
    readFields_eq_readOver ha fun i => by rw [Keyed.find?_update, find?_write hnd]
  rw [patch, readMembers, hread, Reading.closed_update hwhole hknown]

/-! ## What a patch leaves -/

theorem readOver_nil (a : Attributes fs) : readOver fs a [] = .ok a := by
  induction fs with
  | nil => rfl
  | cons f fs ih =>
    rw [readOver, ih]
    rfl

/-- A field that no change names keeps its value. -/
theorem value_of_readOver {a b : Attributes fs} {o : List (String × Json)}
    (h : readOver fs a o = .ok b) (i : Fin fs.length)
    (hi : Keyed.find? (fs.get i).name o = none) : value fs b i = value fs a i := by
  induction fs with
  | nil => exact i.elim0
  | cons f fs ih =>
    obtain ⟨v, rest, hv, hrest, rfl⟩ := Checked.both_eq_ok.mp h
    obtain ⟨_ | i, hlt⟩ := i
    · have hi : Keyed.find? f.name o = none := hi
      rw [Reading.given, hi] at hv
      cases hv
      rfl
    · exact ih hrest ⟨i, Nat.lt_of_succ_lt_succ hlt⟩ hi

/-- Changes that are read one after the other are read at once, the later before the earlier. -/
theorem readOver_readOver {a b c : Attributes fs} {o first second : List (String × Json)}
    (hb : readOver fs a first = .ok b) (hc : readOver fs b second = .ok c)
    (ho : ∀ name, Keyed.find? name o = (Keyed.find? name second).or (Keyed.find? name first)) :
    readOver fs a o = .ok c := by
  induction fs with
  | nil => rfl
  | cons f fs ih =>
    obtain ⟨v, rest, hv, hrest, rfl⟩ := Checked.both_eq_ok.mp hb
    obtain ⟨w, last, hw, hlast, rfl⟩ := Checked.both_eq_ok.mp hc
    have hgiven : Reading.given o f.name f.type.read a.1 = .ok w := by
      rw [Reading.given, ho]
      cases hsecond : Keyed.find? f.name second with
      | none =>
        rw [Reading.given, hsecond] at hw
        cases hw
        exact hv
      | some j =>
        rw [Reading.given, hsecond] at hw
        exact hw
    rw [readOver, hgiven, ih hrest hlast]
    rfl

/-- What is wrong with changes does not depend on the record that they are read over. -/
theorem discard_readOver (a b : Attributes fs) (o : List (String × Json)) :
    (readOver fs a o).map (fun _ => ()) = (readOver fs b o).map fun _ => () := by
  induction fs with
  | nil => rfl
  | cons f fs ih =>
    have hgiven : (Reading.given o f.name f.type.read a.1).map (fun _ => ()) =
        (Reading.given o f.name f.type.read b.1).map fun _ => () := by
      unfold Reading.given
      split <;> rfl
    rw [readOver, readOver, Checked.discard_both, Checked.discard_both, hgiven, ih]

/-! ## Laws of patches -/

section Laws

variable (hnd : (fs.map Field.name).Nodup)
  (hwhole : ∀ name ∈ fs.map Field.name, Text.hasLoneHalf name = false) {a : Attributes fs}
  (ha : Fit fs a)
include hnd hwhole ha

/-- A patch is accepted if it names fields alone and what it gives for them can be read. -/
theorem patch_eq_ok_iff {changes : List (String × Json)} {b : Attributes fs} :
    patch fs a changes = .ok b ↔
      (∀ k ∈ Keyed.keys changes, k ∈ fs.map Field.name) ∧
        readOver fs a (Keyed.ofList changes) = .ok b := by
  rw [patch_eq hnd hwhole ha]
  constructor
  · refine fun h => ⟨fun k hk => ?_, Reading.closed_eq_ok h⟩
    obtain ⟨e, he, rfl⟩ := List.mem_map.mp (Keyed.mem_keys_ofList.mpr hk)
    exact Reading.mem_of_closed_eq_ok h e he
  · rintro ⟨hknown, hread⟩
    refine Reading.closed_of_known hwhole (fun e he => hknown e.1 ?_) hread
    exact Keyed.mem_keys_ofList.mp (List.mem_map_of_mem he)

theorem patch_nil : patch fs a [] = .ok a :=
  (patch_eq_ok_iff hnd hwhole ha).mpr ⟨fun _ hk => absurd hk List.not_mem_nil, readOver_nil a⟩

theorem value_of_patch {changes : List (String × Json)} {b : Attributes fs}
    (h : patch fs a changes = .ok b) (i : Fin fs.length)
    (hi : (fs.get i).name ∉ Keyed.keys changes) : value fs b i = value fs a i := by
  refine value_of_readOver ((patch_eq_ok_iff hnd hwhole ha).mp h).2 i ?_
  rw [Keyed.find?_eq_none_iff, Keyed.mem_keys_ofList]
  exact hi

theorem patch_patch {b c : Attributes fs} (hb : Fit fs b) {first second : List (String × Json)}
    (hfirst : patch fs a first = .ok b) (hsecond : patch fs b second = .ok c) :
    patch fs a (Keyed.update (Keyed.ofList first) second) = .ok c := by
  obtain ⟨hknown, hread⟩ := (patch_eq_ok_iff hnd hwhole ha).mp hfirst
  obtain ⟨hknown', hread'⟩ := (patch_eq_ok_iff hnd hwhole hb).mp hsecond
  have hlaid : Keyed.update (Keyed.ofList first) second = Keyed.ofList (first ++ second) :=
    List.foldl_append.symm
  rw [hlaid, patch_eq_ok_iff hnd hwhole ha]
  refine ⟨fun k hk => ?_, readOver_readOver hread hread' fun name => ?_⟩
  · rw [Keyed.mem_keys_ofList, Keyed.keys, List.map_append, List.mem_append] at hk
    exact hk.elim (hknown k) (hknown' k)
  · rw [Keyed.find?_ofList_of_nodup (Keyed.nodup_keys_ofList _), Keyed.find?_ofList_append]

/-- What is wrong with a patch does not depend on the record. -/
theorem discard_patch {b : Attributes fs} (hb : Fit fs b) (changes : List (String × Json)) :
    (patch fs a changes).map (fun _ => ()) = (patch fs b changes).map fun _ => () := by
  rw [patch_eq hnd hwhole ha, patch_eq hnd hwhole hb, Reading.discard_closed,
    Reading.discard_closed, discard_readOver a b]

end Laws

end Attributes

/-! ## Kinds -/

namespace Kind

theorem map_refuse {β γ : Type} (k : Kind) (f : β → γ) (r : Checked β) :
    (k.refuse r).map f = k.refuse (r.map f) := by
  cases r <;> rfl

/-- Patches are laid over the attributes of a kind.  The empty patch changes nothing.  A patch
leaves every field as it is that it does not name.  Two patches in a row are one patch, in which the
later one counts wherever both name a field.  Whether a patch is accepted, and else what is wrong
with it, depends on the kind and on the patch, but not on the attributes that it is laid over. -/
theorem patches_overlay {k : Kind} {a : k.Attributes} (ha : k.Fits a) :
    k.patchAttributes a [] = .ok a ∧
    (∀ changes b, k.patchAttributes a changes = .ok b →
      ∀ i : Fin k.fields.length, (k.fields.get i).name ∉ Keyed.keys changes →
        Attributes.value k.fields b i = Attributes.value k.fields a i) ∧
    (∀ first second b c, k.patchAttributes a first = .ok b → k.patchAttributes b second = .ok c →
      k.patchAttributes a (Keyed.update (Keyed.ofList first) second) = .ok c) ∧
    ∀ b, k.Fits b → ∀ changes,
      (k.patchAttributes a changes).map (fun _ => ()) =
        (k.patchAttributes b changes).map fun _ => () := by
  have hnd := k.nodup_names
  have hwhole := k.hasLoneHalf_name
  refine ⟨?_, fun changes b hb i hi => ?_, fun first second b c hb hc => ?_, fun b hb changes => ?_⟩
  · exact refuse_eq_ok.mpr (Attributes.patch_nil hnd hwhole ha)
  · exact Attributes.value_of_patch hnd hwhole ha (refuse_eq_ok.mp hb) i hi
  · exact refuse_eq_ok.mpr <| Attributes.patch_patch hnd hwhole ha (fits_of_patchAttributes hb)
      (refuse_eq_ok.mp hb) (refuse_eq_ok.mp hc)
  · rw [patchAttributes, patchAttributes, map_refuse, map_refuse,
      Attributes.discard_patch hnd hwhole ha hb]

/-- A lamp is dimmed and loses its label, then it is shown and dimmed further. -/
theorem patches_overlay_dimmed :
    let a : Kind.lightSource.Attributes := Kind.lightSource.starting
    let first : List (String × Json) := [("power", .str " 35 "), ("label", .null)]
    let second : List (String × Json) := [("show_equipment", .str "Yes"), ("power", .bool true)]
    let b : Kind.lightSource.Attributes := (none, none, none, none, some 35, false, ())
    let c : Kind.lightSource.Attributes := (none, none, none, none, some 1, true, ())
    let wrong : List (String × Json) := [("glow", .null), ("power", .int 101)]
    Kind.lightSource.Fits a ∧ Kind.lightSource.patchAttributes a first = .ok b ∧
      Kind.lightSource.patchAttributes b second = .ok c ∧
      Kind.lightSource.patchAttributes a
        [("power", .bool true), ("label", .null), ("show_equipment", .str "Yes")] = .ok c ∧
      Kind.lightSource.patchAttributes a [] = .ok a ∧
      (Kind.lightSource.patchAttributes a wrong).map (fun _ => ()) =
        .error ⟨.lightSource, [⟨[.key "power"], .aboveMost 100⟩, ⟨[.key "glow"], .unknownKey⟩]⟩ := by
  intro a first second b c wrong
  have ha : Kind.lightSource.Fits a := fits_starting .lightSource
  have hb : Kind.lightSource.patchAttributes a first = .ok b := by rfl
  have hc : Kind.lightSource.patchAttributes b second = .ok c := by rfl
  obtain ⟨hnone, -, hlaid, hwrong⟩ := patches_overlay ha
  refine ⟨ha, hb, hc, hlaid first second b c hb hc, hnone, ?_⟩
  rw [hwrong c (fits_of_patchAttributes hc) wrong]
  rfl

end Kind
end PromptCanvas
