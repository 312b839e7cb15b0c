import PromptCanvas.Record.Reading

/-!
# What a check accepts

A combined check accepts exactly what all of its parts accept.  Each lemma says so for one way of
combining, so that what a whole record accepts is read off its parts, without looking into the
problems that are found otherwise.
-/

namespace PromptCanvas

theorem bind_eq_ok {ε β γ : Type} {x : Except ε β} {f : β → Except ε γ} {c : γ} :
    x >>= f = .ok c ↔ ∃ b, x = .ok b ∧ f b = .ok c := by
  cases x <;> simp [bind, Except.bind]

theorem bind_eq_error {ε β γ : Type} {x : Except ε β} {f : β → Except ε γ} {e : ε} :
    x >>= f = .error e ↔ x = .error e ∨ ∃ b, x = .ok b ∧ f b = .error e := by
  cases x <;> simp [bind, Except.bind]

theorem map_eq_ok {ε β γ : Type} {f : β → γ} {x : Except ε β} {c : γ} :
    x.map f = .ok c ↔ ∃ b, x = .ok b ∧ f b = c := by
  cases x <;> simp [Except.map]

theorem mapError_eq_ok {ε δ β : Type} {f : ε → δ} {x : Except ε β} {b : β} :
    x.mapError f = .ok b ↔ x = .ok b := by
  cases x with
  | error e =>
    show Except.error (f e) = .ok b ↔ _
    constructor <;> intro h <;> cases h
  | ok a =>
    show Except.ok a = .ok b ↔ _
    rw [Except.ok.injEq, Except.ok.injEq]

namespace Record

namespace Checked

variable {β γ δ : Type}

theorem both_eq_ok {f : β → γ → δ} {b : Checked β} {c : Checked γ} {d : δ} :
    both f b c = .ok d ↔ ∃ x y, b = .ok x ∧ c = .ok y ∧ f x y = d := by
  cases b <;> cases c <;> simp [both]

theorem ap_eq_ok {f : Checked (β → γ)} {b : Checked β} {c : γ} :
    f.ap b = .ok c ↔ ∃ g x, f = .ok g ∧ b = .ok x ∧ g x = c :=
  both_eq_ok

theorem guardedBy_eq_ok {b : Checked β} {c : Checked Unit} {x : β} :
    b.guardedBy c = .ok x ↔ b = .ok x ∧ c = .ok () := by
  rw [guardedBy, both_eq_ok]
  constructor
  · rintro ⟨y, _, hb, hc, rfl⟩
    exact ⟨hb, hc⟩
  · rintro ⟨hb, hc⟩
    exact ⟨x, (), hb, hc, rfl⟩

theorem under_eq_ok {r : Checked β} {step : Step} {b : β} :
    r.under step = .ok b ↔ r = .ok b := by
  cases r <;> simp [under]

/-- Items that are all accepted are accepted as a row. -/
theorem each_map {check : γ → Checked β} {write : β → γ} {bs : List β}
    (h : ∀ b ∈ bs, check (write b) = .ok b) : each check (bs.map write) = .ok bs := by
  have hfrom : ∀ i, eachFrom check i (bs.map write) = .ok bs := by
    induction bs with
    | nil => intro i; rfl
    | cons b rest ih =>
      intro i
      rw [List.map_cons, eachFrom, both_eq_ok]
      exact ⟨b, rest, under_eq_ok.mpr (h b List.mem_cons_self),
        ih (fun c hc => h c (List.mem_cons_of_mem b hc)) (i + 1), rfl⟩
  exact hfrom 0

end Checked

namespace Reading

variable {β : Type}

theorem optional_eq_ok {r : Reading β} {j : Json} {v : Option β} (h : optional r j = .ok v) :
    ∀ b ∈ v, r j = .ok b := by
  intro b hb
  cases j with
  | null => cases h; exact absurd hb (by simp)
  | _ =>
    obtain ⟨c, hc, hv⟩ := map_eq_ok.mp h
    rw [← hv, Option.mem_some_iff] at hb
    rw [← hb]
    exact hc

theorem optional_text_ofText? (s : Option String) : optional text (Json.ofText? s) = .ok s := by
  cases s <;> rfl

theorem given_eq_ok {fields : List (String × Json)} {name : String} {r : Reading β} {initial b : β}
    (h : given fields name r initial = .ok b) : b = initial ∨ ∃ j, r j = .ok b := by
  unfold given at h
  cases hf : Keyed.find? name fields with
  | none => rw [hf] at h; cases h; exact Or.inl rfl
  | some j => rw [hf] at h; exact Or.inr ⟨j, Checked.under_eq_ok.mp h⟩

theorem given_of_find? {fields : List (String × Json)} {name : String} {r : Reading β}
    {initial b : β} {j : Json} (hf : Keyed.find? name fields = some j) (h : r j = .ok b) :
    given fields name r initial = .ok b := by
  rw [given, hf]
  exact Checked.under_eq_ok.mpr h

theorem closed_eq_ok {names : List String} {fields : List (String × Json)} {r : Checked β} {b : β}
    (h : closed names fields r = .ok b) : r = .ok b := by
  unfold closed at h
  split at h
  · cases h
  · exact (Checked.guardedBy_eq_ok.mp h).1

/-- A closed record with known keys alone is what its members are read as. -/
theorem closed_of_known {names : List String} {fields : List (String × Json)} {r : Checked β} {b : β}
    (hnames : ∀ name ∈ names, Text.hasLoneHalf name = false)
    (hknown : ∀ entry ∈ fields, entry.1 ∈ names) (h : r = .ok b) :
    closed names fields r = .ok b := by
  have hwhole : (fields.any fun entry => Text.hasLoneHalf entry.1) = false := by
    rw [List.any_eq_false]
    intro entry he
    rw [hnames entry.1 (hknown entry he)]
    exact Bool.false_ne_true
  have hnone : (fields.filter fun entry => !names.contains entry.1) = [] := by
    rw [List.filter_eq_nil_iff]
    intro entry he
    simpa using hknown entry he
  rw [closed, hwhole, hnone]
  exact Checked.guardedBy_eq_ok.mpr ⟨h, rfl⟩

/-- A closed record accepts known keys alone. -/
theorem mem_of_closed_eq_ok {names : List String} {fields : List (String × Json)} {r : Checked β}
    {b : β} (h : closed names fields r = .ok b) : ∀ entry ∈ fields, entry.1 ∈ names := by
  intro entry he
  unfold closed at h
  split at h
  · cases h
  · have hknown := (Checked.guardedBy_eq_ok.mp h).2
    split at hknown
    · rename_i hnone
      simpa using List.filter_eq_nil_iff.mp hnone entry he
    · cases hknown

/-- A whole number read within bounds keeps them. -/
theorem wholeWithin_eq_ok {least most n : Int} {j : Json}
    (h : wholeWithin least (some most) j = .ok n) : least ≤ n ∧ n ≤ most := by
  unfold wholeWithin at h
  cases hw : whole j with
  | error ps => rw [hw] at h; cases h
  | ok m =>
    rw [hw] at h
    by_cases hm : most < m
    · simp [hm, Checked.fail] at h
    · by_cases hl : m < least
      · simp [hm, hl, Checked.fail] at h
      · simp only [hm, hl, if_false, Except.ok.injEq] at h
        omega

theorem wholeWithin_int {least most n : Int} (hl : least ≤ n) (hm : n ≤ most) :
    wholeWithin least (some most) (.int n) = .ok n := by
  have hm' : ¬ most < n := by omega
  have hl' : ¬ n < least := by omega
  simp [wholeWithin, whole, hm', hl']

/-- A number read within bounds compares as within them. -/
theorem realWithin_eq_ok {least most : Int} {x : Float} {j : Json}
    (h : realWithin least most j = .ok x) : x ≤ Float.ofInt most ∧ Float.ofInt least ≤ x := by
  unfold realWithin at h
  cases hr : real j with
  | error ps => rw [hr] at h; cases h
  | ok y =>
    rw [hr] at h
    by_cases hm : y ≤ Float.ofInt most
    · by_cases hl : Float.ofInt least ≤ y
      · simp only [hm, hl, decide_true, Bool.not_true, Bool.false_eq_true, if_false,
          Except.ok.injEq] at h
        exact h ▸ ⟨hm, hl⟩
      · simp [hm, hl, Checked.fail] at h
    · simp [hm, Checked.fail] at h

theorem realWithin_float {least most : Int} {x : Float} (hm : x ≤ Float.ofInt most)
    (hl : Float.ofInt least ≤ x) : realWithin least most (.float x) = .ok x := by
  simp [realWithin, real, hm, hl]

theorem choice_toJson [Labelled β] {b : β} (hwhole : Text.hasLoneHalf (Labelled.label b) = false)
    (hfind : Labelled.find? (Labelled.label b) = some b) : choice (Labelled.toJson b) = .ok b := by
  simp [choice, Labelled.toJson, withCharacters, hwhole, hfind]

end Reading
end Record
end PromptCanvas
