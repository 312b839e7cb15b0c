import PromptCanvas.Library.Stamp
import PromptCanvas.Proofs.Text.Held

/-!
# Times as stamps

A time that a clock tells is written in digits and a few marks.  It is a text of characters, and as
the stroke after its year is part of no numeral, the column of stamps holds it as the text that it
is.
-/

namespace PromptCanvas

namespace Moment

/-- The characters that a time is written with. -/
def isWritten (c : Char) : Bool := c.isDigit || ['-', 'T', ':', '.'].contains c

theorem isDigit_of_mem_padLeft {width n : Nat} {c : Char}
    (h : c ∈ (Number.padLeft width n).toList) : c.isDigit = true := by
  have hdigits : (toString n).toList = Nat.toDigits 10 n := String.toList_ofList
  unfold Number.padLeft at h
  dsimp only at h
  rw [String.toList_append, List.mem_append, String.toList_ofList, hdigits] at h
  rcases h with h | h
  · rw [List.eq_of_mem_replicate h]
    decide
  · exact Nat.isDigit_of_mem_toDigits (by decide) (by decide) h

theorem padLeft_ne_nil (width n : Nat) : (Number.padLeft width n).toList ≠ [] := by
  have hdigits : (toString n).toList = Nat.toDigits 10 n := String.toList_ofList
  unfold Number.padLeft
  dsimp only
  rw [String.toList_append, hdigits]
  exact List.append_ne_nil_of_right_ne_nil _ Nat.toDigits_ne_nil

theorem all_text (m : Moment) : m.text.toList.all isWritten = true := by
  have hpad : ∀ width n, (Number.padLeft width n).toList.all isWritten = true := by
    intro width n
    rw [List.all_eq_true]
    intro c hc
    rw [isWritten, isDigit_of_mem_padLeft hc, Bool.true_or]
  unfold text
  split <;> simp [List.all_append, hpad, isWritten]

theorem exists_text_eq (m : Moment) :
    ∃ rest, m.text.toList = (Number.padLeft 4 m.year).toList ++ '-' :: rest := by
  unfold text
  simp only [String.toList_append, List.append_assoc]
  exact ⟨_, rfl⟩

theorem toNat_of_isWritten {c : Char} (h : isWritten c = true) : 45 ≤ c.toNat ∧ c.toNat ≤ 84 := by
  rw [isWritten, Bool.or_eq_true] at h
  rcases h with hdigit | hmark
  · obtain ⟨hlow, hhigh⟩ := Char.isDigit_iff_toNat.mp hdigit
    constructor
    · exact Nat.le_trans (by decide) hlow
    · exact Nat.le_trans hhigh (by decide)
  · simp only [List.contains_iff_mem, List.mem_cons, List.not_mem_nil, or_false] at hmark
    rcases hmark with rfl | rfl | rfl | rfl <;> decide

/-- A time is a text of characters. -/
theorem isWhole_text (m : Moment) : Text.IsWhole m.text := by
  refine ⟨m.text, (Text.hold_of_lt fun c hc => ?_).symm⟩
  have hc := toNat_of_isWritten (List.all_eq_true.mp m.all_text c hc)
  unfold Text.halfOffset
  omega

end Moment

namespace Number

theorem takeDigits_append {ds : List Char} (h : ∀ d ∈ ds, d.isDigit = true) (rest : List Char) :
    ∃ ns, ns.length = ds.length ∧ takeDigits (ds ++ '-' :: rest) = (ns, '-' :: rest) := by
  induction ds with
  | nil => exact ⟨[], rfl, rfl⟩
  | cons d ds ih =>
    obtain ⟨hd, hds⟩ := List.forall_mem_cons.mp h
    obtain ⟨ns, hlength, hns⟩ := ih hds
    refine ⟨(d.toNat - 48) :: ns, by rw [List.length_cons, List.length_cons, hlength], ?_⟩
    rw [List.cons_append, takeDigits, Text.asciiDigit?, if_pos hd]
    dsimp only
    rw [hns]

/-- Digits with a stroke after them begin no numeral that is the whole text. -/
theorem numeral?_date {ds : List Char} (hne : ds ≠ []) (h : ∀ d ∈ ds, d.isDigit = true)
    (rest : List Char) : numeral? (ds ++ '-' :: rest) = none := by
  obtain ⟨ns, hlength, hns⟩ := takeDigits_append h rest
  obtain ⟨d, ds, rfl⟩ := List.exists_cons_of_ne_nil hne
  have hd : d.isDigit = true := h d List.mem_cons_self
  have hsign : takeSign (d :: ds ++ '-' :: rest) = (false, d :: ds ++ '-' :: rest) := by
    rw [List.cons_append, takeSign]
    all_goals
      intro tail heq
      cases heq
      exact absurd hd (by decide)
  rw [numeral?, hsign]
  dsimp only
  rw [hns]
  have hfilled : ns.isEmpty = false := by
    cases ns with
    | nil => cases hlength
    | cons n ns => rfl
  simp [hfilled, exponent?]

end Number

theorem Text.stripBy_eq_self {drop : Char → Bool} {cs : List Char}
    (h : ∀ c ∈ cs, drop c = false) : stripBy drop cs = cs := by
  have hdrop : ∀ ds : List Char, (∀ d ∈ ds, drop d = false) → ds.dropWhile drop = ds := by
    intro ds hds
    cases ds with
    | nil => rfl
    | cons d ds => exact List.dropWhile_cons_of_neg (by simp [hds d List.mem_cons_self])
  rw [stripBy, hdrop cs h, hdrop cs.reverse fun c hc => h c (List.mem_reverse.mp hc),
    List.reverse_reverse]

namespace Stamp

theorem isTableBlank_of_isWritten {c : Char} (h : Moment.isWritten c = true) :
    isTableBlank c = false := by
  have hc := Moment.toNat_of_isWritten h
  have hspace : c ≠ ' ' := by
    rintro rfl
    exact absurd hc.1 (by decide)
  have hcontrol : ¬ c.toNat ≤ 13 := by omega
  simp [isTableBlank, hspace, hcontrol]

/-- A time is held in its column as the text that it is. -/
theorem ofText_text (m : Moment) : ofText m.text = .text m.text := by
  have hstrip : Text.stripBy isTableBlank m.text.toList = m.text.toList :=
    Text.stripBy_eq_self fun c hc =>
      isTableBlank_of_isWritten (List.all_eq_true.mp m.all_text c hc)
  have hnone : Number.numeral? m.text.toList = none := by
    obtain ⟨rest, hrest⟩ := m.exists_text_eq
    rw [hrest]
    exact Number.numeral?_date (Moment.padLeft_ne_nil _ _)
      (fun d hd => Moment.isDigit_of_mem_padLeft hd) rest
  rw [ofText, hstrip]
  dsimp only
  rw [hnone]

end Stamp
end PromptCanvas
