import Mathlib.Data.List.DropRight
import PromptCanvas.Proofs.Prompt.Words

/-!
# Tidying the space of a prompt

The three steps that tidy a text change nothing but its space, so its words stay.  What each of them
establishes, the later ones keep: no two spaces or tabs are side by side, none is right before a
tight mark, and no blank is at either end.  A text that is tidy already is left alone by all three.
-/

namespace PromptCanvas
namespace Prompt

open Text

/-- No two spaces or tabs are side by side. -/
def SingleSpaced (cs : List Char) : Prop :=
  cs.IsChain fun c d => ¬(isSpacing c = true ∧ isSpacing d = true)

/-- No space or tab is right before a tight mark. -/
def Tight (cs : List Char) : Prop :=
  cs.IsChain fun c d => ¬(isSpacing c = true ∧ isTightMark d = true)

/-- No blank is at either end. -/
def Stripped (cs : List Char) : Prop :=
  (∀ c ∈ cs.head?, isBlank c = false) ∧ ∀ c ∈ cs.getLast?, isBlank c = false

/-! ## Classes of characters -/

theorem isWord_of_isSpacing {c : Char} (h : isSpacing c = true) : isWord c = false := by
  rw [isSpacing, Bool.or_eq_true, beq_iff_eq, beq_iff_eq] at h
  rcases h with rfl | rfl <;> decide

theorem isWord_isSpacing_of_isTightMark {c : Char} (h : isTightMark c = true) :
    isWord c = false ∧ isSpacing c = false := by
  have hmarks : ['.', ',', ';', ':', '!', '?', ')'].all
      (fun d => !isWord d && !isSpacing d) = true := by decide
  have hc := List.all_eq_true.mp hmarks c (List.contains_iff_mem.mp h)
  rw [Bool.and_eq_true, Bool.not_eq_true', Bool.not_eq_true'] at hc
  exact hc

theorem isWord_of_isTightMark {c : Char} (h : isTightMark c = true) : isWord c = false :=
  (isWord_isSpacing_of_isTightMark h).1

theorem isSpacing_of_isTightMark {c : Char} (h : isTightMark c = true) : isSpacing c = false :=
  (isWord_isSpacing_of_isTightMark h).2

/-- The code points of the blanks. -/
def blankCodes : List Nat :=
  List.range' 0x9 5 ++ List.range' 0x1c 5 ++ [0x85, 0xa0, 0x1680] ++ List.range' 0x2000 11 ++
    [0x2028, 0x2029, 0x202f, 0x205f, 0x3000]

theorem isWord_of_isBlank {c : Char} (h : isBlank c = true) : isWord c = false := by
  have hcodes : ∀ n ∈ blankCodes, isWord (Char.ofNat n) = false := by decide +kernel
  have hc : c.toNat ∈ blankCodes := by
    simp only [isBlank, isWhiteSpace, Bool.or_eq_true, Bool.and_eq_true, decide_eq_true_eq,
      beq_iff_eq] at h
    simp only [blankCodes, List.mem_append, List.mem_range'_1, List.mem_cons, List.not_mem_nil,
      or_false]
    omega
  rw [← Char.ofNat_toNat c]
  exact hcodes _ hc

/-! ## Runs of spaces and tabs -/

theorem collapseSpacing_cons (c : Char) (cs : List Char) :
    collapseSpacing (c :: cs) =
      match collapseSpacing cs with
      | d :: rest => if isSpacing c && isSpacing d then ' ' :: rest else c :: d :: rest
      | [] => [c] := rfl

theorem alike_collapseSpacing (cs : List Char) : Alike (collapseSpacing cs) cs := by
  induction cs with
  | nil => exact Alike.refl []
  | cons c cs ih =>
    rw [collapseSpacing_cons]
    cases hr : collapseSpacing cs with
    | nil =>
      rw [hr] at ih
      exact ih.cons c
    | cons d rest =>
      rw [hr] at ih
      dsimp only
      split
      · rename_i hcd
        rw [Bool.and_eq_true] at hcd
        refine alike_cons_gap (by decide) (isWord_of_isSpacing hcd.1) ?_
        rw [← ih.1, words_cons_of_gap (isWord_of_isSpacing hcd.2)]
      · exact ih.cons c

theorem singleSpaced_collapseSpacing (cs : List Char) : SingleSpaced (collapseSpacing cs) := by
  induction cs with
  | nil => exact List.isChain_nil
  | cons c cs ih =>
    rw [collapseSpacing_cons]
    cases hr : collapseSpacing cs with
    | nil => exact List.isChain_singleton c
    | cons d rest =>
      rw [hr] at ih
      dsimp only
      split
      · rename_i hcd
        rw [Bool.and_eq_true] at hcd
        refine List.IsChain.cons ih.tail fun e he hse => ih.rel_head? he ⟨hcd.2, hse.2⟩
      · rename_i hcd
        rw [Bool.and_eq_true] at hcd
        exact ih.cons_cons hcd

theorem collapseSpacing_eq_self {cs : List Char} (h : SingleSpaced cs) :
    collapseSpacing cs = cs := by
  induction cs with
  | nil => rfl
  | cons c cs ih =>
    rw [collapseSpacing_cons, ih h.tail]
    rcases cs with _ | ⟨d, rest⟩
    · rfl
    · have hcd := h.rel_head? rfl
      rw [← Bool.and_eq_true] at hcd
      exact if_neg hcd

/-! ## Space before marks -/

/-- A space or tab before a tight mark goes; any other character stays. -/
theorem tightenMarks_cases (c : Char) (cs : List Char) :
    (isSpacing c = true ∧ (∃ m rest, tightenMarks cs = m :: rest ∧ isTightMark m = true) ∧
        tightenMarks (c :: cs) = tightenMarks cs) ∨
      (∀ m ∈ (tightenMarks cs).head?, ¬(isSpacing c = true ∧ isTightMark m = true)) ∧
        tightenMarks (c :: cs) = c :: tightenMarks cs := by
  have hcons : tightenMarks (c :: cs) =
      if isSpacing c && (((tightenMarks cs).head?).map isTightMark).getD false then tightenMarks cs
      else c :: tightenMarks cs := rfl
  rw [hcons]
  rcases tightenMarks cs with _ | ⟨m, rest⟩
  · rw [List.head?_nil, Option.map_none, Option.getD_none, Bool.and_false]
    exact Or.inr ⟨fun _ hm => absurd hm (Option.not_mem_none _), rfl⟩
  · rw [List.head?_cons, Option.map_some, Option.getD_some]
    by_cases h : (isSpacing c && isTightMark m) = true
    · rw [if_pos h]
      rw [Bool.and_eq_true] at h
      exact Or.inl ⟨h.1, ⟨m, rest, rfl, h.2⟩, rfl⟩
    · rw [if_neg h]
      rw [Bool.and_eq_true] at h
      exact Or.inr ⟨fun n hn => Option.some.inj hn ▸ h, rfl⟩

theorem alike_tightenMarks (cs : List Char) : Alike (tightenMarks cs) cs := by
  induction cs with
  | nil => exact Alike.refl []
  | cons c cs ih =>
    rcases tightenMarks_cases c cs with ⟨hc, ⟨m, rest, hrest, hm⟩, hgo⟩ | ⟨-, hstay⟩
    · have hwords : words (m :: rest) = words cs := hrest ▸ ih.1
      rw [words_cons_of_gap (isWord_of_isTightMark hm)] at hwords
      rw [hgo, hrest]
      exact alike_cons_gap (isWord_of_isTightMark hm) (isWord_of_isSpacing hc) hwords
    · rw [hstay]
      exact ih.cons c

theorem tight_tightenMarks (cs : List Char) : Tight (tightenMarks cs) := by
  induction cs with
  | nil => exact List.isChain_nil
  | cons c cs ih =>
    rcases tightenMarks_cases c cs with ⟨-, -, hgo⟩ | ⟨hne, hstay⟩
    · rw [hgo]
      exact ih
    · rw [hstay]
      exact ih.cons hne

/-- A tightened text begins as it did, or with a tight mark. -/
theorem head?_tightenMarks (cs : List Char) :
    ∀ d ∈ (tightenMarks cs).head?, d ∈ cs.head? ∨ isTightMark d = true := by
  intro d hd
  cases cs with
  | nil => cases hd
  | cons c cs =>
    rcases tightenMarks_cases c cs with ⟨-, ⟨m, rest, hrest, hm⟩, hgo⟩ | ⟨-, hstay⟩
    · rw [hgo, hrest] at hd
      cases hd
      exact Or.inr hm
    · rw [hstay] at hd
      exact Or.inl hd

theorem SingleSpaced.tightenMarks {cs : List Char} (h : SingleSpaced cs) :
    SingleSpaced (tightenMarks cs) := by
  induction cs with
  | nil => exact List.isChain_nil
  | cons c cs ih =>
    rcases tightenMarks_cases c cs with ⟨-, -, hgo⟩ | ⟨-, hstay⟩
    · rw [hgo]
      exact ih h.tail
    · rw [hstay]
      refine (ih h.tail).cons fun d hd => ?_
      rcases head?_tightenMarks cs d hd with hd | hd
      · exact h.rel_head? hd
      · exact fun hcd => Bool.false_ne_true ((isSpacing_of_isTightMark hd).symm.trans hcd.2)

theorem tightenMarks_eq_self {cs : List Char} (h : Tight cs) : tightenMarks cs = cs := by
  induction cs with
  | nil => rfl
  | cons c cs ih =>
    rcases tightenMarks_cases c cs with ⟨hc, ⟨m, rest, hrest, hm⟩, -⟩ | ⟨-, hstay⟩
    · rw [ih h.tail] at hrest
      rw [hrest] at h
      exact absurd ⟨hc, hm⟩ h.rel
    · rw [hstay, ih h.tail]

/-! ## The ends -/

theorem strip_eq (cs : List Char) : strip cs = (cs.dropWhile isBlank).rdropWhile isBlank := rfl

/-- What is stripped from the ends of a text are blanks. -/
theorem exists_strip (cs : List Char) :
    ∃ before after, cs = before ++ strip cs ++ after ∧ (∀ c ∈ before, isBlank c = true) ∧
      ∀ c ∈ after, isBlank c = true := by
  refine ⟨cs.takeWhile isBlank, (cs.dropWhile isBlank).rtakeWhile isBlank, ?_, ?_, ?_⟩
  · rw [strip_eq, List.append_assoc, List.rdropWhile_append_rtakeWhile,
      List.takeWhile_append_dropWhile]
  · exact fun c hc => List.mem_takeWhile_imp hc
  · exact fun c hc => List.mem_rtakeWhile_imp hc

theorem words_strip (cs : List Char) : words (strip cs) = words cs := by
  obtain ⟨before, after, hcs, hbefore, hafter⟩ := exists_strip cs
  conv_rhs => rw [hcs]
  rw [words_append_gap _ fun c hc => isWord_of_isBlank (hafter c hc),
    words_gap_append fun c hc => isWord_of_isBlank (hbefore c hc)]

theorem strip_isInfix (cs : List Char) : strip cs <:+: cs := by
  obtain ⟨before, after, hcs, -, -⟩ := exists_strip cs
  exact ⟨before, after, hcs.symm⟩

theorem stripped_strip (cs : List Char) : Stripped (strip cs) := by
  rw [strip_eq]
  constructor
  · intro c hc
    obtain ⟨after, hafter⟩ := List.rdropWhile_prefix isBlank (cs.dropWhile isBlank)
    have hhead : (cs.dropWhile isBlank).head? = some c := by
      rw [← hafter, List.head?_append_of_ne_nil _ (List.ne_nil_of_mem (List.mem_of_mem_head? hc))]
      exact hc
    have hnot := List.head?_dropWhile_not isBlank cs
    rw [hhead] at hnot
    exact hnot
  · intro c hc
    obtain ⟨hne, hlast⟩ := List.mem_getLast?_eq_getLast hc
    have hnot := List.rdropWhile_last_not isBlank (cs.dropWhile isBlank) hne
    rw [← hlast] at hnot
    exact Bool.eq_false_iff.mpr hnot

theorem strip_eq_self {cs : List Char} (h : Stripped cs) : strip cs = cs := by
  have hhead : cs.dropWhile isBlank = cs := by
    cases cs with
    | nil => rfl
    | cons c rest => exact List.dropWhile_cons_of_neg (Bool.eq_false_iff.mp (h.1 c rfl))
  rw [strip_eq, hhead, List.rdropWhile_eq_self_iff]
  intro hne
  exact Bool.eq_false_iff.mp (h.2 _ (List.getLast?_eq_some_getLast hne))

end Prompt
end PromptCanvas
