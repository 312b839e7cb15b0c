import PromptCanvas.Proofs.Prompt.Clean
import PromptCanvas.Prompt.Compile

/-!
# Where cleaning fails

A word is found by the letters that its characters are compared as, and its phrase by their lower
case.  The two differ only for characters that are compared as an i, which is in no term with a
phrase, and for the long s.  So cleaning fails exactly on a word that is found and has a long s in
it.
-/

namespace PromptCanvas
namespace Prompt

open Text

/-! ## Letters -/

theorem lowerCase_eq_foldCase {c : Char} (hs : c ≠ 'ſ') (hi : foldCase c ≠ 'i') :
    lowerCase c = foldCase c := by
  have hdotless : c ≠ 'ı' := by rintro rfl; exact hi rfl
  have hdotted : c ≠ 'İ' := by rintro rfl; exact hi rfl
  simp [foldCase, lowerCase, hs, hdotless, hdotted]

/-- No term with a phrase has an i in it, and none has a long s. -/
theorem not_mem_term : ∀ entry ∈ phrases, 'i' ∉ entry.1.toList ∧ 'ſ' ∉ entry.1.toList := by
  decide

theorem map_lowerCase_of_isTerm {entry : String × String} (he : entry ∈ phrases) {cs : List Char}
    (hs : 'ſ' ∉ cs) (h : isTerm entry.1 cs = true) :
    String.ofList (cs.map lowerCase) = entry.1 := by
  have hfold : cs.map foldCase = entry.1.toList := eq_of_beq h
  have hsame : cs.map lowerCase = cs.map foldCase := by
    refine List.map_congr_left fun c hc => lowerCase_eq_foldCase ?_ ?_
    · rintro rfl
      exact hs hc
    · intro hi
      have hmem : foldCase c ∈ cs.map foldCase := List.mem_map_of_mem hc
      rw [hi, hfold] at hmem
      exact (not_mem_term entry he).1 hmem
  rw [hsame, hfold, String.ofList_toList]

/-- A long s is its own lower case, and so no term is found by the lower case of a word with it. -/
theorem ne_map_lowerCase {entry : String × String} (he : entry ∈ phrases) {cs : List Char}
    (hs : 'ſ' ∈ cs) : entry.1 ≠ String.ofList (cs.map lowerCase) := by
  intro heq
  have hmem : lowerCase 'ſ' ∈ cs.map lowerCase := List.mem_map_of_mem hs
  have hlower : lowerCase 'ſ' = 'ſ' := by decide
  refine (not_mem_term entry he).2 ?_
  rw [heq, String.toList_ofList, ← hlower]
  exact hmem

/-! ## Words -/

/-- The word has no long s, or it is not one that is replaced. -/
def Spelled (cs : List Char) : Prop := 'ſ' ∈ cs → phrase? cs = none

instance (cs : List Char) : Decidable (Spelled cs) := inferInstanceAs (Decidable (_ → _))

theorem exists_replaceWord_iff {cs : List Char} :
    (∃ ds, replaceWord cs = .ok ds) ↔ Spelled cs := by
  unfold replaceWord
  split
  · rename_i hnone
    have hphrase : phrase? cs = none := by rw [phrase?, hnone]; rfl
    exact iff_of_true ⟨cs, rfl⟩ fun _ => hphrase
  · rename_i entry hfound
    have hphrase : phrase? cs = some entry.2 := by rw [phrase?, hfound]; rfl
    have he : entry ∈ phrases := List.mem_of_find?_eq_some hfound
    have hterm : isTerm entry.1 cs = true := by simpa using List.find?_some hfound
    dsimp only
    by_cases hs : 'ſ' ∈ cs
    · split
      · rename_i term phrase hlowered
        have hterm : term = String.ofList (cs.map lowerCase) := by
          simpa using List.find?_some hlowered
        exact absurd hterm (ne_map_lowerCase (List.mem_of_find?_eq_some hlowered) hs)
      · constructor
        · rintro ⟨ds, hds⟩
          cases hds
        · intro h
          rw [h hs] at hphrase
          cases hphrase
    · split
      · exact iff_of_true ⟨_, rfl⟩ fun h => absurd h hs
      · rename_i hmissing
        have hlowered : entry.1 = String.ofList (cs.map lowerCase) :=
          (map_lowerCase_of_isTerm he hs hterm).symm
        exact absurd (beq_iff_eq.mpr hlowered) (List.find?_eq_none.mp hmissing entry he)

/-- The words of the pair have no s. -/
theorem spelled_of_pair {cs : List Char} (h : isTerm pair.1 cs = true ∨ isTerm pair.2 cs = true) :
    Spelled cs := by
  intro hs
  have hmem : foldCase 'ſ' ∈ cs.map foldCase := List.mem_map_of_mem hs
  rcases h with h | h
  · rw [eq_of_beq h] at hmem
    exact absurd hmem (by decide)
  · rw [eq_of_beq h] at hmem
    exact absurd hmem (by decide)

theorem exists_map_eq_ok {ε β γ : Type} {f : β → γ} {x : Except ε β} :
    (∃ c, x.map f = .ok c) ↔ ∃ b, x = .ok b := by
  cases x <;> simp [Except.map]

theorem exists_bind_pure_eq_ok {ε β γ : Type} {f : β → γ} {x : Except ε β} :
    (∃ c, (do let b ← x; return f b) = .ok c) ↔ ∃ b, x = .ok b := by
  cases x <;> simp [bind, Except.bind, pure, Except.pure]

theorem exists_bind_eq_ok {ε β γ δ : Type} {x : Except ε β} {y : Except ε γ} {f : β → γ → δ} :
    (∃ d, (do let b ← x; let c ← y; return f b c) = .ok d) ↔
      (∃ b, x = .ok b) ∧ ∃ c, y = .ok c := by
  cases x <;> cases y <;> simp [bind, Except.bind, pure, Except.pure]

/-- All phrases can be put in place if each word is spelled. -/
theorem exists_replace_iff {ps : List Piece} :
    (∃ ds, replace ps = .ok ds) ↔ ∀ w ∈ ps.filterMap Piece.word?, Spelled w := by
  induction ps using replace.induct with
  | case1 => exact iff_of_true ⟨[], rfl⟩ fun _ h => absurd h List.not_mem_nil
  | case2 cs rest ih =>
    rw [replace, exists_map_eq_ok, ih]
    rfl
  | case3 a b rest hpair ih =>
    rw [replace, if_pos hpair, exists_map_eq_ok, ih]
    rw [Bool.and_eq_true] at hpair
    show _ ↔ ∀ w ∈ a :: b :: rest.filterMap Piece.word?, Spelled w
    rw [List.forall_mem_cons, List.forall_mem_cons]
    exact ⟨fun h => ⟨spelled_of_pair (Or.inl hpair.1), spelled_of_pair (Or.inr hpair.2), h⟩,
      fun h => h.2.2⟩
  | case4 a b rest hpair ih =>
    rw [replace, if_neg hpair, exists_bind_eq_ok, exists_replaceWord_iff, ih]
    show _ ↔ ∀ w ∈ a :: (Piece.gap [' '] :: .word b :: rest).filterMap Piece.word?, Spelled w
    rw [List.forall_mem_cons]
  | case5 a rest hshape ih =>
    rw [replace.eq_4 a rest hshape, exists_bind_eq_ok, exists_replaceWord_iff, ih]
    show _ ↔ ∀ w ∈ a :: rest.filterMap Piece.word?, Spelled w
    rw [List.forall_mem_cons]

theorem exists_sanitize_iff {text : String} :
    (∃ cleaned, sanitize text = .ok cleaned) ↔ ∀ w ∈ words text.toList, Spelled w := by
  rw [sanitize_eq, exists_map_eq_ok, pass, exists_bind_pure_eq_ok]
  exact exists_replace_iff

end Prompt

open Prompt

/-- The text of a prompt before it is cleaned. -/
def Graph.draft {α : Type} (g : Graph α) (library : SubjectLibrary) (root : String) : String :=
  joinTexts (passageTexts 0 (passages g library (g.feeders root)))

theorem Graph.exists_compileFrom_iff {α : Type} {g : Graph α} {library : SubjectLibrary}
    {defaultRatio root : String} :
    (∃ compiled, g.compileFrom library defaultRatio root = .ok compiled) ↔
      ∀ w ∈ words (g.draft library root).toList, Spelled w := by
  rw [compileFrom, exists_bind_pure_eq_ok]
  exact exists_sanitize_iff

/-- A light with a name, and nothing else. -/
def Graph.litBy (name : String) : Graph Int where
  nodes := [
    ⟨"out", .output, (none, ()), ⟨0, 0⟩, false, none⟩,
    ⟨"light", .lightSource, (none, some name, none, none, none, false, ()), ⟨1, 0⟩, false, none⟩]
  edges := [⟨"1", "light", "out"⟩]

namespace Prompt

/-- Cleaning fails exactly on a text in which a word with a long s is found for a phrase.  So it
never fails on other texts, and a graph has a prompt unless such a word is in the text that is
cleaned for it. -/
theorem sanitize_succeeds_iff {α : Type} (text : String) (g : Graph α) (library : SubjectLibrary)
    (defaultRatio root : String) :
    ((∃ cleaned, sanitize text = .ok cleaned) ↔
      ∀ w ∈ words text.toList, 'ſ' ∈ w → phrase? w = none) ∧
    ((∃ compiled, g.compileFrom library defaultRatio root = .ok compiled) ↔
      ∀ w ∈ words (g.draft library root).toList, 'ſ' ∈ w → phrase? w = none) :=
  ⟨exists_sanitize_iff, Graph.exists_compileFrom_iff⟩

set_option maxRecDepth 3000 in
/-- The long s stands in for the s of a term, and then neither a text nor a graph with it is
cleaned. -/
theorem sanitize_longS :
    sanitize "a ſoftbox" = .error ⟨"ſoftbox"⟩ ∧
      (Graph.litBy "ſoftbox").compileFrom [] "1:1" "out" = .error ⟨"ſoftbox"⟩ := by
  constructor
  · rw [sanitize_eq]
    with_unfolding_all decide
  · rw [Graph.compileFrom, sanitize_eq]
    with_unfolding_all decide

end Prompt
end PromptCanvas
