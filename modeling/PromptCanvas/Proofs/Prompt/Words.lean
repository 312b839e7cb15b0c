import Mathlib.Data.List.Chain
import PromptCanvas.Prompt.Sanitize

/-!
# The words of a text

The words of a text are its longest runs of word characters, and they are what `Piece.split` calls
words.  Where one text follows another the words of both are the words of the whole, unless the
second begins inside a word.  So a text may be changed between its words, character by character, as
long as each change keeps the words and keeps whether the text begins with one.
-/

namespace PromptCanvas
namespace Prompt

open Text

namespace Piece

/-- The characters of a word. -/
def word? : Piece → Option (List Char)
  | .word cs => some cs
  | .gap _ => none

/-- The piece is a word. -/
def inWord (p : Piece) : Bool := p.word?.isSome

/-- The word or the gap of these characters. -/
def ofClass : Bool → List Char → Piece
  | true, cs => .word cs
  | false, cs => .gap cs

theorem inWord_ofClass (b : Bool) (cs : List Char) : (ofClass b cs).inWord = b := by
  cases b <;> rfl

theorem chars_ofClass (b : Bool) (cs : List Char) : (ofClass b cs).chars = cs := by
  cases b <;> rfl

theorem ofClass_chars (p : Piece) : ofClass p.inWord p.chars = p := by
  cases p <;> rfl

/-- The piece is not empty, and all its characters are of its class. -/
def Proper (p : Piece) : Prop := p.chars ≠ [] ∧ ∀ c ∈ p.chars, isWord c = p.inWord

/-- Words and gaps take turns. -/
def Alternate (ps : List Piece) : Prop := ps.IsChain fun p q => p.inWord ≠ q.inWord

theorem Alternate.gap_of_word {w : List Char} {ps : List Piece} (h : Alternate (.word w :: ps)) :
    ∀ p ∈ ps.head?, p.inWord = false := fun _ hp =>
  Bool.eq_false_iff.mpr (Ne.symm (h.rel_head? hp))

/-! ## Splitting -/

/-- A character begins a piece of its own, or it goes into the first piece. -/
theorem push_cases (c : Char) (ps : List Piece) :
    (∀ q ∈ ps.head?, isWord c ≠ q.inWord) ∧ push c ps = ofClass (isWord c) [c] :: ps ∨
      ∃ p rest, ps = p :: rest ∧ p.inWord = isWord c ∧
        push c ps = ofClass (isWord c) (c :: p.chars) :: rest := by
  rcases ps with _ | ⟨w | g, rest⟩ <;> cases hc : isWord c <;>
    simp [push, hc, inWord, word?, ofClass, chars]

theorem join_cons (p : Piece) (ps : List Piece) : join (p :: ps) = p.chars ++ join ps :=
  List.flatMap_cons

theorem join_split (cs : List Char) : join (split cs) = cs := by
  induction cs with
  | nil => rfl
  | cons c rest ih =>
    show join (push c (split rest)) = c :: rest
    rcases push_cases c (split rest) with ⟨-, hpush⟩ | ⟨p, ps, hps, -, hpush⟩
    · rw [hpush, join_cons, chars_ofClass, ih]
      rfl
    · rw [hps, join_cons] at ih
      rw [hpush, join_cons, chars_ofClass, List.cons_append, ih]

theorem proper_split (cs : List Char) : ∀ p ∈ split cs, p.Proper := by
  induction cs with
  | nil => exact fun _ hp => absurd hp List.not_mem_nil
  | cons c rest ih =>
    show ∀ p ∈ push c (split rest), p.Proper
    rcases push_cases c (split rest) with ⟨-, hpush⟩ | ⟨p, ps, hps, hc, hpush⟩
    · rw [hpush, List.forall_mem_cons]
      refine ⟨?_, ih⟩
      rw [Proper, chars_ofClass, inWord_ofClass]
      exact ⟨List.cons_ne_nil c [], List.forall_mem_singleton.mpr rfl⟩
    · rw [hps, List.forall_mem_cons] at ih
      rw [hpush, List.forall_mem_cons]
      refine ⟨?_, ih.2⟩
      rw [Proper, chars_ofClass, inWord_ofClass]
      exact ⟨List.cons_ne_nil c _, List.forall_mem_cons.mpr ⟨rfl, hc ▸ ih.1.2⟩⟩

theorem alternate_split (cs : List Char) : Alternate (split cs) := by
  induction cs with
  | nil => exact List.isChain_nil
  | cons c rest ih =>
    show Alternate (push c (split rest))
    rcases push_cases c (split rest) with ⟨hne, hpush⟩ | ⟨p, ps, hps, hc, hpush⟩
    · rw [hpush]
      refine ih.cons fun q hq => ?_
      rw [inWord_ofClass]
      exact hne q hq
    · rw [hps] at ih
      rw [hpush]
      refine ih.tail.cons fun q hq => ?_
      rw [inWord_ofClass, ← hc]
      exact ih.rel_head? hq

/-- A proper piece is put back before pieces that do not begin with its class. -/
theorem foldr_push {p : Piece} (hp : p.Proper) {ps : List Piece}
    (hne : ∀ q ∈ ps.head?, p.inWord ≠ q.inWord) : p.chars.foldr push ps = p :: ps := by
  suffices h : ∀ cs, cs ≠ [] → (∀ c ∈ cs, isWord c = p.inWord) →
      cs.foldr push ps = ofClass p.inWord cs :: ps by
    rw [h p.chars hp.1 hp.2, ofClass_chars]
  intro cs hcs hclass
  induction cs with
  | nil => exact absurd rfl hcs
  | cons c rest ih =>
    rw [List.forall_mem_cons] at hclass
    rw [List.foldr_cons]
    rcases rest with _ | ⟨d, rest⟩
    · rcases push_cases c ps with ⟨-, hpush⟩ | ⟨q, qs, rfl, hq, -⟩
      · rw [List.foldr_nil, hpush, hclass.1]
      · exact absurd (hclass.1.symm.trans hq.symm) (hne q rfl)
    · rw [ih (List.cons_ne_nil d rest) hclass.2]
      rcases push_cases c (ofClass p.inWord (d :: rest) :: ps) with ⟨hnew, -⟩ | ⟨q, qs, he, -, hpush⟩
      · exact absurd (hclass.1.trans (inWord_ofClass _ _).symm) (hnew _ rfl)
      · cases he
        rw [hpush, hclass.1, chars_ofClass]

/-- The pieces of a text are the only proper ones that take turns and make it up. -/
theorem split_join {ps : List Piece} (hp : ∀ p ∈ ps, p.Proper) (ha : Alternate ps) :
    split (join ps) = ps := by
  induction ps with
  | nil => rfl
  | cons p ps ih =>
    rw [List.forall_mem_cons] at hp
    rw [join_cons, split, List.foldr_append]
    show p.chars.foldr push (split (join ps)) = p :: ps
    rw [ih hp.2 ha.tail]
    exact foldr_push hp.1 fun q hq => ha.rel_head? hq

end Piece

/-! ## Words -/

/-- The words of a text, in their order. -/
def words (cs : List Char) : List (List Char) := (Piece.split cs).filterMap Piece.word?

/-- The text begins with a word character. -/
def opens (cs : List Char) : Bool := cs.head?.any isWord

theorem opens_eq (cs : List Char) : opens cs = (Piece.split cs).head?.any Piece.inWord := by
  rcases cs with _ | ⟨c, rest⟩
  · rfl
  · show isWord c = (Piece.push c (Piece.split rest)).head?.any Piece.inWord
    rcases Piece.push_cases c (Piece.split rest) with ⟨-, hpush⟩ | ⟨p, ps, -, -, hpush⟩ <;>
      exact hpush ▸ (Piece.inWord_ofClass _ _).symm

/-- A character goes before the words of a text: not at all, into the first one, or by itself. -/
theorem words_cons (c : Char) (cs : List Char) :
    words (c :: cs) =
      if isWord c then
        if opens cs then (c :: (words cs).headD []) :: (words cs).tail else [c] :: words cs
      else words cs := by
  rw [opens_eq]
  show (Piece.push c (Piece.split cs)).filterMap Piece.word? = _
  unfold words
  rcases Piece.push_cases c (Piece.split cs) with ⟨hne, hpush⟩ | ⟨p, ps, hps, hp, hpush⟩
  · rw [hpush]
    cases hc : isWord c with
    | true =>
      have hclosed : (Piece.split cs).head?.any Piece.inWord = false := by
        rw [Option.any_eq_false]
        exact fun q hq => Bool.eq_false_iff.mpr fun hw => hne q hq (hc.trans hw.symm)
      rw [hclosed]
      rfl
    | false => rfl
  · rw [hpush, hps]
    cases hc : isWord c with
    | true =>
      rw [hc] at hp
      cases p with
      | word w => rfl
      | gap g => cases hp
    | false =>
      rw [hc] at hp
      cases p with
      | word w => cases hp
      | gap g => rfl

theorem words_cons_of_gap {c : Char} (hc : isWord c = false) (cs : List Char) :
    words (c :: cs) = words cs := by
  rw [words_cons, hc]
  rfl

theorem words_ne_nil_of_opens {cs : List Char} (h : opens cs = true) : words cs ≠ [] := by
  rcases cs with _ | ⟨c, rest⟩
  · cases h
  · have hc : isWord c = true := h
    rw [words_cons, if_pos hc]
    split <;> exact List.cons_ne_nil _ _

/-- A text that does not begin with a word character brings its words behind those of another. -/
theorem words_append (cs : List Char) {ds : List Char} (h : opens ds = false) :
    words (cs ++ ds) = words cs ++ words ds := by
  induction cs with
  | nil => rfl
  | cons c rest ih =>
    have hopens : opens (rest ++ ds) = opens rest := by
      rcases rest with _ | ⟨d, rest⟩
      · exact h
      · rfl
    rw [List.cons_append, words_cons, words_cons, hopens, ih]
    cases isWord c with
    | false => rfl
    | true =>
      cases hr : opens rest with
      | false => rfl
      | true =>
        obtain ⟨w, ws, hw⟩ := List.exists_cons_of_ne_nil (words_ne_nil_of_opens hr)
        rw [hw]
        rfl

theorem words_of_gap {cs : List Char} (h : ∀ c ∈ cs, isWord c = false) : words cs = [] := by
  induction cs with
  | nil => rfl
  | cons c rest ih =>
    rw [List.forall_mem_cons] at h
    rw [words_cons_of_gap h.1, ih h.2]

theorem words_gap_append {cs : List Char} (h : ∀ c ∈ cs, isWord c = false) (ds : List Char) :
    words (cs ++ ds) = words ds := by
  induction cs with
  | nil => rfl
  | cons c rest ih =>
    rw [List.forall_mem_cons] at h
    rw [List.cons_append, words_cons_of_gap h.1, ih h.2]

theorem opens_of_gap {cs : List Char} (h : ∀ c ∈ cs, isWord c = false) : opens cs = false := by
  rcases cs with _ | ⟨c, rest⟩
  · rfl
  · exact h c List.mem_cons_self

theorem opens_gap_append {cs : List Char} (h : (Piece.gap cs).Proper) (ds : List Char) :
    opens (cs ++ ds) = false := by
  obtain ⟨c, rest, rfl⟩ := List.exists_cons_of_ne_nil h.1
  exact h.2 c List.mem_cons_self

theorem words_append_gap (cs : List Char) {ds : List Char} (h : ∀ c ∈ ds, isWord c = false) :
    words (cs ++ ds) = words cs := by
  rw [words_append cs (opens_of_gap h), words_of_gap h, List.append_nil]

theorem words_word {cs : List Char} (h : (Piece.word cs).Proper) : words cs = [cs] := by
  have hsplit : Piece.split (Piece.join [Piece.word cs]) = [.word cs] :=
    Piece.split_join (List.forall_mem_singleton.mpr h) (List.isChain_singleton _)
  rw [Piece.join_cons] at hsplit
  have hcs : (Piece.word cs).chars ++ Piece.join [] = cs := List.append_nil cs
  rw [hcs] at hsplit
  rw [words, hsplit]
  rfl

/-! ## Changes between words -/

/-- Two texts have the same words, and both or neither begin with one. -/
def Alike (cs ds : List Char) : Prop := words cs = words ds ∧ opens cs = opens ds

theorem Alike.refl (cs : List Char) : Alike cs cs := ⟨rfl, rfl⟩

theorem Alike.trans {cs ds es : List Char} (h : Alike cs ds) (h' : Alike ds es) : Alike cs es :=
  ⟨h.1.trans h'.1, h.2.trans h'.2⟩

theorem Alike.cons {cs ds : List Char} (h : Alike cs ds) (c : Char) :
    Alike (c :: cs) (c :: ds) := by
  refine ⟨?_, rfl⟩
  rw [words_cons, words_cons, h.1, h.2]

/-- Texts that begin with no word character are alike if the rests of them have the same words. -/
theorem alike_cons_gap {c d : Char} (hc : isWord c = false) (hd : isWord d = false)
    {cs ds : List Char} (h : words cs = words ds) : Alike (c :: cs) (d :: ds) := by
  refine ⟨?_, hc.trans hd.symm⟩
  rw [words_cons_of_gap hc, words_cons_of_gap hd, h]

end Prompt
end PromptCanvas
