import PromptCanvas.Proofs.Prompt.Spacing
import PromptCanvas.Proofs.Record.Accepted

/-!
# What cleaning does

A cleaned text holds no word that is replaced or taken out, and its space is tidy.  Its words are
those of the text it was made from, each replaced, taken out or kept.  A clean text goes through a
pass unchanged, and one pass makes every text clean; so the repetition in `settle` ends with the
first pass that it makes.
-/

namespace PromptCanvas
namespace Prompt

open Text

/-! ## The words that are expected -/

/-- The phrase that a word is replaced by. -/
def phrase? (cs : List Char) : Option String :=
  (phrases.find? fun (term, _) => isTerm term cs).map Prod.snd

/-- The word is taken out. -/
def isForbidden (cs : List Char) : Bool := forbidden.any (isTerm · cs)

/-- The words in place of a word. -/
def cleanWord (cs : List Char) : List (List Char) :=
  match phrase? cs with
  | some phrase => words phrase.toList
  | none => if isForbidden cs then [] else [cs]

/-- The words in place of the words among these pieces. -/
def cleanWords : List Piece → List (List Char)
  | [] => []
  | .gap _ :: rest => cleanWords rest
  | .word a :: .gap [' '] :: .word b :: rest =>
    if isTerm pair.1 a && isTerm pair.2 b then words pairPhrase.toList ++ cleanWords rest
    else cleanWord a ++ cleanWords (.gap [' '] :: .word b :: rest)
  | .word a :: rest => cleanWord a ++ cleanWords rest

/-- The text holds no word that is replaced or taken out, by itself or in a pair, and its space is
tidy. -/
structure Clean (cs : List Char) : Prop where
  no_term : ∀ w ∈ words cs, ∀ entry ∈ phrases, isTerm entry.1 w = false
  no_forbidden : ∀ w ∈ words cs, ∀ term ∈ forbidden, isTerm term w = false
  no_pair : ∀ a b, [.word a, .gap [' '], .word b] <:+: Piece.split cs →
    ¬(isTerm pair.1 a = true ∧ isTerm pair.2 b = true)
  single_spaced : SingleSpaced cs
  tight : Tight cs
  stripped : Stripped cs

/-! ## Phrases -/

theorem foldCase_eq_lowerCase {c : Char} (h : (lowerCase c).toNat < 128) :
    foldCase c = lowerCase c := by
  have hs : c ≠ 'ſ' := by rintro rfl; revert h; decide
  have hi : c ≠ 'ı' := by rintro rfl; revert h; decide
  have hI : c ≠ 'İ' := by rintro rfl; revert h; decide
  simp [foldCase, lowerCase, hs, hi, hI]

/-- A word that is replaced at all is replaced by the phrase it is found for. -/
theorem replaceWord_eq_ok {cs ds : List Char} (h : replaceWord cs = .ok ds) :
    ds = ((phrase? cs).map String.toList).getD cs := by
  unfold replaceWord at h
  split at h
  · rename_i hnone
    cases h
    rw [phrase?, hnone]
    rfl
  · dsimp only at h
    split at h
    · rename_i entry phrase hphrase
      cases h
      -- The lower-case letters are those of a term, so the letters are compared as just these.
      have hfound : entry = String.ofList (cs.map lowerCase) := by
        simpa using List.find?_some hphrase
      have hascii : ∀ e ∈ phrases, e.1.toList.all (·.toNat < 128) = true := by decide
      have hfold : cs.map foldCase = cs.map lowerCase := by
        refine List.map_congr_left fun c hc => foldCase_eq_lowerCase ?_
        have hall := hascii _ (List.mem_of_find?_eq_some hphrase)
        rw [hfound, String.toList_ofList, List.all_map, List.all_eq_true] at hall
        exact of_decide_eq_true (hall c hc)
      have hsame : (fun (e : String × String) => isTerm e.1 cs) =
          fun e => e.1 == String.ofList (cs.map lowerCase) := by
        funext e
        rw [isTerm, hfold, Bool.eq_iff_iff, beq_iff_eq, beq_iff_eq, ← String.toList_inj,
          String.toList_ofList, eq_comm]
      have hp : phrase? cs = some phrase := by
        show (phrases.find? fun e => isTerm e.1 cs).map Prod.snd = some phrase
        rw [hsame]
        exact congrArg (Option.map Prod.snd) hphrase
      rw [hp]
      rfl
    · cases h

theorem mem_phrases_of_phrase? {cs : List Char} {phrase : String} (h : phrase? cs = some phrase) :
    ∃ entry ∈ phrases, entry.2 = phrase := by
  obtain ⟨entry, hentry, rfl⟩ := Option.map_eq_some_iff.mp h
  exact ⟨entry, List.mem_of_find?_eq_some hentry, rfl⟩

/-- The word stays as it is. -/
def Plain (cs : List Char) : Prop := phrase? cs = none ∧ isForbidden cs = false

instance (cs : List Char) : Decidable (Plain cs) := inferInstanceAs (Decidable (_ ∧ _))

theorem plain_of_mem_phrase : ∀ entry ∈ phrases, ∀ w ∈ words entry.2.toList, Plain w := by
  decide

theorem plain_of_mem_pairPhrase : ∀ w ∈ words pairPhrase.toList, Plain w := by
  decide

theorem plain_of_mem_cleanWord {cs w : List Char} (h : w ∈ cleanWord cs) : Plain w := by
  unfold cleanWord at h
  split at h
  · rename_i phrase hphrase
    obtain ⟨entry, hentry, rfl⟩ := mem_phrases_of_phrase? hphrase
    exact plain_of_mem_phrase entry hentry w h
  · rename_i hnone
    split at h
    · exact absurd h List.not_mem_nil
    · rename_i hkept
      rw [List.mem_singleton.mp h]
      exact ⟨hnone, Bool.eq_false_iff.mpr hkept⟩

theorem plain_of_mem_cleanWords {ps : List Piece} : ∀ w ∈ cleanWords ps, Plain w := by
  induction ps using cleanWords.induct with
  | case1 => exact fun _ h => absurd h List.not_mem_nil
  | case2 cs rest ih => exact ih
  | case3 a b rest hpair ih =>
    rw [cleanWords, if_pos hpair]
    exact List.forall_mem_append.mpr ⟨plain_of_mem_pairPhrase, ih⟩
  | case4 a b rest hpair ih =>
    rw [cleanWords, if_neg hpair]
    exact List.forall_mem_append.mpr ⟨fun _ => plain_of_mem_cleanWord, ih⟩
  | case5 a rest hshape ih =>
    rw [cleanWords.eq_4 a rest hshape]
    exact List.forall_mem_append.mpr ⟨fun _ => plain_of_mem_cleanWord, ih⟩

/-! ## Replacing and taking out -/

theorem filter_eq_self_of_plain {ws : List (List Char)} (h : ∀ w ∈ ws, Plain w) :
    ws.filter (fun w => !isForbidden w) = ws :=
  List.filter_eq_self.mpr fun w hw => by rw [(h w hw).2]; rfl

/-- A word brings the words it is cleaned to, once the forbidden ones are left out. -/
theorem words_replaceWord {cs ds : List Char} (hp : (Piece.word cs).Proper)
    (h : replaceWord cs = .ok ds) : (words ds).filter (fun w => !isForbidden w) = cleanWord cs := by
  rw [replaceWord_eq_ok h, cleanWord]
  cases hphrase : phrase? cs with
  | some phrase =>
    obtain ⟨entry, hentry, rfl⟩ := mem_phrases_of_phrase? hphrase
    exact filter_eq_self_of_plain (plain_of_mem_phrase entry hentry)
  | none =>
    show (words cs).filter _ = _
    rw [words_word hp]
    cases hw : isForbidden cs <;> simp [hw]

theorem opens_replace {ps : List Piece} {ds : List Char} (hp : ∀ p ∈ ps, p.Proper)
    (hgap : ∀ p ∈ ps.head?, p.inWord = false) (h : replace ps = .ok ds) : opens ds = false := by
  rcases ps with _ | ⟨w | g, rest⟩
  · cases h
    rfl
  · cases hgap _ rfl
  · rw [replace] at h
    obtain ⟨others, -, rfl⟩ := map_eq_ok.mp h
    exact opens_gap_append (hp _ List.mem_cons_self) others

theorem words_replaceWord_append {a first others : List Char} {rest : List Piece}
    (hp : ∀ p ∈ Piece.word a :: rest, p.Proper) (ha : Piece.Alternate (.word a :: rest))
    (hfirst : replaceWord a = .ok first) (hothers : replace rest = .ok others)
    (ih : (words others).filter (fun w => !isForbidden w) = cleanWords rest) :
    (words (first ++ others)).filter (fun w => !isForbidden w) =
      cleanWord a ++ cleanWords rest := by
  rw [List.forall_mem_cons] at hp
  rw [words_append first (opens_replace hp.2 ha.gap_of_word hothers), List.filter_append,
    words_replaceWord hp.1 hfirst, ih]

/-- Replacing brings the words that are expected, and besides them forbidden ones. -/
theorem words_replace {ps : List Piece} {ds : List Char} (hp : ∀ p ∈ ps, p.Proper)
    (ha : Piece.Alternate ps) (h : replace ps = .ok ds) :
    (words ds).filter (fun w => !isForbidden w) = cleanWords ps := by
  induction ps using replace.induct generalizing ds with
  | case1 =>
    cases h
    rfl
  | case2 cs rest ih =>
    rw [replace] at h
    obtain ⟨others, hothers, rfl⟩ := map_eq_ok.mp h
    rw [List.forall_mem_cons] at hp
    have hwords : words (cs ++ others) = words others := words_gap_append hp.1.2 others
    rw [hwords, cleanWords]
    exact ih hp.2 ha.tail hothers
  | case3 a b rest hpair ih =>
    rw [replace, if_pos hpair] at h
    obtain ⟨others, hothers, rfl⟩ := map_eq_ok.mp h
    rw [List.forall_mem_cons, List.forall_mem_cons, List.forall_mem_cons] at hp
    have hrest : Piece.Alternate (.word b :: rest) := ha.tail.tail
    rw [words_append _ (opens_replace hp.2.2.2 hrest.gap_of_word hothers), List.filter_append,
      filter_eq_self_of_plain plain_of_mem_pairPhrase, cleanWords, if_pos hpair,
      ih hp.2.2.2 hrest.tail hothers]
  | case4 a b rest hpair ih =>
    rw [replace, if_neg hpair] at h
    obtain ⟨first, hfirst, h⟩ := bind_eq_ok.mp h
    obtain ⟨others, hothers, h⟩ := bind_eq_ok.mp h
    cases h
    rw [cleanWords, if_neg hpair]
    exact words_replaceWord_append hp ha hfirst hothers
      (ih (List.forall_mem_cons.mp hp).2 ha.tail hothers)
  | case5 a rest hshape ih =>
    rw [replace.eq_4 a rest hshape] at h
    obtain ⟨first, hfirst, h⟩ := bind_eq_ok.mp h
    obtain ⟨others, hothers, h⟩ := bind_eq_ok.mp h
    cases h
    rw [cleanWords.eq_4 a rest hshape]
    exact words_replaceWord_append hp ha hfirst hothers
      (ih (List.forall_mem_cons.mp hp).2 ha.tail hothers)

theorem removeForbidden_word (cs : List Char) (ps : List Piece) :
    removeForbidden (.word cs :: ps) =
      if isForbidden cs then removeForbidden ps else .word cs :: removeForbidden ps := by
  rw [removeForbidden, List.filter_cons]
  show (if (!isForbidden cs) = true then _ else _) = _
  cases isForbidden cs <;> rfl

/-- Where a word is taken out, only gaps meet, so the other words stay. -/
theorem words_removeForbidden {ps : List Piece} (hp : ∀ p ∈ ps, p.Proper)
    (ha : Piece.Alternate ps) :
    words (Piece.join (removeForbidden ps)) =
      (ps.filterMap Piece.word?).filter (fun w => !isForbidden w) := by
  induction ps with
  | nil => rfl
  | cons p ps ih =>
    rw [List.forall_mem_cons] at hp
    cases p with
    | gap g =>
      show words (Piece.join (.gap g :: removeForbidden ps)) = _
      rw [Piece.join_cons, words_gap_append hp.1.2]
      exact ih hp.2 ha.tail
    | word w =>
      have hfilter : ((Piece.word w :: ps).filterMap Piece.word?).filter (fun w => !isForbidden w) =
          if isForbidden w then (ps.filterMap Piece.word?).filter (fun w => !isForbidden w)
          else w :: (ps.filterMap Piece.word?).filter (fun w => !isForbidden w) := by
        show (w :: ps.filterMap Piece.word?).filter _ = _
        rw [List.filter_cons]
        cases isForbidden w <;> rfl
      rw [hfilter, removeForbidden_word]
      split
      · exact ih hp.2 ha.tail
      · have hclosed : opens (Piece.join (removeForbidden ps)) = false := by
          rcases ps with _ | ⟨v | g, rest⟩
          · rfl
          · cases ha.gap_of_word _ rfl
          · show opens (Piece.join (.gap g :: removeForbidden rest)) = false
            rw [Piece.join_cons]
            exact opens_gap_append (hp.2 _ List.mem_cons_self) _
        rw [Piece.join_cons, words_append _ hclosed, ih hp.2 ha.tail]
        exact congrArg (· ++ _) (words_word hp.1)

/-! ## A pass -/

/-- A pass ends with text whose space is tidy, and its words are those that are expected. -/
theorem words_pass {cs ds : List Char} (h : pass cs = .ok ds) :
    words ds = cleanWords (Piece.split cs) := by
  obtain ⟨replaced, hreplaced, h⟩ := bind_eq_ok.mp h
  cases h
  rw [words_strip, (alike_tightenMarks _).1, (alike_collapseSpacing _).1,
    words_removeForbidden (Piece.proper_split replaced) (Piece.alternate_split replaced)]
  exact words_replace (Piece.proper_split cs) (Piece.alternate_split cs) hreplaced

theorem isTerm_of_phrase?_eq_none {w : List Char} (h : phrase? w = none) :
    ∀ entry ∈ phrases, isTerm entry.1 w = false := by
  intro entry hentry
  have hnone := List.find?_eq_none.mp (Option.map_eq_none_iff.mp h) entry hentry
  exact Bool.eq_false_iff.mpr hnone

/-- The second word of the pair is one that is replaced by itself. -/
theorem isTerm_pair_of_no_term {w : List Char}
    (h : ∀ entry ∈ phrases, isTerm entry.1 w = false) : isTerm pair.2 w = false :=
  h (pair.2, "deep crimson liquid pigment study") (by decide)

/-- A pass leaves a clean text. -/
theorem clean_pass {cs ds : List Char} (h : pass cs = .ok ds) : Clean ds := by
  have hplain : ∀ w ∈ words ds, Plain w := words_pass h ▸ plain_of_mem_cleanWords
  have hterm : ∀ w ∈ words ds, ∀ entry ∈ phrases, isTerm entry.1 w = false :=
    fun w hw => isTerm_of_phrase?_eq_none (hplain w hw).1
  obtain ⟨replaced, -, h⟩ := bind_eq_ok.mp h
  cases h
  refine ⟨hterm, ?_, ?_, ?_, ?_, stripped_strip _⟩
  · intro w hw term hmem
    exact Bool.eq_false_iff.mpr (List.any_eq_false.mp (hplain w hw).2 term hmem)
  · rintro a b hthree ⟨-, hb⟩
    have hmem : b ∈ words _ := List.mem_filterMap.mpr
      ⟨.word b, hthree.subset (List.mem_cons_of_mem _ (List.mem_cons_of_mem _ List.mem_cons_self)),
        rfl⟩
    exact Bool.false_ne_true ((isTerm_pair_of_no_term (hterm b hmem)).symm.trans hb)
  · exact List.IsChain.infix (singleSpaced_collapseSpacing _).tightenMarks (strip_isInfix _)
  · exact List.IsChain.infix (tight_tightenMarks _) (strip_isInfix _)

theorem replaceWord_of_no_term {w : List Char}
    (h : ∀ entry ∈ phrases, isTerm entry.1 w = false) : replaceWord w = .ok w := by
  have hnone : (phrases.find? fun (term, _) => isTerm term w) = none :=
    List.find?_eq_none.mpr fun entry hentry => Bool.eq_false_iff.mp (h entry hentry)
  rw [replaceWord, hnone]

/-- Pieces without a word that is replaced are put together as they are. -/
theorem replace_eq_join {ps : List Piece}
    (h : ∀ w, Piece.word w ∈ ps → ∀ entry ∈ phrases, isTerm entry.1 w = false) :
    replace ps = .ok (Piece.join ps) := by
  induction ps using replace.induct with
  | case1 => rfl
  | case2 cs rest ih =>
    rw [replace, ih fun w hw => h w (List.mem_cons_of_mem _ hw)]
    rfl
  | case3 a b rest hpair ih =>
    rw [isTerm_pair_of_no_term (h b (by simp)), Bool.and_false] at hpair
    cases hpair
  | case4 a b rest hpair ih =>
    rw [replace, if_neg hpair, replaceWord_of_no_term (h a List.mem_cons_self),
      ih fun w hw => h w (List.mem_cons_of_mem _ hw)]
    rfl
  | case5 a rest hshape ih =>
    rw [replace.eq_4 a rest hshape, replaceWord_of_no_term (h a List.mem_cons_self),
      ih fun w hw => h w (List.mem_cons_of_mem _ hw)]
    rfl

theorem mem_words_of_mem_split {cs w : List Char} (h : Piece.word w ∈ Piece.split cs) :
    w ∈ words cs :=
  List.mem_filterMap.mpr ⟨.word w, h, rfl⟩

/-- A clean text goes through a pass unchanged. -/
theorem pass_of_clean {cs : List Char} (h : Clean cs) : pass cs = .ok cs := by
  have hreplace : replace (Piece.split cs) = .ok cs := by
    rw [replace_eq_join fun w hw => h.no_term w (mem_words_of_mem_split hw), Piece.join_split]
  have hremove : removeForbidden (Piece.split cs) = Piece.split cs := by
    refine List.filter_eq_self.mpr fun p hp => ?_
    cases p with
    | gap g => rfl
    | word w =>
      have hw : isForbidden w = false := List.any_eq_false.mpr fun term hterm =>
        Bool.eq_false_iff.mp (h.no_forbidden w (mem_words_of_mem_split hp) term hterm)
      show (!isForbidden w) = true
      rw [hw]
      rfl
  rw [pass, hreplace]
  show Except.ok (strip (tightenMarks (collapseSpacing
    (Piece.join (removeForbidden (Piece.split cs)))))) = _
  rw [hremove, Piece.join_split, collapseSpacing_eq_self h.single_spaced,
    tightenMarks_eq_self h.tight, strip_eq_self h.stripped]

/-! ## Repeating the pass -/

/-- The repetition ends where a pass changes nothing, and begins anew where it does. -/
theorem settle_eq (cs : List Char) :
    settle cs = match pass cs with
      | .error e => .error e
      | .ok again => if again = cs then .ok cs else settle again := by
  conv_lhs =>
    unfold settle
    change repeatM _ _ >>= _
    rw [repeatM_eq_of_monadTail]
    unfold repeatM.body
  dsimp only [bind, Except.bind]
  cases pass cs with
  | error e => rfl
  | ok again =>
    dsimp only
    by_cases h : again = cs
    · rw [if_pos h, if_pos h]
      rfl
    · rw [if_neg h, if_neg h]
      rfl

theorem settle_of_clean {cs : List Char} (h : Clean cs) : settle cs = .ok cs := by
  rw [settle_eq, pass_of_clean h]
  exact if_pos rfl

/-- Cleaning is one pass. -/
theorem sanitize_eq (text : String) : sanitize text = (pass text.toList).map String.ofList := by
  rw [sanitize]
  cases h : pass text.toList with
  | error e => rfl
  | ok cs =>
    show (settle cs >>= fun settled => .ok (String.ofList settled)) = _
    rw [settle_of_clean (clean_pass h)]
    rfl

/-- A text that is cleaned holds no word that is replaced or taken out, its space is tidy, and its
words are those that are expected. -/
theorem clean_of_sanitize_eq_ok {text cleaned : String} (h : sanitize text = .ok cleaned) :
    Clean cleaned.toList ∧ words cleaned.toList = cleanWords (Piece.split text.toList) := by
  rw [sanitize_eq] at h
  obtain ⟨cs, hpass, rfl⟩ := map_eq_ok.mp h
  rw [String.toList_ofList]
  exact ⟨clean_pass hpass, words_pass hpass⟩

theorem clean_of_sanitize_scattered :
    let text := "A Lamp stand , fake blood  . LUBE\tmount ,\n FAKE  blood tripod"
    let cleaned := "A, high-viscosity translucent surface coating. translucent fluid with high " ++
      "specular reflectivity,\n FAKE deep crimson liquid pigment study"
    sanitize text = .ok cleaned ∧ Clean cleaned.toList ∧
      words cleaned.toList = cleanWords (Piece.split text.toList) := by
  intro text cleaned
  have h : sanitize text = .ok cleaned := by
    rw [sanitize_eq]
    decide +kernel
  exact ⟨h, clean_of_sanitize_eq_ok h⟩

/-- What a pass makes of a text goes through a second pass unchanged, which ends the repetition; so
cleaning makes the same of the text, and nothing else of what it made. -/
theorem settled_after_one_pass {text : String} {cs : List Char}
    (h : pass text.toList = .ok cs) :
    pass cs = .ok cs ∧ settle cs = .ok cs ∧ sanitize text = .ok (String.ofList cs) ∧
      sanitize (String.ofList cs) = .ok (String.ofList cs) := by
  have hclean := clean_pass h
  refine ⟨pass_of_clean hclean, settle_of_clean hclean, ?_, ?_⟩
  · rw [sanitize_eq, h]
    rfl
  · rw [sanitize_eq, String.toList_ofList, pass_of_clean hclean]
    rfl

theorem settled_after_one_pass_lamp :
    let text := " A lamp, Lube\t ? No mount "
    let cs := "A, translucent fluid with high specular reflectivity? No".toList
    pass text.toList = .ok cs ∧ pass cs = .ok cs ∧ settle cs = .ok cs ∧
      sanitize text = .ok (String.ofList cs) ∧
      sanitize (String.ofList cs) = .ok (String.ofList cs) := by
  intro text cs
  have h : pass text.toList = .ok cs := by decide +kernel
  exact ⟨h, settled_after_one_pass h⟩

end Prompt
end PromptCanvas
