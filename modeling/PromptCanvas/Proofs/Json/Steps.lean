import PromptCanvas.Json.Reader

/-!
# Steps of reading JSON

`Reads` says what a reader found and what it left.  There is one lemma for each step that reading
takes on a text without numbers and without blanks that matter: what is read by the step, given what
is read after it.  No step looks further than the text that it takes.
-/

namespace PromptCanvas
namespace Json

/-- The parsing ended well, with this value and with this left. -/
def Reads {β : Type} {n : Nat} (p : Parsed β n) (b : β) (rest : List Char) : Prop :=
  ∃ h, p = .ok (b, ⟨rest, h⟩)

theorem skipSpace_cons {c : Char} (h : isSpace c = false) (cs : List Char) :
    skipSpace (c :: cs) = c :: cs := by
  rw [skipSpace, h, if_neg Bool.false_ne_true]

/-! ## Texts -/

/-- The closing quote ends a text. -/
theorem readText_close (opening rest : List Char) :
    Reads (readText opening ('"' :: rest)) [] rest := by
  rw [readText]
  exact ⟨_, rfl⟩

/-- An escape of one letter stands for a character. -/
theorem readText_escape {opening cs text rest : List Char} {letter c : Char}
    (hletter : letter ≠ 'u') (hc : escape? letter = some c)
    (h : Reads (readText opening cs) text rest) :
    Reads (readText opening ('\\' :: letter :: cs)) (c :: text) rest := by
  obtain ⟨hr, h⟩ := h
  rw [readText]
  · split
    · rename_i heq
      rw [hc] at heq
      cases heq
    · rename_i heq
      rw [hc] at heq
      cases heq
      rw [h]
      exact ⟨_, rfl⟩
  all_goals simp_all

/-- An escaped code point is held, unless it is the first half of a pair. -/
theorem readText_code {opening cs text rest : List Char} {a b c d : Char} {n : Nat}
    (hn : hexQuad? a b c d = some n) (hhalf : Text.isHighHalf n = false)
    (h : Reads (readText opening cs) text rest) :
    Reads (readText opening ('\\' :: 'u' :: a :: b :: c :: d :: cs)) (Text.held n ++ text)
      rest := by
  obtain ⟨hr, h⟩ := h
  -- The reader takes one more character than the escape has; there is one, as a text was read.
  cases cs with
  | nil =>
    rw [readText] at h
    cases h
  | cons e cs =>
    rw [readText]
    split
    · rename_i heq
      rw [hn] at heq
      cases heq
    · rename_i heq
      rw [hn] at heq
      cases heq
      rw [if_neg (by simp [hhalf]), h]
      exact ⟨_, rfl⟩

/-- Any other character from the blank on stands for itself. -/
theorem readText_plain {opening cs text rest : List Char} {c : Char}
    (hquote : c ≠ '"') (hstroke : c ≠ '\\') (hc : 0x20 ≤ c.toNat)
    (h : Reads (readText opening cs) text rest) :
    Reads (readText opening (c :: cs)) (c :: text) rest := by
  obtain ⟨hr, h⟩ := h
  rw [readText]
  · rw [if_neg (by omega), h]
    exact ⟨_, rfl⟩
  all_goals simp_all

/-! ## Items of an array -/

variable {n : Nat} {cs rest after : List Char} {j : Json} {js : List Json}

theorem readValue_noItems : Reads (readValue (n + 1) ('[' :: ']' :: rest)) (.arr []) rest := by
  rw [readValue]
  split
  · rename_i heq
    cases heq
    exact ⟨_, rfl⟩
  · rename_i hne
    exact absurd rfl (hne _)

theorem readValue_items (hopen : ∀ tail, skipSpace cs ≠ ']' :: tail)
    (h : Reads (readItems n (skipSpace cs)) js rest) :
    Reads (readValue (n + 1) ('[' :: cs)) (.arr js) rest := by
  obtain ⟨hr, h⟩ := h
  rw [readValue]
  split
  · rename_i heq
    exact absurd heq (hopen _)
  · rw [h]
    exact ⟨_, rfl⟩

theorem readItems_last (h : Reads (readValue n cs) j (']' :: rest)) :
    Reads (readItems n cs) [j] rest := by
  obtain ⟨hr, h⟩ := h
  rw [readItems, h]
  dsimp only
  split
  · rename_i heq
    cases heq
    exact ⟨_, rfl⟩
  · rename_i heq
    cases heq
  · rename_i hne _
    exact absurd rfl (hne _)

theorem readItems_next (h : Reads (readValue n cs) j (',' :: after))
    (hmore : Reads (readItems n (skipSpace after)) js rest) :
    Reads (readItems n cs) (j :: js) rest := by
  obtain ⟨hr, h⟩ := h
  obtain ⟨hr', hmore⟩ := hmore
  rw [readItems, h]
  dsimp only
  split
  · rename_i heq
    cases heq
  · rename_i heq
    cases heq
    rw [hmore]
    exact ⟨_, rfl⟩
  · rename_i hne
    exact absurd rfl (hne _)

/-! ## Members of an object -/

theorem readValue_noMembers :
    Reads (readValue (n + 1) ('\x7b' :: '\x7d' :: rest)) (.obj []) rest := by
  rw [readValue]
  split
  · rename_i heq
    cases heq
    exact ⟨_, rfl⟩
  · rename_i hne
    exact absurd rfl (hne _)

theorem readValue_members {fields : List (String × Json)}
    (hopen : ∀ tail, skipSpace cs ≠ '\x7d' :: tail)
    (h : Reads (readMembers n (skipSpace cs)) fields rest) :
    Reads (readValue (n + 1) ('\x7b' :: cs)) (.obj (Keyed.ofList fields)) rest := by
  obtain ⟨hr, h⟩ := h
  rw [readValue]
  split
  · rename_i heq
    exact absurd heq (hopen _)
  · rw [h]
    exact ⟨_, rfl⟩

theorem readMembers_last {key : List Char}
    (hkey : Reads (readText ('"' :: cs) cs) key (':' :: after))
    (h : Reads (readValue n (skipSpace after)) j ('\x7d' :: rest)) :
    Reads (readMembers n ('"' :: cs)) [(String.ofList key, j)] rest := by
  obtain ⟨hk, hkey⟩ := hkey
  obtain ⟨hr, h⟩ := h
  rw [readMembers, hkey]
  dsimp only
  split
  · rename_i heq
    cases heq
    rw [h]
    dsimp only
    split
    · rename_i heq
      cases heq
      exact ⟨_, rfl⟩
    · rename_i heq
      cases heq
    · rename_i hne _
      exact absurd rfl (hne _)
  · rename_i hne
    exact absurd rfl (hne _)

theorem readMembers_next {key : List Char} {more : List Char} {fields : List (String × Json)}
    (hkey : Reads (readText ('"' :: cs) cs) key (':' :: after))
    (h : Reads (readValue n (skipSpace after)) j (',' :: more))
    (hmore : Reads (readMembers n (skipSpace more)) fields rest) :
    Reads (readMembers n ('"' :: cs)) ((String.ofList key, j) :: fields) rest := by
  obtain ⟨hk, hkey⟩ := hkey
  obtain ⟨hr, h⟩ := h
  obtain ⟨hr', hmore⟩ := hmore
  rw [readMembers, hkey]
  dsimp only
  split
  · rename_i heq
    cases heq
    rw [h]
    dsimp only
    split
    · rename_i heq
      cases heq
    · rename_i heq
      cases heq
      rw [hmore]
      exact ⟨_, rfl⟩
    · rename_i hne
      exact absurd rfl (hne _)
  · rename_i hne
    exact absurd rfl (hne _)

/-! ## Whole values -/

theorem readValue_text {text : List Char} (h : Reads (readText ('"' :: cs) cs) text rest) :
    Reads (readValue n ('"' :: cs)) (.str (String.ofList text)) rest := by
  obtain ⟨hr, h⟩ := h
  rw [readValue, h]
  exact ⟨_, rfl⟩

theorem read_of_reads {n : Nat} {s : String} {j : Json}
    (h : Reads (readValue n (skipSpace s.toList)) j []) : read n s = .ok j := by
  obtain ⟨hr, h⟩ := h
  rw [read, h]
  rfl

end Json
end PromptCanvas
