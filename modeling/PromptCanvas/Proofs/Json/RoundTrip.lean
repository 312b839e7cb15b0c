import PromptCanvas.Json.Printer
import PromptCanvas.Proofs.Json.Steps
import PromptCanvas.Proofs.Keyed
import PromptCanvas.Proofs.Text.Held

/-!
# What is written is read again

A `Plain` value is one of null, flags and texts of characters, and of arrays and objects of these.
What is written of it, held as texts are, is read as the value itself.

A spelling is read the same way whatever follows it; by this a row or an object is read item by
item, and the induction goes along the value.
-/

namespace PromptCanvas
namespace Json

/-! ## What is written -/

/-- How a character of a text is spelt. -/
def spelt (c : Char) : List Char := (writtenPoint c.toNat).flatMap fun d => Text.held d.toNat

/-- How a value is spelt. -/
def spelling (j : Json) : List Char := (Text.hold j.written).toList

def spelledItems (items : List Json) : List Char :=
  (Text.hold (",".intercalate (writtenItems items))).toList

def spelledMembers (fields : List (String × Json)) : List Char :=
  (Text.hold (",".intercalate (writtenFields fields))).toList

theorem toList_hold_writtenText (t : String) (more : List Char) :
    (Text.hold (writtenText (Text.hold t))).toList ++ more =
      '"' :: (t.toList.flatMap spelt ++ '"' :: more) := by
  have hquote : Text.held '"'.toNat = ['"'] := by decide
  rw [Text.toList_hold, writtenText, String.toList_ofList, Text.codePoints_hold, List.flatMap_map,
    List.cons_append, List.flatMap_cons, List.flatMap_append, List.flatMap_cons, List.flatMap_nil,
    hquote, List.flatMap_assoc]
  simp only [List.cons_append, List.append_assoc, List.nil_append, List.append_nil]
  rfl

theorem spelling_arr (items : List Json) (more : List Char) :
    spelling (.arr items) ++ more = '[' :: (spelledItems items ++ ']' :: more) := by
  have hopen : (Text.hold "[").toList = ['['] := by decide
  have hclose : (Text.hold "]").toList = [']'] := by decide
  rw [spelling, written, Text.toList_hold_append, Text.toList_hold_append, hopen, hclose,
    spelledItems]
  simp only [List.cons_append, List.nil_append, List.append_assoc]

theorem spelling_obj (fields : List (String × Json)) (more : List Char) :
    spelling (.obj fields) ++ more = '\x7b' :: (spelledMembers fields ++ '\x7d' :: more) := by
  have hopen : (Text.hold "\x7b").toList = ['\x7b'] := by decide
  have hclose : (Text.hold "\x7d").toList = ['\x7d'] := by decide
  rw [spelling, written, Text.toList_hold_append, Text.toList_hold_append, hopen, hclose,
    spelledMembers]
  simp only [List.cons_append, List.nil_append, List.append_assoc]

theorem spelledItems_singleton (j : Json) : spelledItems [j] = spelling j := by
  rw [spelledItems, writtenItems, writtenItems, String.intercalate_singleton, spelling]

theorem spelledItems_cons_cons (j k : Json) (js : List Json) :
    spelledItems (j :: k :: js) = spelling j ++ ',' :: spelledItems (k :: js) := by
  have hcomma : (Text.hold ",").toList = [','] := by decide
  rw [spelledItems, writtenItems, writtenItems, String.intercalate_cons_cons,
    Text.toList_hold_append, Text.toList_hold_append, hcomma, spelledItems, writtenItems, spelling]
  simp only [List.cons_append, List.nil_append, List.append_assoc]

theorem spelledMembers_singleton (e : String × Json) :
    spelledMembers [e] = (Text.hold (writtenText e.1)).toList ++ ':' :: spelling e.2 := by
  have hcolon : (Text.hold ":").toList = [':'] := by decide
  rw [spelledMembers, writtenFields, writtenFields, String.intercalate_singleton,
    Text.toList_hold_append, Text.toList_hold_append, hcolon, spelling]
  simp only [List.cons_append, List.nil_append, List.append_assoc]

theorem spelledMembers_cons_cons (e f : String × Json) (fields : List (String × Json)) :
    spelledMembers (e :: f :: fields) =
      (Text.hold (writtenText e.1)).toList ++ ':' :: spelling e.2 ++
        ',' :: spelledMembers (f :: fields) := by
  have hcomma : (Text.hold ",").toList = [','] := by decide
  have hcolon : (Text.hold ":").toList = [':'] := by decide
  rw [spelledMembers, writtenFields, writtenFields, String.intercalate_cons_cons,
    Text.toList_hold_append, Text.toList_hold_append, Text.toList_hold_append,
    Text.toList_hold_append, hcomma, hcolon, spelling, spelledMembers, writtenFields]
  simp only [List.cons_append, List.nil_append, List.append_assoc]

/-! ## Reading what is written -/

theorem escape?_of_shortEscape? {n : Nat} {letter : Char} (h : shortEscape? n = some letter) :
    escape? letter = some (Char.ofNat n) ∧ letter ≠ 'u' ∧ Text.held letter.toNat = [letter] ∧
      n < Text.halfOffset := by
  unfold shortEscape? at h
  split at h <;> cases h <;> decide

/-- A control character is spelt by the two digits that it has. -/
theorem hexPadded_control : ∀ n < 0x20,
    let digits := ['0', '0', Nat.digitChar (n / 16), Nat.digitChar (n % 16)]
    Text.hexPadded 4 n = digits ∧ digits.flatMap (fun d => Text.held d.toNat) = digits ∧
      hexQuad? '0' '0' (Nat.digitChar (n / 16)) (Nat.digitChar (n % 16)) = some n := by
  decide

theorem readText_plains {opening cs text rest ds : List Char}
    (hds : ∀ d ∈ ds, d ≠ '"' ∧ d ≠ '\\' ∧ 0x20 ≤ d.toNat)
    (h : Reads (readText opening cs) text rest) :
    Reads (readText opening (ds ++ cs)) (ds ++ text) rest := by
  induction ds with
  | nil => exact h
  | cons d ds ih =>
    obtain ⟨⟨hquote, hstroke, hd⟩, hds⟩ := List.forall_mem_cons.mp hds
    exact readText_plain hquote hstroke hd (ih hds)

/-- A character is read as it is held, whatever follows. -/
theorem readText_spelt {opening cs text rest : List Char} (c : Char)
    (h : Reads (readText opening cs) text rest) :
    Reads (readText opening (spelt c ++ cs)) (Text.held c.toNat ++ text) rest := by
  have hstroke : Text.held '\\'.toNat = ['\\'] := by decide
  have hu : Text.held 'u'.toNat = ['u'] := by decide
  unfold spelt writtenPoint
  cases hshort : shortEscape? c.toNat with
  | some letter =>
    obtain ⟨hescape, hne, hletter, hlt⟩ := escape?_of_shortEscape? hshort
    rw [Char.ofNat_toNat] at hescape
    rw [Text.held_of_lt hlt]
    dsimp only
    rw [List.flatMap_cons, List.flatMap_cons, List.flatMap_nil, hstroke, hletter]
    exact readText_escape hne hescape h
  | none =>
    dsimp only
    rw [Text.isHalf_toNat, Bool.or_false, Char.ofNat_toNat]
    by_cases hcontrol : c.toNat < 0x20
    · obtain ⟨hdigits, hheld, hcode⟩ := hexPadded_control c.toNat hcontrol
      rw [if_pos (decide_eq_true hcontrol), List.flatMap_cons, List.flatMap_cons, hstroke, hu,
        hdigits, hheld]
      exact readText_code hcode (Bool.or_eq_false_iff.mp (Text.isHalf_toNat c)).1 h
    · rw [if_neg (by simpa using hcontrol), List.flatMap_cons, List.flatMap_nil, List.append_nil]
      refine readText_plains (fun d hd => ?_) h
      rcases Text.eq_or_le_of_mem_held hd with rfl | hle
      · refine ⟨?_, ?_, by omega⟩
        · rintro rfl
          cases hshort
        · rintro rfl
          cases hshort
      · unfold Text.halfOffset at hle
        refine ⟨?_, ?_, by omega⟩
        · rintro rfl
          exact absurd hle (by decide)
        · rintro rfl
          exact absurd hle (by decide)

theorem readText_written (opening rest : List Char) (t : String) :
    Reads (readText opening (t.toList.flatMap spelt ++ '"' :: rest)) (Text.hold t).toList rest := by
  rw [Text.toList_hold]
  induction t.toList with
  | nil => exact readText_close opening rest
  | cons c cs ih =>
    rw [List.flatMap_cons, List.flatMap_cons, List.append_assoc]
    exact readText_spelt c ih

/-- Nothing but null, flags and texts of characters, in at most `n` arrays and objects within each
other, each of which has a key once only. -/
inductive Plain : Nat → Json → Prop where
  | null {n : Nat} : Plain n .null
  | bool {n : Nat} (b : Bool) : Plain n (.bool b)
  | str {n : Nat} {s : String} (h : Text.IsWhole s) : Plain n (.str s)
  | arr {n : Nat} {items : List Json} (h : ∀ j ∈ items, Plain n j) : Plain (n + 1) (.arr items)
  | obj {n : Nat} {fields : List (String × Json)}
      (hkeys : ∀ k ∈ Keyed.keys fields, Text.IsWhole k) (hnodup : (Keyed.keys fields).Nodup)
      (h : ∀ e ∈ fields, Plain n e.2) : Plain (n + 1) (.obj fields)

theorem Plain.ofText? {n : Nat} {s : Option String} (h : ∀ t ∈ s.toList, Text.IsWhole t) :
    Plain n (Json.ofText? s) := by
  cases s with
  | none => exact .null
  | some s => exact .str (h s (List.mem_singleton_self s))

/-- An object whose keys are the names of a record. -/
theorem Plain.record {n : Nat} {fields : List (String × Json)} (names : List String)
    (hkeys : Keyed.keys fields = names) (hheld : ∀ name ∈ names, name = Text.hold name)
    (hnodup : names.Nodup) (h : ∀ e ∈ fields, Plain n e.2) : Plain (n + 1) (.obj fields) := by
  subst hkeys
  exact .obj (fun k hk => ⟨k, hheld k hk⟩) hnodup h

theorem spelling_null (more : List Char) :
    spelling .null ++ more = 'n' :: 'u' :: 'l' :: 'l' :: more := by
  have hnull : spelling .null = ['n', 'u', 'l', 'l'] := by decide
  rw [hnull]
  rfl

theorem spelling_bool (b : Bool) :
    spelling (.bool b) = if b then ['t', 'r', 'u', 'e'] else ['f', 'a', 'l', 's', 'e'] := by
  cases b <;> decide

/-- A plain value starts with no blank, and not with the end of an array. -/
theorem Plain.spelling_head {n : Nat} {j : Json} (h : Plain n j) (more : List Char) :
    ∃ c cs, spelling j ++ more = c :: cs ∧ isSpace c = false ∧ c ≠ ']' := by
  cases h with
  | null => exact ⟨_, _, spelling_null more, by decide, by decide⟩
  | bool b =>
    rw [spelling_bool]
    cases b with
    | false => exact ⟨_, _, rfl, by decide, by decide⟩
    | true => exact ⟨_, _, rfl, by decide, by decide⟩
  | str h =>
    obtain ⟨t, rfl⟩ := h
    exact ⟨_, _, toList_hold_writtenText t more, by decide, by decide⟩
  | arr h => exact ⟨_, _, spelling_arr _ more, by decide, by decide⟩
  | obj hkeys hnodup h => exact ⟨_, _, spelling_obj _ more, by decide, by decide⟩

theorem skipSpace_spelling {n : Nat} {j : Json} (h : Plain n j) (more : List Char) :
    skipSpace (spelling j ++ more) = spelling j ++ more := by
  obtain ⟨c, cs, heq, hspace, -⟩ := h.spelling_head more
  rw [heq, skipSpace_cons hspace]

/-! ### Items of an array -/

theorem exists_spelledItems_append (j : Json) (items : List Json) (more : List Char) :
    ∃ cs, spelledItems (j :: items) ++ more = spelling j ++ cs := by
  cases items with
  | nil => exact ⟨more, by rw [spelledItems_singleton]⟩
  | cons k items => exact ⟨_, by rw [spelledItems_cons_cons, List.append_assoc]⟩

theorem skipSpace_spelledItems {n : Nat} {j : Json} (h : Plain n j) (items : List Json)
    (more : List Char) :
    skipSpace (spelledItems (j :: items) ++ more) = spelledItems (j :: items) ++ more := by
  obtain ⟨cs, heq⟩ := exists_spelledItems_append j items more
  rw [heq, skipSpace_spelling h]

theorem spelledItems_append_ne {n : Nat} {j : Json} (h : Plain n j) (items : List Json)
    (more tail : List Char) : spelledItems (j :: items) ++ more ≠ ']' :: tail := by
  obtain ⟨cs, heq⟩ := exists_spelledItems_append j items more
  obtain ⟨c, cs', hhead, -, hend⟩ := h.spelling_head cs
  rw [heq, hhead]
  exact fun htail => hend (List.cons.inj htail).1

/-- Items that are each read whatever follows are read as a row. -/
theorem readItems_spelled {n : Nat} {j : Json} {items : List Json}
    (hplain : ∀ k ∈ j :: items, Plain n k)
    (h : ∀ k ∈ j :: items, ∀ more, Reads (readValue n (spelling k ++ more)) k more)
    (rest : List Char) :
    Reads (readItems n (spelledItems (j :: items) ++ ']' :: rest)) (j :: items) rest := by
  induction items generalizing j with
  | nil =>
    rw [spelledItems_singleton]
    exact readItems_last (h j List.mem_cons_self _)
  | cons k items ih =>
    obtain ⟨hj, hitems⟩ := List.forall_mem_cons.mp h
    obtain ⟨-, hplain⟩ := List.forall_mem_cons.mp hplain
    rw [spelledItems_cons_cons, List.append_assoc]
    refine readItems_next (hj _) ?_
    rw [List.append_eq, skipSpace_spelledItems (hplain k List.mem_cons_self)]
    exact ih hplain hitems

/-! ### Members of an object -/

theorem exists_spelledMembers_append {e : String × Json} (hkey : Text.IsWhole e.1)
    (fields : List (String × Json)) (more : List Char) :
    ∃ cs, spelledMembers (e :: fields) ++ more = '"' :: cs := by
  obtain ⟨t, hkey⟩ := hkey
  cases fields with
  | nil =>
    rw [spelledMembers_singleton, hkey, List.append_assoc, toList_hold_writtenText]
    exact ⟨_, rfl⟩
  | cons f fields =>
    rw [spelledMembers_cons_cons, hkey, List.append_assoc, List.append_assoc,
      toList_hold_writtenText]
    exact ⟨_, rfl⟩

theorem skipSpace_spelledMembers {e : String × Json} (hkey : Text.IsWhole e.1)
    (fields : List (String × Json)) (more : List Char) :
    skipSpace (spelledMembers (e :: fields) ++ more) = spelledMembers (e :: fields) ++ more := by
  obtain ⟨cs, heq⟩ := exists_spelledMembers_append hkey fields more
  rw [heq, skipSpace_cons (by decide)]

/-- Members whose values are each read whatever follows are read in their order. -/
theorem readMembers_spelled {n : Nat} {e : String × Json} {fields : List (String × Json)}
    (hkeys : ∀ f ∈ e :: fields, Text.IsWhole f.1) (hplain : ∀ f ∈ e :: fields, Plain n f.2)
    (h : ∀ f ∈ e :: fields, ∀ more, Reads (readValue n (spelling f.2 ++ more)) f.2 more)
    (rest : List Char) :
    Reads (readMembers n (spelledMembers (e :: fields) ++ '\x7d' :: rest)) (e :: fields) rest := by
  induction fields generalizing e with
  | nil =>
    obtain ⟨t, hkey⟩ := hkeys e List.mem_cons_self
    have hvalue := h e List.mem_cons_self ('\x7d' :: rest)
    rw [← skipSpace_spelling (hplain e List.mem_cons_self)] at hvalue
    have hread := readMembers_last (readText_written _ _ t) hvalue
    rw [String.ofList_toList, ← hkey] at hread
    rw [spelledMembers_singleton, hkey, List.append_assoc, toList_hold_writtenText]
    exact hread
  | cons f fields ih =>
    obtain ⟨⟨t, hkey⟩, hkeys⟩ := List.forall_mem_cons.mp hkeys
    obtain ⟨he, hfields⟩ := List.forall_mem_cons.mp h
    obtain ⟨hfirst, hplain⟩ := List.forall_mem_cons.mp hplain
    have hvalue := he (',' :: (spelledMembers (f :: fields) ++ '\x7d' :: rest))
    rw [← skipSpace_spelling hfirst] at hvalue
    have hmore := ih hkeys hplain hfields
    rw [← skipSpace_spelledMembers (hkeys f List.mem_cons_self)] at hmore
    have hread := readMembers_next (readText_written _ _ t) hvalue hmore
    rw [String.ofList_toList, ← hkey] at hread
    rw [spelledMembers_cons_cons, hkey, List.append_assoc, List.append_assoc,
      toList_hold_writtenText]
    exact hread

/-! ### Whole values -/

/-- A plain value that was written is read again, whatever follows. -/
theorem readValue_spelling {n : Nat} {j : Json} (h : Plain n j) (more : List Char) :
    Reads (readValue n (spelling j ++ more)) j more := by
  -- What follows varies: an item is followed by the others and the end of its array.
  induction h generalizing more with
  | null =>
    rw [spelling_null, readValue]
    exact ⟨_, rfl⟩
  | bool b =>
    rw [spelling_bool]
    cases b with
    | false =>
      show Reads (readValue _ ('f' :: 'a' :: 'l' :: 's' :: 'e' :: more)) _ _
      rw [readValue]
      exact ⟨_, rfl⟩
    | true =>
      show Reads (readValue _ ('t' :: 'r' :: 'u' :: 'e' :: more)) _ _
      rw [readValue]
      exact ⟨_, rfl⟩
  | @str n s h =>
    obtain ⟨t, rfl⟩ := h
    have hread := readValue_text (n := n) (readText_written _ more t)
    rw [String.ofList_toList] at hread
    rw [spelling, written, toList_hold_writtenText]
    exact hread
  | @arr n items hplain ih =>
    rw [spelling_arr]
    cases items with
    | nil => exact readValue_noItems
    | cons j items =>
      have hj := hplain j List.mem_cons_self
      have hspace := skipSpace_spelledItems hj items (']' :: more)
      refine readValue_items (fun tail => ?_) ?_
      · rw [hspace]
        exact spelledItems_append_ne hj items _ tail
      · rw [hspace]
        exact readItems_spelled hplain ih more
  | @obj n fields hkeys hnodup hplain ih =>
    rw [spelling_obj]
    cases fields with
    | nil => exact readValue_noMembers
    | cons e fields =>
      have hkeys : ∀ f ∈ e :: fields, Text.IsWhole f.1 :=
        fun f hf => hkeys f.1 (List.mem_map_of_mem hf)
      have hkey := hkeys e List.mem_cons_self
      have hspace := skipSpace_spelledMembers hkey fields ('\x7d' :: more)
      have hread := readMembers_spelled hkeys hplain ih more
      rw [← hspace] at hread
      have hopen : ∀ tail, skipSpace (spelledMembers (e :: fields) ++ '\x7d' :: more) ≠
          '\x7d' :: tail := by
        intro tail
        obtain ⟨cs, hcs⟩ := exists_spelledMembers_append hkey fields ('\x7d' :: more)
        rw [hspace, hcs]
        exact fun htail => absurd (List.cons.inj htail).1 (by decide)
      have hvalue := readValue_members hopen hread
      rwa [Keyed.ofList_of_nodup hnodup] at hvalue

/-- A plain value is read from what was written of it. -/
theorem read_hold_written {n : Nat} {j : Json} (h : Plain n j) :
    read n (Text.hold j.written) = .ok j := by
  have hread := readValue_spelling h []
  rw [← skipSpace_spelling h, List.append_nil] at hread
  exact read_of_reads hread

end Json
end PromptCanvas
