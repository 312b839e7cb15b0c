import PromptCanvas.Image.Ref

/-!
# Data URLs

A data URL is read at its first comma: what stands before it, without the scheme and as many
characters as the mark `;base64` has, is the media type, and the rest is the payload.  Whether it is
a base64 URL at all is asked of the whole text, though: the mark may stand anywhere in it.  So what
is read beyond the grammar are URLs whose header does not end with the mark while the payload holds
it, and those lose the end of their header.
-/

namespace PromptCanvas

/-! ## The first comma -/

section Split

variable {α : Type} [BEq α] [LawfulBEq α] {sep : α}

theorem takeWhile_split {a : List α} (ha : sep ∉ a) (p : List α) :
    (a ++ sep :: p).takeWhile (· != sep) = a := by
  have hall : ∀ x ∈ a, (x != sep) = true := fun x hx => bne_iff_ne.mpr fun he => ha (he ▸ hx)
  rw [List.takeWhile_append_of_pos hall, List.takeWhile_cons_of_neg (by simp), List.append_nil]

theorem dropWhile_split {a : List α} (ha : sep ∉ a) (p : List α) :
    (a ++ sep :: p).dropWhile (· != sep) = sep :: p := by
  have hall : ∀ x ∈ a, (x != sep) = true := fun x hx => bne_iff_ne.mpr fun he => ha (he ▸ hx)
  rw [List.dropWhile_append_of_pos hall, List.dropWhile_cons_of_neg (by simp)]

/-- There is one way to split a text at its first separator. -/
theorem split_unique {a b p q : List α} (ha : sep ∉ a) (hb : sep ∉ b)
    (h : a ++ sep :: p = b ++ sep :: q) : a = b ∧ p = q := by
  have hfirst := congrArg (List.takeWhile (· != sep)) h
  rw [takeWhile_split ha, takeWhile_split hb] at hfirst
  subst hfirst
  exact ⟨rfl, List.tail_eq_of_cons_eq (List.append_cancel_left h)⟩

/-- A mark that is followed by the separator stands before the first separator or after it. -/
theorem infix_split_iff {mark a p : List α} (hmark : sep ∉ mark) (ha : sep ∉ a) :
    mark ++ [sep] <:+: a ++ sep :: p ↔ mark <:+ a ∨ mark ++ [sep] <:+: p := by
  constructor
  · rintro ⟨before, after, h⟩
    rw [List.append_assoc, List.append_assoc, List.singleton_append] at h
    by_cases hbefore : sep ∈ before
    · obtain ⟨first, later, rfl, hfirst⟩ := List.eq_append_cons_of_mem hbefore
      rw [List.append_assoc, List.cons_append] at h
      obtain ⟨-, rfl⟩ := split_unique hfirst ha h
      exact .inr ⟨later, after, by simp⟩
    · rw [← List.append_assoc] at h
      have hnone : sep ∉ before ++ mark := by simp [hbefore, hmark]
      obtain ⟨rfl, -⟩ := split_unique hnone ha h
      exact .inl (List.suffix_append before mark)
  · rintro (⟨before, rfl⟩ | ⟨before, after, rfl⟩)
    · exact ⟨before, p, by simp⟩
    · exact ⟨a ++ sep :: before, after, by simp⟩

omit [BEq α] [LawfulBEq α] in
/-- A suffix without a character stands behind that. -/
theorem suffix_append_cons_iff {x : α} {m a h : List α} (hm : x ∉ m) :
    m <:+ a ++ x :: h ↔ m <:+ h := by
  constructor
  · intro hsuffix
    have hlast : x :: h <:+ a ++ x :: h := List.suffix_append a (x :: h)
    rcases List.suffix_or_suffix_of_suffix hsuffix hlast with hshort | hlong
    · rcases List.suffix_cons_iff.mp hshort with rfl | hin
      · exact absurd List.mem_cons_self hm
      · exact hin
    · exact absurd (hlong.mem List.mem_cons_self) hm
  · intro hsuffix
    exact (hsuffix.trans (List.suffix_cons x h)).trans (List.suffix_append a (x :: h))

end Split

theorem occursIn_iff {part cs : List Char} : occursIn part cs = true ↔ part <:+: cs := by
  induction cs with
  | nil => rw [occursIn, List.isEmpty_iff, List.infix_nil]
  | cons c rest ih =>
    rw [occursIn, Bool.or_eq_true, List.isPrefixOf_iff_prefix, ih, List.infix_cons_iff]

namespace ImageRef

/-! ## Reading -/

/-- A text that starts with the scheme, split at its first comma. -/
structure Split (url : String) (header payload : List Char) : Prop where
  header_noComma : ',' ∉ header
  eq_append : url.toList = scheme ++ header ++ ',' :: payload

/-- The mark stands at the end of the header, or somewhere in the payload. -/
def Marked (header payload : List Char) : Prop :=
  marker <:+ header ∨ marker ++ [','] <:+: payload

/-- What is left of a header without as many characters as the mark has. -/
def withoutMark (header : List Char) : List Char := header.take (header.length - marker.length)

/-- The media type that a text stands for. -/
def mimeTypeOf (mime : List Char) : String :=
  if mime.isEmpty then defaultMimeType else String.ofList mime

theorem Split.scheme_noComma {url : String} {header payload : List Char}
    (h : Split url header payload) : ',' ∉ scheme ++ header := by
  rw [List.mem_append, not_or]
  exact ⟨by decide, h.header_noComma⟩

theorem Split.isPrefixOf {url : String} {header payload : List Char}
    (h : Split url header payload) : scheme.isPrefixOf url.toList = true := by
  rw [List.isPrefixOf_iff_prefix, h.eq_append, List.append_assoc]
  exact List.prefix_append scheme _

theorem Split.marked_iff {url : String} {header payload : List Char}
    (h : Split url header payload) :
    occursIn (marker ++ [',']) url.toList = true ↔ Marked header payload := by
  -- The mark has no colon, so it cannot reach back into the scheme.
  have hcolon : marker <:+ scheme ++ header ↔ marker <:+ header :=
    suffix_append_cons_iff (x := ':') (a := "data".toList) (by decide)
  rw [occursIn_iff, h.eq_append, infix_split_iff (by decide) h.scheme_noComma, hcolon, Marked]

theorem Split.ofDataUrl_eq {url : String} {header payload : List Char}
    (h : Split url header payload) (hmarked : Marked header payload) :
    ofDataUrl url = .ok ⟨String.ofList payload, mimeTypeOf (withoutMark header)⟩ := by
  have hcut : ((scheme ++ header).take ((scheme ++ header).length - marker.length)).drop
      scheme.length = withoutMark header := by
    rw [List.drop_take, List.drop_left, List.length_append, withoutMark]
    congr 1
    omega
  unfold ofDataUrl
  dsimp only
  rw [h.isPrefixOf, h.marked_iff.mpr hmarked, h.eq_append, takeWhile_split h.scheme_noComma,
    dropWhile_split h.scheme_noComma, hcut]
  rfl

/-- What is read starts with the scheme and has a comma. -/
theorem exists_split {url : String} {r : ImageRef} (h : ofDataUrl url = .ok r) :
    ∃ header payload, Split url header payload ∧ Marked header payload := by
  unfold ofDataUrl at h
  dsimp only at h
  split at h
  · rename_i haccepted
    obtain ⟨hscheme, hmark⟩ := (Bool.and_eq_true _ _).mp haccepted
    obtain ⟨rest, hrest⟩ := List.isPrefixOf_iff_prefix.mp hscheme
    have hcomma : ',' ∈ scheme ++ rest := by
      rw [hrest]
      exact (occursIn_iff.mp hmark).mem (List.mem_append_right _ (List.mem_singleton.mpr rfl))
    have hcomma : ',' ∈ rest := (List.mem_append.mp hcomma).resolve_left (by decide)
    obtain ⟨header, payload, rfl, hheader⟩ := List.eq_append_cons_of_mem hcomma
    have hsplit : Split url header payload := ⟨hheader, by rw [← hrest, List.append_assoc]⟩
    exact ⟨header, payload, hsplit, hsplit.marked_iff.mp hmark⟩
  · cases h

theorem error_ofDataUrl {url : String} {f : ImageFault} (h : ofDataUrl url = .error f) :
    f = .notDataUrl := by
  unfold ofDataUrl at h
  dsimp only at h
  split at h
  · cases h
  · cases h
    rfl

/-! ## The grammar -/

/-- A base64 data URL of a media type, which may be empty, and a payload. -/
structure IsDataUrl (url mime payload : String) : Prop where
  mime_noComma : ',' ∉ mime.toList
  eq_append : url = "data:" ++ mime ++ ";base64," ++ payload

/-- A URL of the scheme whose header does not end with the mark, while its payload holds it. -/
structure IsStray (url header payload : String) : Prop where
  header_noComma : ',' ∉ header.toList
  header_unmarked : ¬ ";base64".toList <:+ header.toList
  payload_marked : ";base64,".toList <:+: payload.toList
  eq_append : url = "data:" ++ header ++ "," ++ payload

/-- The media type that a URL gives. -/
def orDefault (mime : String) : String := if mime = "" then "image/png" else mime

/-- A text without its last characters, as many as the mark has. -/
def shortened (header : String) : String :=
  String.ofList (header.toList.take (header.toList.length - ";base64".toList.length))

theorem mimeTypeOf_eq (mime : List Char) : mimeTypeOf mime = orDefault (String.ofList mime) := by
  rw [mimeTypeOf, orDefault]
  cases mime with
  | nil => rfl
  | cons c rest =>
    have hne : String.ofList (c :: rest) ≠ "" := by
      intro h
      have hnil := congrArg String.toList h
      rw [String.toList_ofList] at hnil
      cases hnil
    rw [if_neg hne]
    rfl

theorem IsDataUrl.split {url mime payload : String} (h : IsDataUrl url mime payload) :
    Split url (mime.toList ++ marker) payload.toList := by
  obtain ⟨hmime, rfl⟩ := h
  refine ⟨?_, ?_⟩
  · rw [List.mem_append, not_or]
    exact ⟨hmime, by decide⟩
  · simp only [String.toList_append, List.append_assoc]
    rfl

theorem IsDataUrl.ofDataUrl_eq {url mime payload : String} (h : IsDataUrl url mime payload) :
    ofDataUrl url = .ok ⟨payload, orDefault mime⟩ := by
  have hmime : withoutMark (mime.toList ++ marker) = mime.toList := by
    rw [withoutMark, List.length_append, Nat.add_sub_cancel, List.take_left]
  rw [h.split.ofDataUrl_eq (.inl (List.suffix_append mime.toList marker)), hmime, mimeTypeOf_eq,
    String.ofList_toList, String.ofList_toList]

theorem IsStray.split {url header payload : String} (h : IsStray url header payload) :
    Split url header.toList payload.toList := by
  obtain ⟨hheader, -, -, rfl⟩ := h
  refine ⟨hheader, ?_⟩
  simp only [String.toList_append, List.append_assoc]
  rfl

theorem IsStray.ofDataUrl_eq {url header payload : String} (h : IsStray url header payload) :
    ofDataUrl url = .ok ⟨payload, orDefault (shortened header)⟩ := by
  rw [h.split.ofDataUrl_eq (.inr h.payload_marked), mimeTypeOf_eq, String.ofList_toList]
  rfl

/-- What is read is a base64 data URL or a stray one. -/
theorem exists_of_ofDataUrl {url : String} {r : ImageRef} (h : ofDataUrl url = .ok r) :
    (∃ mime, IsDataUrl url mime r.data) ∨ ∃ header, IsStray url header r.data := by
  obtain ⟨header, payload, hsplit, hmarked⟩ := exists_split h
  have hdata : r.data = String.ofList payload := by
    rw [hsplit.ofDataUrl_eq hmarked] at h
    cases h
    rfl
  have hurl := hsplit.eq_append
  rw [hdata]
  by_cases hmark : marker <:+ header
  · obtain ⟨mime, rfl⟩ := hmark
    refine .inl ⟨String.ofList mime, ?_, ?_⟩
    · rw [String.toList_ofList]
      exact fun hc => hsplit.header_noComma (List.mem_append_left _ hc)
    · rw [← String.toList_inj, hurl]
      simp only [String.toList_append, String.toList_ofList, List.append_assoc]
      rfl
  · refine .inr ⟨String.ofList header, ?_, ?_, ?_, ?_⟩
    · rw [String.toList_ofList]
      exact hsplit.header_noComma
    · show ¬ marker <:+ (String.ofList header).toList
      rw [String.toList_ofList]
      exact hmark
    · show marker ++ [','] <:+: (String.ofList payload).toList
      rw [String.toList_ofList]
      exact hmarked.resolve_left hmark
    · rw [← String.toList_inj, hurl]
      simp only [String.toList_append, String.toList_ofList, List.append_assoc]
      rfl

/-- No text is both. -/
theorem IsStray.not_isDataUrl {url header payload mime data : String}
    (h : IsStray url header payload) : ¬ IsDataUrl url mime data := by
  intro hd
  have hsame := h.split.eq_append.symm.trans hd.split.eq_append
  rw [List.append_assoc, List.append_assoc] at hsame
  obtain ⟨heq, -⟩ := split_unique h.split.header_noComma hd.split.header_noComma
    (List.append_cancel_left hsame)
  exact h.header_unmarked (heq ▸ List.suffix_append mime.toList marker)

/-- A text is read by the grammar, if and only if it is no stray URL: of a base64 data URL the
payload is read and the media type, which is `image/png` where the URL gives none, and every other
text is refused as no data URL.  Of a stray URL the payload is read, and the header without its end.
A reference whose media type is not empty and has no comma is read back from its data URL. -/
theorem reads_grammar_iff (url : String) :
    ((∀ r, ofDataUrl url = .ok r ↔
        ∃ mime, IsDataUrl url mime r.data ∧ r.mimeType = orDefault mime) ↔
      ¬ ∃ header payload, IsStray url header payload) ∧
    (∀ header payload, IsStray url header payload →
      ofDataUrl url = .ok ⟨payload, orDefault (shortened header)⟩) ∧
    (∀ f, ofDataUrl url = .error f → f = .notDataUrl) ∧
    ∀ r : ImageRef, r.mimeType ≠ "" → ',' ∉ r.mimeType.toList → url = r.toDataUrl →
      ofDataUrl url = .ok r := by
  refine ⟨⟨?_, fun hnone r => ⟨fun h => ?_, ?_⟩⟩, fun header payload hs => hs.ofDataUrl_eq,
    fun f => error_ofDataUrl, fun r hmime hcomma hurl => ?_⟩
  · rintro hgrammar ⟨header, payload, hs⟩
    obtain ⟨mime, hd, -⟩ := (hgrammar _).mp hs.ofDataUrl_eq
    exact hs.not_isDataUrl hd
  · rcases exists_of_ofDataUrl h with ⟨mime, hd⟩ | ⟨header, hs⟩
    · rw [hd.ofDataUrl_eq] at h
      exact ⟨mime, hd, (congrArg ImageRef.mimeType (Except.ok.inj h)).symm⟩
    · exact absurd ⟨header, r.data, hs⟩ hnone
  · rintro ⟨mime, hd, hmime⟩
    rw [hd.ofDataUrl_eq, ← hmime]
  · have hd : IsDataUrl url r.mimeType r.data := ⟨hcomma, hurl⟩
    rw [hd.ofDataUrl_eq, orDefault, if_neg hmime]

theorem reads_grammar_svg :
    let r : ImageRef := ⟨"PHN2Zz4=", "image/svg+xml;charset=utf-8"⟩
    r.mimeType ≠ "" ∧ ',' ∉ r.mimeType.toList ∧ ofDataUrl r.toDataUrl = .ok r := by
  intro r
  have hmime : r.mimeType ≠ "" := by decide
  have hcomma : ',' ∉ r.mimeType.toList := by decide
  obtain ⟨-, -, -, hback⟩ := reads_grammar_iff r.toDataUrl
  exact ⟨hmime, hcomma, hback r hmime hcomma rfl⟩

/-- A plain URL whose text mentions the mark is read, and its media type is cut short. -/
theorem ofDataUrl_plain_text :
    let url := "data:text/plain,hello;base64,aGk="
    ofDataUrl url = .ok ⟨"hello;base64,aGk=", "tex"⟩ ∧
      ¬ ∃ mime payload, IsDataUrl url mime payload := by
  intro url
  have hs : IsStray url "text/plain" "hello;base64,aGk=" := by
    refine ⟨by decide, by decide, ?_, rfl⟩
    exact ⟨"hello".toList, "aGk=".toList, rfl⟩
  refine ⟨hs.ofDataUrl_eq, ?_⟩
  rintro ⟨mime, payload, hd⟩
  exact hs.not_isDataUrl hd

end ImageRef
end PromptCanvas
