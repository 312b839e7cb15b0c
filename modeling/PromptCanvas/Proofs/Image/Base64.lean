import PromptCanvas.Image.Base64
import PromptCanvas.Proofs.Record.Accepted

/-!
# Decoding base64

Decoding undoes encoding, strict or not.  Where strict decoding succeeds, nothing was there to be
skipped, so lenient decoding comes to the same bytes, whatever bits the last character holds beyond
them.
-/

namespace PromptCanvas
namespace Base64

/-! ## The alphabet -/

theorem sextet?_encodeSextet : ∀ n < 64, sextet? (encodeSextet n) = some n := by decide

theorem sextet?_pad : sextet? '=' = none := by decide

theorem encodeSextet_ne_pad {n : Nat} (hn : n < 64) : (encodeSextet n == '=') = false := by
  have hread := sextet?_encodeSextet n hn
  rw [beq_eq_false_iff_ne]
  intro he
  rw [he, sextet?_pad] at hread
  cases hread

section Push

variable {n : Nat} (hn : n < 64) (strict : Bool) {held held' : Held} (pads count : Nat)
  (rest : List Char)
include hn

theorem decodeFrom_held (h : held.push n = (held', none)) :
    decodeFrom strict ⟨held, pads, false, count⟩ (encodeSextet n :: rest) =
      decodeFrom strict ⟨held', 0, false, count⟩ rest := by
  rw [decodeFrom, encodeSextet_ne_pad hn, sextet?_encodeSextet n hn]
  simp only [Bool.and_false, Bool.false_eq_true, if_false, h]

theorem decodeFrom_completed {byte : UInt8} (h : held.push n = (held', some byte)) :
    decodeFrom strict ⟨held, pads, false, count⟩ (encodeSextet n :: rest) =
      (decodeFrom strict ⟨held', 0, false, count + 1⟩ rest).map (byte :: ·) := by
  rw [decodeFrom, encodeSextet_ne_pad hn, sextet?_encodeSextet n hn]
  simp only [Bool.and_false, Bool.false_eq_true, if_false, h]

end Push

/-! ## Decoding undoes encoding -/

theorem push_one (a : UInt8) {x : Nat} (hx : x < 16) :
    (Held.one (a.toNat / 4)).push (a.toNat % 4 * 16 + x) = (.two x, some a) := by
  have hbyte : a.toNat / 4 * 4 + (a.toNat % 4 * 16 + x) / 16 = a.toNat := by omega
  have hrest : (a.toNat % 4 * 16 + x) % 16 = x := by omega
  rw [Held.push, hbyte, hrest, UInt8.ofNat_toNat]

theorem push_two (b : UInt8) {y : Nat} (hy : y < 4) :
    (Held.two (b.toNat / 16)).push (b.toNat % 16 * 4 + y) = (.three y, some b) := by
  have hbyte : b.toNat / 16 * 16 + (b.toNat % 16 * 4 + y) / 4 = b.toNat := by omega
  have hrest : (b.toNat % 16 * 4 + y) % 4 = y := by omega
  rw [Held.push, hbyte, hrest, UInt8.ofNat_toNat]

theorem push_three (c : UInt8) :
    (Held.three (c.toNat / 64)).push (c.toNat % 64) = (.zero, some c) := by
  have hbyte : c.toNat / 64 * 64 + c.toNat % 64 = c.toNat := by omega
  rw [Held.push, hbyte, UInt8.ofNat_toNat]

theorem decodeFrom_two_pads (strict : Bool) (x count : Nat) :
    decodeFrom strict ⟨.two x, 0, false, count⟩ ['=', '='] = .ok [] := by
  cases strict <;> rfl

theorem decodeFrom_one_pad (strict : Bool) (y count : Nat) :
    decodeFrom strict ⟨.three y, 0, false, count⟩ ['='] = .ok [] := by
  cases strict <;> rfl

theorem decodeFrom_encodeBytes (strict : Bool) (bytes : List UInt8) (pads count : Nat) :
    decodeFrom strict ⟨.zero, pads, false, count⟩ (encodeBytes bytes) = .ok bytes := by
  induction bytes using encodeBytes.induct generalizing pads count with
  | case1 => rfl
  | case2 a =>
    have ha := a.toNat_lt
    have hlast := push_one a (x := 0) (by decide)
    rw [Nat.add_zero] at hlast
    rw [encodeBytes, decodeFrom_held (by omega) strict _ _ _ rfl,
      decodeFrom_completed (by omega) strict _ _ _ hlast, decodeFrom_two_pads]
    rfl
  | case3 a b =>
    have ha := a.toNat_lt
    have hb := b.toNat_lt
    have hlast := push_two b (y := 0) (by decide)
    rw [Nat.add_zero] at hlast
    rw [encodeBytes, decodeFrom_held (by omega) strict _ _ _ rfl,
      decodeFrom_completed (by omega) strict _ _ _ (push_one a (by omega)),
      decodeFrom_completed (by omega) strict _ _ _ hlast, decodeFrom_one_pad]
    rfl
  | case4 a b c rest ih =>
    have ha := a.toNat_lt
    have hb := b.toNat_lt
    have hc := c.toNat_lt
    rw [encodeBytes, decodeFrom_held (by omega) strict _ _ _ rfl,
      decodeFrom_completed (by omega) strict _ _ _ (push_one a (by omega)),
      decodeFrom_completed (by omega) strict _ _ _ (push_two b (by omega)),
      decodeFrom_completed (by omega) strict _ _ _ (push_three c), ih]
    rfl

/-! ## What is decoded strictly -/

/-- What is decoded strictly consists of the alphabet and padding. -/
theorem mem_alphabet_of_decodeFrom {s : State} {cs : List Char} {bytes : List UInt8}
    (h : decodeFrom true s cs = .ok bytes) : ∀ c ∈ cs, c = '=' ∨ (sextet? c).isSome := by
  fun_induction decodeFrom true s cs generalizing bytes with
  | case1 s => exact fun c hc => absurd hc List.not_mem_nil
  | case2 s c rest hpad hplace hfull hmore => cases h
  | case3 s c rest hpad hplace hfull hmore =>
    -- The padding that fills the group ends the data, and nothing may follow it.
    have hrest : rest = [] := by simpa using hmore
    subst hrest
    exact List.forall_mem_singleton.mpr (.inl (eq_of_beq hpad))
  | case4 s c rest hpad hplace hfull ih =>
    exact List.forall_mem_cons.mpr ⟨.inl (eq_of_beq hpad), ih h⟩
  | case5 s c rest hpad hplace ih =>
    exact List.forall_mem_cons.mpr ⟨.inl (eq_of_beq hpad), ih h⟩
  | case6 s c rest hpad hread hstrict => cases h
  | case7 s c rest hpad hread hstrict ih => exact absurd rfl hstrict
  | case8 s c rest hpad v hread hpadded => cases h
  | case9 s c rest hpad v hread hpadded held hpush ih =>
    exact List.forall_mem_cons.mpr ⟨.inr (by rw [hread]; rfl), ih h⟩
  | case10 s c rest hpad v hread hpadded held byte hpush ih =>
    obtain ⟨later, hlater, -⟩ := map_eq_ok.mp h
    exact List.forall_mem_cons.mpr ⟨.inr (by rw [hread]; rfl), ih hlater⟩

/-- Where strict decoding succeeds, lenient decoding takes the same steps. -/
theorem decodeFrom_lenient {s : State} {cs : List Char} {bytes : List UInt8}
    (h : decodeFrom true s cs = .ok bytes) : decodeFrom false s cs = .ok bytes := by
  fun_induction decodeFrom true s cs generalizing bytes with
  | case1 s => exact h
  | case2 s c rest hpad hplace hfull hmore => cases h
  | case3 s c rest hpad hplace hfull hmore =>
    rw [decodeFrom, if_pos hpad, if_pos hplace, if_pos hfull]
    exact h
  | case4 s c rest hpad hplace hfull ih =>
    rw [decodeFrom, if_pos hpad, if_pos hplace, if_neg hfull]
    exact ih h
  | case5 s c rest hpad hplace ih =>
    rw [decodeFrom, if_pos hpad, if_neg hplace]
    exact ih h
  | case6 s c rest hpad hread hstrict => cases h
  | case7 s c rest hpad hread hstrict ih => exact absurd rfl hstrict
  | case8 s c rest hpad v hread hpadded => cases h
  | case9 s c rest hpad v hread hpadded held hpush ih =>
    rw [decodeFrom, if_neg hpad, hread]
    simp only [hpush]
    exact ih h
  | case10 s c rest hpad v hread hpadded held byte hpush ih =>
    obtain ⟨later, hlater, rfl⟩ := map_eq_ok.mp h
    rw [decodeFrom, if_neg hpad, hread]
    simp only [hpush]
    rw [ih hlater]
    rfl

/-! ## Whole texts -/

theorem toNat_lt_of_sextet? {c : Char} (h : (sextet? c).isSome) : c.toNat < 128 := by
  refine Decidable.byContradiction fun hbig => ?_
  have habove (d : Char) (hd : d.toNat < 128) : ¬ c ≤ d := by
    intro hle
    have hnat : c.toNat ≤ d.toNat := hle
    omega
  have hne (d : Char) (hd : d.toNat < 128) : c ≠ d := by
    rintro rfl
    exact hbig hd
  simp [sextet?, habove 'Z' (by decide), habove 'z' (by decide), habove '9' (by decide),
    hne '+' (by decide), hne '/' (by decide)] at h

/-- A text of the alphabet and padding is ASCII. -/
theorem any_notAscii_eq_false {cs : List Char} (h : ∀ c ∈ cs, c = '=' ∨ (sextet? c).isSome) :
    (cs.any (128 ≤ ·.toNat)) = false := by
  rw [List.any_eq_false]
  intro c hc
  rcases h c hc with rfl | hread
  · decide
  · have := toNat_lt_of_sextet? hread
    simpa using this

theorem head?_encodeBytes (bytes : List UInt8) : (encodeBytes bytes).head? ≠ some '=' := by
  have hfirst (a : UInt8) : encodeSextet (a.toNat / 4) ≠ '=' := by
    have ha := a.toNat_lt
    exact ne_of_beq_false (encodeSextet_ne_pad (by omega))
  cases bytes using encodeBytes.fun_cases with
  | case1 => nofun
  | case2 a => simpa [encodeBytes] using hfirst a
  | case3 a b => simpa [encodeBytes] using hfirst a
  | case4 a b c rest => simpa [encodeBytes] using hfirst a

/-- Decoding undoes encoding, strict or not. -/
theorem decode_encode (strict : Bool) (bytes : List UInt8) :
    decode strict (encode bytes) = .ok bytes := by
  -- What is encoded is decoded strictly, so it is of the alphabet and therefore ASCII.
  have hascii := any_notAscii_eq_false
    (mem_alphabet_of_decodeFrom (decodeFrom_encodeBytes true bytes 0 0))
  have hhead : ((encodeBytes bytes).head? == some '=') = false :=
    beq_eq_false_iff_ne.mpr (head?_encodeBytes bytes)
  rw [decode, encode, String.toList_ofList]
  simp only [hascii, hhead, Bool.and_false, Bool.false_eq_true, if_false]
  exact decodeFrom_encodeBytes strict bytes 0 0

theorem decodeFrom_of_decode {text : String} {bytes : List UInt8}
    (h : decode true text = .ok bytes) : decodeFrom true .start text.toList = .ok bytes := by
  unfold decode at h
  dsimp only at h
  split at h
  · cases h
  · split at h
    · cases h
    · exact h

/-- What is decoded strictly is decoded leniently to the same bytes. -/
theorem decode_lenient {text : String} {bytes : List UInt8} (h : decode true text = .ok bytes) :
    decode false text = .ok bytes := by
  have hfrom := decodeFrom_of_decode h
  have hascii := any_notAscii_eq_false (mem_alphabet_of_decodeFrom hfrom)
  unfold decode
  simp only [hascii, Bool.false_and, Bool.false_eq_true, if_false]
  exact decodeFrom_lenient hfrom

end Base64
end PromptCanvas
