import Mathlib.Data.List.Lex
import PromptCanvas.Text.Surrogate

/-!
# What held texts stand for

A text of characters is held so that its code points are those of its characters, and no half of a
pair stands alone in it.  `IsHeld` picks out the ways of holding that are used: they are told apart
by their code points, and those without a lone half are the texts of characters.

Held texts are put in order by their code points, which is a linear order of the texts.
-/

namespace PromptCanvas
namespace Text

/-- The text is held the one way in which its code points are held. -/
def IsHeld (s : String) : Prop := s.toList = (codePoints s.toList).flatMap held

instance (s : String) : Decidable (IsHeld s) := inferInstanceAs (Decidable (_ = _))

theorem eq_of_codePoints_eq {s t : String} (hs : IsHeld s) (ht : IsHeld t)
    (h : codePoints s.toList = codePoints t.toList) : s = t :=
  String.toList_injective (by rw [hs, ht, h])

/-! ## Characters -/

theorem isHighHalf_iff {n : Nat} : isHighHalf n = true ↔ 0xd800 ≤ n ∧ n ≤ 0xdbff := by
  simp [isHighHalf]

theorem isLowHalf_iff {n : Nat} : isLowHalf n = true ↔ 0xdc00 ≤ n ∧ n ≤ 0xdfff := by
  simp [isLowHalf]

theorem isHalf_iff {n : Nat} : isHalf n = true ↔ 0xd800 ≤ n ∧ n ≤ 0xdfff := by
  rw [isHalf, Bool.or_eq_true, isHighHalf_iff, isLowHalf_iff]
  omega

theorem toNat_lt (c : Char) : c.toNat < 0x110000 := by
  have hvalid : Nat.isValidChar c.toNat := c.valid
  unfold Nat.isValidChar at hvalid
  omega

theorem isHalf_toNat (c : Char) : isHalf c.toNat = false := by
  have hvalid : Nat.isValidChar c.toNat := c.valid
  unfold Nat.isValidChar at hvalid
  rw [Bool.eq_false_iff, ne_eq, isHalf_iff]
  omega

theorem toNat_ofNat {n : Nat} (hn : n < 0x110000) (h : isHalf n = false) :
    (Char.ofNat n).toNat = n := by
  rw [Bool.eq_false_iff, ne_eq, isHalf_iff] at h
  have hvalid : n.isValidChar := by
    unfold Nat.isValidChar
    omega
  rw [Char.ofNat, dif_pos hvalid]
  rfl

/-! ## Code points -/

theorem codePoints_cons (c : Char) (cs : List Char) :
    codePoints (c :: cs) = consPoint (point c) (codePoints cs) := rfl

theorem consPoint_of_not_high {n : Nat} (h : isHighHalf n = false) (ns : List Nat) :
    consPoint n ns = n :: ns := by
  cases ns with
  | nil => rfl
  | cons m rest => simp [consPoint, h]

theorem consPoint_pair {high low : Nat} (hhigh : isHighHalf high = true)
    (hlow : isLowHalf low = true) (ns : List Nat) :
    consPoint high (low :: ns) = joinHalves high low :: ns := by
  simp [consPoint, hhigh, hlow]

theorem toNat_held_half {n : Nat} (h : isHalf n = true) :
    (Char.ofNat (halfOffset + n)).toNat = halfOffset + n := by
  rw [isHalf_iff] at h
  refine toNat_ofNat (by unfold halfOffset; omega) ?_
  rw [Bool.eq_false_iff, ne_eq, isHalf_iff]
  unfold halfOffset
  omega

/-- What holds a half stands for it. -/
theorem point_held_half {n : Nat} (h : isHalf n = true) :
    point (Char.ofNat (halfOffset + n)) = n := by
  simp [point, toNat_held_half h, h]

/-- A character is held as itself and stands for itself, or it is held as the halves of its pair. -/
theorem held_cases (c : Char) :
    (held c.toNat = [c] ∧ point c = c.toNat) ∨
    ∃ high low, held c.toNat = [Char.ofNat (halfOffset + high), Char.ofNat (halfOffset + low)] ∧
      isHighHalf high = true ∧ isLowHalf low = true ∧ joinHalves high low = c.toNat := by
  unfold held
  rw [isHalf_toNat, if_neg Bool.false_ne_true]
  -- Characters that hold lone halves cannot stand for themselves, so pairs hold these.
  by_cases hreserved : halfOffset ≤ c.toNat ∧ isHalf (c.toNat - halfOffset) = true
  · refine Or.inr ⟨0xd800 + (c.toNat - 0x10000) / 0x400, 0xdc00 + (c.toNat - 0x10000) % 0x400, ?_⟩
    rw [if_pos (by simpa using hreserved)]
    obtain ⟨hle, hhalf⟩ := hreserved
    rw [isHalf_iff] at hhalf
    unfold halfOffset at hle hhalf
    refine ⟨by dsimp only; rw [Nat.add_assoc, Nat.add_assoc], ?_, ?_, ?_⟩
    · rw [isHighHalf_iff]
      omega
    · rw [isLowHalf_iff]
      omega
    · unfold joinHalves
      omega
  · refine Or.inl ⟨?_, ?_⟩
    · rw [if_neg (by simpa using hreserved), Char.ofNat_toNat]
    · unfold point
      exact if_neg (by simpa using hreserved)

theorem eq_or_le_of_mem_held {c d : Char} (h : d ∈ held c.toNat) :
    d = c ∨ halfOffset ≤ d.toNat := by
  rcases held_cases c with ⟨hheld, -⟩ | ⟨high, low, hheld, hhigh, hlow, -⟩
  · rw [hheld] at h
    exact Or.inl (List.mem_singleton.mp h)
  · rw [hheld, List.mem_pair] at h
    rcases h with rfl | rfl
    · rw [toNat_held_half (by simp [isHalf, hhigh])]
      exact Or.inr (Nat.le_add_right _ _)
    · rw [toNat_held_half (by simp [isHalf, hlow])]
      exact Or.inr (Nat.le_add_right _ _)

/-- What holds a character stands for it, whatever follows. -/
theorem codePoints_held_append (c : Char) (cs : List Char) :
    codePoints (held c.toNat ++ cs) = c.toNat :: codePoints cs := by
  rcases held_cases c with ⟨hheld, hpoint⟩ | ⟨high, low, hheld, hhigh, hlow, hjoin⟩
  · have hnot : isHighHalf c.toNat = false := (Bool.or_eq_false_iff.mp (isHalf_toNat c)).1
    rw [hheld, List.singleton_append, codePoints_cons, hpoint, consPoint_of_not_high hnot]
  · have hnot : isHighHalf low = false := by
      rw [isLowHalf_iff] at hlow
      rw [Bool.eq_false_iff, ne_eq, isHighHalf_iff]
      omega
    rw [hheld, List.cons_append, List.singleton_append, codePoints_cons, codePoints_cons,
      point_held_half (by simp [isHalf, hhigh]), point_held_half (by simp [isHalf, hlow]),
      consPoint_of_not_high hnot, consPoint_pair hhigh hlow, hjoin]

theorem toList_hold (t : String) :
    (hold t).toList = t.toList.flatMap fun c => held c.toNat :=
  String.toList_ofList

theorem toList_hold_append (s t : String) :
    (hold (s ++ t)).toList = (hold s).toList ++ (hold t).toList := by
  rw [toList_hold, toList_hold, toList_hold, String.toList_append, List.flatMap_append]

/-- A held text of characters stands for its characters. -/
theorem codePoints_hold (t : String) : codePoints (hold t).toList = t.toList.map Char.toNat := by
  rw [toList_hold]
  induction t.toList with
  | nil => rfl
  | cons c rest ih => rw [List.flatMap_cons, codePoints_held_append, ih, List.map_cons]

theorem isHeld_hold (t : String) : IsHeld (hold t) := by
  rw [IsHeld, codePoints_hold, toList_hold, List.flatMap_map]

theorem hasLoneHalf_hold (t : String) : hasLoneHalf (hold t) = false := by
  rw [hasLoneHalf, codePoints_hold, List.any_eq_false]
  intro n hn
  obtain ⟨c, -, rfl⟩ := List.mem_map.mp hn
  rw [isHalf_toNat]
  exact Bool.false_ne_true

theorem lt_of_mem_consPoint {n : Nat} {ns : List Nat} (hn : n < 0x110000)
    (hns : ∀ m ∈ ns, m < 0x110000) : ∀ m ∈ consPoint n ns, m < 0x110000 := by
  cases ns with
  | nil => exact List.forall_mem_cons.mpr ⟨hn, hns⟩
  | cons m rest =>
    rw [consPoint]
    split
    · rename_i hpair
      rw [Bool.and_eq_true, isHighHalf_iff, isLowHalf_iff] at hpair
      refine List.forall_mem_cons.mpr ⟨?_, (List.forall_mem_cons.mp hns).2⟩
      unfold joinHalves
      omega
    · exact List.forall_mem_cons.mpr ⟨hn, hns⟩

theorem lt_of_mem_codePoints (cs : List Char) : ∀ n ∈ codePoints cs, n < 0x110000 := by
  induction cs with
  | nil => exact fun n h => absurd h List.not_mem_nil
  | cons c rest ih =>
    refine lt_of_mem_consPoint ?_ ih
    have := toNat_lt c
    unfold point
    split <;> omega

/-- A text of characters, as it is held. -/
def IsWhole (s : String) : Prop := ∃ t, s = hold t

/-- A held text is one of characters if and only if no half stands alone in it. -/
theorem isWhole_iff {s : String} : IsWhole s ↔ IsHeld s ∧ hasLoneHalf s = false := by
  constructor
  · rintro ⟨t, rfl⟩
    exact ⟨isHeld_hold t, hasLoneHalf_hold t⟩
  · rintro ⟨hheld, hwhole⟩
    refine ⟨String.ofList ((codePoints s.toList).map Char.ofNat), String.toList_injective ?_⟩
    rw [toList_hold, String.toList_ofList, List.flatMap_map]
    refine Eq.trans hheld (List.flatMap_congr fun n hn => ?_)
    have hpoint : isHalf n = false := by
      have := List.any_eq_false.mp hwhole n hn
      simpa using this
    rw [toNat_ofNat (lt_of_mem_codePoints _ n hn) hpoint]

/-- Characters below the planes where halves are held are held as themselves. -/
theorem held_of_lt {c : Char} (h : c.toNat < halfOffset) : held c.toNat = [c] := by
  unfold held
  rw [isHalf_toNat, if_neg Bool.false_ne_true, if_neg (by simp [Nat.not_le.mpr h]),
    Char.ofNat_toNat]

theorem hold_of_lt {s : String} (h : ∀ c ∈ s.toList, c.toNat < halfOffset) : hold s = s := by
  refine String.toList_injective ?_
  rw [toList_hold, List.flatMap_congr fun c hc => held_of_lt (h c hc)]
  exact List.flatMap_singleton' _

/-! ## The order of held texts -/

theorem pointsUpTo_iff {ms ns : List Nat} : pointsUpTo ms ns = true ↔ ms ≤ ns := by
  rw [← not_lt]
  induction ms generalizing ns with
  | nil => simp [pointsUpTo]
  | cons m ms ih =>
    cases ns with
    | nil => simp [pointsUpTo]
    | cons n ns =>
      rw [pointsUpTo, Bool.or_eq_true, Bool.and_eq_true, decide_eq_true_iff, beq_iff_eq, ih,
        List.cons_lt_cons_iff]
      grind

theorem upTo_iff {s t : String} :
    upTo s t = true ↔ codePoints s.toList ≤ codePoints t.toList :=
  pointsUpTo_iff

theorem isBefore_iff {s t : String} :
    isBefore s t = true ↔ codePoints s.toList < codePoints t.toList := by
  rw [isBefore, Bool.not_eq_true', Bool.eq_false_iff, ne_eq, upTo_iff, not_le]

end Text
end PromptCanvas
