import PromptCanvas.Json.Reader
import PromptCanvas.Proofs.Json.RoundTrip
import PromptCanvas.Proofs.Keyed
import PromptCanvas.Proofs.Record.Accepted

/-!
# Which values can be displayed

A value can be displayed if it has no whole number of too many digits and if what stands within it
does not take more calls than are left.  Reading JSON holds to the same two limits, so whatever is
read from a text can be displayed, and so can each of its parts.
-/

namespace PromptCanvas

theorem exists_mapM_eq_ok_iff {ε β γ : Type} (f : β → Except ε γ) (bs : List β) :
    (∃ cs, bs.mapM f = .ok cs) ↔ ∀ b ∈ bs, ∃ c, f b = .ok c := by
  induction bs with
  | nil => exact iff_of_true ⟨[], rfl⟩ fun b hb => absurd hb List.not_mem_nil
  | cons b bs ih =>
    rw [List.forall_mem_cons, ← ih]
    simp only [List.mapM_cons, bind_eq_ok]
    constructor
    · rintro ⟨cs, c, hc, cs', hcs, -⟩
      exact ⟨⟨c, hc⟩, cs', hcs⟩
    · rintro ⟨⟨c, hc⟩, cs, hcs⟩
      exact ⟨c :: cs, c, hc, cs, hcs, rfl⟩

namespace Number

theorem ofDigits_lt {ds : List Nat} {n : Nat} (h : ∀ d ∈ ds, d < 10) (hlength : ds.length ≤ n) :
    ofDigits ds < Nat.pow 10 n := by
  have hfold : ∀ n, ds.foldl (fun n d => 10 * n + d) n < (n + 1) * 10 ^ ds.length := by
    clear hlength
    induction ds with
    | nil => intro n; simp
    | cons d ds ih =>
      obtain ⟨hd, hds⟩ := List.forall_mem_cons.mp h
      intro n
      rw [List.foldl_cons, List.length_cons, Nat.pow_succ']
      refine Nat.lt_of_lt_of_le (ih hds (10 * n + d)) ?_
      rw [← Nat.mul_assoc]
      exact Nat.mul_le_mul_right _ (by omega)
  have hzero := hfold 0
  rw [Nat.zero_add, Nat.one_mul] at hzero
  exact Nat.lt_of_lt_of_le hzero (Nat.pow_le_pow_right (by decide) hlength)

theorem asciiDigit?_lt {c : Char} {d : Nat} (h : Text.asciiDigit? c = some d) : d < 10 := by
  unfold Text.asciiDigit? at h
  split at h
  · rename_i hc
    cases h
    have hle : c.toNat ≤ 57 := (Char.isDigit_iff_toNat.mp hc).2
    omega
  · cases h

theorem takeDigits_lt (cs : List Char) : ∀ d ∈ (takeDigits cs).1, d < 10 := by
  induction cs with
  | nil => exact fun d hd => absurd hd List.not_mem_nil
  | cons c rest ih =>
    rw [takeDigits]
    split
    · exact fun d hd => absurd hd List.not_mem_nil
    · rename_i d hd
      exact List.forall_mem_cons.mpr ⟨asciiDigit?_lt hd, ih⟩

end Number

namespace Json

/-- Values that can be displayed with so many calls left. -/
inductive Displayable : Nat → Json → Prop
  | null {calls : Nat} : Displayable (calls + 1) .null
  | bool {calls : Nat} {b : Bool} : Displayable (calls + 1) (.bool b)
  | int {calls : Nat} {n : Int} (h : n.natAbs < Nat.pow 10 digitLimit) :
      Displayable (calls + 1) (.int n)
  | float {calls : Nat} {x : Float} : Displayable (calls + 1) (.float x)
  | str {calls : Nat} {s : String} : Displayable (calls + 1) (.str s)
  | arr {calls : Nat} {items : List Json} (h : ∀ j ∈ items, Displayable calls j) :
      Displayable (calls + 1) (.arr items)
  | obj {calls : Nat} {fields : List (String × Json)} (h : ∀ e ∈ fields, Displayable calls e.2) :
      Displayable (calls + 1) (.obj fields)

variable {calls more : Nat} {j : Json}

theorem Displayable.mono (h : Displayable calls j) (hle : calls ≤ more) : Displayable more j := by
  induction h generalizing more <;>
    obtain ⟨more, rfl⟩ := Nat.exists_eq_succ_of_ne_zero (by omega : more ≠ 0)
  case null => exact .null
  case bool => exact .bool
  case int h => exact .int h
  case float => exact .float
  case str => exact .str
  case arr ih => exact .arr fun j hj => ih j hj (Nat.le_of_succ_le_succ hle)
  case obj ih => exact .obj fun e he => ih e he (Nat.le_of_succ_le_succ hle)

/-- What can be displayed is. -/
theorem quoted_isOk_iff : (∃ text, quoted calls j = .ok text) ↔ Displayable calls j := by
  induction calls generalizing j with
  | zero =>
    refine iff_of_false ?_ ?_
    · rintro ⟨text, h⟩
      rw [quoted] at h
      cases h
    · intro h
      cases h
  | succ calls ih =>
    cases j with
    | null => exact iff_of_true ⟨_, rfl⟩ .null
    | bool b => exact iff_of_true ⟨_, rfl⟩ .bool
    | float x => exact iff_of_true ⟨_, rfl⟩ .float
    | str s => exact iff_of_true ⟨_, rfl⟩ .str
    | int n =>
      rw [quoted]
      by_cases hlong : Nat.pow 10 digitLimit ≤ n.natAbs
      · rw [if_pos hlong]
        refine iff_of_false nofun fun h => ?_
        cases h with
        | int h => exact absurd hlong (Nat.not_le_of_lt h)
      · rw [if_neg hlong]
        exact iff_of_true ⟨_, rfl⟩ (.int (Nat.lt_of_not_le hlong))
    | arr items =>
      have hitems := exists_mapM_eq_ok_iff (quoted calls) items
      simp only [ih] at hitems
      constructor
      · rintro ⟨text, h⟩
        rw [quoted] at h
        obtain ⟨texts, htexts, -⟩ := bind_eq_ok.mp h
        exact .arr (hitems.mp ⟨texts, htexts⟩)
      · intro h
        cases h with
        | arr h =>
          obtain ⟨texts, htexts⟩ := hitems.mpr h
          exact ⟨_, by rw [quoted, htexts]; rfl⟩
    | obj fields =>
      have hfields := exists_mapM_eq_ok_iff
        (fun e => do return Text.quoted e.1 ++ ": " ++ (← quoted calls e.2)) fields
      have hmember : ∀ e : String × Json,
          (∃ text, (do return Text.quoted e.1 ++ ": " ++ (← quoted calls e.2)) =
            (.ok text : Except DisplayFault String)) ↔ Displayable calls e.2 := by
        intro e
        rw [← ih]
        cases quoted calls e.2 with
        | ok text => exact iff_of_true ⟨_, rfl⟩ ⟨_, rfl⟩
        | error f => exact iff_of_false nofun nofun
      simp only [hmember] at hfields
      constructor
      · rintro ⟨text, h⟩
        rw [quoted] at h
        obtain ⟨texts, htexts, -⟩ := bind_eq_ok.mp h
        exact .obj (hfields.mp ⟨texts, htexts⟩)
      · intro h
        cases h with
        | obj h =>
          obtain ⟨texts, htexts⟩ := hfields.mpr h
          exact ⟨_, by rw [quoted, htexts]; rfl⟩

theorem display_isOk_iff : (∃ text, j.display = .ok text) ↔ Displayable callsLeft j := by
  cases j with
  | str s => exact iff_of_true ⟨_, rfl⟩ .str
  | _ => exact quoted_isOk_iff

theorem display_eq_error_iff {j : Json} {f : DisplayFault} :
    j.display = .error f ↔ j.quoted callsLeft = .error f := by
  cases j with
  | str s => exact iff_of_false nofun nofun
  | _ => rfl

theorem Displayable.display_ne_error {calls : Nat} {j : Json} (h : Displayable calls j)
    (hle : calls ≤ callsLeft) (f : DisplayFault) : j.display ≠ .error f := by
  obtain ⟨text, htext⟩ := display_isOk_iff.mpr (h.mono hle)
  rw [htext]
  nofun

theorem Displayable.find? {calls : Nat} {fields : List (String × Json)}
    (h : Displayable (calls + 1) (.obj fields)) {key : String} {j : Json}
    (hj : Keyed.find? key fields = some j) : Displayable calls j := by
  cases h with
  | obj h => exact h _ (Keyed.mem_of_find? hj)

theorem Displayable.mem {calls : Nat} {items : List Json} (h : Displayable (calls + 1) (.arr items))
    {j : Json} (hj : j ∈ items) : Displayable calls j := by
  cases h with
  | arr h => exact h j hj

/-! ## What is read -/

/-- Some text is read as the value.  Whoever reads has four calls open. -/
def IsRead (j : Json) : Prop := ∃ depth text, depth ≤ callLimit - 4 ∧ read depth text = .ok j

theorem Plain.isRead {n : Nat} (h : Plain n j) (hn : n ≤ callLimit - 4) : IsRead j :=
  ⟨n, _, hn, read_hold_written h⟩

theorem displayable_of_readNumber {negative : Bool} {cs : List Char} {r : Shorter cs.length}
    (h : readNumber negative cs = .ok (j, r)) : Displayable (calls + 1) j := by
  unfold readNumber at h
  split at h
  · cases h
  · rename_i c rest
    split at h
    · cases h
    · rename_i d hd
      dsimp only at h
      split at h
      · cases h
        exact .float
      · split at h
        · cases h
          exact .float
        · have hdigits : ∀ x ∈ (if (d == 0) = true then ([], rest) else Number.takeDigits rest).1,
              x < 10 := by
            split
            · exact fun x hx => absurd hx List.not_mem_nil
            · exact Number.takeDigits_lt rest
          have hfew : ¬ digitLimit <
              (if (d == 0) = true then ([], rest) else Number.takeDigits rest).1.length + 1 := by
            intro hmany
            rw [if_pos hmany] at h
            cases h
          rw [if_neg hfew] at h
          cases h
          have hlt := Number.ofDigits_lt
            (List.forall_mem_cons.mpr ⟨Number.asciiDigit?_lt hd, hdigits⟩) (Nat.le_of_not_lt hfew)
          refine .int ?_
          split
          · rw [Int.natAbs_neg, Int.natAbs_natCast]
            exact hlt
          · rw [Int.natAbs_natCast]
            exact hlt

/-- What is read from texts shorter than `n` can be displayed. -/
structure DisplayableBelow (n : Nat) : Prop where
  value {depth : Nat} {cs : List Char} {j : Json} {r : Shorter cs.length} (hn : cs.length < n)
    (h : readValue depth cs = .ok (j, r)) : Displayable (depth + 1) j
  items {depth : Nat} {cs : List Char} {items : List Json} {r : Shorter cs.length}
    (hn : cs.length < n) (h : readItems depth cs = .ok (items, r)) :
    ∀ j ∈ items, Displayable (depth + 1) j
  members {depth : Nat} {cs : List Char} {fields : List (String × Json)} {r : Shorter cs.length}
    (hn : cs.length < n) (h : readMembers depth cs = .ok (fields, r)) :
    ∀ e ∈ fields, Displayable (depth + 1) e.2

namespace DisplayableBelow

variable {depth : Nat} {cs : List Char} {r : Shorter cs.length}

theorem readValue (hbelow : DisplayableBelow cs.length) (h : Json.readValue depth cs = .ok (j, r)) :
    Displayable (depth + 1) j := by
  unfold Json.readValue at h
  -- the cases are those of the definition, in their order
  split at h
  · split at h
    · cases h
    · cases h
      exact .str
  · rename_i rest
    split at h
    · cases h
    · rename_i depth
      have hle := length_skipSpace_le rest
      dsimp only at h
      split at h
      · cases h
        exact .arr fun j hj => absurd hj List.not_mem_nil
      · split at h
        · cases h
        · rename_i hitems
          cases h
          exact .arr (hbelow.items (by simp only [List.length_cons]; omega) hitems)
  · rename_i rest
    split at h
    · cases h
    · rename_i depth
      have hle := length_skipSpace_le rest
      dsimp only at h
      split at h
      · cases h
        exact .obj fun e he => absurd he List.not_mem_nil
      · split at h
        · cases h
        · rename_i fields _ _ hmembers
          cases h
          have hfields : ∀ e ∈ fields, Displayable (depth + 1) e.2 :=
            hbelow.members (by simp only [List.length_cons]; omega) hmembers
          refine .obj fun e he => ?_
          have hfound := (Keyed.find?_eq_some_iff (Keyed.nodup_keys_ofList fields)).mpr he
          exact hfields _ (Keyed.mem_of_find?_ofList hfound)
  · cases h
    exact .null
  · cases h
    exact .bool
  · cases h
    exact .bool
  · cases h
    exact .float
  · cases h
    exact .float
  · cases h
    exact .float
  · split at h
    · cases h
    · cases h
    · rename_i hnumber
      cases h
      exact displayable_of_readNumber hnumber
  · exact displayable_of_readNumber h

theorem readItems (hbelow : DisplayableBelow cs.length) {items : List Json}
    (h : Json.readItems depth cs = .ok (items, r)) : ∀ j ∈ items, Displayable (depth + 1) j := by
  unfold Json.readItems at h
  split at h
  · cases h
  · rename_i item rest hrest hitem
    have hfirst : Displayable (depth + 1) item := hbelow.readValue hitem
    have hle := length_skipSpace_le rest
    dsimp only at h
    split at h
    · cases h
      exact List.forall_mem_singleton.mpr hfirst
    · rename_i after hafter
      have hafterLe := length_skipSpace_le after
      rw [hafter, List.length_cons] at hle
      split at h
      · cases h
      · rename_i hitems
        cases h
        exact List.forall_mem_cons.mpr ⟨hfirst, hbelow.items (by omega) hitems⟩
    · cases h

theorem readMembers (hbelow : DisplayableBelow cs.length) {fields : List (String × Json)}
    (h : Json.readMembers depth cs = .ok (fields, r)) :
    ∀ e ∈ fields, Displayable (depth + 1) e.2 := by
  unfold Json.readMembers at h
  split at h
  · split at h
    · cases h
    · rename_i key afterKey hkey hreadKey
      have hkeyLe := length_skipSpace_le afterKey
      dsimp only at h
      split at h
      · rename_i afterColon hcolon
        have hcolonLe := length_skipSpace_le afterColon
        rw [hcolon, List.length_cons] at hkeyLe
        split at h
        · cases h
        · rename_i value rest hrest hvalue
          have hfirst : Displayable (depth + 1) value :=
            hbelow.value (by simp only [List.length_cons]; omega) hvalue
          have hle := length_skipSpace_le rest
          split at h
          · cases h
            exact List.forall_mem_singleton.mpr hfirst
          · rename_i after hafter
            have hafterLe := length_skipSpace_le after
            rw [hafter, List.length_cons] at hle
            split at h
            · cases h
            · rename_i hmembers
              cases h
              refine List.forall_mem_cons.mpr ⟨hfirst, ?_⟩
              exact hbelow.members (by simp only [List.length_cons]; omega) hmembers
          · cases h
      · cases h
  · cases h

end DisplayableBelow

theorem displayableBelow (n : Nat) : DisplayableBelow n := by
  induction n with
  | zero =>
    exact ⟨fun hn => absurd hn (Nat.not_lt_zero _), fun hn => absurd hn (Nat.not_lt_zero _),
      fun hn => absurd hn (Nat.not_lt_zero _)⟩
  | succ n ih =>
    have hbelow : ∀ {cs : List Char}, cs.length < n + 1 → DisplayableBelow cs.length := by
      intro cs hcs
      have hle := Nat.le_of_lt_succ hcs
      exact ⟨fun hn => ih.value (Nat.lt_of_lt_of_le hn hle),
        fun hn => ih.items (Nat.lt_of_lt_of_le hn hle),
        fun hn => ih.members (Nat.lt_of_lt_of_le hn hle)⟩
    exact ⟨fun hn => (hbelow hn).readValue, fun hn => (hbelow hn).readItems,
      fun hn => (hbelow hn).readMembers⟩

/-- What is read from a text can be displayed. -/
theorem IsRead.displayable (h : IsRead j) : Displayable callsLeft j := by
  obtain ⟨depth, text, hdepth, h⟩ := h
  unfold Json.read at h
  dsimp only at h
  split at h
  · cases h
  · cases h
  · cases h
  · rename_i hvalue
    split at h
    · cases h
      exact ((displayableBelow _).value (Nat.lt_succ_self _) hvalue).mono (Nat.succ_le_succ hdepth)
    · cases h

end Json
end PromptCanvas
