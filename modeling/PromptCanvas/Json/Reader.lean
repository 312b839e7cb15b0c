import PromptCanvas.Json.Value
import PromptCanvas.Keyed
import PromptCanvas.Number.Reader

/-!
# Reading JSON

A reader by descent over the characters.  Each reader answers with the value it found and with what
follows it, which is shorter than what it was given; that is why the descent ends.  A fault says
how much of the text was left where reading stopped, which names the position from the end.

Three words besides the standard's are read: `NaN`, `Infinity` and `-Infinity`.  A text that is read
holds the halves of surrogate pairs as `Text.held` does.
-/

namespace PromptCanvas
namespace Json

/-- What may stand within one another. -/
inductive Container where
  | array
  | object
deriving Repr, DecidableEq

/-- Why a text is no JSON. -/
inductive Fault where
  /-- No value can be read on; `left` characters remained. -/
  | unexpected (left : Nat)
  /-- A whole number has more digits than are allowed. -/
  | tooManyDigits
  /-- Arrays and objects stand within each other more deeply than is allowed; this one would have
  been one too many. -/
  | tooDeep (innermost : Container)
deriving Repr, DecidableEq

/-- Texts shorter than `n`. -/
abbrev Shorter (n : Nat) := { cs : List Char // cs.length < n }

/-- A value and the shorter text after it. -/
abbrev Parsed (β : Type) (n : Nat) := Except Fault (β × Shorter n)

def isSpace (c : Char) : Bool := c == ' ' || c == '\t' || c == '\n' || c == '\r'

def skipSpace : List Char → List Char
  | [] => []
  | c :: rest => if isSpace c then skipSpace rest else c :: rest

theorem length_skipSpace_le (cs : List Char) : (skipSpace cs).length ≤ cs.length := by
  induction cs with
  | nil => simp [skipSpace]
  | cons c rest ih =>
    by_cases h : isSpace c
    · simp [skipSpace, h]; omega
    · simp [skipSpace, h]

theorem length_takeDigits_le (cs : List Char) : (Number.takeDigits cs).2.length ≤ cs.length := by
  induction cs with
  | nil => simp [Number.takeDigits]
  | cons c rest ih =>
    unfold Number.takeDigits
    split
    · simp
    · simp; omega

/-! ## Texts -/

/-- The value of a hexadecimal digit. -/
def hexDigit? (c : Char) : Option Nat :=
  if c.isDigit then some (c.toNat - 48)
  else if 'a' ≤ c && c ≤ 'f' then some (c.toNat - 87)
  else if 'A' ≤ c && c ≤ 'F' then some (c.toNat - 55)
  else none

/-- The value of four hexadecimal digits. -/
def hexQuad? (a b c d : Char) : Option Nat := do
  let a ← hexDigit? a
  let b ← hexDigit? b
  let c ← hexDigit? c
  let d ← hexDigit? d
  return ((a * 16 + b) * 16 + c) * 16 + d

/-- The character that a one-letter escape stands for. -/
def escape? : Char → Option Char
  | '"' => some '"'
  | '\\' => some '\\'
  | '/' => some '/'
  | 'b' => some '\x08'
  | 'f' => some '\x0c'
  | 'n' => some '\n'
  | 'r' => some '\r'
  | 't' => some '\t'
  | _ => none

/-- The second half of a surrogate pair, written as an escape at the front of the text, with what
follows it; a half that ends the text does not count. -/
def lowHalf? : List Char → Option (Except Fault (Nat × List Char))
  | '\\' :: 'u' :: a :: b :: c :: d :: e :: rest =>
    match hexQuad? a b c d with
    | none => some (.error (.unexpected (rest.length + 6)))
    | some low => if Text.isLowHalf low then some (.ok (low, e :: rest)) else none
  | _ => none

theorem length_lowHalf {cs rest : List Char} {low : Nat}
    (h : lowHalf? cs = some (.ok (low, rest))) :
    rest.length < cs.length := by
  unfold lowHalf? at h
  split at h
  · split at h
    · simp at h
    · split at h
      · simp at h
        obtain ⟨-, rfl⟩ := h
        simp
      · simp at h
  · simp at h

/-- Reads up to the closing quote.  `opening` is the text from the opening quote on; a text that is
never closed is a fault there. -/
def readText (opening : List Char) (cs : List Char) : Parsed (List Char) cs.length :=
  match cs with
  | [] => .error (.unexpected opening.length)
  | '"' :: rest => .ok ([], ⟨rest, by simp⟩)
  | '\\' :: 'u' :: a :: b :: c :: d :: e :: rest =>
    match hexQuad? a b c d with
    | none => .error (.unexpected (rest.length + 6))
    | some high =>
      if Text.isHighHalf high then
        match h : lowHalf? (e :: rest) with
        | some (.error f) => .error f
        | some (.ok (low, after)) =>
          have : after.length < (e :: rest).length := length_lowHalf h
          match readText opening after with
          | .error f => .error f
          | .ok (text, ⟨r, hr⟩) =>
            .ok (Text.held (Text.joinHalves high low) ++ text,
              ⟨r, by simp only [List.length_cons] at *; omega⟩)
        | none =>
          match readText opening (e :: rest) with
          | .error f => .error f
          | .ok (text, ⟨r, hr⟩) =>
            .ok (Text.held high ++ text, ⟨r, by simp only [List.length_cons] at *; omega⟩)
      else
        match readText opening (e :: rest) with
        | .error f => .error f
        | .ok (text, ⟨r, hr⟩) =>
          .ok (Text.held high ++ text, ⟨r, by simp only [List.length_cons] at *; omega⟩)
  | '\\' :: 'u' :: rest => .error (.unexpected (rest.length + 1))
  | ['\\'] => .error (.unexpected opening.length)
  | '\\' :: c :: rest =>
    match escape? c with
    | none => .error (.unexpected (rest.length + 2))
    | some c' =>
      match readText opening rest with
      | .error f => .error f
      | .ok (text, ⟨r, hr⟩) =>
        .ok (c' :: text, ⟨r, by simp only [List.length_cons] at *; omega⟩)
  | c :: rest =>
    if c.toNat < 0x20 then .error (.unexpected (rest.length + 1))
    else
      match readText opening rest with
      | .error f => .error f
      | .ok (text, ⟨r, hr⟩) =>
        .ok (c :: text, ⟨r, by simp only [List.length_cons] at *; omega⟩)
termination_by cs.length
decreasing_by all_goals (simp only [List.length_cons] at *; omega)

/-! ## Numbers -/

/-- A fraction at the front: a point with at least one digit after it. -/
def fraction? : List Char → Option (List Nat × List Char)
  | '.' :: rest =>
    match Number.takeDigits rest with
    | ([], _) => none
    | (ds, after) => some (ds, after)
  | _ => none

/-- An exponent at the front: its mark, perhaps a sign, and at least one digit. -/
def exponent? : List Char → Option (Int × List Char)
  | [] => none
  | c :: rest =>
    if c == 'e' || c == 'E' then
      let (negative, digits) := Number.takeSign rest
      match Number.takeDigits digits with
      | ([], _) => none
      | (ds, after) =>
        some (if negative then -(Number.ofDigits ds : Int) else Number.ofDigits ds, after)
    else none

theorem length_fraction {cs rest : List Char} {ds : List Nat} (h : fraction? cs = some (ds, rest)) :
    rest.length ≤ cs.length := by
  unfold fraction? at h
  split at h
  · rename_i r
    split at h
    · simp at h
    · rename_i heq
      simp only [Option.some.injEq, Prod.mk.injEq] at h
      have hle := length_takeDigits_le r
      rw [heq] at hle
      simp only [List.length_cons]
      rw [← h.2]
      exact Nat.le_succ_of_le hle
  · simp at h

theorem length_takeSign_le (cs : List Char) : (Number.takeSign cs).2.length ≤ cs.length := by
  unfold Number.takeSign
  split <;> simp

theorem length_exponent {cs rest : List Char} {e : Int} (h : exponent? cs = some (e, rest)) :
    rest.length ≤ cs.length := by
  unfold exponent? at h
  split at h
  · simp at h
  · rename_i c r
    split at h
    · simp only at h
      split at h
      · simp at h
      · rename_i heq
        simp only [Option.some.injEq, Prod.mk.injEq] at h
        have hle := length_takeDigits_le (Number.takeSign r).2
        have hs := length_takeSign_le r
        rw [heq] at hle
        simp only [List.length_cons]
        rw [← h.2]
        simp only at hle
        omega
    · simp at h

/-- A number at the front of the text, after its sign.  A whole number of several digits does not
start with a zero: the zero is the number, and the rest is left. -/
def readNumber (negative : Bool) (cs : List Char) : Parsed Json cs.length :=
  match cs with
  | [] => .error (.unexpected 0)
  | c :: rest =>
    match Text.asciiDigit? c with
    | none => .error (.unexpected (rest.length + 1))
    | some d =>
      let whole := if d == 0 then ([], rest) else Number.takeDigits rest
      have hw : whole.2.length ≤ rest.length := by
        by_cases hd : d == 0
        · simp [whole, hd]
        · simpa [whole, hd] using length_takeDigits_le rest
      let fraction := fraction? whole.2
      let after := (fraction.map Prod.snd).getD whole.2
      have ha : after.length ≤ whole.2.length := by
        cases hf : fraction? whole.2 with
        | none => simp [after, fraction, hf]
        | some p => simpa [after, fraction, hf] using length_fraction hf
      match he : exponent? after with
      | some (e, r) =>
        have := length_exponent he
        .ok (.float (Number.Numeral.toFloat
            ⟨negative, d :: whole.1, (fraction.map Prod.fst).getD [], e⟩),
          ⟨r, by simp only [List.length_cons]; omega⟩)
      | none =>
        match fraction with
        | some (ds, _) =>
          .ok (.float (Number.Numeral.toFloat ⟨negative, d :: whole.1, ds, 0⟩),
            ⟨after, by simp only [List.length_cons]; omega⟩)
        | none =>
          let n : Int := Number.ofDigits (d :: whole.1)
          if digitLimit < whole.1.length + 1 then .error .tooManyDigits
          else .ok (.int (if negative then -n else n),
            ⟨after, by simp only [List.length_cons]; omega⟩)

/-! ## Values -/

mutual

/-- Reads one value at the front of the text, with at most `depth` arrays and objects within each
other. -/
def readValue (depth : Nat) (cs : List Char) : Parsed Json cs.length :=
  match cs with
  | '"' :: rest =>
    match readText ('"' :: rest) rest with
    | .error f => .error f
    | .ok (text, ⟨r, hr⟩) =>
      .ok (.str (String.ofList text), ⟨r, by simp only [List.length_cons]; omega⟩)
  | '[' :: rest =>
    match depth with
    | 0 => .error (.tooDeep .array)
    | depth + 1 =>
      have := length_skipSpace_le rest
      match h : skipSpace rest with
      | ']' :: after =>
        .ok (.arr [], ⟨after, by rw [h] at this; simp only [List.length_cons] at *; omega⟩)
      | other =>
        match readItems depth other with
        | .error f => .error f
        | .ok (items, ⟨r, hr⟩) =>
          .ok (.arr items, ⟨r, by rw [h] at this; simp only [List.length_cons] at *; omega⟩)
  | '\x7b' :: rest =>
    match depth with
    | 0 => .error (.tooDeep .object)
    | depth + 1 =>
      have := length_skipSpace_le rest
      match h : skipSpace rest with
      | '\x7d' :: after =>
        .ok (.obj [], ⟨after, by rw [h] at this; simp only [List.length_cons] at *; omega⟩)
      | other =>
        match readMembers depth other with
        | .error f => .error f
        | .ok (fields, ⟨r, hr⟩) =>
          .ok (.obj (Keyed.ofList fields),
            ⟨r, by rw [h] at this; simp only [List.length_cons] at *; omega⟩)
  | 'n' :: 'u' :: 'l' :: 'l' :: rest => .ok (.null, ⟨rest, by simp only [List.length_cons]; omega⟩)
  | 't' :: 'r' :: 'u' :: 'e' :: rest =>
    .ok (.bool true, ⟨rest, by simp only [List.length_cons]; omega⟩)
  | 'f' :: 'a' :: 'l' :: 's' :: 'e' :: rest =>
    .ok (.bool false, ⟨rest, by simp only [List.length_cons]; omega⟩)
  | 'N' :: 'a' :: 'N' :: rest =>
    .ok (.float (0.0 / 0.0), ⟨rest, by simp only [List.length_cons]; omega⟩)
  | 'I' :: 'n' :: 'f' :: 'i' :: 'n' :: 'i' :: 't' :: 'y' :: rest =>
    .ok (.float (1.0 / 0.0), ⟨rest, by simp only [List.length_cons]; omega⟩)
  | '-' :: 'I' :: 'n' :: 'f' :: 'i' :: 'n' :: 'i' :: 't' :: 'y' :: rest =>
    .ok (.float (-1.0 / 0.0), ⟨rest, by simp only [List.length_cons]; omega⟩)
  | '-' :: rest =>
    match readNumber true rest with
    | .error (.unexpected _) => .error (.unexpected (rest.length + 1))
    | .error f => .error f
    | .ok (n, ⟨r, hr⟩) => .ok (n, ⟨r, by simp only [List.length_cons]; omega⟩)
  | other => readNumber false other
termination_by (cs.length, 0)
decreasing_by
  all_goals (rw [h] at this; simp only [List.length_cons] at *; apply Prod.Lex.left; omega)

/-- Reads the items of an array up to its closing bracket. -/
def readItems (depth : Nat) (cs : List Char) : Parsed (List Json) cs.length :=
  match readValue depth cs with
  | .error f => .error f
  | .ok (item, ⟨rest, hrest⟩) =>
    have := length_skipSpace_le rest
    match h : skipSpace rest with
    | ']' :: after =>
      .ok ([item], ⟨after, by rw [h] at this; simp only [List.length_cons] at *; omega⟩)
    | ',' :: after =>
      have h' := length_skipSpace_le after
      match readItems depth (skipSpace after) with
      | .error f => .error f
      | .ok (items, ⟨r, hr⟩) =>
        .ok (item :: items, ⟨r, by rw [h] at this; simp only [List.length_cons] at *; omega⟩)
    | other => .error (.unexpected other.length)
termination_by (cs.length, 1)
decreasing_by
  · apply Prod.Lex.right; omega
  · rw [h] at this; simp only [List.length_cons] at *; apply Prod.Lex.left; omega

/-- Reads the members of an object up to its closing brace. -/
def readMembers (depth : Nat) (cs : List Char) : Parsed (List (String × Json)) cs.length :=
  match cs with
  | '"' :: afterQuote =>
    match readText ('"' :: afterQuote) afterQuote with
    | .error f => .error f
    | .ok (key, ⟨afterKey, hkey⟩) =>
      have h₁ := length_skipSpace_le afterKey
      match hc : skipSpace afterKey with
      | ':' :: afterColon =>
        have h₂ := length_skipSpace_le afterColon
        match readValue depth (skipSpace afterColon) with
        | .error f => .error f
        | .ok (value, ⟨rest, hrest⟩) =>
          have h₃ := length_skipSpace_le rest
          match h : skipSpace rest with
          | '\x7d' :: after =>
            .ok ([(String.ofList key, value)],
              ⟨after, by rw [h] at h₃; rw [hc] at h₁; simp only [List.length_cons] at *; omega⟩)
          | ',' :: after =>
            have h₄ := length_skipSpace_le after
            match readMembers depth (skipSpace after) with
            | .error f => .error f
            | .ok (fields, ⟨r, hr⟩) =>
              .ok ((String.ofList key, value) :: fields,
                ⟨r, by rw [h] at h₃; rw [hc] at h₁; simp only [List.length_cons] at *; omega⟩)
          | other => .error (.unexpected other.length)
      | other => .error (.unexpected other.length)
  | other => .error (.unexpected other.length)
termination_by (cs.length, 1)
decreasing_by
  · rw [hc] at h₁; simp only [List.length_cons] at *; apply Prod.Lex.left; omega
  · rw [h] at h₃; rw [hc] at h₁; simp only [List.length_cons] at *; apply Prod.Lex.left; omega

end

/-- Why a whole text was not read. -/
inductive ReadError where
  /-- The text is no JSON; reading stopped at this code point. -/
  | malformed (position : Nat)
  | tooManyDigits
  | tooDeep (innermost : Container)
deriving Repr, DecidableEq

/-- Reading stopped with so many characters left. -/
def stoppedBefore (left : Nat) (cs : List Char) : ReadError :=
  .malformed (Text.codePoints (cs.take (cs.length - left))).length

/-- Reads a whole text, in which at most `depth` arrays and objects stand within each other. -/
def read (depth : Nat) (text : String) : Except ReadError Json :=
  let cs := text.toList
  match readValue depth (skipSpace cs) with
  | .error (.unexpected left) => .error (stoppedBefore left cs)
  | .error .tooManyDigits => .error .tooManyDigits
  | .error (.tooDeep innermost) => .error (.tooDeep innermost)
  | .ok (value, ⟨rest, _⟩) =>
    match skipSpace rest with
    | [] => .ok value
    | other => .error (stoppedBefore other.length cs)

/-- Reads a whole text that may start with a byte order mark; positions do not count the mark. -/
def readMarked (depth : Nat) (text : String) : Except ReadError Json :=
  match text.toList with
  | '\ufeff' :: rest => read depth (String.ofList rest)
  | _ => read depth text

end Json
end PromptCanvas
