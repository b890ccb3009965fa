import TileDepot.Json.Reader
import TileDepot.Json.Writer

/-!
# Number literals

A literal taken apart can be written again, and is taken from the start of a text as it was written, whatever closes the value
behind it. Whole numbers and finite numbers with a fraction are written as such literals.
-/

namespace TileDepot

namespace Json

/-- What may stand behind a value: the end of the text, a comma, or a new line. -/
def Closes (rest : List Char) : Prop := ∀ c : Char, rest.head? = some c → c = ',' ∨ c = '\n'

/-- The end of the text closes what stands before it. -/
theorem closes_nil : Closes [] := fun _ h => nomatch h

/-- A comma closes what stands before it. -/
theorem closes_comma (rest : List Char) : Closes (',' :: rest) := fun _ h => Or.inl (Option.some.inj h).symm

/-- A new line closes what stands before it. -/
theorem closes_newline (rest : List Char) : Closes ('\n' :: rest) := fun _ h => Or.inr (Option.some.inj h).symm

/-! ## Digits -/

/-- Some digits, and nothing else. -/
def Digits (digits : List Char) : Prop := digits ≠ [] ∧ ∀ c ∈ digits, c.isDigit = true

/-- A zero is a digit. -/
theorem digits_zero : Digits ['0'] := by
  refine ⟨List.cons_ne_nil _ _, fun c hc => ?_⟩
  rw [List.mem_singleton.mp hc]
  rfl

/-- A text that does not go on with a digit. -/
def NoDigit (rest : List Char) : Prop := ∀ c : Char, rest.head? = some c → c.isDigit = false

/-- What closes a value is no digit. -/
theorem Closes.noDigit {rest : List Char} (h : Closes rest) : NoDigit rest := by
  intro c hc
  rcases h c hc with rfl | rfl <;> rfl

/-- Digits are taken up to what is none. -/
theorem takeWhile_digits {digits rest : List Char} (h : ∀ c ∈ digits, c.isDigit = true) (hrest : NoDigit rest) :
    (digits ++ rest).takeWhile Char.isDigit = digits := by
  rw [List.takeWhile_append_of_pos h]
  cases rest with
  | nil => exact List.append_nil digits
  | cons c rest => rw [List.takeWhile_cons, hrest c rfl, if_neg Bool.false_ne_true, List.append_nil]

/-- Digits are left out up to what is none. -/
theorem dropWhile_digits {digits rest : List Char} (h : ∀ c ∈ digits, c.isDigit = true) (hrest : NoDigit rest) :
    (digits ++ rest).dropWhile Char.isDigit = rest := by
  rw [List.dropWhile_append_of_pos h]
  cases rest with
  | nil => rfl
  | cons c rest => rw [List.dropWhile_cons, hrest c rfl, if_neg Bool.false_ne_true]

/-- Digits that go on are digits. -/
theorem Digits.append {digits more : List Char} (h : Digits digits) (hmore : ∀ c ∈ more, c.isDigit = true) :
    Digits (digits ++ more) := by
  refine ⟨fun hempty => h.1 (List.append_eq_nil_iff.mp hempty).1, fun c hc => ?_⟩
  rcases List.mem_append.mp hc with hc | hc
  · exact h.2 c hc
  · exact hmore c hc

/-! ## The shortest decimal has a digit -/

end Json

namespace Decimal

/-- A number without its last zeros is not zero if it was not before. -/
theorem strip_pos (fuel : Nat) {d : Decimal} (h : 0 < d.digits) : 0 < (d.strip fuel).digits := by
  induction fuel generalizing d with
  | zero => exact h
  | succ fuel ih =>
    unfold strip
    split
    · refine ih (d := ⟨d.digits / 10, d.exponent + 1⟩) ?_
      change 0 < d.digits / 10
      omega
    · exact h

end Decimal

namespace Binary64

/-- What is found on a grid is not zero. -/
theorem nearestOnGrid_pos {mantissa digits : Nat} {exponent grid : Int} (h : nearestOnGrid mantissa exponent grid = some digits) :
    0 < digits := by
  unfold nearestOnGrid at h
  dsimp only at h
  split at h
  · rename_i hbelow _
    have hpos := of_decide_eq_true (Bool.and_eq_true_iff.mp hbelow).1
    split at h
    · obtain rfl := Option.some.inj h
      exact Nat.pos_of_ne_zero hpos
    · split at h
      · obtain rfl := Option.some.inj h
        exact Nat.succ_pos _
      · obtain rfl := Option.some.inj h
        exact Nat.add_pos_left (Nat.pos_of_ne_zero hpos) _
  · rename_i hbelow _
    obtain rfl := Option.some.inj h
    exact Nat.pos_of_ne_zero (of_decide_eq_true (Bool.and_eq_true_iff.mp hbelow).1)
  · obtain rfl := Option.some.inj h
    exact Nat.succ_pos _
  · cases h

/-- What is found on some grid is not zero. -/
theorem searchGrids_pos (fuel : Nat) {mantissa : Nat} (h : 0 < mantissa) (exponent scale : Int) (count : Nat) :
    0 < (searchGrids fuel mantissa exponent scale count).digits := by
  induction fuel generalizing count with
  | zero => exact h
  | succ fuel ih =>
    unfold searchGrids
    dsimp only
    split
    · rename_i digits hdigits
      exact nearestOnGrid_pos hdigits
    · exact ih (count + 1)

/-- The shortest digits of a number that is not zero are not zero. -/
theorem shortest_pos {mantissa : Nat} (h : 0 < mantissa) (exponent : Int) : 0 < (shortest mantissa exponent).digits :=
  Decimal.strip_pos 20 (searchGrids_pos 17 h _ _ 1)

end Binary64

namespace Json

/-! ## Literals -/

namespace Literal

/-- The sign of a number in front of its digits. -/
def signText (negative : Bool) : List Char := if negative then ['-'] else []

/-- The digits behind the point, with the point. -/
def fractionText : Option (List Char) → List Char
  | none => []
  | some digits => '.' :: digits

/-- The exponent with its sign. -/
def exponentText : Option (Bool × List Char) → List Char
  | none => []
  | some (negative, digits) => 'e' :: (if negative then '-' else '+') :: digits

/-- A literal written again. -/
def chars (l : Literal) : List Char := signText l.negative ++ l.whole ++ fractionText l.fraction ++ exponentText l.exponent

/-- Digits that start with no zero, unless there is no other. -/
def Whole (digits : List Char) : Prop := digits = ['0'] ∨ Digits digits ∧ digits.head? ≠ some '0'

/-- A literal that can be written. -/
structure Proper (l : Literal) : Prop where
  whole : Whole l.whole
  fraction : ∀ digits, l.fraction = some digits → Digits digits
  exponent : ∀ negative digits, l.exponent = some (negative, digits) → Digits digits

/-- The whole part of a number starts with a digit. -/
theorem Whole.head {whole : List Char} (h : Whole whole) : ∃ c rest, whole = c :: rest ∧ c.isDigit = true := by
  rcases h with rfl | ⟨⟨hne, hdigits⟩, -⟩
  · exact ⟨'0', [], rfl, by decide⟩
  · obtain ⟨c, rest, rfl⟩ := List.exists_cons_of_ne_nil hne
    exact ⟨c, rest, rfl, hdigits c List.mem_cons_self⟩

/-- The whole part is taken up to what is no digit. -/
theorem takeWhole_append {whole rest : List Char} (h : Whole whole) (hrest : NoDigit rest) :
    takeWhole (whole ++ rest) = some (whole, rest) := by
  rcases h with rfl | ⟨⟨hne, hdigits⟩, hhead⟩
  · rfl
  · have htake := takeWhile_digits hdigits hrest
    have hdrop := dropWhile_digits hdigits hrest
    obtain ⟨c, digits, rfl⟩ := List.exists_cons_of_ne_nil hne
    have hc : c ≠ '0' := fun heq => hhead (congrArg some heq)
    unfold takeWhole
    split
    · rename_i heq
      exact absurd (List.cons.inj heq).1 hc
    · rw [htake, hdrop]
      rfl

/-- The fraction is taken if there is one. -/
theorem takeFraction_append {fraction : Option (List Char)} {rest : List Char}
    (h : ∀ digits, fraction = some digits → Digits digits) (hrest : NoDigit rest) (hpoint : rest.head? ≠ some '.') :
    takeFraction (fractionText fraction ++ rest) = some (fraction, rest) := by
  cases fraction with
  | none => exact takeFraction.eq_2 rest fun _ heq => hpoint (congrArg List.head? heq)
  | some digits =>
    obtain ⟨hne, hdigits⟩ := h digits rfl
    change takeFraction ('.' :: (digits ++ rest)) = _
    simp only [takeFraction, takeWhile_digits hdigits hrest, dropWhile_digits hdigits hrest]
    rw [if_neg fun hempty => hne (List.isEmpty_iff.mp hempty)]

/-- The exponent is taken if there is one. -/
theorem takeExponent_append {exponent : Option (Bool × List Char)} {rest : List Char}
    (h : ∀ negative digits, exponent = some (negative, digits) → Digits digits) (hrest : Closes rest) :
    takeExponent (exponentText exponent ++ rest) = some (exponent, rest) := by
  cases exponent with
  | none =>
    change takeExponent rest = _
    cases rest with
    | nil => rfl
    | cons c rest => rcases hrest c rfl with rfl | rfl <;> rfl
  | some exponent =>
    obtain ⟨negative, digits⟩ := exponent
    obtain ⟨hne, hdigits⟩ := h negative digits rfl
    have hsign : Binary64.splitSign ((if negative then '-' else '+') :: (digits ++ rest)) = (negative, digits ++ rest) := by
      cases negative <;> rfl
    change takeExponent ('e' :: (if negative then '-' else '+') :: (digits ++ rest)) = _
    simp only [takeExponent, hsign, takeWhile_digits hdigits hrest.noDigit, dropWhile_digits hdigits hrest.noDigit]
    rw [if_neg fun hempty => hne (List.isEmpty_iff.mp hempty)]
    rfl

/-- Behind the whole digits a literal goes on with no digit, and behind the point's digits neither with one nor with a point. -/
theorem noDigit_exponentText (exponent : Option (Bool × List Char)) {rest : List Char} (hrest : Closes rest) :
    NoDigit (exponentText exponent ++ rest) ∧ (exponentText exponent ++ rest).head? ≠ some '.' := by
  cases exponent with
  | none =>
    refine ⟨hrest.noDigit, fun hpoint => ?_⟩
    rcases hrest '.' hpoint with h | h <;> exact absurd h (by decide)
  | some exponent => exact ⟨fun c hc => Option.some.inj hc ▸ rfl, fun hpoint => absurd (Option.some.inj hpoint) (by decide)⟩

/-- A fraction starts with no digit. -/
theorem noDigit_fractionText (fraction : Option (List Char)) {rest : List Char} (hrest : NoDigit rest) :
    NoDigit (fractionText fraction ++ rest) := by
  cases fraction with
  | none => exact hrest
  | some digits => exact fun c hc => Option.some.inj hc ▸ rfl

/-- A literal is taken from a text as it was written. -/
theorem take_chars {l : Literal} (h : l.Proper) {rest : List Char} (hrest : Closes rest) :
    take (l.chars ++ rest) = some (l, rest) := by
  obtain ⟨negative, whole, fraction, exponent⟩ := l
  obtain ⟨hdigit, hpoint⟩ := noDigit_exponentText exponent hrest
  have hwhole : takeWhole (whole ++ (fractionText fraction ++ (exponentText exponent ++ rest))) =
      some (whole, fractionText fraction ++ (exponentText exponent ++ rest)) :=
    takeWhole_append h.whole (noDigit_fractionText fraction hdigit)
  have hfraction := takeFraction_append h.fraction hdigit hpoint
  have hexponent := takeExponent_append h.exponent hrest
  unfold take chars
  simp only [List.append_assoc]
  cases negative with
  | true =>
    simp only [signText, if_true, List.cons_append, List.nil_append, hwhole, hfraction, hexponent, Option.bind_eq_bind,
      Option.bind_some]
    rfl
  | false =>
    obtain ⟨c, digits, rfl, hc⟩ := Whole.head h.whole
    simp only [signText, Bool.false_eq_true, if_false, List.nil_append]
    split
    · rename_i heq
      rw [(List.cons.inj heq).1] at hc
      cases hc
    · simp only [hwhole, hfraction, hexponent, Option.bind_eq_bind, Option.bind_some]
      rfl

/-! ## Whole numbers -/

/-- A number is written with digits. -/
theorem digits_toDigits (n : Nat) : Digits (Nat.toDigits 10 n) :=
  ⟨Nat.toDigits_ne_nil, fun _ hc => Nat.isDigit_of_mem_toDigits (by decide) (by decide) hc⟩

/-- No other digit is written as zero. -/
theorem digitChar_ne_zero : ∀ n < 10, 0 < n → Nat.digitChar n ≠ '0' := by decide

/-- The digits of a positive number start with no zero. -/
theorem head_toDigits {n : Nat} (h : 0 < n) : (Nat.toDigits 10 n).head? ≠ some '0' := by
  induction n using Nat.strongRecOn with
  | ind n ih =>
    rw [Nat.toDigits_eq_if (by decide)]
    split
    · rename_i hlt
      exact fun heq => digitChar_ne_zero n hlt h (Option.some.inj heq)
    · rename_i hge
      have hhead := ih (n / 10) (by omega) (by omega)
      obtain ⟨c, digits, hdigits⟩ := List.exists_cons_of_ne_nil (Nat.toDigits_ne_nil (n := n / 10) (b := 10))
      rw [hdigits] at hhead ⊢
      exact hhead

/-- A number is written without a leading zero. -/
theorem whole_toDigits (n : Nat) : Whole (Nat.toDigits 10 n) := by
  rcases Nat.eq_zero_or_pos n with rfl | hpos
  · exact Or.inl (Nat.toDigits_zero 10)
  · exact Or.inr ⟨digits_toDigits n, head_toDigits hpos⟩

/-- The digits of a number are read as that number. -/
theorem ofDigits_toDigits (n : Nat) : Decimal.ofDigits (Nat.toDigits 10 n) = n := Nat.ofDigitChars_ten_toDigits

/-- The literal of a whole number. -/
def ofInt (n : Int) : Literal := ⟨decide (n < 0), Nat.toDigits 10 n.natAbs, none, none⟩

/-- A whole number is written as a proper one. -/
theorem proper_ofInt (n : Int) : (ofInt n).Proper :=
  ⟨whole_toDigits n.natAbs, (fun _ h => nomatch h), fun _ _ h => nomatch h⟩

/-- A whole number is written as its literal. -/
theorem chars_ofInt (n : Int) : (toString n).toList = (ofInt n).chars := by
  rw [Int.toString_eq_repr, Int.repr_eq_if]
  unfold ofInt chars
  split
  · rename_i hn
    rw [Nat.toList_repr, decide_eq_false (by omega), show n.toNat = n.natAbs by omega]
    simp [signText, fractionText, exponentText]
  · rename_i hn
    rw [String.toList_append, Nat.toList_repr, decide_eq_true (by omega), show (-n).toNat = n.natAbs by omega]
    simp [signText, fractionText, exponentText]

/-- Every whole number that fits a word is read back. -/
theorem toInt?_ofInt {n : Int} (hlow : Binary64.minInt64 ≤ n) (hhigh : n ≤ Binary64.maxUInt64) : (ofInt n).toInt? = some n := by
  unfold toInt? ofInt
  simp only [ofDigits_toDigits, Option.isSome_none, Bool.or_self, Bool.false_eq_true, if_false, decide_eq_true_eq]
  have hbound : (Nat.pow 2 63 : Int) = -Binary64.minInt64 := by decide
  by_cases hn : n < 0
  · rw [if_pos hn, if_neg (by omega)]
    exact congrArg some (by omega)
  · rw [if_neg hn, if_pos (by omega)]
    exact congrArg some (by omega)

/-! ## Numbers with a fraction -/

/-- Zeros are digits. -/
theorem isDigit_of_mem_zeros {count : Nat} {c : Char} (h : c ∈ List.replicate count '0') : c.isDigit = true := by
  rw [List.eq_of_mem_replicate h]
  rfl

/-- The first digits of some, at least one. -/
theorem Whole.take {digits : List Char} (h : Digits digits) (hhead : digits.head? ≠ some '0') {count : Nat}
    (hcount : 0 < count) : Whole (digits.take count) := by
  obtain ⟨c, rest, rfl⟩ := List.exists_cons_of_ne_nil h.1
  obtain ⟨count, rfl⟩ := Nat.exists_eq_succ_of_ne_zero (Nat.pos_iff_ne_zero.mp hcount)
  rw [List.take_succ_cons]
  exact Or.inr ⟨⟨List.cons_ne_nil _ _, fun c hc => h.2 c (List.mem_of_mem_take (i := count + 1) hc)⟩, hhead⟩

/-- A number with digits behind its point is written as a literal. -/
theorem proper_of_fraction {whole fraction : List Char} (hwhole : Whole whole) (hfraction : Digits fraction) :
    (⟨false, whole, some fraction, none⟩ : Literal).Proper :=
  ⟨hwhole, fun _ h => Option.some.inj h ▸ hfraction, fun _ _ h => nomatch h⟩

section Forms

variable {digits : List Char} (h : Digits digits)

include h

/-- Some zeros follow the digits. -/
theorem proper_padded (hhead : digits.head? ≠ some '0') (count : Nat) :
    (⟨false, digits ++ List.replicate count '0', some ['0'], none⟩ : Literal).Proper := by
  refine proper_of_fraction (Or.inr ⟨h.append fun _ => isDigit_of_mem_zeros, ?_⟩) digits_zero
  obtain ⟨c, rest, rfl⟩ := List.exists_cons_of_ne_nil h.1
  exact hhead

/-- The point is among the digits. -/
theorem proper_pointed (hhead : digits.head? ≠ some '0') (count : Nat) (hpos : 0 < count) (hlt : count < digits.length) :
    (⟨false, digits.take count, some (digits.drop count), none⟩ : Literal).Proper := by
  refine proper_of_fraction (Whole.take h hhead hpos) ⟨fun hempty => ?_, fun c hc => h.2 c (List.mem_of_mem_drop hc)⟩
  rw [List.drop_eq_nil_iff] at hempty
  omega

/-- The point and some zeros precede the digits. -/
theorem proper_below_one (count : Nat) :
    (⟨false, ['0'], some (List.replicate count '0' ++ digits), none⟩ : Literal).Proper := by
  refine proper_of_fraction (Or.inl rfl) ⟨fun hempty => h.1 (List.append_eq_nil_iff.mp hempty).2, fun c hc => ?_⟩
  rcases List.mem_append.mp hc with hc | hc
  · exact isDigit_of_mem_zeros hc
  · exact h.2 c hc

/-- One digit precedes the point, and a power of ten follows. -/
theorem proper_scientific (hhead : digits.head? ≠ some '0') (negative : Bool) (power : Nat) :
    (⟨false, digits.take 1, if (digits.drop 1).isEmpty then none else some (digits.drop 1),
      some (negative, Nat.toDigits 10 power)⟩ : Literal).Proper := by
  refine ⟨Whole.take h hhead Nat.one_pos, fun fraction hfraction => ?_, fun negative written hwritten => ?_⟩
  · dsimp only at hfraction
    split at hfraction
    · cases hfraction
    · rename_i hne
      obtain rfl := Option.some.inj hfraction
      exact ⟨fun hempty => hne (List.isEmpty_iff.mpr hempty), fun c hc => h.2 c (List.mem_of_mem_drop hc)⟩
  · obtain ⟨-, rfl⟩ := Prod.mk.inj (Option.some.inj hwritten)
    exact digits_toDigits power

end Forms

/-- A positive decimal is written as a literal, in whichever of the four forms. -/
theorem exists_of_decimal {d : Decimal} (h : 0 < d.digits) :
    ∃ l : Literal, l.negative = false ∧ l.Proper ∧ (decimalText d).toList = l.chars := by
  have hdigits := digits_toDigits d.digits
  have hhead := head_toDigits h
  have htext : (toString d.digits).toList = Nat.toDigits 10 d.digits := Nat.toList_repr
  unfold decimalText zeros
  rw [htext]
  generalize Nat.toDigits 10 d.digits = digits at hdigits hhead
  dsimp only
  split
  · refine ⟨_, rfl, proper_padded hdigits hhead d.exponent.toNat, ?_⟩
    simp [chars, signText, fractionText, exponentText]
  split
  · refine ⟨_, rfl, proper_pointed hdigits hhead (digits.length + d.exponent).toNat (by omega) (by omega), ?_⟩
    simp [chars, signText, fractionText, exponentText]
  split
  · refine ⟨_, rfl, proper_below_one hdigits (-(digits.length + d.exponent)).toNat, ?_⟩
    simp [chars, signText, fractionText, exponentText]
  · refine ⟨_, rfl, proper_scientific hdigits hhead (decide ((digits.length + d.exponent - 1 : Int) < 0))
      (digits.length + d.exponent - 1 : Int).natAbs, ?_⟩
    have hexponent : (toString (digits.length + d.exponent - 1 : Int).natAbs).toList =
        Nat.toDigits 10 (digits.length + d.exponent - 1 : Int).natAbs := Nat.toList_repr
    simp only [chars, signText, String.toList_append, hexponent]
    split <;> split <;> simp_all [fractionText, exponentText]

/-- The same number below zero. -/
theorem Proper.neg {l : Literal} (h : l.Proper) : ({ l with negative := true } : Literal).Proper :=
  ⟨h.whole, h.fraction, h.exponent⟩

/-- A finite number is written as a literal. -/
theorem exists_of_finite {x : Float} {negative : Bool} {mantissa : Nat} {exponent : Int}
    (h : Binary64.ofFloat x = .finite negative mantissa exponent) :
    ∃ l : Literal, l.Proper ∧ (floatText x).toList = l.chars := by
  obtain ⟨l, hl, hproper, htext⟩ : ∃ l : Literal, l.negative = false ∧ l.Proper ∧
      (if mantissa = 0 then "0.0" else decimalText (Binary64.shortest mantissa exponent)).toList = l.chars := by
    split
    · exact ⟨⟨false, ['0'], some ['0'], none⟩, rfl, proper_of_fraction (Or.inl rfl) digits_zero, rfl⟩
    · rename_i hne
      exact exists_of_decimal (Binary64.shortest_pos (Nat.pos_of_ne_zero hne) exponent)
  unfold floatText
  rw [h]
  dsimp only
  cases negative with
  | false => exact ⟨l, hproper, htext⟩
  | true =>
    refine ⟨{ l with negative := true }, hproper.neg, ?_⟩
    rw [if_pos rfl, String.toList_append, htext, chars, chars, hl]
    rfl

end Literal

end Json

end TileDepot
