import Mathlib.Data.List.Basic
import TileDepot.Tile.Parameters

/-!
# Parameters and their identifiers

The text whose hash is an identifier says which parameters it was made of. Percent encoding can be read back, and it leaves none
of the signs that stand between a name and its value and between two pairs. So different parameters have different texts, and
share an identifier only where the hash does not tell these texts apart.
-/

namespace TileDepot

namespace Text

variable {α β : Type}

/-- A list is known from its code words, one after the other, if what a word stands for and what follows it are. -/
theorem flatMap_inj {code : α → List β} (hne : ∀ a, code a ≠ [])
    (hcode : ∀ {a b rest rest'}, code a ++ rest = code b ++ rest' → a = b ∧ rest = rest') {list list' : List α}
    (h : list.flatMap code = list'.flatMap code) : list = list' := by
  induction list generalizing list' with
  | nil =>
    cases list' with
    | nil => rfl
    | cons b list' => simp [hne b] at h
  | cons a list ih =>
    cases list' with
    | nil => simp [hne a] at h
    | cons b list' =>
      rw [List.flatMap_cons, List.flatMap_cons] at h
      obtain ⟨rfl, hrest⟩ := hcode h
      rw [ih hrest]

/-! ## Digits -/

/-- Different numbers have different hex digits. -/
theorem hexDigit_inj : ∀ m < 16, ∀ n < 16, hexDigit m = hexDigit n → m = n := by decide

/-- So it is with capitals. -/
theorem hexDigitUpper_inj : ∀ m < 16, ∀ n < 16, hexDigitUpper m = hexDigitUpper n → m = n := by decide

/-- A byte is known from its two digits, whatever stands for a digit. -/
theorem byte_eq_of_digits {digit : Nat → Char} (hdigit : ∀ m < 16, ∀ n < 16, digit m = digit n → m = n) {b b' : UInt8}
    (hhigh : digit (b.toNat / 16) = digit (b'.toNat / 16)) (hlow : digit (b.toNat % 16) = digit (b'.toNat % 16)) : b = b' := by
  have hb := b.toNat_lt
  have hb' := b'.toNat_lt
  have hquotient := hdigit _ (by omega) _ (by omega) hhigh
  have hremainder := hdigit _ (by omega) _ (by omega) hlow
  exact UInt8.toNat_inj.mp (by omega)

/-- Different bytes have different hex texts. -/
theorem hex_inj {bytes bytes' : List UInt8} (h : hex bytes = hex bytes') : bytes = bytes' := by
  refine flatMap_inj (fun _ => List.cons_ne_nil _ _) ?_ (String.ofList_injective h)
  intro b b' rest rest' heq
  simp only [List.cons_append, List.nil_append, List.cons.injEq] at heq
  obtain ⟨hhigh, hlow, hrest⟩ := heq
  exact ⟨byte_eq_of_digits hexDigit_inj hhigh hlow, hrest⟩

/-! ## Percent encoding -/

/-- A byte taken as a character has its own number. -/
theorem toNat_ofNat_byte (b : UInt8) : (Char.ofNat b.toNat).toNat = b.toNat := by
  have hvalid : b.toNat.isValidChar := Or.inl (Nat.lt_trans b.toNat_lt (by decide))
  rw [Char.ofNat, dif_pos hvalid]
  rfl

/-- An unreserved character is none of the signs that have a meaning of their own: `%`, `&` and `=`. -/
theorem toNat_of_isUnreserved {b : UInt8} (h : isUnreserved b = true) :
    b.toNat < 128 ∧ b.toNat ≠ 37 ∧ b.toNat ≠ 38 ∧ b.toNat ≠ 61 := by
  simp only [isUnreserved, Bool.or_eq_true, Bool.and_eq_true, decide_eq_true_eq, beq_iff_eq] at h
  omega

/-- A byte is no character of another number. -/
theorem ofNat_ne_of_toNat_ne {b : UInt8} {c : Char} (h : b.toNat ≠ c.toNat) : Char.ofNat b.toNat ≠ c := by
  intro heq
  rw [← heq, toNat_ofNat_byte] at h
  exact h rfl

/-- An unreserved character is not the sign that a byte in digits begins with. -/
theorem ofNat_ne_percent {b : UInt8} (h : isUnreserved b = true) : Char.ofNat b.toNat ≠ '%' :=
  ofNat_ne_of_toNat_ne (toNat_of_isUnreserved h).2.1

/-- The encoding of a byte is written in ASCII, and without the signs that stand between names, values and pairs. -/
theorem of_mem_percentByte {b : UInt8} {c : Char} (h : c ∈ percentByte b) : c.toNat < 128 ∧ c ≠ '&' ∧ c ≠ '=' := by
  unfold percentByte at h
  split at h
  · rename_i hb
    obtain ⟨hascii, -, hpairs, hparts⟩ := toNat_of_isUnreserved hb
    obtain rfl := List.mem_singleton.mp h
    exact ⟨by rwa [toNat_ofNat_byte], ofNat_ne_of_toNat_ne hpairs, ofNat_ne_of_toNat_ne hparts⟩
  · have hdigit : ∀ n < 16, (hexDigitUpper n).toNat < 128 ∧ hexDigitUpper n ≠ '&' ∧ hexDigitUpper n ≠ '=' := by decide
    have hb := b.toNat_lt
    simp only [List.mem_cons, List.not_mem_nil, or_false] at h
    rcases h with rfl | rfl | rfl
    · decide
    · exact hdigit _ (by omega)
    · exact hdigit _ (by omega)

/-- Whatever follows, it can be seen where the encoding of a byte ends, and of which byte it is. -/
theorem percentByte_append_inj {b b' : UInt8} {rest rest' : List Char} (h : percentByte b ++ rest = percentByte b' ++ rest') :
    b = b' ∧ rest = rest' := by
  unfold percentByte at h
  split at h
  · rename_i hb
    split at h
    · obtain ⟨hc, hrest⟩ := List.cons.inj h
      refine ⟨UInt8.toNat_inj.mp ?_, hrest⟩
      rw [← toNat_ofNat_byte b, hc, toNat_ofNat_byte]
    · exact absurd (List.cons.inj h).1 (ofNat_ne_percent hb)
  · split at h
    · rename_i hb'
      exact absurd (List.cons.inj h).1.symm (ofNat_ne_percent hb')
    · simp only [List.cons_append, List.nil_append, List.cons.injEq, true_and] at h
      obtain ⟨hhigh, hlow, hrest⟩ := h
      exact ⟨byte_eq_of_digits hexDigitUpper_inj hhigh hlow, hrest⟩

/-- The bytes of an array from a place on, as they are listed one after the other. -/
theorem toList_loop (bytes : ByteArray) (i : Nat) (listed : List UInt8) :
    ByteArray.toList.loop bytes i listed = listed.reverse ++ bytes.data.toList.drop i := by
  fun_induction ByteArray.toList.loop bytes i listed with
  | case1 i listed hi ih =>
    have hget : bytes.get! i = bytes.data[i] := getElem!_pos bytes.data i hi
    have hdrop : bytes.data.toList.drop i = bytes.data[i] :: bytes.data.toList.drop (i + 1) :=
      List.drop_eq_getElem_cons (by rwa [Array.length_toList])
    rw [ih, hdrop, hget]
    simp
  | case2 i listed hend =>
    rw [List.drop_of_length_le (Nat.le_of_not_lt hend), List.append_nil]

/-- The bytes of an array are listed as its data. -/
theorem toList_eq_data (bytes : ByteArray) : bytes.toList = bytes.data.toList := toList_loop bytes 0 []

/-- A text is known from its encoding. -/
theorem percentEncode_inj {text text' : String} (h : percentEncode text = percentEncode text') : text = text' := by
  have hne : ∀ b, percentByte b ≠ [] := by
    intro b
    unfold percentByte
    split <;> simp
  have hbytes := flatMap_inj hne percentByte_append_inj h
  rw [toList_eq_data, toList_eq_data, Array.toList_inj] at hbytes
  exact String.toByteArray_inj.mp (ByteArray.ext hbytes)

/-- An encoded text has neither ampersands nor equals signs. -/
theorem of_mem_percentEncode {text : String} {c : Char} (h : c ∈ percentEncode text) : c.toNat < 128 ∧ c ≠ '&' ∧ c ≠ '=' := by
  obtain ⟨b, -, hc⟩ := List.mem_flatMap.mp h
  exact of_mem_percentByte hc

end Text

namespace Parameters

open Text

/-! ## Pairs -/

/-- The text of a pair has no ampersand. -/
theorem and_not_mem_pairText (name value : String) : '&' ∉ pairText name value := by
  intro h
  rcases List.mem_append.mp h with hname | hvalue
  · exact (of_mem_percentEncode hname).2.1 rfl
  · rcases List.mem_cons.mp hvalue with hsign | hvalue
    · cases hsign
    · exact (of_mem_percentEncode hvalue).2.1 rfl

/-- A pair is known from its text: neither of its parts holds the sign between them. -/
theorem pairText_inj {pair pair' : String × String} (h : pairText pair.1 pair.2 = pairText pair'.1 pair'.2) : pair = pair' := by
  have hsign : ∀ text : String, '=' ∉ percentEncode text := fun text htext => (of_mem_percentEncode htext).2.2 rfl
  obtain ⟨hname, -, hvalue⟩ := (List.append_cons_inj_of_notMem (hsign _) (hsign _)).mp h
  exact Prod.ext (percentEncode_inj hname) (percentEncode_inj hvalue)

/-- The pairs stand one after the other, with a sign between any two of them. -/
theorem joinPairs_eq (pairs : List (String × String)) :
    joinPairs pairs = ['&'].intercalate (pairs.map fun pair => pairText pair.1 pair.2) := by
  fun_induction joinPairs pairs with
  | case1 => rfl
  | case2 name value => simp [List.intercalate]
  | case3 name value rest hrest ih =>
    cases rest with
    | nil => exact absurd rfl hrest
    | cons pair rest => simp [ih, List.intercalate]

/-- Only no pairs are joined to an empty text. -/
theorem joinPairs_eq_nil_iff {pairs : List (String × String)} : joinPairs pairs = [] ↔ pairs = [] := by
  fun_cases joinPairs pairs <;> simp [pairText]

/-- The pairs are known from their text, since none of them holds the sign between two. -/
theorem joinPairs_inj {pairs pairs' : List (String × String)} (h : joinPairs pairs = joinPairs pairs') : pairs = pairs' := by
  by_cases hpairs : pairs = []
  · subst hpairs
    exact (joinPairs_eq_nil_iff.mp h.symm).symm
  · have hpairs' : pairs' ≠ [] := fun heq => hpairs (joinPairs_eq_nil_iff.mp (h.trans (joinPairs_eq_nil_iff.mpr heq)))
    have hsplit : ∀ {pairs : List (String × String)}, pairs ≠ [] →
        (joinPairs pairs).splitOn '&' = pairs.map fun pair => pairText pair.1 pair.2 := by
      intro pairs hne
      rw [joinPairs_eq, List.splitOn_intercalate '&' ?_ (by simpa using hne)]
      intro text htext
      obtain ⟨pair, -, rfl⟩ := List.mem_map.mp htext
      exact and_not_mem_pairText pair.1 pair.2
    have htexts := hsplit hpairs
    rw [h, hsplit hpairs'] at htexts
    exact (List.map_injective_iff.mpr fun _ _ => pairText_inj) htexts.symm

/-! ## Texts of parameters -/

/-- Parameters are known from their text. -/
theorem canonicalText_inj {parameters parameters' : Parameters} (h : parameters.canonicalText = parameters'.canonicalText) :
    parameters = parameters' :=
  Std.ExtTreeMap.toList_inj.mp (joinPairs_inj h)

/-- The text of parameters is written in ASCII. -/
theorem lt_of_mem_canonicalText {parameters : Parameters} {c : Char} (h : c ∈ parameters.canonicalText) : c.toNat < 128 := by
  have hpair : ∀ {name value : String}, c ∈ pairText name value → c.toNat < 128 := by
    intro name value hc
    rcases List.mem_append.mp hc with hc | hc
    · exact (of_mem_percentEncode hc).1
    · rcases List.mem_cons.mp hc with rfl | hc
      · decide
      · exact (of_mem_percentEncode hc).1
  unfold canonicalText at h
  generalize parameters.toList = pairs at h
  fun_induction joinPairs pairs with
  | case1 => cases h
  | case2 name value => exact hpair h
  | case3 name value rest hrest ih =>
    rcases List.mem_append.mp h with hc | hc
    · exact hpair hc
    · rcases List.mem_cons.mp hc with rfl | hc
      · decide
      · exact ih hc

/-- The bytes that are hashed for an identifier. -/
def message (parameters : Parameters) : List UInt8 := parameters.canonicalText.map fun c => UInt8.ofNat c.toNat

/-- The text can be read from its bytes, one for each character. -/
theorem map_message (parameters : Parameters) :
    (parameters.message.map fun b => Char.ofNat b.toNat) = parameters.canonicalText := by
  rw [message, List.map_map]
  conv_rhs => rw [← List.map_id parameters.canonicalText]
  refine List.map_congr_left fun c hc => ?_
  have hbyte : (UInt8.ofNat c.toNat).toNat = c.toNat :=
    UInt8.toNat_ofNat_of_lt' (Nat.lt_trans (lt_of_mem_canonicalText hc) (by decide))
  rw [Function.comp_apply, hbyte, Char.ofNat_toNat]
  rfl

/-- Different parameters are encoded as different messages. -/
theorem message_injective : Function.Injective message := by
  intro parameters parameters' h
  exact canonicalText_inj (by rw [← map_message, h, map_message])

/-! ## Identifiers -/

/-- Only empty parameters have no identifier. -/
theorem identifier_eq_none_iff {parameters : Parameters} : parameters.identifier = none ↔ parameters = ∅ := by
  unfold identifier
  rw [← Std.ExtTreeMap.isEmpty_iff]
  split <;> simp_all

/-- Other parameters have the digest of their message. -/
theorem identifier_of_ne {parameters : Parameters} (h : parameters ≠ ∅) :
    parameters.identifier = some (hex (Sha256.digest parameters.message)) :=
  if_neg fun hempty => h (Std.ExtTreeMap.isEmpty_iff.mp hempty)

/-- What is hashed for an identifier are the pairs in the order of their names, percent-encoded, with signs between their parts
and between them. It says which parameters it was made of, and only no parameters have no identifier. So two sets of parameters
that the hash does not confuse share an identifier only if they are the same. -/
theorem known_by_identifier :
    (∀ parameters : Parameters, parameters.toList.Pairwise (fun pair pair' => compare pair.1 pair'.1 = .lt) ∧
      parameters.canonicalText =
        ['&'].intercalate (parameters.toList.map fun pair => percentEncode pair.1 ++ '=' :: percentEncode pair.2)) ∧
    Function.Injective canonicalText ∧ Function.Injective message ∧
    (∀ parameters : Parameters, parameters.identifier = none ↔ parameters = ∅) ∧
    ∀ parameters parameters' : Parameters,
      (Sha256.digest parameters.message = Sha256.digest parameters'.message → parameters.message = parameters'.message) →
        parameters.identifier = parameters'.identifier → parameters = parameters' := by
  refine ⟨fun parameters => ⟨Std.ExtTreeMap.ordered_keys_toList, joinPairs_eq parameters.toList⟩, fun _ _ => canonicalText_inj,
    message_injective, fun _ => identifier_eq_none_iff, fun parameters parameters' hhash h => ?_⟩
  by_cases hempty : parameters = ∅
  · rw [hempty, identifier_eq_none_iff.mpr rfl] at h
    exact hempty.trans (identifier_eq_none_iff.mp h.symm).symm
  · have hempty' : parameters' ≠ ∅ := by
      intro heq
      rw [identifier_eq_none_iff.mpr heq] at h
      exact hempty (identifier_eq_none_iff.mp h)
    rw [identifier_of_ne hempty, identifier_of_ne hempty'] at h
    exact message_injective (hhash (hex_inj (Option.some.inj h)))

/-- A value that looks like two pairs, and the two pairs it looks like. -/
theorem known_by_identifier_apart :
    let parameters : Parameters := .ofList [("a", "1&b=2")]
    let parameters' : Parameters := .ofList [("a", "1"), ("b", "2")]
    Sha256.digest parameters.message ≠ Sha256.digest parameters'.message ∧ parameters.identifier ≠ parameters'.identifier := by
  intro parameters parameters'
  have hhash : Sha256.digest parameters.message ≠ Sha256.digest parameters'.message := by decide +kernel
  refine ⟨hhash, fun h => hhash ?_⟩
  have hsame := known_by_identifier.2.2.2.2 parameters parameters' (fun hdigest => absurd hdigest hhash) h
  rw [hsame]

end Parameters

end TileDepot
