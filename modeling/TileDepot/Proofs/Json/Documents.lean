import TileDepot.Proofs.Json.Literals

/-!
# Documents read back

A text between quotes is read back as it is, whatever its characters; and a document written over several lines is read back as
the value that it stands for.
-/

namespace TileDepot.Json

/-! ## Texts -/

/-- The two hex digits of a control character are read as it. -/
theorem hexUnit?_hexPair : ∀ n < 32, hexUnit? '0' '0' (Nat.digitChar (n / 16)) (Nat.digitChar (n % 16)) = some n := by decide

/-- A character is read back from what stands for it. -/
theorem readUnits_escapeChar (fuel : Nat) (c : Char) (rest : List Char) (units : List Nat) :
    readUnits (fuel + 1) (Doc.escapeChar c ++ rest) units = readUnits fuel rest (c.toNat :: units) := by
  unfold Doc.escapeChar
  split
  case h_8 hquote hbackslash _ _ _ _ _ =>
    split
    · rename_i hcontrol
      have hunit := hexUnit?_hexPair c.toNat hcontrol
      simp only [Doc.hexPair, List.cons_append, List.nil_append, readUnits, hunit, Option.bind_eq_bind, Option.bind_some]
    · rename_i hprinted
      change readUnits (fuel + 1) (c :: rest) units = _
      rw [readUnits.eq_def]
      dsimp only
      split
      · rename_i heq
        exact absurd (List.cons.inj heq).1 hquote
      · rename_i heq
        exact absurd (List.cons.inj heq).1 hbackslash
      · rename_i heq
        exact absurd (List.cons.inj heq).1 hbackslash
      · rename_i heq
        obtain ⟨rfl, rfl⟩ := List.cons.inj heq
        rw [if_neg (not_or.mpr ⟨hprinted, hbackslash⟩)]
      · rename_i heq
        cases heq
  all_goals rfl

/-- An escaped text is read back unit by unit, up to the closing quote. -/
theorem readUnits_quoted (chars rest : List Char) (units : List Nat) {fuel : Nat} (hfuel : chars.length < fuel) :
    readUnits fuel (chars.flatMap Doc.escapeChar ++ '"' :: rest) units = some ((chars.map Char.toNat).reverse ++ units, rest) := by
  induction chars generalizing fuel units with
  | nil =>
    obtain ⟨fuel, rfl⟩ := Nat.exists_eq_succ_of_ne_zero (Nat.pos_iff_ne_zero.mp hfuel)
    rfl
  | cons c chars ih =>
    obtain ⟨fuel, rfl⟩ := Nat.exists_eq_succ_of_ne_zero (Nat.ne_zero_of_lt hfuel)
    rw [List.flatMap_cons, List.append_assoc, readUnits_escapeChar, ih (c.toNat :: units) (Nat.lt_of_succ_lt_succ hfuel)]
    simp

/-- No character is a surrogate. -/
theorem not_surrogate (c : Char) : c.toNat < 0xD800 ∨ 0xE000 ≤ c.toNat := c.valid.imp id fun h => h.1

/-- No character is a surrogate, so that each stands for itself. -/
theorem joinUnits_chars (chars : List Char) : joinUnits (chars.map Char.toNat) = some chars := by
  induction chars with
  | nil => rfl
  | cons c chars ih =>
    have hc := not_surrogate c
    cases chars with
    | nil =>
      rw [List.map_singleton, joinUnits, if_neg (by omega), Char.ofNat_toNat]
    | cons d chars =>
      rw [List.map_cons, List.map_cons, joinUnits, if_neg (by omega), if_neg (by omega), ← List.map_cons, ih, Option.map_some,
        Char.ofNat_toNat]

/-- No text becomes shorter when it is escaped. -/
theorem length_le_flatMap_escapeChar (chars : List Char) : chars.length ≤ (chars.flatMap Doc.escapeChar).length := by
  have hchar : ∀ c : Char, 1 ≤ (Doc.escapeChar c).length := by
    intro c
    unfold Doc.escapeChar
    split
    case h_8 => split <;> exact Nat.succ_pos _
    all_goals exact Nat.succ_pos _
  induction chars with
  | nil => exact Nat.le_refl 0
  | cons c chars ih =>
    have hc := hchar c
    rw [List.flatMap_cons, List.length_append, List.length_cons]
    omega

/-- A text is read back from behind its opening quote. -/
theorem readText_quoted (value : String) (rest : List Char) :
    readText (value.toList.flatMap Doc.escapeChar ++ '"' :: rest) = some (some value, rest) := by
  have hfuel : value.toList.length < (value.toList.flatMap Doc.escapeChar ++ '"' :: rest).length + 1 := by
    have hlength := length_le_flatMap_escapeChar value.toList
    rw [List.length_append]
    omega
  rw [readText, readUnits_quoted _ rest [] hfuel]
  simp [joinUnits_chars]

/-- A quoted text is the escaped one between quotes. -/
theorem toList_quote (value : String) : (Doc.quote value).toList = '"' :: (value.toList.flatMap Doc.escapeChar ++ ['"']) := by
  simp [Doc.quote]

/-! ## Blanks -/

/-- Blanks, and nothing else. -/
def Blank (blanks : List Char) : Prop := ∀ c ∈ blanks, isSpace c = true

/-- No characters are blank. -/
theorem blank_nil : Blank [] := fun _ h => absurd h List.not_mem_nil

/-- Blanks are skipped. -/
theorem skipSpace_blank {blanks : List Char} (h : Blank blanks) (text : List Char) :
    skipSpace (blanks ++ text) = skipSpace text := List.dropWhile_append_of_pos h

/-- What is no space is not skipped. -/
theorem skipSpace_cons {c : Char} (h : isSpace c = false) (text : List Char) : skipSpace (c :: text) = c :: text := by
  rw [skipSpace, List.dropWhile_cons, if_neg (Bool.eq_false_iff.mp h)]

/-- What stands before the closing bracket. -/
theorem skipSpace_blank_cons {blanks : List Char} (h : Blank blanks) {c : Char} (hc : isSpace c = false) (text : List Char) :
    skipSpace (blanks ++ c :: text) = c :: text := by
  rw [skipSpace_blank h, skipSpace_cons hc]

/-- A new line is followed by two spaces for each level. -/
theorem toList_newline (level : Nat) : (Doc.newline level).toList = '\n' :: List.replicate (2 * level) ' ' := by
  simp [Doc.newline]

/-- A new line is blank. -/
theorem blank_newline (level : Nat) : Blank (Doc.newline level).toList := by
  intro c hc
  rw [toList_newline] at hc
  rcases List.mem_cons.mp hc with rfl | hc
  · rfl
  · rw [List.eq_of_mem_replicate hc]
    rfl

/-- A new line closes what stands before it. -/
theorem closes_newlineText (level : Nat) (rest : List Char) : Closes ((Doc.newline level).toList ++ rest) := by
  rw [toList_newline]
  exact closes_newline _

/-- Blanks before a value are passed over. -/
theorem readValue_blank {blanks : List Char} (h : Blank blanks) (fuel : Nat) (text : List Char) :
    readValue fuel (blanks ++ text) = readValue fuel text := by
  cases fuel with
  | zero => rfl
  | succ fuel => rw [readValue.eq_2, readValue.eq_2, skipSpace_blank h]

/-! ## What a document stands for -/

/-- The value that a document is read back as. -/
inductive Doc.Means : Doc → Json → Prop where
  | null : Means (.plain "null") .null
  | number {literal : String} {l : Literal} (h : l.Proper) (hliteral : literal.toList = l.chars) :
      Means (.plain literal) (.number l)
  | text (value : String) : Means (.text value) (.text (some value))
  | array (items : List (Doc × Json)) (h : ∀ item ∈ items, Means item.1 item.2) :
      Means (.array (items.map Prod.fst)) (.array (items.map Prod.snd))
  | object (fields : List (String × Doc × Json)) (h : ∀ field ∈ fields, Means field.2.1 field.2.2) :
      Means (.object (fields.map fun field => (field.1, field.2.1))) (.object (fields.map fun field => (some field.1, field.2.2)))

/-- How a number starts. -/
def Starts (c : Char) : Prop := c = '-' ∨ c.isDigit = true

/-- A number starts with no other character than a sign or a digit. -/
theorem Starts.ne {c d : Char} (h : Starts c) (hd : d ≠ '-') (hdigit : d.isDigit = false) : c ≠ d := by
  rintro rfl
  rcases h with h | h
  · exact hd h
  · exact Bool.false_ne_true (hdigit.symm.trans h)

/-- A number starts with no space. -/
theorem Starts.isSpace {c : Char} (h : Starts c) : isSpace c = false := by
  simp only [Json.isSpace, Bool.or_eq_false_iff, beq_eq_false_iff_ne]
  exact ⟨⟨⟨h.ne (by decide) (by decide), h.ne (by decide) (by decide)⟩, h.ne (by decide) (by decide)⟩,
    h.ne (by decide) (by decide)⟩

/-- A proper number starts as one. -/
theorem Literal.Proper.head {l : Literal} (h : l.Proper) : ∃ c rest, l.chars = c :: rest ∧ Starts c := by
  obtain ⟨negative, whole, fraction, exponent⟩ := l
  cases negative with
  | true => exact ⟨'-', _, rfl, Or.inl rfl⟩
  | false =>
    obtain ⟨c, digits, hwhole, hc⟩ := Literal.Whole.head h.whole
    obtain rfl : whole = c :: digits := hwhole
    exact ⟨c, _, rfl, Or.inr hc⟩

/-- A block is its parts, each on a line of its own, between its brackets. -/
theorem Doc.toList_block (opening closing : String) (level : Nat) {parts : List String} (h : parts ≠ []) :
    (Doc.block opening closing level parts).toList = opening.toList ++ ((Doc.newline (level + 1)).toList ++
      (("," ++ Doc.newline (level + 1)).intercalate parts).toList ++ ((Doc.newline level).toList ++ closing.toList)) := by
  unfold Doc.block
  rw [if_neg fun hempty => h (List.isEmpty_iff.mp hempty)]
  simp

/-- A block starts with its opening bracket. -/
theorem Doc.toList_block_eq (opening closing : String) (level : Nat) (parts : List String) :
    ∃ rest, (Doc.block opening closing level parts).toList = opening.toList ++ rest := by
  by_cases h : parts = []
  · exact ⟨closing.toList, by rw [h]; exact String.toList_append⟩
  · exact ⟨_, Doc.toList_block opening closing level h⟩

/-- A value starts with no blank and no closing bracket. -/
theorem Doc.Means.head {doc : Doc} {value : Json} (h : doc.Means value) (level : Nat) :
    ∃ c rest, (doc.pretty level).toList = c :: rest ∧ Json.isSpace c = false ∧ c ≠ ']' := by
  cases h with
  | null => exact ⟨'n', "ull".toList, by rw [Doc.pretty]; rfl, by decide, by decide⟩
  | @number _ l h hliteral =>
    obtain ⟨c, rest, hchars, hc⟩ := h.head
    exact ⟨c, rest, by rw [Doc.pretty, hliteral, hchars], hc.isSpace, hc.ne (by decide) (by decide)⟩
  | text value => exact ⟨'"', _, by rw [Doc.pretty]; exact toList_quote value, by decide, by decide⟩
  | array items =>
    obtain ⟨rest, hblock⟩ := Doc.toList_block_eq "[" "]" level (Doc.prettyItems (level + 1) (items.map Prod.fst))
    exact ⟨'[', rest, by rw [Doc.pretty, hblock]; rfl, by decide, by decide⟩
  | object fields =>
    obtain ⟨rest, hblock⟩ := Doc.toList_block_eq "\x7b" "\x7d" level
      (Doc.prettyFields (level + 1) (fields.map fun field => (field.1, field.2.1)))
    exact ⟨'\x7b', rest, by rw [Doc.pretty, hblock]; rfl, by decide, by decide⟩

/-! ## Reading -/

/-- A document whose text is read back as a value, wherever it stands. -/
def Doc.ReadBack (doc : Doc) (value : Json) : Prop :=
  ∀ (level : Nat) {fuel : Nat} {rest : List Char}, Closes rest → (doc.pretty level).toList.length < fuel →
    readValue fuel ((doc.pretty level).toList ++ rest) = some (value, rest)

/-- What is written of the items of a list, up to the end of the list. -/
def itemsText (level : Nat) (items : List Doc) : List Char :=
  (("," ++ Doc.newline level).intercalate (Doc.prettyItems level items)).toList

/-- The text of one item. -/
theorem itemsText_singleton (level : Nat) (item : Doc) : itemsText level [item] = (item.pretty level).toList := by
  simp [itemsText, Doc.prettyItems]

/-- The text of an item and of those that follow it. -/
theorem itemsText_cons_cons (level : Nat) (item other : Doc) (items : List Doc) :
    itemsText level (item :: other :: items) =
      (item.pretty level).toList ++ ',' :: ((Doc.newline level).toList ++ itemsText level (other :: items)) := by
  simp [itemsText, Doc.prettyItems, String.intercalate_cons_cons]

/-- The items of a list are read back. -/
theorem readItems_itemsText {level outer : Nat} (items : List (Doc × Json)) (hne : items ≠ [])
    (hitems : ∀ item ∈ items, Doc.ReadBack item.1 item.2) {fuel : Nat} {blanks rest : List Char} (hblanks : Blank blanks)
    (hfuel : (itemsText level (items.map Prod.fst)).length + 1 < fuel) (found : List Json) :
    readItems fuel (blanks ++ (itemsText level (items.map Prod.fst) ++ ((Doc.newline outer).toList ++ ']' :: rest))) found =
      some (found.reverse ++ items.map Prod.snd, rest) := by
  induction items generalizing fuel blanks found with
  | nil => exact absurd rfl hne
  | cons item items ih =>
    obtain ⟨fuel, rfl⟩ := Nat.exists_eq_succ_of_ne_zero (Nat.ne_zero_of_lt hfuel)
    have hitem : item.1.ReadBack item.2 := hitems item List.mem_cons_self
    cases items with
    | nil =>
      simp only [List.map_cons, List.map_nil, itemsText_singleton] at hfuel ⊢
      rw [readItems, readValue_blank hblanks, hitem level (closes_newlineText outer _) (by omega)]
      simp only [Option.bind_eq_bind, Option.bind_some, skipSpace_blank_cons (blank_newline outer) (show isSpace ']' = false by decide)]
      rw [List.reverse_cons]
    | cons other items =>
      simp only [List.map_cons, itemsText_cons_cons, List.length_append, List.length_cons, List.append_assoc, List.cons_append]
        at hfuel ⊢
      rw [readItems, readValue_blank hblanks, hitem level (closes_comma _) (by omega)]
      simp only [Option.bind_eq_bind, Option.bind_some, skipSpace_cons (show isSpace ',' = false by decide)]
      have hothers := fun next hnext => hitems next (List.mem_cons_of_mem item hnext)
      refine (ih (List.cons_ne_nil _ _) hothers (blank_newline level) (by simp only [List.map_cons]; omega) _).trans ?_
      simp

/-- What is written of the fields of a record, up to the end of the record. -/
def fieldsText (level : Nat) (fields : List (String × Doc)) : List Char :=
  (("," ++ Doc.newline level).intercalate (Doc.prettyFields level fields)).toList

/-- A field: its name between quotes, a colon and a blank, and its value. -/
def fieldText (level : Nat) (field : String × Doc) : List Char :=
  '"' :: (field.1.toList.flatMap Doc.escapeChar ++ '"' :: ':' :: ' ' :: (field.2.pretty level).toList)

/-- The text of one field. -/
theorem fieldsText_singleton (level : Nat) (field : String × Doc) : fieldsText level [field] = fieldText level field := by
  simp [fieldsText, fieldText, Doc.prettyFields, toList_quote]

/-- The text of a field and of those that follow it. -/
theorem fieldsText_cons_cons (level : Nat) (field other : String × Doc) (fields : List (String × Doc)) :
    fieldsText level (field :: other :: fields) =
      fieldText level field ++ ',' :: ((Doc.newline level).toList ++ fieldsText level (other :: fields)) := by
  simp [fieldsText, fieldText, Doc.prettyFields, String.intercalate_cons_cons, toList_quote]

/-- A field takes at least four characters more than its value. -/
theorem length_fieldText (level : Nat) (field : String × Doc) :
    (field.2.pretty level).toList.length + 4 ≤ (fieldText level field).length := by
  simp only [fieldText, List.length_cons, List.length_append]
  omega

/-- One field is read back, and what stands behind it decides how the record goes on. -/
theorem readFields_fieldText {level fuel : Nat} (field : String × Doc) {value : Json} (h : Doc.ReadBack field.2 value)
    {blanks tail : List Char} (hblanks : Blank blanks) (htail : Closes tail) (hfuel : (fieldText level field).length < fuel + 4)
    (found : List (Option String × Json)) :
    readFields (fuel + 1) (blanks ++ (fieldText level field ++ tail)) found = match skipSpace tail with
      | ',' :: rest => readFields fuel rest ((some field.1, value) :: found)
      | '\x7d' :: rest => some (((some field.1, value) :: found).reverse, rest)
      | _ => none := by
  have hlength := length_fieldText level field
  have htext : fieldText level field ++ tail =
      '"' :: (field.1.toList.flatMap Doc.escapeChar ++ '"' :: ':' :: ([' '] ++ ((field.2.pretty level).toList ++ tail))) := by
    simp [fieldText]
  rw [readFields, htext, skipSpace_blank_cons hblanks (by decide)]
  have hblank : Blank [' '] := fun c hc => by
    rw [List.mem_singleton.mp hc]
    rfl
  have hvalue := h level htail (show (field.2.pretty level).toList.length < fuel by omega)
  simp only [readText_quoted, Option.bind_eq_bind, Option.bind_some, skipSpace_cons (show isSpace ':' = false by decide),
    readValue_blank hblank]
  exact (congrArg (Option.bind · _) hvalue).trans rfl

/-- The fields of a record are read back. -/
theorem readFields_fieldsText {level outer : Nat} (fields : List (String × Doc × Json)) (hne : fields ≠ [])
    (hfields : ∀ field ∈ fields, Doc.ReadBack field.2.1 field.2.2) {fuel : Nat} {blanks rest : List Char} (hblanks : Blank blanks)
    (hfuel : (fieldsText level (fields.map fun field => (field.1, field.2.1))).length + 1 < fuel)
    (found : List (Option String × Json)) :
    readFields fuel (blanks ++ (fieldsText level (fields.map fun field => (field.1, field.2.1)) ++
        ((Doc.newline outer).toList ++ '\x7d' :: rest))) found =
      some (found.reverse ++ fields.map fun field => (some field.1, field.2.2), rest) := by
  induction fields generalizing fuel blanks found with
  | nil => exact absurd rfl hne
  | cons field fields ih =>
    obtain ⟨fuel, rfl⟩ := Nat.exists_eq_succ_of_ne_zero (Nat.ne_zero_of_lt hfuel)
    have hfield : field.2.1.ReadBack field.2.2 := hfields field List.mem_cons_self
    cases fields with
    | nil =>
      simp only [List.map_cons, List.map_nil, fieldsText_singleton] at hfuel ⊢
      rw [readFields_fieldText (field.1, field.2.1) hfield hblanks (closes_newlineText outer _) (by omega)]
      simp only [skipSpace_blank_cons (blank_newline outer) (show isSpace '\x7d' = false by decide)]
      rw [List.reverse_cons]
    | cons other fields =>
      simp only [List.map_cons, fieldsText_cons_cons, List.length_append, List.length_cons, List.append_assoc, List.cons_append]
        at hfuel ⊢
      rw [readFields_fieldText (field.1, field.2.1) hfield hblanks (closes_comma _) (by omega)]
      simp only [skipSpace_cons (show isSpace ',' = false by decide)]
      have hothers := fun next hnext => hfields next (List.mem_cons_of_mem field hnext)
      refine (ih (List.cons_ne_nil _ _) hothers (blank_newline level) (by simp only [List.map_cons]; omega) _).trans ?_
      simp

/-- A number is what is left when a text starts with no other value. -/
theorem readValue_number (fuel : Nat) {c : Char} (h : Starts c) (text : List Char) :
    readValue (fuel + 1) (c :: text) = (Literal.take (c :: text)).map fun (literal, rest) => (number literal, rest) := by
  rw [readValue, skipSpace_cons h.isSpace]
  split
  case h_7 => rfl
  all_goals
    rename_i heq
    obtain ⟨rfl, -⟩ := List.cons.inj heq
    exact absurd rfl (h.ne (by decide) (by decide))

/-- A proper number is read back. -/
theorem readBack_number {literal : String} {l : Literal} (h : l.Proper) (hliteral : literal.toList = l.chars) :
    Doc.ReadBack (.plain literal) (.number l) := by
  intro level fuel rest hrest hfuel
  obtain ⟨fuel, rfl⟩ := Nat.exists_eq_succ_of_ne_zero (Nat.ne_zero_of_lt hfuel)
  obtain ⟨c, chars, hchars, hc⟩ := h.head
  rw [Doc.pretty, hliteral]
  have htake := Literal.take_chars h hrest
  rw [hchars] at htake ⊢
  rw [List.cons_append, readValue_number fuel hc, ← List.cons_append, htake]
  rfl

/-- A text is read back. -/
theorem readBack_text (value : String) : Doc.ReadBack (.text value) (.text (some value)) := by
  intro level fuel rest _ hfuel
  obtain ⟨fuel, rfl⟩ := Nat.exists_eq_succ_of_ne_zero (Nat.ne_zero_of_lt hfuel)
  have htext : (Doc.quote value).toList ++ rest = '"' :: (value.toList.flatMap Doc.escapeChar ++ '"' :: rest) := by
    simp [toList_quote]
  rw [Doc.pretty, htext, readValue, skipSpace_cons (by decide)]
  simp only [readText_quoted, Option.map_some]

/-- The word for nothing is read as such. -/
theorem readValue_null (fuel : Nat) (rest : List Char) : readValue (fuel + 1) ("null".toList ++ rest) = some (null, rest) := by
  rw [readValue, show "null".toList ++ rest = 'n' :: ("ull".toList ++ rest) from rfl, skipSpace_cons (by decide)]
  rfl

/-- A bracket that is not closed at once opens a list of items. -/
theorem readValue_items (fuel : Nat) {text more : List Char} {c : Char} (htext : skipSpace text = c :: more) (hc : c ≠ ']') :
    readValue (fuel + 1) ('[' :: text) = (readItems fuel (c :: more) []).map fun (items, rest) => (array items, rest) := by
  rw [readValue, skipSpace_cons (by decide)]
  simp only [htext]
  split
  · rename_i heq
    exact absurd (List.cons.inj heq).1 hc
  · rfl

/-- A brace that is not closed at once opens a record. -/
theorem readValue_fields (fuel : Nat) {text more : List Char} {c : Char} (htext : skipSpace text = c :: more) (hc : c ≠ '\x7d') :
    readValue (fuel + 1) ('\x7b' :: text) = (readFields fuel (c :: more) []).map fun (fields, rest) => (object fields, rest) := by
  rw [readValue, skipSpace_cons (by decide)]
  simp only [htext]
  split
  · rename_i heq
    exact absurd (List.cons.inj heq).1 hc
  · rfl

/-- A list that is not empty starts as its first item does. -/
theorem itemsText_head (level : Nat) {item : Doc × Json} (h : item.1.Means item.2) (items : List (Doc × Json)) :
    ∃ c rest, itemsText level ((item :: items).map Prod.fst) = c :: rest ∧ isSpace c = false ∧ c ≠ ']' := by
  obtain ⟨c, rest, hitem, hspace, hc⟩ := h.head level
  cases items with
  | nil => exact ⟨c, rest, (itemsText_singleton level item.1).trans hitem, hspace, hc⟩
  | cons other items =>
    refine ⟨c, rest ++ ',' :: ((Doc.newline level).toList ++ itemsText level ((other :: items).map Prod.fst)), ?_, hspace, hc⟩
    rw [List.map_cons, List.map_cons, itemsText_cons_cons, hitem, List.cons_append]

/-- The text of fields starts with a quote. -/
theorem fieldsText_head (level : Nat) (field : String × Doc) (fields : List (String × Doc)) :
    ∃ rest, fieldsText level (field :: fields) = '"' :: rest := by
  cases fields with
  | nil => exact ⟨_, fieldsText_singleton level field⟩
  | cons other fields => exact ⟨_, fieldsText_cons_cons level field other fields⟩

/-- An array is written with each item on lines of its own. -/
theorem toList_pretty_array (level : Nat) (item : Doc) (items : List Doc) : (Doc.pretty level (.array (item :: items))).toList =
    '[' :: ((Doc.newline (level + 1)).toList ++ (itemsText (level + 1) (item :: items) ++
      ((Doc.newline level).toList ++ [']']))) := by
  rw [Doc.pretty, Doc.toList_block _ _ _ (by simp [Doc.prettyItems]), List.append_assoc]
  rfl

/-- An object is written with each field on lines of its own. -/
theorem toList_pretty_object (level : Nat) (field : String × Doc) (fields : List (String × Doc)) :
    (Doc.pretty level (.object (field :: fields))).toList =
      '\x7b' :: ((Doc.newline (level + 1)).toList ++ (fieldsText (level + 1) (field :: fields) ++
        ((Doc.newline level).toList ++ ['\x7d']))) := by
  rw [Doc.pretty, Doc.toList_block _ _ _ (by simp [Doc.prettyFields]), List.append_assoc]
  rfl

/-- An array is read back if its items are. -/
theorem readBack_array (items : List (Doc × Json)) (hmeans : ∀ item ∈ items, item.1.Means item.2)
    (hitems : ∀ item ∈ items, Doc.ReadBack item.1 item.2) :
    Doc.ReadBack (.array (items.map Prod.fst)) (.array (items.map Prod.snd)) := by
  intro level fuel rest _ hfuel
  obtain ⟨fuel, rfl⟩ := Nat.exists_eq_succ_of_ne_zero (Nat.ne_zero_of_lt hfuel)
  cases items with
  | nil =>
    change readValue (fuel + 1) ((Doc.pretty level (.array [])).toList ++ rest) = _
    rw [show (Doc.pretty level (.array [])).toList = ['[', ']'] by simp [Doc.pretty, Doc.prettyItems, Doc.block]]
    simp [readValue, skipSpace, isSpace]
  | cons item items =>
    obtain ⟨c, more, htext, hspace, hbracket⟩ := itemsText_head (level + 1) (hmeans item List.mem_cons_self) items
    have hopen : skipSpace ((Doc.newline (level + 1)).toList ++ (itemsText (level + 1) ((item :: items).map Prod.fst) ++
        ((Doc.newline level).toList ++ ']' :: rest))) = c :: (more ++ ((Doc.newline level).toList ++ ']' :: rest)) := by
      rw [skipSpace_blank (blank_newline (level + 1)), htext, List.cons_append, skipSpace_cons hspace]
    rw [List.map_cons, toList_pretty_array, ← List.map_cons] at hfuel ⊢
    simp only [List.length_cons, List.length_append] at hfuel
    simp only [List.cons_append, List.append_assoc, List.nil_append]
    rw [readValue_items fuel hopen hbracket, ← List.cons_append, ← htext, ← List.nil_append (itemsText _ _ ++ _),
      readItems_itemsText (item :: items) (List.cons_ne_nil _ _) hitems blank_nil (by omega)]
    rfl

/-- An object is read back if its fields are. -/
theorem readBack_object (fields : List (String × Doc × Json)) (hfields : ∀ field ∈ fields, Doc.ReadBack field.2.1 field.2.2) :
    Doc.ReadBack (.object (fields.map fun field => (field.1, field.2.1)))
      (.object (fields.map fun field => (some field.1, field.2.2))) := by
  intro level fuel rest _ hfuel
  obtain ⟨fuel, rfl⟩ := Nat.exists_eq_succ_of_ne_zero (Nat.ne_zero_of_lt hfuel)
  cases fields with
  | nil =>
    change readValue (fuel + 1) ((Doc.pretty level (.object [])).toList ++ rest) = _
    rw [show (Doc.pretty level (.object [])).toList = ['\x7b', '\x7d'] by simp [Doc.pretty, Doc.prettyFields, Doc.block]]
    simp [readValue, skipSpace, isSpace]
  | cons field fields =>
    obtain ⟨more, htext⟩ := fieldsText_head (level + 1) (field.1, field.2.1) (fields.map fun field => (field.1, field.2.1))
    rw [← List.map_cons (f := fun field : String × Doc × Json => (field.1, field.2.1))] at htext
    have hopen : skipSpace ((Doc.newline (level + 1)).toList ++
        (fieldsText (level + 1) ((field :: fields).map fun field => (field.1, field.2.1)) ++
          ((Doc.newline level).toList ++ '\x7d' :: rest))) = '"' :: (more ++ ((Doc.newline level).toList ++ '\x7d' :: rest)) := by
      rw [skipSpace_blank (blank_newline (level + 1)), htext, List.cons_append, skipSpace_cons (by decide)]
    rw [List.map_cons, toList_pretty_object, ← List.map_cons (f := fun field : String × Doc × Json => (field.1, field.2.1))]
      at hfuel ⊢
    simp only [List.length_cons, List.length_append] at hfuel
    simp only [List.cons_append, List.append_assoc, List.nil_append]
    rw [readValue_fields fuel hopen (by decide), ← List.cons_append, ← htext, ← List.nil_append (fieldsText _ _ ++ _),
      readFields_fieldsText (field :: fields) (List.cons_ne_nil _ _) hfields blank_nil (by omega)]
    rfl

/-- Every document is read back as the value that it stands for. -/
theorem Doc.Means.readBack {doc : Doc} {value : Json} (h : doc.Means value) : doc.ReadBack value := by
  induction h with
  | null =>
    intro level fuel rest _ hfuel
    obtain ⟨fuel, rfl⟩ := Nat.exists_eq_succ_of_ne_zero (Nat.ne_zero_of_lt hfuel)
    rw [Doc.pretty]
    exact readValue_null fuel rest
  | number h hliteral => exact readBack_number h hliteral
  | text value => exact readBack_text value
  | array items h ih => exact readBack_array items h ih
  | object fields h ih => exact readBack_object fields ih

/-- A document over several lines is read as the value that it stands for. -/
theorem Doc.Means.read? {doc : Doc} {value : Json} (h : doc.Means value) : Json.read? (doc.pretty 0) = some value := by
  have hread := h.readBack 0 closes_nil (Nat.lt_succ_self _)
  rw [List.append_nil] at hread
  simp only [Json.read?, hread, Option.bind_eq_bind, Option.bind_some]
  rfl

/-! ## Records -/

/-- The field of a name that is given once. -/
theorem filter_fields {fields : List (String × Json)} (hnames : (fields.map Prod.fst).Nodup) {field : String × Json}
    (hfield : field ∈ fields) : fields.filter (·.1 == field.1) = [field] := by
  induction fields with
  | nil => exact absurd hfield List.not_mem_nil
  | cons other fields ih =>
    rw [List.map_cons, List.nodup_cons] at hnames
    rw [List.filter_cons]
    rcases List.mem_cons.mp hfield with rfl | hmem
    · rw [if_pos (beq_self_eq_true field.1), List.filter_eq_nil_iff.mpr]
      intro other hother hsame
      exact hnames.1 (List.mem_map.mpr ⟨other, hother, beq_iff_eq.mp hsame⟩)
    · have hne : other.1 ≠ field.1 := fun heq => hnames.1 (heq ▸ List.mem_map_of_mem hmem)
      rw [if_neg (mt beq_iff_eq.mp hne)]
      exact ih hnames.2 hmem

/-- Each part of a list is read, and so is the list. -/
theorem mapM_map_eq_some {γ δ ε : Type} {part : γ → δ} {read : δ → Option ε} {found : γ → ε} (items : List γ)
    (h : ∀ item ∈ items, read (part item) = some (found item)) : (items.map part).mapM read = some (items.map found) := by
  induction items with
  | nil => rfl
  | cons item items ih =>
    rw [List.map_cons, List.mapM_cons, h item List.mem_cons_self, ih fun other hother => h other (List.mem_cons_of_mem item hother)]
    rfl

/-- The fields of a record, all given and each of another name, are found in their order. -/
theorem record?_object (fields : List ((String × Presence) × Json)) (hnames : (fields.map fun field => field.1.1).Nodup) :
    (object (fields.map fun field => (some field.1.1, field.2))).record? (fields.map Prod.fst) =
      some (fields.map fun field => some field.2) := by
  have hall : (object (fields.map fun field => (some field.1.1, field.2))).fields? =
      some (fields.map fun field => (field.1.1, field.2)) := mapM_map_eq_some fields fun _ _ => rfl
  have hnames' : (List.map Prod.fst (fields.map fun field : (String × Presence) × Json => (field.1.1, field.2))).Nodup := by
    rwa [List.map_map]
  rw [record?, hall]
  · refine mapM_map_eq_some fields fun field hfield => ?_
    have hfilter := filter_fields hnames' (List.mem_map.mpr ⟨field, hfield, rfl⟩)
    simp only [field?, hfilter]
  · intro items heq
    cases heq

/-! ## What is restored from a document -/

/-- A document from which something is read back. -/
def Doc.Restores {α : Type} (doc : Doc) (read : Json → Option α) (a : α) : Prop :=
  ∃ value : Json, doc.Means value ∧ read value = some a

namespace Doc

variable {α β : Type} {doc : Doc} {read : Json → Option α} {a : α}

/-- It is decoded from the text of the document. -/
theorem Restores.decode (h : doc.Restores read a) : Json.decode read (doc.pretty 0) = .ok a := by
  obtain ⟨value, hmeans, hread⟩ := h
  rw [Json.decode, hmeans.read?, show some value >>= read = read value from rfl, hread]

/-- A text that is stored is restored. -/
theorem restores_text (value : String) : (Doc.text value).Restores Json.text? value := ⟨_, .text value, rfl⟩

/-- A whole number is restored where it is asked for in a range that holds it. -/
theorem restores_int {n low high : Int} (hlow : Binary64.minInt64 ≤ n) (hhigh : n ≤ Binary64.maxUInt64)
    (hrange : low ≤ n ∧ n ≤ high) : (Doc.int n).Restores (Json.int? low high) n := by
  refine ⟨_, .number (Literal.proper_ofInt n) (Literal.chars_ofInt n), ?_⟩
  simp only [Json.int?, Literal.toInt?_ofInt hlow hhigh, Option.bind_eq_bind, Option.bind_some]
  exact if_pos hrange

/-- A count is restored where it is asked for up to a number that it does not exceed. -/
theorem restores_nat {n high : Nat} (h : n ≤ high) (hhigh : high ≤ Binary64.maxUInt64) :
    (Doc.nat n).Restores (Json.int? 0 high) (n : Int) := by
  have hmin : Binary64.minInt64 ≤ 0 := by decide
  exact restores_int (n := (n : Int)) (by omega) (by omega) (by omega)

/-- A text or nothing is restored. -/
theorem restores_nullable (value : Option String) :
    (Doc.nullable .text value).Restores (Json.nullable Json.text?) value := by
  cases value with
  | none => exact ⟨_, .null, rfl⟩
  | some value => exact ⟨_, .text value, rfl⟩

/-- A value for each of some items, if there is one for each. -/
theorem exists_values {Q : β → Json → Prop} (items : List β) (h : ∀ item ∈ items, ∃ value, Q item value) :
    ∃ values : List (β × Json), values.map Prod.fst = items ∧ ∀ value ∈ values, Q value.1 value.2 := by
  induction items with
  | nil => exact ⟨[], rfl, fun _ hvalue => absurd hvalue List.not_mem_nil⟩
  | cons item items ih =>
    obtain ⟨value, hvalue⟩ := h item List.mem_cons_self
    obtain ⟨values, rfl, hvalues⟩ := ih fun other hother => h other (List.mem_cons_of_mem item hother)
    refine ⟨(item, value) :: values, rfl, fun other hother => ?_⟩
    rcases List.mem_cons.mp hother with rfl | hother
    · exact hvalue
    · exact hvalues other hother

/-- A list stands for the list of what its items stand for. -/
theorem means_array {write : β → Doc} (values : List (β × Json)) (h : ∀ value ∈ values, (write value.1).Means value.2) :
    (Doc.array ((values.map Prod.fst).map write)).Means (.array (values.map Prod.snd)) := by
  have harray := Means.array (values.map fun value => (write value.1, value.2)) fun item hitem => by
    obtain ⟨value, hvalue, rfl⟩ := List.mem_map.mp hitem
    exact h value hvalue
  rw [List.map_map, List.map_map] at harray
  rw [List.map_map]
  exact harray

/-- A table of named values stands for the record of what the values stand for. -/
theorem means_fields {write : β → Doc} (values : List ((String × β) × Json)) (h : ∀ value ∈ values, (write value.1.2).Means value.2) :
    (Doc.object ((values.map Prod.fst).map fun (name, item) => (name, write item))).Means
      (.object (values.map fun value => (some value.1.1, value.2))) := by
  have hobject := Means.object (values.map fun value => (value.1.1, write value.1.2, value.2)) fun field hfield => by
    obtain ⟨value, hvalue, rfl⟩ := List.mem_map.mp hfield
    exact h value hvalue
  rw [List.map_map, List.map_map] at hobject
  rw [List.map_map]
  exact hobject

/-- The names of a record are all read. -/
theorem fields?_object (values : List ((String × β) × Json)) :
    (Json.object (values.map fun value => (some value.1.1, value.2))).fields? = some (values.map fun value => (value.1.1, value.2)) :=
  mapM_map_eq_some values fun _ _ => rfl

/-- A list is restored item by item. -/
theorem restores_array {write : β → Doc} {restored : β → α} (items : List β)
    (h : ∀ item ∈ items, (write item).Restores read (restored item)) :
    (Doc.array (items.map write)).Restores (Json.list? read) (items.map restored) := by
  obtain ⟨values, rfl, hvalues⟩ := exists_values items h
  refine ⟨Json.array (values.map Prod.snd), means_array values fun value hvalue => (hvalues value hvalue).1, ?_⟩
  rw [List.map_map]
  exact mapM_map_eq_some values fun value hvalue => (hvalues value hvalue).2

/-- A table of named values is restored value by value. -/
theorem restores_fields {write : β → Doc} {restored : β → α} (items : List (String × β))
    (h : ∀ item ∈ items, (write item.2).Restores read (restored item.2)) :
    (Doc.object (items.map fun (name, item) => (name, write item))).Restores
      (fun value => do (← value.fields?).mapM fun (name, item) => (read item).map (name, ·))
      (items.map fun item => (item.1, restored item.2)) := by
  obtain ⟨values, rfl, hvalues⟩ := exists_values items h
  refine ⟨_, means_fields values fun value hvalue => (hvalues value hvalue).1, ?_⟩
  simp only [fields?_object, Option.bind_eq_bind, Option.bind_some, List.map_map]
  refine mapM_map_eq_some values fun value hvalue => ?_
  simp only [(hvalues value hvalue).2, Option.map_some]
  rfl

end Doc

end TileDepot.Json
