import TileDepot.Yaml.Node

/-!
# Reading YAML

The plain part of YAML: block and flow lists and maps, plain and quoted scalars over one or more lines, comments, and the
marks at the start and the end of a document. Anchors, aliases, tags, block scalars, directives and keys that are not
scalars are refused.

A cursor stands at a place of the text and knows its line and column. In block context the column of the first entry of a
list or a map is the column of all its entries, and a node ends where a line starts in a column further left. A key may
stand only at the start of a line or behind the dash of a list entry.
-/

namespace TileDepot.Yaml

/-- A place in a text. -/
structure Cursor where
  rest : List Char
  line : Nat
  column : Nat
  /-- Whether a key or a list entry may start here. -/
  keyAllowed : Bool

/-- Whether a text starts with a blank or a line break, or is at its end. -/
def atBlank : List Char → Bool
  | [] => true
  | c :: _ => c == ' ' || c == '\t' || c == '\n'

/-- Whether a character opens, closes or divides a flow list or map. -/
def isFlowMark (c : Char) : Bool := c == ',' || c == '[' || c == ']' || c == '\x7b' || c == '\x7d'

/-- A text with every line break written as one line feed. -/
def unifyBreaks : List Char → List Char
  | '\r' :: '\n' :: rest => '\n' :: unifyBreaks rest
  | '\r' :: rest => '\n' :: unifyBreaks rest
  | c :: rest => (if c = '\u0085' then '\n' else c) :: unifyBreaks rest
  | [] => []

/-- Whether a character may stand in a document. -/
def isPrintable (c : Char) : Bool :=
  let n := c.toNat
  n == 9 || n == 10 || (0x20 ≤ n && n ≤ 0x7E) || n == 0x85 || (0xA0 ≤ n && n ≤ 0xFFFD && n != 0xFEFF) || 0x10000 ≤ n

/-- What lies between two tokens, passed over: blanks, comments and line breaks. A tab may not indent a line. -/
def skipFrom (flow : Bool) (line column : Nat) (keyAllowed comment : Bool) : List Char → Cursor
  | [] => ⟨[], line, column, keyAllowed⟩
  | c :: rest =>
    if c = '\n' then skipFrom flow (line + 1) 0 (keyAllowed || !flow) false rest
    else if comment || c = ' ' || (c = '\t' && (flow || !keyAllowed)) then
      skipFrom flow line (column + 1) keyAllowed comment rest
    else if c = '#' then skipFrom flow line (column + 1) keyAllowed true rest
    else ⟨c :: rest, line, column, keyAllowed⟩

namespace Cursor

/-- The cursor at the next token. -/
def skip (flow : Bool) (c : Cursor) : Cursor := skipFrom flow c.line c.column c.keyAllowed false c.rest

/-- The cursor `count` characters further on the same line. -/
def forward (c : Cursor) (count : Nat) (keyAllowed : Bool) : Cursor :=
  ⟨c.rest.drop count, c.line, c.column + count, keyAllowed⟩

/-- The cursor behind the blanks of its line. -/
def skipBlanks (c : Cursor) : Cursor :=
  let blanks := (c.rest.takeWhile fun d => d == ' ' || d == '\t').length
  c.forward blanks c.keyAllowed

/-- Whether three marks at the start of a line begin or end a document here. -/
def atMark (c : Cursor) (mark : Char) : Bool :=
  c.column == 0 && c.rest.take 3 == [mark, mark, mark] && atBlank (c.rest.drop 3)

/-- Whether the document is over. -/
def atEnd (c : Cursor) : Bool := c.rest.isEmpty || c.atMark '-' || c.atMark '.'

/-- Whether a list entry starts here. -/
def atDash (c : Cursor) : Bool := c.rest.head? == some '-' && atBlank (c.rest.drop 1)

/-- Whether the sign between a key and its value stands here. -/
def atColon (flow : Bool) (c : Cursor) : Bool := c.rest.head? == some ':' && (flow || atBlank (c.rest.drop 1))

end Cursor

/-! ## Scalars -/

/-- The characters of a plain scalar up to a blank or to a sign that ends it, the last first. In flow context a colon right
before a flow mark is refused. -/
def plainChunk (flow : Bool) (column : Nat) (chunk : List Char) : List Char → Option (List Char × Nat × List Char)
  | [] => some (chunk, column, [])
  | c :: rest =>
    if atBlank (c :: rest) then some (chunk, column, c :: rest)
    else if c = ':' && atBlank rest then some (chunk, column, c :: rest)
    else if flow && c = ':' && (rest.head?.any fun d => isFlowMark d || d == '?') then none
    else if flow && isFlowMark c then some (chunk, column, c :: rest)
    else plainChunk flow (column + 1) (c :: chunk) rest

/-- The blanks and line breaks inside a scalar: how many blanks stand before the first break, how many breaks there are,
and where the text goes on. A tab that stands left of the indentation is refused. -/
def gap (indent line column : Nat) (blanks : List Char) (breaks : Nat) :
    List Char → Option (List Char × Nat × Nat × Nat × List Char)
  | [] => some (blanks, breaks, line, column, [])
  | c :: rest =>
    if c = '\n' then gap indent (line + 1) 0 blanks (breaks + 1) rest
    else if c = ' ' || c = '\t' then
      if breaks > 0 && column < indent && c = '\t' then none
      else gap indent line (column + 1) (if breaks = 0 then c :: blanks else blanks) breaks rest
    else some (blanks, breaks, line, column, c :: rest)

/-- What a gap inside a scalar stands for, the last first: its blanks, a blank for a single break, or one break less. -/
def fold (blanks : List Char) : Nat → List Char
  | 0 => blanks
  | 1 => [' ']
  | breaks + 2 => List.replicate (breaks + 1) '\n'

/-- A plain scalar gathered onto `text`, the last first; the lines that continue it are indented by `indent`. -/
def plainFrom (fuel : Nat) (flow : Bool) (indent : Nat) (text : List Char) (c : Cursor) : Option (List Char × Cursor) :=
  match fuel with
  | 0 => none
  | fuel + 1 => do
    let (chunk, column, rest) ← plainChunk flow c.column [] c.rest
    let text := chunk ++ text
    let (blanks, breaks, line, column, rest) ← gap indent c.line column [] 0 rest
    let next : Cursor := ⟨rest, line, column, breaks > 0⟩
    if next.atEnd || rest.head? == some '#' || (!flow && breaks > 0 && column < indent) then some (text, next)
    else
      match ← plainChunk flow column [] rest with
      | ([], _, _) => some (text, next)
      | _ => plainFrom fuel flow indent (fold blanks breaks ++ text) next

/-- The character that an escape of one letter stands for. -/
def letterEscape? : Char → Option Char
  | '0' => some '\x00'
  | 'a' => some '\x07'
  | 'b' => some '\x08'
  | 't' | '\t' => some '\t'
  | 'n' => some '\n'
  | 'v' => some '\x0b'
  | 'f' => some '\x0c'
  | 'r' => some '\r'
  | 'e' => some '\x1b'
  | ' ' => some ' '
  | '"' => some '"'
  | '/' => some '/'
  | '\\' => some '\\'
  | 'N' => some '\u0085'
  | '_' => some '\u00a0'
  | 'L' => some '\u2028'
  | 'P' => some '\u2029'
  | _ => none

/-- How many hexadecimal digits an escape takes. -/
def escapeWidth? : Char → Option Nat
  | 'x' => some 2
  | 'u' => some 4
  | 'U' => some 8
  | _ => none

/-- The character that hexadecimal digits name. -/
def codePoint? (width : Nat) (text : List Char) : Option Char := do
  let n ← digits? 16 (text.take width)
  if (text.take width).length = width ∧ n.isValidChar then some (Char.ofNat n) else none

/-- A quoted scalar gathered onto `text`, the last first, up to its closing quote. -/
def quotedFrom (fuel : Nat) (quote : Char) (text : List Char) (c : Cursor) : Option (List Char × Cursor) :=
  match fuel with
  | 0 => none
  | fuel + 1 =>
    if c.atEnd then none
    else match c.rest with
      | [] => none
      | d :: rest =>
        if d = quote then
          if quote = '\'' && rest.head? == some '\'' then quotedFrom fuel quote ('\'' :: text) (c.forward 2 false)
          else some (text, c.forward 1 false)
        else if d = '\\' && quote = '"' then
          match rest with
          | '\n' :: after => do
            let (_, breaks, line, column, rest) ← gap 0 (c.line + 1) 0 [] 1 after
            quotedFrom fuel quote (List.replicate (breaks - 1) '\n' ++ text) ⟨rest, line, column, false⟩
          | e :: after =>
            match letterEscape? e, escapeWidth? e with
            | some meant, _ => quotedFrom fuel quote (meant :: text) (c.forward 2 false)
            | none, some width => do
              let meant ← codePoint? width after
              quotedFrom fuel quote (meant :: text) (c.forward (2 + width) false)
            | none, none => none
          | [] => none
        else if atBlank c.rest then do
          let (blanks, breaks, line, column, rest) ← gap 0 c.line c.column [] 0 c.rest
          quotedFrom fuel quote (fold blanks breaks ++ text) ⟨rest, line, column, false⟩
        else quotedFrom fuel quote (d :: text) (c.forward 1 false)

/-- Whether a plain scalar may start here. -/
def startsPlain (flow : Bool) : List Char → Bool
  | [] => false
  | c :: rest =>
    if c == '-' then !atBlank rest
    else if c == '?' || c == ':' then !flow && !atBlank rest
    else !atBlank [c] && !isFlowMark c && !"#&*!|>%@".toList.contains c && c.toNat != 39 && c.toNat != 34 && c.toNat != 96

/-- The scalar at the cursor. -/
def scalar (fuel : Nat) (flow : Bool) (indent : Nat) (c : Cursor) : Option (Yaml × Cursor) :=
  match c.rest with
  | [] => none
  | d :: _ =>
    if d = '"' || d = '\'' then
      (quotedFrom fuel d [] (c.forward 1 false)).map fun (text, c) => (quoted (String.ofList text.reverse), c)
    else if startsPlain flow c.rest then
      (plainFrom fuel flow indent [] c).map fun (text, c) => (plain (String.ofList text.reverse), c)
    else none

/-! ## Nodes -/

/-- Nothing where a node could stand. -/
def empty : Yaml := plain ""

mutual

/-- The node at the cursor in flow context. -/
def flowNode (fuel : Nat) (c : Cursor) : Option (Yaml × Cursor) :=
  match fuel with
  | 0 => none
  | fuel + 1 =>
    match c.rest with
    | '[' :: _ => flowItems fuel [] ((c.forward 1 true).skip true)
    | '\x7b' :: _ => flowEntries fuel [] ((c.forward 1 true).skip true)
    | _ => if c.atEnd then none else scalar fuel true 0 c

/-- The value behind a colon in flow context, or nothing before a comma or a closing bracket. -/
def flowValue (fuel : Nat) (c : Cursor) : Option (Yaml × Cursor) :=
  match fuel with
  | 0 => none
  | fuel + 1 =>
    match c.rest with
    | ',' :: _ | ']' :: _ | '\x7d' :: _ => some (empty, c)
    | _ => flowNode fuel c

/-- The items of a flow list up to its closing bracket; an item may be a single entry of a map. -/
def flowItems (fuel : Nat) (items : List Yaml) (c : Cursor) : Option (Yaml × Cursor) :=
  match fuel with
  | 0 => none
  | fuel + 1 =>
    match c.rest with
    | ']' :: _ => some (list items.reverse, c.forward 1 false)
    | _ => do
      let (item, after) ← flowNode fuel c
      let colon := after.skipBlanks
      let (item, after) ←
        if colon.line = c.line ∧ colon.atColon true then
          (flowValue fuel ((colon.forward 1 true).skip true)).map fun (value, c) => (map [(item, value)], c)
        else some (item, after)
      let after := after.skip true
      match after.rest with
      | ',' :: _ => flowItems fuel (item :: items) ((after.forward 1 true).skip true)
      | ']' :: _ => some (list (item :: items).reverse, after.forward 1 false)
      | _ => none

/-- The entries of a flow map up to its closing brace; a key may stand alone. -/
def flowEntries (fuel : Nat) (entries : List (Yaml × Yaml)) (c : Cursor) : Option (Yaml × Cursor) :=
  match fuel with
  | 0 => none
  | fuel + 1 =>
    match c.rest with
    | '\x7d' :: _ => some (map entries.reverse, c.forward 1 false)
    | _ => do
      let (key, after) ← if c.atColon true then some (empty, c) else flowNode fuel c
      let colon := after.skipBlanks
      let (value, after) ←
        if colon.line = c.line ∧ colon.atColon true then flowValue fuel ((colon.forward 1 true).skip true)
        else some (empty, after)
      let after := after.skip true
      match after.rest with
      | ',' :: _ => flowEntries fuel ((key, value) :: entries) ((after.forward 1 true).skip true)
      | '\x7d' :: _ => some (map ((key, value) :: entries).reverse, after.forward 1 false)
      | _ => none

end

mutual

/-- The node at the cursor in block context, inside an entry whose column is one less than `indent`. A node further left
is none: the entry holds nothing. -/
def blockNode (fuel : Nat) (indent : Nat) (c : Cursor) : Option (Yaml × Cursor) :=
  match fuel with
  | 0 => none
  | fuel + 1 =>
    if c.atEnd || c.column < indent then some (empty, c)
    else if c.atDash then
      if c.keyAllowed then blockItems fuel c.column [] c else none
    else match c.rest with
      | '[' :: _ | '\x7b' :: _ => do
        let (node, after) ← flowNode fuel c
        if after.skipBlanks.atColon false then none else some (node, after)
      | _ => do
        let (node, after) ← scalar fuel false indent c
        let colon := after.skipBlanks
        if colon.atColon false then
          if c.keyAllowed && colon.line = c.line then blockEntries fuel c.column [] c else none
        else some (node, after)

/-- The entries of a block list in a column. -/
def blockItems (fuel : Nat) (column : Nat) (items : List Yaml) (c : Cursor) : Option (Yaml × Cursor) :=
  match fuel with
  | 0 => none
  | fuel + 1 => do
    let (item, after) ← blockNode fuel (column + 1) ((c.forward 1 true).skip false)
    let after := after.skip false
    let items := item :: items
    if after.atEnd || after.column < column then some (list items.reverse, after)
    else if after.column > column then none
    else if after.atDash then blockItems fuel column items after
    else some (list items.reverse, after)

/-- The entries of a block map in a column. The list that is the value of a key may start in the column of the key. -/
def blockEntries (fuel : Nat) (column : Nat) (entries : List (Yaml × Yaml)) (c : Cursor) : Option (Yaml × Cursor) :=
  match fuel with
  | 0 => none
  | fuel + 1 => do
    let (key, after) ← scalar fuel false (column + 1) c
    let colon := after.skipBlanks
    if colon.line ≠ c.line ∨ ¬colon.atColon false then none
    else
      let start := (colon.forward 1 false).skip false
      let (value, after) ←
        if start.line > colon.line ∧ start.column = column ∧ start.atDash ∧ ¬start.atEnd then
          blockItems fuel column [] start
        else blockNode fuel (column + 1) start
      let after := after.skip false
      let entries := (key, value) :: entries
      if after.atEnd || after.column < column then some (map entries.reverse, after)
      else if after.column > column then none
      else blockEntries fuel column entries after

end

/-! ## Documents -/

/-- The document a text is; a text may hold only one. -/
def read? (text : String) : Option Yaml := do
  let chars := unifyBreaks text.toList
  let chars := match chars with
    | '\ufeff' :: rest => rest
    | rest => rest
  if !chars.all isPrintable then none
  else
    let fuel := 4 * chars.length + 8
    let start := Cursor.skip false ⟨chars, 0, 0, true⟩
    let start := if start.atMark '-' then (start.forward 3 false).skip false else start
    let (node, after) ← blockNode fuel 0 start
    let after := after.skip false
    let after := if after.atMark '.' then (after.forward 3 false).skip false else after
    if after.rest.isEmpty then some node else none

end TileDepot.Yaml
