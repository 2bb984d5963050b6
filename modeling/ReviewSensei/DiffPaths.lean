import ReviewSensei.SessionLedger

/-! Lines of a unified diff and the paths their headers and file markers name. -/
namespace ReviewSensei.Diff

abbrev Text := List Char
abbrev Path := List Char

instance textBEq : LawfulBEq Text := inferInstance

open Session (isPythonSpace stripBy)

def text (s : String) : Text := s.toList

/-- The size of a text in UTF-8. -/
def utf8Size (t : Text) : Nat := (t.map Char.utf8Size).sum

def starts (head : String) (t : Text) : Bool := head.toList.isPrefixOf t

/-- What is left of a text after a head of the given length. -/
def after (head : String) (t : Text) : Text := t.drop head.length

/-- The records end at LF only; the empty record after a last LF is dropped. -/
def lines (t : Text) : List Text :=
  let records := t.splitOn '\n'
  if records.getLast? = some [] then records.dropLast else records

def joined (ls : List Text) : Text := ls.flatMap (fun l => l ++ ['\n'])

/-- What the code reads of the Unicode tables. -/
structure UnicodeRules where
  /-- The text is its own NFC form. -/
  nfc : Text → Bool
  /-- The character is of category Cc, Cf or Cs. -/
  forbidden : Char → Bool

variable (rules : UnicodeRules)

def maxRepositoryPathBytes : Nat := 4096
def maxRepositoryPathSegmentBytes : Nat := 255

/-- `re.match("^[A-Za-z]:", segment)`. -/
def drivePrefix : Text → Bool
  | c :: ':' :: _ => c.isAlpha
  | _ => false

/-- `validate_repository_path` for a path that is no pattern. -/
def validateRepositoryPath (label : String) (allowGlobChars : Bool) (path : Path) :
    Except String Unit :=
  let segments := path.splitOn '/'
  if path = [] then .error (label ++ " must be repository-relative")
  else if maxRepositoryPathBytes < utf8Size path then
    .error (label ++ " exceeds the maximum path length")
  else if !rules.nfc path then .error (label ++ " must already be NFC")
  else if path.any rules.forbidden then
    .error (label ++ " contains a forbidden control character")
  else if path ≠ stripBy isPythonSpace path ∨ '\\' ∈ path then
    .error (label ++ " must use canonical repository separators")
  else if path.head? = some '/' ∨ path.getLast? = some '/' ∨
      drivePrefix (segments.headD []) = true then
    .error (label ++ " must be repository-relative")
  else if segments.any (fun s => s = [] ∨ s = ['.'] ∨ s = ['.', '.']) then
    .error (label ++ " must not contain dot or empty segments")
  else if segments.any (fun s => s ≠ stripBy isPythonSpace s) then
    .error (label ++ " must not contain surrounding whitespace")
  else if segments.any (fun s => decide (maxRepositoryPathSegmentBytes < utf8Size s)) then
    .error (label ++ " contains an oversized path segment")
  else if !allowGlobChars && path.any (fun c => c ∈ ['*', '?', '[', ']']) then
    .error (label ++ " must not contain glob tokens")
  else .ok ()

/-- The byte a one-letter escape of Git's quoted paths stands for. -/
def namedEscape : Char → Option UInt8
  | 'a' => some 0x07
  | 'b' => some 0x08
  | 't' => some 0x09
  | 'n' => some 0x0a
  | 'v' => some 0x0b
  | 'f' => some 0x0c
  | 'r' => some 0x0d
  | '"' => some 0x22
  | '\\' => some 0x5c
  | _ => none

def octalDigit (c : Char) : Option Nat :=
  if '0' ≤ c ∧ c ≤ '7' then some (c.toNat - '0'.toNat) else none

/-- `output.append(int(digits, 8))`: a value beyond one byte is an error. -/
def octalByte (a b c : Char) : Option UInt8 := do
  let x ← octalDigit a
  let y ← octalDigit b
  let z ← octalDigit c
  let value := 64 * x + 8 * y + z
  if value < 256 then some (UInt8.ofNat value) else none

/-- The bytes of a quoted path's content. -/
def quotedBytes : Text → Option (List UInt8)
  | [] => some []
  | '\\' :: c :: rest =>
    match namedEscape c with
    | some byte => (quotedBytes rest).map (byte :: ·)
    | none =>
      match rest with
      | d :: e :: rest' => do
        let byte ← octalByte c d e
        let bytes ← quotedBytes rest'
        return byte :: bytes
      | _ => none
  | ['\\'] => none
  | c :: rest => (quotedBytes rest).map (String.utf8EncodeChar c ++ ·)

def decodeUtf8 (bytes : List UInt8) : Option Text :=
  (String.fromUTF8? (ByteArray.mk bytes.toArray)).map String.toList

/-- `value[1:-1]` of a text of at least two characters. -/
def inside (t : Text) : Text := (t.drop 1).dropLast

def decodeGitCQuotedPath (label : String) (allowGlobChars : Bool) (value : Text) :
    Except String Path :=
  if value.head? ≠ some '"' then do
    validateRepositoryPath rules label allowGlobChars value
    return value
  else if value.length < 2 ∨ value.getLast? ≠ some '"' then
    .error (label ++ " contains an invalid quoted path")
  else
    match quotedBytes (inside value) with
    | none => .error (label ++ " contains an invalid quoted escape")
    | some bytes =>
      match decodeUtf8 bytes with
      | none => .error (label ++ " is not valid UTF-8")
      | some decoded => do
        validateRepositoryPath rules label allowGlobChars decoded
        return decoded

/-- The rest of a quoted token after its opening quote, with the closing one. -/
def quotedTail : Bool → Text → Option (Text × Text)
  | _, [] => none
  | true, c :: rest => (quotedTail false rest).map (fun p => (c :: p.1, p.2))
  | false, c :: rest =>
    if c = '"' then some (['"'], rest)
    else (quotedTail (c = '\\') rest).map (fun p => (c :: p.1, p.2))

/-- One quoted token at the start of the text, with its quotes, and what follows it. -/
def scanQuotedToken : Text → Except String (Text × Text)
  | '"' :: rest =>
    match quotedTail false rest with
    | some (tail, rest') => .ok ('"' :: tail, rest')
    | none => .error "diff contains an unterminated quoted path"
  | _ => .error "diff contains an invalid quoted path"

inductive GitHeader
  | fields (old new : Text)
  /-- Several boundaries are possible; the file markers decide. -/
  | unresolvedUnquoted (rest : Text)
  deriving DecidableEq

/-- Where a word stands in a text. -/
def occurrences (word : String) (t : Text) : List Nat :=
  (List.range t.length).filter (fun i => starts word (t.drop i))

/-- The tokens between white space; `fuel` bounds their number. -/
def headerTokens : Nat → Text → Except String (List Text)
  | 0, _ => .ok []
  | fuel + 1, t =>
    let t := t.dropWhile isPythonSpace
    match t with
    | [] => .ok []
    | '"' :: _ => do
      let (token, rest) ← scanQuotedToken t
      let tokens ← headerTokens fuel rest
      return token :: tokens
    | _ => do
      let tokens ← headerTokens fuel (t.dropWhile (!isPythonSpace ·))
      return t.takeWhile (!isPythonSpace ·) :: tokens

def splitByTokens (rest : Text) : Except String GitHeader := do
  let tokens ← headerTokens rest.length rest
  match tokens with
  | [old, new] => return .fields old new
  | _ => .error "diff contains an invalid Git header"

/-- Both sides of an unquoted header whose two paths are equal. -/
def equalSides (rest : Text) : Option GitHeader :=
  let midpoint := (rest.length + 1) / 2
  if starts "a/" rest ∧ 2 < midpoint ∧ midpoint + 2 ≤ rest.length ∧
      rest[midpoint - 1]? = some ' ' ∧ starts "b/" (rest.drop midpoint) ∧
      (rest.take (midpoint - 1)).drop 2 = rest.drop (midpoint + 2) then
    some (.fields (rest.take (midpoint - 1)) (rest.drop midpoint))
  else none

def splitGitHeader (line : Text) : Except String GitHeader :=
  let rest := after "diff --git " line
  if '"' ∈ rest then splitByTokens rest
  else
    match occurrences " b/" rest with
    | [] => splitByTokens rest
    | [boundary] =>
      if starts "a/" (rest.take boundary) ∧ starts "b/" (rest.drop (boundary + 1)) then
        .ok (.fields (rest.take boundary) (rest.drop (boundary + 1)))
      else splitByTokens rest
    | _ => .ok ((equalSides rest).getD (.unresolvedUnquoted rest))

def decodePathField (label : String) (side : Bool) (field : Text) :
    Except String (Option Path) :=
  if field = text "/dev/null" then .ok none
  else do
    let decoded ← decodeGitCQuotedPath rules label true field
    let decoded := if side && (starts "a/" decoded || starts "b/" decoded) then decoded.drop 2
      else decoded
    if decoded = text "/dev/null" then return none
    else do
      validateRepositoryPath rules label true decoded
      return some decoded

def decodeGitHeaderFields (old new : Text) : Except String (Option Path × Option Path) := do
  let oldPath ← decodePathField rules "diff Git path" true old
  let newPath ← decodePathField rules "diff Git path" true new
  return (oldPath, newPath)

def stripCarriageReturns (t : Text) : Text := (t.reverse.dropWhile (· = '\r')).reverse

/-- A quoted field loses what stands outside its quotes, which must be blank. -/
def unquotedField (invalid : String) (field : Text) : Except String Text :=
  if field.head? = some '"' then do
    let (token, rest) ← scanQuotedToken field
    if stripBy isPythonSpace rest = [] then return token else .error invalid
  else .ok field

/-- `_decode_marker` of a line that starts with its marker, which is four characters long. -/
def decodeMarker (line : Text) : Except String (Option Path) := do
  let field := (stripCarriageReturns (line.drop 4)).takeWhile (· ≠ '\t')
  let field ← unquotedField "diff contains an invalid quoted file marker" field
  decodePathField rules "diff file marker" true field

def decodeRenamePath (head : String) (line : Text) : Except String (Option Path) := do
  let field := stripCarriageReturns (after head line)
  let field ← unquotedField "diff contains an invalid rename path" field
  decodePathField rules "diff rename path" false field

end ReviewSensei.Diff
