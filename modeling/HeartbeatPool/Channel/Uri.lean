/-!
# Which texts are URIs

The URIs that a channel can be opened to are looked at byte by byte: an optional scheme, an
authority, and a path with a query.  Local sockets, whose URIs begin with `unix:`, may have any
path.
-/

namespace HeartbeatPool.Uri

/-- An ASCII character as a byte. -/
def byte (c : Char) : UInt8 := c.toNat.toUInt8

/-- Whether a byte is an ASCII letter or digit. -/
def isAlphanumeric (b : UInt8) : Bool :=
  (byte '0' ≤ b && b ≤ byte '9') || (byte 'A' ≤ b && b ≤ byte 'Z') ||
    (byte 'a' ≤ b && b ≤ byte 'z')

/-- Whether a byte is one of some ASCII characters. -/
def isOneOf (characters : String) (b : UInt8) : Bool :=
  characters.toList.any fun c => byte c == b

/-! ## Authorities -/

/-- What has been seen of an authority. -/
structure Authority where
  /-- Colons that may belong to the port. -/
  colons : Nat := 0
  opened : Bool := false
  closed : Bool := false
  /-- A percent sign that may belong to the host. -/
  percent : Bool := false
  /-- The last byte was an at sign. -/
  atSign : Bool := false
  deriving DecidableEq, Repr, Inhabited

namespace Authority

/-- Bytes that need no further attention. -/
def isPlain (b : UInt8) : Bool := isAlphanumeric b || isOneOf "!$&'()*+,-.;=_~" b

/-- Whether a byte ends the authority. -/
def isEnd (b : UInt8) : Bool := isOneOf "/?#" b

/-- Takes in one byte.  What precedes an at sign or a closing bracket was no port and no host
name, so colons and percent signs before it are forgotten. -/
def next? (seen : Authority) (b : UInt8) : Option Authority :=
  let seen := { seen with atSign := b == byte '@' }
  if b = byte ':' then
    if 8 ≤ seen.colons then none else some { seen with colons := seen.colons + 1 }
  else if b = byte '[' then
    if seen.percent || seen.opened then none else some { seen with opened := true }
  else if b = byte ']' then
    if !seen.opened || seen.closed then none
    else some { seen with closed := true, colons := 0, percent := false }
  else if b = byte '@' then some { seen with colons := 0, percent := false }
  else if b = byte '%' then some { seen with percent := true }
  else if isPlain b then some seen
  else none

/-- Whether an authority may end here. -/
def isComplete (seen : Authority) : Bool :=
  (seen.opened == seen.closed) && decide (seen.colons ≤ 1) && !seen.atSign && !seen.percent

/-- The authority at the front of some bytes is taken off: what remains starts with the byte that
ends it. -/
def scan (seen : Authority) : List UInt8 → Option (List UInt8)
  | [] => if seen.isComplete then some [] else none
  | b :: rest =>
      if isEnd b then if seen.isComplete then some (b :: rest) else none
      else
        match seen.next? b with
        | none => none
        | some seen => seen.scan rest

/-- Whether some bytes, at least one, are an authority and nothing else. -/
def isWhole (bytes : List UInt8) : Bool := scan {} bytes == some []

end Authority

/-! ## Paths and queries -/

/-- Whether a byte may stand in a path.  Nothing beyond the visible characters of ASCII is refused,
the character for deletion included. -/
def isPathByte (b : UInt8) : Bool :=
  b == 0x21 || b == 0x22 || (0x24 ≤ b && b ≤ 0x3b) || b == 0x3d || (0x40 ≤ b && b ≤ 0x5f) ||
    0x61 ≤ b

/-- Whether a byte may stand in a query.  Here, too, nothing beyond the visible characters is
refused. -/
def isQueryByte (b : UInt8) : Bool :=
  b == 0x21 || (0x24 ≤ b && b ≤ 0x3b) || b == 0x3d || 0x3f ≤ b

/-- Whether some bytes are a query, with a fragment that is not looked at. -/
def isQuery : List UInt8 → Bool
  | [] => true
  | b :: rest => b == byte '#' || (isQueryByte b && isQuery rest)

/-- Whether some bytes are a path, with a query and a fragment. -/
def isPath : List UInt8 → Bool
  | [] => true
  | b :: rest =>
      if b = byte '?' then isQuery rest
      else b == byte '#' || (isPathByte b && isPath rest)

/-! ## Schemes -/

/-- Whether a byte may stand in a scheme. -/
def isSchemeByte (b : UInt8) : Bool := isAlphanumeric b || isOneOf "+.~-" b

/-- The colon and the two slashes behind a scheme. -/
def separator : List UInt8 := [byte ':', byte '/', byte '/']

/-- A letter in lower case. -/
def lower (b : UInt8) : UInt8 := if byte 'A' ≤ b && b ≤ byte 'Z' then b + 32 else b

/-- What a look for a scheme finds. -/
inductive Scheme where
  | absent
  | tooLong
  /-- A scheme, and what follows its separator. -/
  | found (rest : List UInt8)
  deriving DecidableEq, Repr, Inhabited

/-- The longest scheme. -/
def maxSchemeLength : Nat := 64

/-- Looks for a scheme.  The two common ones may be written in any case; any other is the longest
run of scheme bytes, if a separator follows it. -/
def findScheme (bytes : List UInt8) : Scheme :=
  if (bytes.take 7).map lower == "http://".toList.map byte then .found (bytes.drop 7)
  else if (bytes.take 8).map lower == "https://".toList.map byte then .found (bytes.drop 8)
  else if bytes.length ≤ 3 then .absent
  else
    let scheme := bytes.takeWhile isSchemeByte
    let rest := bytes.drop scheme.length
    if !separator.isPrefixOf rest then .absent
    else if maxSchemeLength < scheme.length then .tooLong
    else .found (rest.drop 3)

/-! ## Whole URIs -/

/-- Whether what follows a scheme is an authority, at least one byte long, with a path. -/
def isAbsolute (bytes : List UInt8) : Bool :=
  match Authority.scan {} bytes with
  | none => false
  | some rest => rest.length != bytes.length && isPath rest

/-- The longest URI, in bytes. -/
def maxLength : Nat := 65534

/-- Whether some bytes are a URI. -/
def isValidBytes (bytes : List UInt8) : Bool :=
  if ("unix:".toList.map byte).isPrefixOf bytes then true
  else if maxLength < bytes.length then false
  else
    match bytes with
    | [] => false
    -- the root and the asterisk stand for themselves
    | [b] => b == byte '/' || b == byte '*' || Authority.isWhole [b]
    | b :: rest =>
        if b = byte '/' then isPath (b :: rest)
        else
          match findScheme (b :: rest) with
          | .absent => Authority.isWhole (b :: rest)
          | .tooLong => false
          | .found rest => isAbsolute rest

/-- Whether a text is a URI. -/
def isValid (text : String) : Bool := isValidBytes text.toUTF8.toList

end HeartbeatPool.Uri
