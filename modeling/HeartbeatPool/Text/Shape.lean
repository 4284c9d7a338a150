import HeartbeatPool.Text.Quoted

/-!
# Outlines of values

An outline shows a value with the names of its fields, on one line or as an indented block.  In a
block every field and every item has a line of its own that ends with a comma, and all lines of a
nested outline are indented by four blanks, those inside a multi-line text included.
-/

namespace HeartbeatPool.Text

/-- What an outline is made of. -/
inductive Shape where
  /-- A text that is shown as it is. -/
  | plain (text : String)
  /-- Named fields in braces; `more` says that there are fields which are not shown. -/
  | record (name : String) (fields : List (String × Shape)) (more : Bool)
  /-- Values in parentheses after a name. -/
  | tagged (name : String) (items : List Shape)
  /-- Values in brackets. -/
  | list (items : List Shape)
  /-- Keys with their values, in braces. -/
  | map (entries : List (String × Shape))

namespace Shape

/-- A quoted text. -/
def text (value : String) : Shape := .plain (quote value)

/-- A number in decimal digits. -/
def number (n : Nat) : Shape := .plain (toString n)

/-- A value that may be missing. -/
def optional : Option Shape → Shape
  | none => .plain "None"
  | some value => .tagged "Some" [value]

/-- Puts four blanks before every line of a text that is not empty. -/
def indent (text : String) : String :=
  String.ofList (go true text.toList)
where
  go : Bool → List Char → List Char
    | _, [] => []
    | atStart, c :: rest =>
        let tail := c :: go (c = '\n') rest
        if atStart then ' ' :: ' ' :: ' ' :: ' ' :: tail else tail

mutual

/-- The outline on one line. -/
def line : Shape → String
  | .plain text => text
  | .record name fields more =>
      let shown := if more then lineFields fields ++ [".."] else lineFields fields
      if shown.isEmpty then name else name ++ " \x7b " ++ ", ".intercalate shown ++ " \x7d"
  | .tagged name items => name ++ "(" ++ ", ".intercalate (lineItems items) ++ ")"
  | .list items => "[" ++ ", ".intercalate (lineItems items) ++ "]"
  | .map entries => "\x7b" ++ ", ".intercalate (lineEntries entries) ++ "\x7d"

/-- Fields on one line. -/
def lineFields : List (String × Shape) → List String
  | [] => []
  | (name, value) :: rest => (name ++ ": " ++ value.line) :: lineFields rest

/-- Items on one line. -/
def lineItems : List Shape → List String
  | [] => []
  | value :: rest => value.line :: lineItems rest

/-- Keys and values on one line. -/
def lineEntries : List (String × Shape) → List String
  | [] => []
  | (key, value) :: rest => (quote key ++ ": " ++ value.line) :: lineEntries rest

end

/-- Lines between an opening and a closing text, each indented. -/
def between (opening closing : String) (lines : List String) : String :=
  if lines.isEmpty then opening ++ closing
  else opening ++ "\n" ++ indent (String.join (lines.map (· ++ "\n"))) ++ closing

mutual

/-- The outline as an indented block. -/
def block : Shape → String
  | .plain text => text
  | .record name fields more =>
      let shown := if more then blockFields fields ++ [".."] else blockFields fields
      if shown.isEmpty then name else name ++ between " \x7b" "\x7d" shown
  | .tagged name items => name ++ between "(" ")" (blockItems items)
  | .list items => between "[" "]" (blockItems items)
  | .map entries => between "\x7b" "\x7d" (blockEntries entries)

/-- The lines of fields. -/
def blockFields : List (String × Shape) → List String
  | [] => []
  | (name, value) :: rest => (name ++ ": " ++ value.block ++ ",") :: blockFields rest

/-- The lines of items. -/
def blockItems : List Shape → List String
  | [] => []
  | value :: rest => (value.block ++ ",") :: blockItems rest

/-- The lines of keys and values. -/
def blockEntries : List (String × Shape) → List String
  | [] => []
  | (key, value) :: rest => (quote key ++ ": " ++ value.block ++ ",") :: blockEntries rest

end

end Shape

end HeartbeatPool.Text
