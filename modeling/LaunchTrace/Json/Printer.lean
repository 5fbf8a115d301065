import LaunchTrace.Json.Basic

/-! Writing JSON, on one line without spaces or on many lines with two spaces of indentation a level. Only quotes,
backslashes and the characters below U+0020 are escaped. -/
namespace LaunchTrace.Json

/-- The written form of a character that may not stand for itself inside a literal. -/
def escape? (c : Char) : Option (List Char) :=
  if c = '"' then some ['\\', '"']
  else if c = '\\' then some ['\\', '\\']
  else if c = '\x08' then some ['\\', 'b']
  else if c = '\x0c' then some ['\\', 'f']
  else if c = '\n' then some ['\\', 'n']
  else if c = '\r' then some ['\\', 'r']
  else if c = '\t' then some ['\\', 't']
  else if c.toNat < 0x20 then
    some ['\\', 'u', '0', '0', Nat.digitChar (c.toNat / 16), Nat.digitChar (c.toNat % 16)]
  else none

def escapeChar (c : Char) : List Char :=
  (escape? c).getD [c]

def literal (s : List Char) : List Char :=
  '"' :: s.flatMap escapeChar ++ ['"']

/-- The literal of a text. What is no text shows as the replacement character. -/
def literalOf (text : Option String) : List Char :=
  literal (text.getD "\uFFFD").toList

mutual

/-- The value on one line. -/
def render : Json → List Char
  | .null => "null".toList
  | .bool true => "true".toList
  | .bool false => "false".toList
  | .number spelling => spelling
  | .string text => literalOf text
  | .array items => '[' :: renderItems items ++ [']']
  | .object members => '{' :: renderMembers members ++ ['}']

def renderItems : List Json → List Char
  | [] => []
  | [item] => render item
  | item :: rest => render item ++ ',' :: renderItems rest

def renderMembers : List (Option String × Json) → List Char
  | [] => []
  | [(key, value)] => literalOf key ++ ':' :: render value
  | (key, value) :: rest => literalOf key ++ ':' :: render value ++ ',' :: renderMembers rest

end

/-- A new line indented to a level. -/
def newLine (level : Nat) : List Char :=
  '\n' :: List.replicate (2 * level) ' '

mutual

/-- The value on many lines, every item and member on its own. -/
def renderIndented (level : Nat) : Json → List Char
  | .array [] => ['[', ']']
  | .array items => '[' :: renderItemsIndented (level + 1) items ++ newLine level ++ [']']
  | .object [] => ['{', '}']
  | .object members => '{' :: renderMembersIndented (level + 1) members ++ newLine level ++ ['}']
  | value => render value

def renderItemsIndented (level : Nat) : List Json → List Char
  | [] => []
  | [item] => newLine level ++ renderIndented level item
  | item :: rest => newLine level ++ renderIndented level item ++ ',' :: renderItemsIndented level rest

def renderMembersIndented (level : Nat) : List (Option String × Json) → List Char
  | [] => []
  | [(key, value)] => newLine level ++ literalOf key ++ [':', ' '] ++ renderIndented level value
  | (key, value) :: rest =>
    newLine level ++ literalOf key ++ [':', ' '] ++ renderIndented level value
      ++ ',' :: renderMembersIndented level rest

end

end LaunchTrace.Json
