import ScriptTyping.Number.Read

/-!
What literals denote. Underscores in numbers do not count, and suffixes that only name a type are
dropped; quoted text resolves its escapes.
-/

namespace ScriptTyping

namespace Literal

/-! ### Numbers -/

def withoutUnderscores (text : String) : List Char := text.toList.filter (· != '_')

def dropSuffix (suffix text : List Char) : List Char :=
  (text.reverse.dropWhile suffix.contains).reverse

def integer (text : String) : Except NumberTextError Int :=
  match withoutUnderscores text with
  | '0' :: 'b' :: digits => NumberText.readInt32 2 digits
  | '0' :: 'B' :: digits => NumberText.readInt32 2 digits
  | '0' :: 'x' :: digits => NumberText.readInt32 16 digits
  | '0' :: 'X' :: digits => NumberText.readInt32 16 digits
  | digits => NumberText.readInt32 10 digits

def long (text : String) : Except NumberTextError Int :=
  NumberText.readInt64 10 (dropSuffix ['l', 'L'] (withoutUnderscores text))

def double (text : String) : Except NumberTextError Binary64 :=
  NumberText.readDouble (dropSuffix ['f', 'F', 'd', 'D'] (withoutUnderscores text))

/-! ### Quoted text -/

def withoutQuotes (text : List Char) : List Char :=
  match text with
  | quote :: rest =>
    if (quote = '"' ∨ quote = '\'') ∧ rest.getLast? = some quote then rest.dropLast else text
  | [] => []

def escaped : Char → Char
  | 'n' => '\n'
  | 't' => '\t'
  | 'r' => '\r'
  | 'b' => '\x08'
  | 'f' => '\x0c'
  | '0' => '\x00'
  | char => char

def codePoint? (digits : List Char) : Option Char :=
  match NumberText.readNat32 16 digits with
  | .ok value => if value.toNat.isValidChar then some (Char.ofNat value.toNat) else none
  | .error _ => none

/-- What the four characters after `\u` denote; when they are no code point, they stay as they
are. -/
def unicodeEscape (digits : List Char) : List Char :=
  match codePoint? digits with
  | some char => [char]
  | none => '\\' :: 'u' :: digits

def unescape : List Char → List Char
  | [] => []
  | ['\\'] => ['\\']
  | '\\' :: 'u' :: rest => unicodeEscape (rest.take 4) ++ unescape (rest.drop 4)
  | '\\' :: char :: rest => escaped char :: unescape rest
  | char :: rest => char :: unescape rest
  termination_by text => text.length
  decreasing_by all_goals simp only [List.length_cons, List.length_drop]; omega

def unquote (text : String) : String := String.ofList (unescape (withoutQuotes text.toList))

end Literal

end ScriptTyping
