import BackingField.Text.LowerCase

/-!
# Declarations of field-backed properties

A declaration is the block

```text
<indent><access> <type> <name>
<indent>{
<indent>    get;
<indent>    set => <method>(ref field, value);
<indent>}
```

given by the nine texts that vary from one block to the next.  Its expanded form declares a private
backing field in front of the property and names that field in both accessors.
-/

namespace BackingField

/-- The varying parts of a field-backed property. -/
@[ext]
structure Declaration where
  /-- Indentation of the line with the name. -/
  indent : Text
  /-- Access keyword. -/
  access : Text
  /-- Type, with its type arguments and array brackets. -/
  type : Text
  /-- Name of the property. -/
  name : Text
  /-- Indentation of the opening brace. -/
  braceIndent : Text
  /-- Indentation of the getter. -/
  getIndent : Text
  /-- Indentation of the setter. -/
  setIndent : Text
  /-- Method that the setter calls. -/
  method : Text
  /-- Indentation of the closing brace. -/
  closeIndent : Text
deriving DecidableEq

/-- The two ways to end a line. -/
inductive LineEnding where
  | lf
  | crlf
deriving DecidableEq

namespace LineEnding

/-- Characters of a line ending. -/
def text : LineEnding → Text
  | lf => ['\n']
  | crlf => ['\r', '\n']

/-- Line ending of a block: one carriage return in front of a line feed, anywhere in the block,
makes it `crlf`. -/
def ofText : Text → LineEnding
  | '\r' :: '\n' :: _ => crlf
  | _ :: t => ofText t
  | [] => lf

end LineEnding

namespace Declaration

/-- Name of the backing field of a property: an underscore, and the name with its first character
in lower case. -/
def fieldName : Text → Text
  | [] => ['_']
  | c :: name => '_' :: Text.lower c ++ name

/-- The expanded form of a declaration.  Each line keeps the indentation that it had, and no line
ending follows the closing brace. -/
def expanded (d : Declaration) (ending : LineEnding) : Text :=
  let field := fieldName d.name
  let newLine := ending.text
  d.indent ++ "private ".toList ++ d.type ++ " ".toList ++ field ++ ";".toList ++ newLine ++
  d.indent ++ d.access ++ " ".toList ++ d.type ++ " ".toList ++ d.name ++ newLine ++
  d.braceIndent ++ "\x7b".toList ++ newLine ++
  d.getIndent ++ "get => ".toList ++ field ++ ";".toList ++ newLine ++
  d.setIndent ++ "set => ".toList ++ d.method ++ "(ref ".toList ++ field ++ ", value);".toList ++
    newLine ++
  d.closeIndent ++ "\x7d".toList

end Declaration
end BackingField
