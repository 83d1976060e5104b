import BackingField.Text.Basic

/-!
# Errors of the file system

Why an access to the file system fails, with the words in which it is told.
-/

namespace BackingField

/-- Cause of a failed access. -/
inductive IoError where
  | noSuchEntry
  | permissionDenied
  | alreadyExists
  | notADirectory
  | isADirectory
  | fileTooLarge
  | nameTooLong
  | tooManyLinks
  /-- A path holds a zero byte. -/
  | zeroByte
  /-- The contents of a file are not UTF-8. -/
  | notUtf8
  /-- Anything else that the machine reports by a number. -/
  | other (code : Nat)
deriving DecidableEq

namespace IoError

/-- Number under which the machine reports an error. -/
def code? : IoError → Option Nat
  | noSuchEntry => some 2
  | permissionDenied => some 13
  | alreadyExists => some 17
  | notADirectory => some 20
  | isADirectory => some 21
  | fileTooLarge => some 27
  | nameTooLong => some 36
  | tooManyLinks => some 40
  | zeroByte => none
  | notUtf8 => none
  | other code => some code

/-- What an error means. -/
def meaning : IoError → Text
  | noSuchEntry => "No such file or directory".toList
  | permissionDenied => "Permission denied".toList
  | alreadyExists => "File exists".toList
  | notADirectory => "Not a directory".toList
  | isADirectory => "Is a directory".toList
  | fileTooLarge => "File too large".toList
  | nameTooLong => "File name too long".toList
  | tooManyLinks => "Too many levels of symbolic links".toList
  | zeroByte => "file name contained an unexpected NUL byte".toList
  | notUtf8 => "stream did not contain valid UTF-8".toList
  | other code => "Unknown error ".toList ++ Text.ofNat code

/-- Text of an error: its meaning, and its number if it has one. -/
def message (e : IoError) : Text :=
  match e.code? with
  | some code => e.meaning ++ " (os error ".toList ++ Text.ofNat code ++ ")".toList
  | none => e.meaning

/-- The error that the machine reports by a number. -/
def ofCode (code : Nat) : IoError :=
  let known := [noSuchEntry, permissionDenied, alreadyExists, notADirectory, isADirectory,
    fileTooLarge, nameTooLong, tooManyLinks]
  (known.find? fun e => e.code? == some code).getD (other code)

end IoError
end BackingField
