/-
  What can go wrong with files.
-/
namespace FieldBinder.FileTree

/-- Why an operation on files failed. -/
inductive Fault
  | notFound
  /-- A path that ends in `.` or `..`, where a name is needed. -/
  | busy
  | exists_
  | notADirectory
  | isADirectory
  /-- A path with a null character as the place to move a file to. -/
  | invalidArgument
  /-- A name or a path of too many bytes. -/
  | nameTooLong
  /-- A path with a null character. -/
  | nullInName
  /-- A file whose bytes are no text. -/
  | notText
deriving DecidableEq, Repr

/-- The words of the system for a fault. -/
def Fault.message : Fault → String
  | notFound => "No such file or directory (os error 2)"
  | busy => "Device or resource busy (os error 16)"
  | exists_ => "File exists (os error 17)"
  | notADirectory => "Not a directory (os error 20)"
  | isADirectory => "Is a directory (os error 21)"
  | invalidArgument => "Invalid argument (os error 22)"
  | nameTooLong => "File name too long (os error 36)"
  | nullInName => "file name contained an unexpected NUL byte"
  | notText => "stream did not contain valid UTF-8"

end FieldBinder.FileTree
