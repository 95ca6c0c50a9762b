/-!
# Faults of the file system

What can go wrong with a file, and the wording the operating system has for it.
-/

namespace WorkflowRepair.Files

/-- Why an operation on a file failed. -/
inductive Fault where
  | notFound
  | notDirectory
  | isDirectory
  | alreadyExists
  | busy
  | notText
  /-- Any other fault, by its wording. -/
  | other (wording : String)
deriving DecidableEq, Repr

/-- The wording of a fault. -/
def Fault.message : Fault → String
  | .notFound => "No such file or directory (os error 2)"
  | .notDirectory => "Not a directory (os error 20)"
  | .isDirectory => "Is a directory (os error 21)"
  | .alreadyExists => "File exists (os error 17)"
  | .busy => "Device or resource busy (os error 16)"
  | .notText => "stream did not contain valid UTF-8"
  | .other wording => wording

end WorkflowRepair.Files
