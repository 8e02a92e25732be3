/-!
# Failures of operations on files

## Main definitions

* `FileFailure`: why an operation on files fails.
* `FileFailure.message`: the wording.
-/

namespace Formula

/-- Why an operation on files fails. -/
inductive FileFailure where
  | notFound
  | exists
  | notDirectory
  | isDirectory
  | nameTooLong
  | nulInPath
  /-- Any other failure, with its wording. -/
  | other (message : String)
deriving Repr, DecidableEq

/-- The wording of a failure. -/
def FileFailure.message : FileFailure → String
  | notFound => "No such file or directory (os error 2)"
  | .exists => "File exists (os error 17)"
  | notDirectory => "Not a directory (os error 20)"
  | isDirectory => "Is a directory (os error 21)"
  | nameTooLong => "File name too long (os error 36)"
  | nulInPath => "file name contained an unexpected NUL byte"
  | other message => message

end Formula
