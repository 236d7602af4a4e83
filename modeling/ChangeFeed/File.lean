import ChangeFeed.Text.Bytes

/-!
# Files — what can go wrong with one

A file is named by its path. The path may be none that any file has, the
file may be missing, be a folder, hold bytes that are no UTF-8, or fail for
some other reason that the system gives.
-/

namespace ChangeFeed

/-- **What can go wrong** with a file. -/
inductive FileFault where
  | missing
  /-- The path goes on from a file. -/
  | notFolder
  | isFolder
  | nameTooLong
  /-- The path has a character of code zero. -/
  | zeroInPath
  | notText
  /-- The system's own words. -/
  | other (reason : Text)
deriving Repr, DecidableEq

/-- What is said about a file that something is wrong with. -/
def FileFault.message : FileFault → Text
  | missing => "No such file or directory (os error 2)".toList
  | notFolder => "Not a directory (os error 20)".toList
  | isFolder => "Is a directory (os error 21)".toList
  | nameTooLong => "File name too long (os error 36)".toList
  | zeroInPath => "file name contained an unexpected NUL byte".toList
  | notText => "stream did not contain valid UTF-8".toList
  | other reason => reason

/-- The most bytes that a path may have. -/
def longestPath : Nat := 4095

/-- The most bytes that one name in a path may have. -/
def longestName : Nat := 255

/-- What is wrong with a path, whatever files there are. -/
def pathFault? (path : Text) : Option FileFault :=
  if '\x00' ∈ path then some .zeroInPath
  else if path.isEmpty then some .missing
  else if longestPath < path.size then some .nameTooLong
  else none

end ChangeFeed
