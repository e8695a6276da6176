/-!
What can go wrong on the disk.
-/

namespace Taproom.Disk

inductive Reason where
  | missing
  | present
  | notDirectory
  | isDirectory
  | notEmpty
  | tooManyLinks
  | notPermitted
  | denied
  | invalid
  | badFormat
  | nameTooLong
  deriving DecidableEq, Repr

def Reason.message : Reason → String
  | missing => "no such file or directory"
  | present => "file exists"
  | notDirectory => "not a directory"
  | isDirectory => "is a directory"
  | notEmpty => "directory not empty"
  | tooManyLinks => "too many levels of symbolic links"
  | notPermitted => "operation not permitted"
  | denied => "permission denied"
  | invalid => "invalid argument"
  | badFormat => "exec format error"
  | nameTooLong => "file name too long"

structure Refusal where
  action : String
  subject : String
  reason : Reason
  deriving DecidableEq, Repr

def Refusal.message (f : Refusal) : String := s!"{f.action} {f.subject}: {f.reason.message}"

end Taproom.Disk
