import DriveShell.Text.Basic

/-!
# Failures

Every operation that can be refused reports a `Failure`: the cause, with the
path, name or text it is about.  The wording shown to the user is `message`, and
`kind` sorts the causes into classes that do not depend on the wording.  Several
causes share one wording, so a message does not determine its cause.
-/

namespace DriveShell

/-- Why an operation was refused. -/
inductive Failure
  /-- No node at the path of a directory to enter or draw. -/
  | pathNotFound (path : Text)
  /-- No node where a file is read. -/
  | fileNotFound (name : Text)
  /-- No node at the path of a directory to list. -/
  | listingNotFound (path : Text)
  /-- No child of that name to remove. -/
  | couldNotFind (path : Text)
  /-- A file where a directory is needed. -/
  | notADirectory (path : Text)
  /-- A file where a directory is to be listed. -/
  | notAListing (path : Text)
  /-- A name that cannot be a single segment of a path. -/
  | invalidName (name : Text)
  /-- A new directory under a name that is taken. -/
  | alreadyExists (name : Text)
  /-- A populated directory that may not be removed as a whole. -/
  | notEmpty (name : Text)
  /-- A protected name, or a directory used as a file. -/
  | accessDenied (name : Text)
  /-- A command with missing or misplaced parts. -/
  | malformed
  /-- A quote that is never closed. -/
  | unterminatedQuote
  /-- A verb that no command answers to. -/
  | unrecognized (verb : Text)
  /-- A setting that the shell cannot honour. -/
  | setting (reason : Text)
  /-- A phrase pattern that cannot be built. -/
  | pattern (reason : Text)
  /-- The host refused to read or measure something. -/
  | host (reason : Text)
  /-- A settings document that cannot be read. -/
  | document (reason : Text)
  /-- An answer that cannot be encoded. -/
  | encoding (reason : Text)
deriving DecidableEq

namespace Failure

/-- Classes of failures, whatever the wording. -/
inductive Kind
  /-- A path or name is absent. -/
  | notFound
  /-- A file stands where a directory is needed. -/
  | wrongKind
  /-- The name is taken. -/
  | alreadyExists
  /-- The directory still has children. -/
  | notEmpty
  /-- The name is protected, or a directory is used as a file. -/
  | accessDenied
  /-- An argument is missing or malformed. -/
  | malformed
  /-- No command answers to the verb. -/
  | unrecognized
  /-- The trouble lies outside the shell. -/
  | environment
deriving DecidableEq

/-- The class of a failure. -/
def kind : Failure → Kind
  | .pathNotFound _ | .fileNotFound _ | .listingNotFound _ | .couldNotFind _ => .notFound
  | .notADirectory _ => .wrongKind
  | .alreadyExists _ => .alreadyExists
  | .notEmpty _ => .notEmpty
  | .accessDenied _ => .accessDenied
  | .malformed | .unterminatedQuote | .notAListing _ | .invalidName _ => .malformed
  | .unrecognized _ => .unrecognized
  | .setting _ | .pattern _ | .host _ | .document _ | .encoding _ => .environment

/-- What the user reads. -/
def message : Failure → Text
  | .pathNotFound _ => "The system cannot find the path specified."
  | .fileNotFound _ => "The system cannot find the file specified."
  | .listingNotFound _ => "File Not Found"
  | .couldNotFind path => "Could Not Find " ++ path
  | .notADirectory _ => "The directory name is invalid."
  | .notAListing _ | .invalidName _ =>
    "The filename, directory name, or volume label syntax is incorrect."
  | .alreadyExists name => "A subdirectory or file " ++ name ++ " already exists."
  | .notEmpty _ => "The directory is not empty."
  | .accessDenied _ => "Access is denied."
  | .malformed | .unterminatedQuote => "The syntax of the command is incorrect."
  | .unrecognized verb =>
    "'" ++ verb ++
      "' is not recognized as an internal or external command,\noperable program or batch file."
  | .setting reason => "config error: " ++ reason
  | .pattern reason => "pattern error: " ++ reason
  | .host reason => "I/O error: " ++ reason
  | .document reason => "TOML parse error: " ++ reason
  | .encoding reason => "JSON error: " ++ reason

/-- The reason beneath a failure, where it was passed on from elsewhere. -/
def cause? : Failure → Option Text
  | .host reason | .document reason | .encoding reason => some reason
  | _ => none

end Failure

end DriveShell
