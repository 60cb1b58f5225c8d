import PageMacro.Disk.Fault
import PageMacro.Format
import PageMacro.Text.Quoted

/-!
# Faults of loading a page
-/

namespace PageMacro.Bundle

/-- Why an entry of an archive cannot be extracted. -/
inductive EntryFault where
  /-- The name leads out of the directory. -/
  | illegalPath (name : String)
  | directory (cause : FileError)
  | parent (cause : FileError)
  | output (cause : FileError)
  /-- The content ends too early. -/
  | content (name : String)
  deriving BEq, DecidableEq, Repr

/-- The wording of an entry's fault. -/
def EntryFault.message : EntryFault → String
  | illegalPath name => "illegal path in archive: " ++ name
  | directory cause => cause.message
  | parent cause => "failed to create parent directory: " ++ cause.message
  | output cause => "failed to create output file: " ++ cause.message
  | content name => "failed to extract " ++ name ++ ": " ++ Format.eof.mark

/-- Why an archive cannot be extracted. -/
inductive ExtractFault where
  | notZip
  | notTape
  /-- The archive ends too early. -/
  | cutShort
  /-- An entry cannot be extracted; archives with a directory of their own number it. -/
  | entry (number : Option Nat) (name : String) (fault : EntryFault)
  deriving BEq, DecidableEq, Repr

/-- The wording of an archive's fault. -/
def ExtractFault.message : ExtractFault → String
  | notZip => "zip: not a valid zip file"
  | notTape => "archive/tar: invalid tar header"
  | cutShort => Format.eof.mark
  | entry number name fault =>
    let shown := match number with
      | some i => " " ++ toString i
      | none => ""
    "handling file" ++ shown ++ ": " ++ name ++ ": " ++ fault.message

/-- Why a page cannot be loaded. -/
inductive Error where
  | cannotOpen (cause : FileError)
  /-- It cannot be told what kind of file it is. -/
  | unidentified
  | extraction (file : String) (cause : ExtractFault)
  | decompression
  | noMember (file member : String)
  | unreadable (cause : FileError)
  deriving BEq, DecidableEq, Repr

/-- The wording of a fault. -/
def Error.message : Error → String
  | cannotOpen cause => "failed to open page: " ++ cause.message
  | unidentified => "failed to identify page format: " ++ Format.archives.mark
  | extraction file cause => "extraction of " ++ file ++ " failed: " ++ cause.message
  | decompression => "decompression failed: " ++ Format.eof.mark
  | noMember file member => file ++ " has no member " ++ Text.quoted member
  | unreadable cause => cause.message

/-- What an archive's fault is about. -/
def ExtractFault.concerns : ExtractFault → List Concern
  | cutShort => [.format .eof]
  | entry _ _ (.content _) => [.format .eof]
  | _ => []

/-- What a fault is about. -/
def Error.concerns : Error → List Concern
  | cannotOpen cause => cause.concerns
  | unidentified => [.format .archives]
  | decompression => [.format .eof]
  | extraction _ cause => cause.concerns
  | _ => []

end PageMacro.Bundle
