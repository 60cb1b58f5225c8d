import PageMacro.Bundle.Error
import PageMacro.Disk.Basic

/-!
# Loading a page

A page is a plain file, a compressed file, or a member of an archive. An archive is extracted to a
directory made for it, which is removed when the page is closed or cannot be loaded. What a file is
is told by its content or by its name.
-/

namespace PageMacro.Bundle

/-- A loaded page. -/
structure Page where
  name : String
  markup : String
  /-- The directory that relative references are taken from. -/
  directory : String
  /-- Whether the directory was made for the page. -/
  temporary : Bool := false
  deriving BEq, DecidableEq, Repr

/-- The member of an archive that is the page, unless another one is asked for. -/
def defaultMember : String := "index.html"

/-- What a file is. -/
inductive Kind where
  | plain (markup : String)
  | compressed (markup : String) (cut : Nat)
  | archive (a : Archive) (cut : Nat)
  /-- The name promises an archive of this format, but the content is none. -/
  | noArchive (format : ArchiveFormat) (content : String)
  | unidentified
  deriving BEq, DecidableEq, Repr

/-- The archive that a name promises for a content that is none. -/
def promised (name content : String) (otherwise : Kind) : Kind :=
  if Archive.named ".zip" name then .noArchive .zip content
  else if Archive.named ".tar" name then .noArchive .tar content
  else otherwise

/-- What the file of a name is. -/
def identify (name : String) (content : FileContent) : Kind :=
  match content with
  | .compressed s cut => promised name s (.compressed s cut)
  | .archive ⟨.tarGzip, entries⟩ cut => .archive ⟨.tarGzip, entries⟩ cut
  | content =>
    if Archive.compressedEndings.any fun ending => Archive.named ending name then .unidentified
    else match content with
      | .archive a cut => .archive a cut
      | content => promised name content.asText (.plain content.asText)

/-- Extracts one entry below a directory; `whole` says whether its content is all there. -/
def extractEntry (disk : Disk) (directory : String) (entry : ArchiveEntry) (whole : Bool) :
    Except EntryFault Disk :=
  match Path.member? entry.storedName with
  | none => .error (.illegalPath entry.storedName)
  | some name =>
    let target := Path.join directory name
    match entry.item with
    | .directory => (disk.makeAll "/" target).mapError .directory
    | .link _ => .ok disk
    | .file content => do
      let disk ← (disk.makeAll "/" (Path.directory target)).mapError .parent
      let disk ← (disk.write "/" target (.text content)).mapError .output
      if whole then .ok disk else .error (.content name)

/-- Extracts numbered entries one after the other. -/
def extractNumbered (directory : String) :
    List (ArchiveEntry × Nat) → Disk → Except ExtractFault Disk
  | [], disk => .ok disk
  | (entry, i) :: rest, disk => do
    let disk ← (extractEntry disk directory entry true).mapError (.entry (some i) entry.storedName)
    extractNumbered directory rest disk

/-- Extracts the entries of a tape archive of which `left` bytes are there. The end of the archive
may be missing, but not begin in the middle of a block. -/
def extractTape (directory : String) : List ArchiveEntry → Nat → Disk → Except ExtractFault Disk
  | [], left, disk =>
    if left == 0 || left == Archive.block || 2 * Archive.block ≤ left then .ok disk
    else .error .cutShort
  | entry :: rest, left, disk => do
    if left == 0 then .ok disk
    else if left < Archive.block then .error .cutShort
    else
      let left := left - Archive.block
      let disk ← (extractEntry disk directory entry (entry.size ≤ left)).mapError
        (.entry none entry.storedName)
      extractTape directory rest (left - Archive.paddedSize entry) disk

/-- The last bytes of a compressed archive that nothing is lost with: the end mark and the
checksum. -/
def spareBytes : Nat := 13

/-- Extracts an archive. -/
def extract (disk : Disk) (directory : String) (a : Archive) (cut : Nat) :
    Except ExtractFault Disk :=
  match a.format with
  | .zip => if cut == 0 then extractNumbered directory a.entries.zipIdx disk else .error .notZip
  | .tar => extractTape directory a.entries (Archive.tapeSize a.entries - cut) disk
  | .tarGzip =>
    if cut ≤ spareBytes then extractTape directory a.entries (Archive.tapeSize a.entries) disk
    else .error .cutShort

/-- Extracts what should have been an archive: only nothing at all is a tape archive. -/
def extractNone (disk : Disk) (format : ArchiveFormat) (content : String) :
    Except ExtractFault Disk :=
  if format == .zip then .error .notZip
  else if content.isEmpty then .ok disk
  else if Text.byteCount content < Archive.block then .error .cutShort
  else .error .notTape

/-- The page that is a member of an archive extracted to `directory`. -/
def readMember (disk : Disk) (file member directory : String) : Except Error Page :=
  match disk.read "/" (Path.join directory member) with
  | .ok content =>
    .ok { name := member, markup := content.asText, directory, temporary := true }
  | .error ⟨_, _, .missing⟩ => .error (.noMember file member)
  | .error cause => .error (.unreadable cause)

/-- Loads a page from an archive; nothing is left behind if that fails. -/
def loadExtracted (disk : Disk) (file member directory : String)
    (extraction : Disk → Except ExtractFault Disk) : Except Error (Page × Disk) := do
  let made ← (disk.makeAll "/" directory).mapError .unreadable
  let extracted ← (extraction made).mapError (.extraction file)
  let page ← readMember extracted file member directory
  return (page, extracted)

/-- Loads the page of a file, taking relative paths from `here`. An archive is extracted to
`scratch`. -/
def load (disk : Disk) (here scratch file member : String) : Except Error (Page × Disk) := do
  let member := if member.isEmpty then defaultMember else member
  let directory := Path.absolute here (Path.directory file)
  match disk.read here file with
  | .error ⟨.reading, _, _⟩ => .error .unidentified
  | .error cause => .error (.cannotOpen cause)
  | .ok content =>
    match identify (Path.base file) content with
    | .plain markup => return ({ name := Path.base file, markup, directory }, disk)
    | .compressed markup cut =>
      if cut == 0 then
        return ({ name := Archive.plainName (Path.base file), markup, directory }, disk)
      else .error .decompression
    | .archive a cut => loadExtracted disk file member scratch (extract · scratch a cut)
    | .noArchive format content => loadExtracted disk file member scratch (extractNone · format content)
    | .unidentified => .error .unidentified

/-- Removes the directory made for a page. -/
def Page.close (page : Page) (disk : Disk) : Disk :=
  if page.temporary then disk.removeTree (Disk.placeOf page.directory) else disk

end PageMacro.Bundle
