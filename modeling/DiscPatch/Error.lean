import DiscPatch.Text.Quoted

/-!
# What can go wrong

Every failure is a cause with the values that explain it; its wording is one function per kind of
cause. The kinds are kept apart where a caller reacts to one kind and not to another:

* `OsFault`, `HostFault` — the host file system refuses;
* `Escape` — an external path leaves its root;
* `LookupFault` — a path does not lead to a file of the disc;
* `ReadFault` — content cannot be read;
* `Flaw` — a value in a document is not what its field takes.

`Error` joins them with the causes that only whole operations have.
-/

namespace DiscPatch

open DiscPatch.Text (quoted paddedHex)

/-! ## The host file system -/

/-- Why the host file system refuses. -/
inductive OsCode where
  /-- nothing has that name -/
  | noEntry
  /-- something has that name already -/
  | nameTaken
  /-- a folder was needed -/
  | notFolder
  /-- a file was needed -/
  | isFolder
  /-- a position before the start of a file -/
  | badPosition
  /-- a name or a path is too long -/
  | nameTooLong
  /-- links lead in a circle -/
  | linkLoop
  deriving DecidableEq, Repr

/-- The number the host gives to a refusal. -/
def OsCode.number : OsCode → Nat
  | .noEntry => 2
  | .nameTaken => 17
  | .notFolder => 20
  | .isFolder => 21
  | .badPosition => 22
  | .nameTooLong => 36
  | .linkLoop => 40

/-- The words the host has for a refusal. -/
def OsCode.words : OsCode → String
  | .noEntry => "No such file or directory"
  | .nameTaken => "File exists"
  | .notFolder => "Not a directory"
  | .isFolder => "Is a directory"
  | .badPosition => "Invalid argument"
  | .nameTooLong => "File name too long"
  | .linkLoop => "Too many levels of symbolic links"

/-- A refusal of the host file system, with the path it concerns if there is one. -/
structure OsFault where
  /-- why it refuses -/
  code : OsCode
  /-- the path as it was asked for -/
  path : Option String
  deriving DecidableEq, Repr

/-- The wording of a refusal. -/
def OsFault.message (fault : OsFault) : String :=
  let head := "[Errno " ++ toString fault.code.number ++ "] " ++ fault.code.words
  match fault.path with
  | none => head
  | some path => head ++ ": " ++ quoted path

/-- Why a host file or folder could not be used. -/
inductive HostFault where
  /-- the file system refuses -/
  | refused (fault : OsFault)
  /-- the path holds a NUL, so it is no path at all -/
  | nulInPath
  deriving DecidableEq, Repr

/-- The wording of a host failure. -/
def HostFault.message : HostFault → String
  | .refused fault => fault.message
  | .nulInPath => "embedded null byte"

/-! ## External paths -/

/-- Why an external path is not accepted. -/
inductive Escape where
  /-- it holds a separator of another convention -/
  | foreignSeparator (separator path : String)
  /-- it climbs above its root -/
  | climbs (path : String)
  /-- a component is nothing but three or more dots -/
  | dots (component path : String)
  deriving DecidableEq, Repr

/-- The wording of a refused path. -/
def Escape.message : Escape → String
  | .foreignSeparator separator path =>
    "Path contains a foreign separator " ++ quoted separator ++ ": " ++ path
  | .climbs path => "Path escapes its root: " ++ path
  | .dots component path =>
    "Path has an all-dots component " ++ quoted component ++ ": " ++ path

/-! ## Paths on the disc -/

/-- Why a path does not lead to a file. -/
inductive LookupFault where
  /-- a component is empty; `rest` is the path from there on -/
  | emptyComponent (rest : String)
  /-- nothing has that name -/
  | missing (name : String)
  /-- a folder stands where a file is needed -/
  | notFile (name : String)
  /-- a file stands where a folder is needed -/
  | notFolder (name : String)
  deriving DecidableEq, Repr

/-- The wording of a failed lookup. -/
def LookupFault.message : LookupFault → String
  | .emptyComponent rest => "Empty path component in " ++ quoted rest
  | .missing name => "No node named " ++ quoted name
  | .notFile name => quoted name ++ " exists but is not a file"
  | .notFolder name => quoted name ++ " exists but is not a folder"

/-- Whether the path names something of the wrong kind, rather than nothing. -/
def LookupFault.isMismatch : LookupFault → Bool
  | .notFile _ | .notFolder _ => true
  | .emptyComponent _ | .missing _ => false

/-! ## Content -/

/-- Why content cannot be read. -/
inductive ReadFault where
  /-- a negative offset or length -/
  | badRange (length offset : Int)
  /-- a byte that no segment covers -/
  | noContent (position length offset : Int)
  /-- the host refuses a file -/
  | unreadable (path : String) (fault : OsFault)
  /-- a file ends too early -/
  | shortFile (path : String) (wanted : Int) (got : Nat)
  /-- a buffer ends too early -/
  | shortBuffer (wanted start : Int) (got : Nat)
  /-- the path of a file holds a NUL -/
  | nulInPath
  /-- a position in a file that has no 64-bit form -/
  | farPosition
  /-- a negative count of bytes, other than the one that stands for all -/
  | badCount
  /-- a count of bytes that has no 64-bit form -/
  | farCount
  /-- more bytes than one piece can hold -/
  | tooLong
  deriving DecidableEq, Repr

/-- The wording of a failed read. -/
def ReadFault.message : ReadFault → String
  | .badRange length offset =>
    "Invalid read of " ++ toString length ++ " bytes at " ++ toString offset
  | .noContent position length offset =>
    "No content at offset " ++ toString position ++ " (read of " ++ toString length ++
      " bytes at " ++ toString offset ++ ")"
  | .unreadable path fault => "Failed to read " ++ path ++ ": " ++ fault.message
  | .shortFile path wanted got =>
    "Short read from " ++ path ++ ": wanted " ++ toString wanted ++ " bytes, got " ++ toString got
  | .shortBuffer wanted start got =>
    "Buffer too small: wanted " ++ toString wanted ++ " bytes at " ++ toString start ++
      ", got " ++ toString got
  | .nulInPath => "embedded null byte"
  | .farPosition => "cannot fit 'int' into an offset-sized integer"
  | .badCount => "read length must be non-negative or -1"
  | .farCount => "cannot fit 'int' into an index-sized integer"
  | .tooLong => ""

/-! ## Values in documents -/

/-- What is wrong with a value. -/
inductive FlawKind where
  /-- a field that must be there is not -/
  | missing
  /-- not an object -/
  | notObject
  /-- not an object, where the kind of object is still open -/
  | notTagged
  /-- no integer in any form -/
  | notInteger
  /-- a number with a fraction -/
  | fractional
  /-- a number that is not finite -/
  | notFinite
  /-- a text that spells no integer -/
  | notIntegerText
  /-- a number too large to be taken for an integer -/
  | integerTooLarge
  /-- below the least value allowed -/
  | tooSmall
  /-- above the greatest value allowed -/
  | tooLarge
  /-- neither true nor false in any form -/
  | notTruth
  /-- a number or a text that stands for neither true nor false -/
  | notTruthWord
  /-- not a text -/
  | notText
  /-- not a byte string -/
  | notBytes
  /-- a text that spells no bytes -/
  | badValue
  /-- not a list -/
  | notList
  /-- none of the named values -/
  | notMember
  /-- not the one value the field has -/
  | notLiteral
  /-- no tag to tell the kind of object -/
  | noTag
  /-- a tag that stands for no kind of object -/
  | badTag
  /-- a value that a document cannot spell -/
  | notSpellable
  deriving DecidableEq, Repr

/-- One step on the way to a value inside a document. -/
inductive Step where
  /-- into the field of that name, or the kind of object of that tag -/
  | field (name : String)
  /-- into the list entry of that index -/
  | index (index : Nat)
  deriving DecidableEq, Repr

/-- A value that is not what its field takes, and where it stands. -/
structure Flaw where
  /-- the way from the top of the document -/
  path : List Step
  /-- what is wrong there -/
  kind : FlawKind
  deriving DecidableEq, Repr

/-! ## All causes -/

/-- Why an operation failed. -/
inductive Error where
  /-- content cannot be read -/
  | read (fault : ReadFault)
  /-- two segments share a byte: the later one `[offset, stop)`, then its neighbour -/
  | overlap (offset stop neighbourOffset neighbourStop : Nat)
  /-- links on the way to a path lead in a circle -/
  | linkCircle (path : String)
  /-- an external path leaves its root -/
  | escape (cause : Escape)
  /-- a path does not lead to a file -/
  | lookup (fault : LookupFault)
  /-- the host file system cannot be used that way -/
  | host (fault : HostFault)
  /-- values that their fields do not take -/
  | invalid (flaws : List Flaw)
  /-- a source of no known kind -/
  | unknownSource
  /-- a split point that is not inside its segment -/
  | splitOutside (point : Int) (offset stop : Nat)
  /-- a directive with a negative number -/
  | negativeBounds (offset fileOffset length : Int)
  /-- a patch that needs external files and has none -/
  | noExternal (patch : String)
  /-- external folders nested beyond any bound -/
  | nestedTooDeep
  /-- a hook pattern that no return instruction follows -/
  | noReturn (address : Int)
  /-- a payload that does not fit into the image -/
  | loadOutside (count : Nat) (address : Int)
  /-- an address outside the image -/
  | outsideImage (address : Int)
  /-- an image of negative size -/
  | negativeCount
  /-- a number that does not fit into a word -/
  | wordOverflow
  /-- a text that spells no integer -/
  | notIntegerLiteral (text : String)
  /-- an integer spelled with more digits than are read -/
  | tooManyDigits (count : Nat)
  /-- a patch list that is no list -/
  | notPatchList (path : String)
  /-- an entry of a patch list that is no object -/
  | notPatchEntry (path : String)
  /-- a patch root that is neither absent nor a text -/
  | rootNotText
  /-- a document that does not follow the grammar -/
  | malformedDocument
  /-- half of a surrogate pair in a text of a document -/
  | halfPair
  /-- bytes that spell no text -/
  | undecodable
  deriving DecidableEq, Inhabited, Repr

/-- The wording of a failure; `none` where no wording is fixed. -/
def Error.message? : Error → Option String
  | .read .farCount => none
  | .read fault => some fault.message
  | .overlap offset stop neighbourOffset neighbourStop => some <|
    "Segment [" ++ toString offset ++ ", " ++ toString stop ++ ") overlaps [" ++
      toString neighbourOffset ++ ", " ++ toString neighbourStop ++ ")"
  | .linkCircle path => some <| "Symlink loop from " ++ quoted path
  | .escape cause => some cause.message
  | .lookup fault => some fault.message
  | .host fault => some fault.message
  | .unknownSource => some "Unknown content source: NoneType"
  | .splitOutside point offset stop => some <|
    "Split point " ++ toString point ++ " is not inside [" ++ toString offset ++ ", " ++
      toString stop ++ ")"
  | .negativeBounds offset fileOffset length => some <|
    "Negative patch bounds: offset=" ++ toString offset ++ " fileoffset=" ++ toString fileOffset ++
      " length=" ++ toString length
  | .noExternal patch => some <| "Patch " ++ quoted patch ++ " has no external data loader"
  | .noReturn address => some <|
    "No return instruction after hook pattern at " ++ paddedHex 8 "" address
  | .loadOutside count address => some <|
    toString count ++ " bytes at " ++ paddedHex 10 "0x" address ++ " are outside the image"
  | .outsideImage address => some <|
    "Address " ++ paddedHex 10 "0x" address ++ " is outside the image"
  | .negativeCount => some "negative count"
  | .notIntegerLiteral text => some <| "invalid literal for int() with base 0: " ++ quoted text
  | .tooManyDigits count => some <|
    "Exceeds the limit (4300 digits) for integer string conversion: value has " ++
      toString count ++ " digits; use sys.set_int_max_str_digits() to increase the limit"
  | .notPatchList path => some <| path ++ " must contain a JSON list of patches"
  | .notPatchEntry path => some <| path ++ " contains a non-object patch entry"
  | .invalid _ | .nestedTooDeep | .wordOverflow | .rootNotText | .malformedDocument
  | .halfPair | .undecodable => none

end DiscPatch
