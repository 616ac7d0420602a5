/-
Files, as far as running scripts needs them.

`Files` answers what reading a path gives.  A `Directory` is a finite tree of files, and
`Directory.files` reads paths in it: a path is followed name by name from the directory it is relative
to, every name but the last has to lead to a directory, and so has a last name with a slash behind
it.  Nothing exists outside the tree but the directories that lead to it, and neither a name nor a path
can be longer than a limit.
-/

namespace Cyan

inductive FileFault where
  | notFound | notDirectory | isDirectory
  | nameTooLong
  /-- The path has a character in it that no path can have. -/
  | zeroByte
  /-- There is a file, but the system does not open it, for a reason of its own. -/
  | notOpened (reason : String)
  /-- The bytes of the file are not the encoding of a text. -/
  | notText
deriving DecidableEq, Repr, Inhabited

def FileFault.message : FileFault → String
  | notFound => "No such file or directory (os error 2)"
  | notDirectory => "Not a directory (os error 20)"
  | isDirectory => "Is a directory (os error 21)"
  | nameTooLong => "File name too long (os error 36)"
  | zeroByte => "file name contained an unexpected NUL byte"
  | notOpened reason => reason
  | notText => "stream did not contain valid UTF-8"

abbrev Files := String → Except FileFault ByteArray

namespace Files

def readText (files : Files) (path : String) : Except FileFault String := do
  match String.fromUTF8? (← files path) with
  | some text => pure text
  | none => throw .notText

theorem readText_of_encoded {files : Files} {path text : String} (h : files path = .ok text.toUTF8) :
    files.readText path = .ok text := by
  have hdecoded : String.fromUTF8? text.toUTF8 = some text := dif_pos text.isValidUTF8
  simp only [readText, h, bind, Except.bind, hdecoded, pure, Except.pure]

/-- Whether a path leads to a file or a directory. -/
def has (files : Files) (path : String) : Bool :=
  match files path with
  | .ok _ | .error .isDirectory | .error (.notOpened _) | .error .notText => true
  | .error _ => false

end Files

inductive Entry where
  | file (content : ByteArray)
  | directory (entries : List (String × Entry))
deriving Inhabited

/-- A directory: names and what they lead to. -/
abbrev Directory := List (String × Entry)

namespace Directory

/-- The names of a path.  A slash at the end makes the last of them empty. -/
def names (path : String) : List String := path.splitToList (· = '/')

/-- The directory with one name leading to `entry`. -/
def put (d : Directory) (name : String) (entry : Entry) : Directory :=
  (name, entry) :: d.filter (·.1 ≠ name)

/-- The directory with a file added under the given names, and the directories that lead to it. -/
def addFile (content : ByteArray) : List String → Directory → Directory
  | [], d => d
  | [name], d => d.put name (.file content)
  | name :: rest, d =>
    let inner :=
      match d.lookup name with
      | some (.directory entries) => entries
      | _ => []
    d.put name (.directory (addFile content rest inner))

/-- The directory that holds just the given files. -/
def ofFiles (files : List (String × ByteArray)) : Directory :=
  files.foldl (fun d (path, content) =>
    addFile content ((names path).filter fun name => name ≠ "" ∧ name ≠ ".") d) []

/-- Where a path has led so far: to a file, or to a directory with those it lies in, which is empty
outside the tree. -/
inductive Location where
  | file (content : ByteArray)
  | directory (trail : List Directory)

def maxName : Nat := 255

def maxPath : Nat := 4095

def Location.follow (name : String) : Location → Except FileFault Location
  | .file _ => .error .notDirectory
  | .directory trail =>
    if name = "" ∨ name = "." then .ok (.directory trail)
    else if name = ".." then .ok (.directory trail.tail)
    else if maxName < name.utf8ByteSize then .error .nameTooLong
    else
      match trail with
      | [] => .error .notFound
      | d :: _ =>
        match d.lookup name with
        | some (.file content) => .ok (.file content)
        | some (.directory entries) => .ok (.directory (entries :: trail))
        | none => .error .notFound

/-- What reading a path in a directory gives. -/
def files (d : Directory) : Files := fun path =>
  if path = "" then .error .notFound
  else if path.contains '\x00' then .error .zeroByte
  else if maxPath < path.utf8ByteSize then .error .nameTooLong
  else do
    let start := if path.startsWith "/" then [] else [d]
    match ← (names path).foldlM (fun location name => location.follow name)
        (Location.directory start) with
    | .file content => pure content
    | .directory _ => throw .isDirectory

end Directory
end Cyan
