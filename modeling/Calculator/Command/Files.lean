/-
# Files

All that a run knows of the files is what it gets for a path: the bytes of a file,
or the words in which the system says why it has none. Any function from paths to
such answers is a set of files; how paths are related, by folders or links, is the
system's affair. A content is read as UTF-8 text.

A folder in memory is one set of files, with relative paths only, on which runs can
be tried. A path is followed name by name from the folder: an empty name and `.`
stay, `..` goes up, and only a folder can be gone through.

Key definitions: `Files`, `decode`, `Folder`, `Folder.step`, `Folder.files`.
-/

namespace Calculator.Command

/-- What stands under each path: the bytes of a file, or why none can be read. -/
abbrev Files := String → Except String ByteArray

/-- The text of a content. -/
def decode (content : ByteArray) : Except String String :=
  match String.fromUTF8? content with
  | some text => .ok text
  | none => .error "stream did not contain valid UTF-8"

/-- The words for a name that stands for nothing. -/
def notFound : String := "No such file or directory (os error 2)"

/-- The words for a file where a folder was needed. -/
def notFolder : String := "Not a directory (os error 20)"

/-- The words for a folder where a file was needed. -/
def isFolder : String := "Is a directory (os error 21)"

/-- Files in memory, each with the names on the way to it. -/
abbrev Folder := List (List String × ByteArray)

namespace Folder

/-- Where a path has led to. -/
inductive Place
  /-- Above the folder. -/
  | above
  /-- The folder, or one in it, with the names on the way. -/
  | inside (names : List String)
  /-- A file. -/
  | file (content : ByteArray)

/-- What stands under the names. -/
def find (folder : Folder) (names : List String) : Except String Place :=
  match folder.find? (·.1 = names) with
  | some (_, content) => .ok (.file content)
  | none =>
    if folder.any fun entry => names.isPrefixOf entry.1 then .ok (.inside names)
    else .error notFound

/-- Follows one name of a path. -/
def step (folder : Folder) (place : Place) (name : String) : Except String Place :=
  match place with
  | .file _ => .error notFolder
  | .above => if name = "" ∨ name = "." ∨ name = ".." then .ok .above else .error notFound
  | .inside names =>
    if name = "" ∨ name = "." then .ok (.inside names)
    else if name = ".." then .ok (if names.isEmpty then .above else .inside names.dropLast)
    else folder.find (names ++ [name])

/-- What stands under each path from the folder. -/
def files (folder : Folder) : Files := fun path => do
  if path.isEmpty then throw notFound
  let start := if path.startsWith "/" then Place.above else .inside []
  match ← (path.splitOn "/").foldlM folder.step start with
  | .file content => return content
  | _ => throw isFolder

end Folder

end Calculator.Command
