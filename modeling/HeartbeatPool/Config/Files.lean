import HeartbeatPool.Config.Reader
import HeartbeatPool.Event

/-!
# Configuration files

A configuration is read from a file in a tree of directories.  A path is walked name by name; the
first name that leads nowhere decides the error.
-/

namespace HeartbeatPool

/-- Why a file cannot be read. -/
inductive ReadFault where
  | notFound
  | notDirectory
  | isDirectory
  | nameTooLong
  /-- A path may not hold the character with code zero. -/
  | zeroInName
  /-- The bytes of the file are no text. -/
  | notText
  /-- Another refusal of the machine, in its own words. -/
  | refused (cause : String)
  deriving DecidableEq, Repr, Inhabited

/-- The words for a reason. -/
def ReadFault.message : ReadFault → String
  | .notFound => "No such file or directory (os error 2)"
  | .notDirectory => "Not a directory (os error 20)"
  | .isDirectory => "Is a directory (os error 21)"
  | .nameTooLong => "File name too long (os error 36)"
  | .zeroInName => "file name contained an unexpected NUL byte"
  | .notText => "stream did not contain valid UTF-8"
  | .refused cause => cause

/-- The text that some bytes encode. -/
def decodeText (bytes : ByteArray) : Except ReadFault String :=
  match String.fromUTF8? bytes with
  | some text => .ok text
  | none => .error .notText

/-! ## Trees -/

/-- What a name in a directory stands for. -/
inductive Node where
  | file (bytes : ByteArray)
  | directory (entries : List (String × Node))
  deriving Inhabited

namespace Node

/-- The file that holds a text. -/
def text (content : String) : Node := .file content.toUTF8

/-- The directory without entries. -/
def emptyDirectory : Node := .directory []

/-- Something in a directory, by its name. -/
def find (name : String) : List (String × Node) → Option Node
  | [] => none
  | (key, node) :: rest => if key = name then some node else find name rest

/-- Puts a new node at the end of a path, on which missing directories are made.  There is no way
through a file. -/
def place (node : Node) (path : List String) (new : Node) : Node :=
  match path, node with
  | [], _ => new
  | _ :: _, .file bytes => .file bytes
  | name :: rest, .directory entries =>
      let old := (find name entries).getD emptyDirectory
      let others := entries.filter fun entry => entry.1 ≠ name
      .directory ((name, old.place rest new) :: others)

/-- The longest name, in bytes. -/
def maxName : Nat := 255

/-- The longest path, in bytes, counting an end mark. -/
def maxPath : Nat := 4096

/-- Walks on from a directory, given with those above it from the nearest to the root. -/
def walk (here : Node) (above : List Node) : List String → Except ReadFault Node
  | [] => .ok here
  | name :: rest =>
      match here with
      | .file _ => .error .notDirectory
      | .directory entries =>
          if name = "" ∨ name = "." then walk here above rest
          else if name = ".." then
            match above with
            | [] => walk here [] rest
            | parent :: above => walk parent above rest
          else if maxName < name.utf8ByteSize then .error .nameTooLong
          else
            match find name entries with
            | none => .error .notFound
            | some node => walk node (here :: above) rest

end Node

/-- The files of a machine: the root directory, and the directory in which relative paths
start. -/
structure FileTree where
  root : Node
  /-- The names that lead from the root to the current directory. -/
  current : List String := []
  deriving Inhabited

namespace FileTree

/-- The directories that every machine has. -/
def usualDirectories : List (List String) :=
  let top := ["bin", "boot", "dev", "etc", "home", "lib", "lib64", "media", "mnt", "opt", "proc",
    "root", "run", "sbin", "srv", "sys", "tmp", "usr", "var"]
  let below (name : String) (names : List String) : List (List String) :=
    names.map fun last => [name, last]
  top.map (fun name => [name]) ++ below "dev" ["fd", "pts", "shm", "mqueue"] ++
    below "etc" ["default", "init.d", "opt", "profile.d", "ssl"] ++
    below "proc" ["1", "net", "self", "sys"] ++ below "run" ["lock"] ++
    below "sys" ["block", "bus", "class", "dev", "devices", "fs", "kernel", "module"] ++
    below "usr" ["bin", "games", "include", "lib", "lib64", "local", "sbin", "share", "src"] ++
    below "var" ["cache", "lib", "local", "lock", "log", "mail", "opt", "run", "spool", "tmp"] ++
    [["usr", "local", "bin"], ["usr", "local", "lib"], ["usr", "share", "doc"],
      ["etc", "ssl", "certs"], ["proc", "self", "fd"], ["proc", "self", "task"]]

/-- The files that every machine has: a device that holds nothing, some lists and notes, and some
programs, whose bytes are no text. -/
def usualFiles : List (List String × Node) :=
  [(["dev", "null"], .text ""),
    (["etc", "group"], .text "root:x:0:\n"),
    (["etc", "hosts"], .text "127.0.0.1\tlocalhost\n"),
    (["etc", "os-release"], .text "PRETTY_NAME=\"Linux\"\n"),
    (["etc", "passwd"], .text "root:x:0:0:root:/root:/bin/sh\n"),
    (["proc", "version"], .text "Linux\n"),
    (["proc", "self", "exe"], program)] ++
    ["bash", "cat", "ls", "sh", "true"].flatMap fun name =>
      [(["bin", name], program), (["usr", "bin", name], program)]
where
  program : Node := .file ⟨#[0x7f, 0x45, 0x4c, 0x46, 0xff]⟩

/-- A machine with nothing of its own. -/
def bare : FileTree :=
  let directories :=
    usualDirectories.foldl (fun root path => root.place path .emptyDirectory) .emptyDirectory
  { root := usualFiles.foldl (fun root (path, file) => root.place path file) directories
    current := ["srv"] }

/-- The same files, with another current directory and its entries. -/
def withCurrent (tree : FileTree) (path : List String) (entries : List (String × Node)) :
    FileTree :=
  { root := tree.root.place path (.directory entries), current := path }

/-- The text of the file at a path. -/
def readText (tree : FileTree) (path : String) : Except ReadFault String :=
  if path.toList.contains '\x00' then .error .zeroInName
  else if path = "" then .error .notFound
  else if Node.maxPath ≤ path.utf8ByteSize then .error .nameTooLong
  else
    let names := path.splitToList (· == '/')
    let names := if path.toList.head? = some '/' then names else tree.current ++ names
    match Node.walk tree.root [] names with
    | .error fault => .error fault
    | .ok (.directory _) => .error .isDirectory
    | .ok (.file bytes) => decodeText bytes

end FileTree

/-! ## Loading a configuration -/

namespace ClientConfig

/-- Makes a configuration of what was read from a file; success is logged. -/
def ofFile (path : String) (content : Except ReadFault String) :
    List Event × Except Error ClientConfig :=
  match content with
  | .error fault => ([], .error (.io fault.message))
  | .ok text =>
      match ofText text with
      | .error error => ([], .error error)
      | .ok config => ([.log (.configurationRead config.entries.length path)], .ok config)

end ClientConfig

end HeartbeatPool
