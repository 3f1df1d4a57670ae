import Testbench.Sink

/-! Files are named by paths and kept under locations, so that two paths to the
same file are seen to be the same. The medium under each location decides what may
be opened and which writes fall short; it is arbitrary, so a law about every file
system covers every way in which storage can fail. Paths are walked from left to right,
and the first name that cannot be followed decides the error. -/
namespace Testbench

/-- The names on the way from the root to a file or directory, innermost first. -/
abbrev Location := List String

inductive Node where
  | directory
  | file (contents : ByteArray)
  | device

/-- What the storage under one location answers. Writes to an open file are
numbered from zero; one without a shortfall is taken whole. -/
structure Medium where
  readError : Option IoError
  createError : Option IoError
  shortfall : Nat → Option Shortfall

def Medium.reliable : Medium :=
  ⟨none, none, fun _ => none⟩

def Medium.full : Medium :=
  ⟨none, none, fun _ => some ⟨0, .noSpace⟩⟩

structure FileSystem where
  nodes : List (Location × Node)
  medium : Location → Medium

namespace FileSystem

def workingDirectory : Location := ["work"]

def initial : FileSystem where
  nodes := [(workingDirectory, .directory), (["dev"], .directory), (["full", "dev"], .device)]
  medium := fun location => if location = ["full", "dev"] then .full else .reliable

def node? (files : FileSystem) (location : Location) : Option Node :=
  if location = [] then some .directory else files.nodes.lookup location

def putNode (location : Location) (node : Node) :
    List (Location × Node) → List (Location × Node)
  | [] => [(location, node)]
  | (known, old) :: rest =>
    if location = known then (location, node) :: rest
    else (known, old) :: putNode location node rest

theorem lookup_entry (known location : Location) (node : Node)
    (rest : List (Location × Node)) :
    ((known, node) :: rest).lookup location =
      if location = known then some node else rest.lookup location := by
  rw [List.lookup_cons]
  split <;> simp_all

theorem lookup_putNode (location : Location) (node : Node) (nodes : List (Location × Node))
    (other : Location) :
    (putNode location node nodes).lookup other =
      if other = location then some node else nodes.lookup other := by
  induction nodes with
  | nil => simp [putNode, lookup_entry]
  | cons entry rest ih =>
    obtain ⟨known, old⟩ := entry
    by_cases h : location = known
    · subst h
      simp only [putNode, if_true, lookup_entry]
      split <;> rfl
    · simp only [putNode, h, if_false, lookup_entry, ih]
      split <;> split <;> simp_all

def put (location : Location) (node : Node) (files : FileSystem) : FileSystem :=
  { files with nodes := putNode location node files.nodes }

theorem node?_put (location other : Location) (node : Node) (files : FileSystem)
    (h : location ≠ []) :
    (files.put location node).node? other =
      if other = location then some node else files.node? other := by
  by_cases ho : other = []
  · subst ho
    simp [node?, Ne.symm h]
  · simp only [node?, put, ho, if_false, lookup_putNode]

def nameLimit : Nat := 255

def pathLimit : Nat := 4095

def enter (files : FileSystem) (location : Location) (name : String) :
    Except IoError Location :=
  if name = "." then .ok location
  else if name = ".." then .ok location.tail
  else if nameLimit < name.utf8ByteSize then .error .nameTooLong
  else match files.node? (name :: location) with
    | none => .error .notFound
    | some .directory => .ok (name :: location)
    | some _ => .error .notDirectory

inductive Target where
  | directory
  /-- A slash behind the name asks for a directory. -/
  | entry (parent : Location) (name : String) (slashed : Bool)

def walk (files : FileSystem) (slashed : Bool) :
    Location → List String → Except IoError Target
  | _, [] => .ok .directory
  | location, [name] =>
    if name = "." ∨ name = ".." then .ok .directory else .ok (.entry location name slashed)
  | location, name :: rest =>
    match files.enter location name with
    | .ok location => walk files slashed location rest
    | .error error => .error error

def resolve (files : FileSystem) (path : String) : Except IoError Target :=
  let text := path.toList
  if '\x00' ∈ text then .error .nulInName
  else if text.isEmpty then .error .notFound
  else if pathLimit < path.utf8ByteSize then .error .nameTooLong
  else
    let names := ((text.splitOn '/').filter (!·.isEmpty)).map String.ofList
    let start := if text.head? = some '/' then [] else workingDirectory
    files.walk (text.getLast? = some '/') start names

def read (files : FileSystem) (path : String) : Except IoError ByteArray :=
  match files.resolve path with
  | .error error => .error error
  | .ok .directory => .error .isDirectory
  | .ok (.entry parent name slashed) =>
    if nameLimit < name.utf8ByteSize then .error .nameTooLong
    else match files.node? (name :: parent), (files.medium (name :: parent)).readError with
      | none, _ => .error .notFound
      | some .directory, _ => .error .isDirectory
      | some _, some error => .error error
      | some node, none =>
        if slashed then .error .notDirectory
        else match node with
          | .file contents => .ok contents
          | _ => .ok ByteArray.empty

def readText (files : FileSystem) (path : String) : Except IoError String :=
  match files.read path with
  | .error error => .error error
  | .ok bytes =>
    match String.fromUTF8? bytes with
    | some text => .ok text
    | none => .error .notText

def makeDirectories (names : List String) (files : FileSystem) : FileSystem :=
  (names.foldl (fun (location, files) name =>
    (name :: location, files.put (name :: location) .directory)) (workingDirectory, files)).2

def addFile (names : List String) (contents : ByteArray) (files : FileSystem) : FileSystem :=
  (files.makeDirectories names.dropLast).put (names.reverse ++ workingDirectory) (.file contents)

def regularFiles (files : FileSystem) : List (List String × ByteArray) :=
  files.nodes.filterMap fun (location, node) =>
    match node, location.reverse with
    | .file contents, top :: names =>
      if [top] = workingDirectory then some (names, contents) else none
    | _, _ => none

end FileSystem

/-- A file opened for writing. Nobody else looks at the file system meanwhile, so
the contents written so far are put back only when the file is closed. -/
structure OpenFile where
  files : FileSystem
  location : Location
  keeps : Bool
  contents : ByteArray
  writes : Nat

namespace OpenFile

def write (bytes : ByteArray) (file : OpenFile) : Except Shortfall Unit × OpenFile :=
  if bytes.isEmpty then (.ok (), file)
  else match (file.files.medium file.location).shortfall file.writes with
    | none =>
      (.ok (), { file with contents := file.contents ++ bytes, writes := file.writes + 1 })
    | some shortfall =>
      (.error shortfall, { file with
        contents := file.contents ++ bytes.extract 0 shortfall.taken
        writes := file.writes + 1 })

instance : Sink OpenFile where
  write := write
  flush := fun file => (.ok (), file)

def close (file : OpenFile) : FileSystem :=
  if file.keeps then file.files.put file.location (.file file.contents) else file.files

end OpenFile

def FileSystem.create (files : FileSystem) (path : String) : Except IoError OpenFile :=
  match files.resolve path with
  | .error error => .error error
  | .ok .directory => .error .isDirectory
  | .ok (.entry parent name slashed) =>
    if slashed then .error .isDirectory
    else if nameLimit < name.utf8ByteSize then .error .nameTooLong
    else
      let location := name :: parent
      match files.node? location, (files.medium location).createError with
      | some .directory, _ => .error .isDirectory
      | _, some error => .error error
      | some .device, none => .ok ⟨files, location, false, ByteArray.empty, 0⟩
      | _, none => .ok ⟨files, location, true, ByteArray.empty, 0⟩

end Testbench
