import NumBool.Disk.Path
import NumBool.Text.Quoted

/-!
# Files and directories

A disk is a list of places with what stands there, and a working directory.  The
root is always a directory.  Looking something up walks through the names of a path:
every name but the last has to be a directory that exists, and the double dot goes
back to the directory above.

A file that has been opened may still not take what is written to it, as when there is no
space left.  This is up to the device (`Device`), which may refuse any bytes at any
place.

A disk has no links and no permissions: every directory can be searched and every file
opened, and a path fails only for its names and for what stands at them.
-/

namespace NumBool

namespace Disk

/-- What stands at a place. -/
inductive Item where
  | file (bytes : List UInt8)
  | directory
  deriving DecidableEq, Repr

/-- Why a file cannot be reached or made. -/
inductive Cause where
  | notFound
  | alreadyExists
  | notDirectory
  | isDirectory
  | nameTooLong
  deriving DecidableEq, Repr

/-- A failed operation on a file, with the path as it was given. -/
structure FileError where
  cause : Cause
  path : String
  deriving DecidableEq, Repr

/-- The number and the wording of a cause. -/
def Cause.text : Cause → String
  | notFound => "[Errno 2] No such file or directory"
  | alreadyExists => "[Errno 17] File exists"
  | notDirectory => "[Errno 20] Not a directory"
  | isDirectory => "[Errno 21] Is a directory"
  | nameTooLong => "[Errno 36] File name too long"

/-- The report on a failed operation. -/
def FileError.message (e : FileError) : String :=
  s!"{e.cause.text}: {Text.quoted e.path}"

/-- Why an open file does not take its bytes, by a number and its wording. -/
structure StoreError where
  number : Nat
  reason : String
  deriving DecidableEq, Repr

/-- The report on bytes that are not taken. -/
def StoreError.message (e : StoreError) : String :=
  s!"[Errno {e.number}] {e.reason}"

/-- The greatest length of a name, in bytes. -/
def maxName : Nat := 255

/-- The greatest length of a path, in bytes. -/
def maxPath : Nat := 4095

end Disk

/-- A disk with a working directory. -/
structure Disk where
  cwd : Disk.Place
  items : List (Disk.Place × Disk.Item)
  deriving DecidableEq, Repr

namespace Disk

/-- What stands at a place. -/
def item? (disk : Disk) (place : Place) : Option Item :=
  if place = [] then some .directory else disk.items.lookup place

/-- Walks from a place along some names. -/
def walk (disk : Disk) (place : Place) : List String → Except Cause (Place × Item)
  | [] =>
    match disk.item? place with
    | some item => .ok (place, item)
    | none => .error .notFound
  | name :: rest =>
    match disk.item? place with
    | none => .error .notFound
    | some (.file _) => .error .notDirectory
    | some .directory =>
      if name = "." then disk.walk place rest
      else if maxName < name.utf8ByteSize then .error .nameTooLong
      else disk.walk (Path.follow place name) rest

/-- The names that a text leads along; a slash at the end asks for a directory. -/
def route (text : String) : List String :=
  namesOf text ++ (if text.toList.getLast? = some '/' then ["."] else [])

/-- What a path given as text leads to. -/
def find (disk : Disk) (text : String) : Except Cause Item :=
  if text.isEmpty then .error .notFound
  else if maxPath < text.utf8ByteSize then .error .nameTooLong
  else
    let start := if text.toList.head? = some '/' then [] else disk.cwd
    (disk.walk start (route text)).map Prod.snd

/-- Whether a path leads to a file; one that leads nowhere does not. -/
def isFile (disk : Disk) (text : String) : Bool :=
  match disk.find text with
  | .ok (.file _) => true
  | _ => false

/-- Whether a path leads to a directory. -/
def isDirectory (disk : Disk) (text : String) : Bool :=
  match disk.find text with
  | .ok .directory => true
  | _ => false

/-- Whether a path leads anywhere.  A name that is too long is an error, a name
that does not exist is not. -/
def exists? (disk : Disk) (text : String) : Except FileError Bool :=
  match disk.find text with
  | .ok _ => .ok true
  | .error .nameTooLong => .error ⟨.nameTooLong, text⟩
  | .error _ => .ok false

/-- The bytes of a file. -/
def read (disk : Disk) (text : String) : Except FileError (List UInt8) :=
  match disk.find text with
  | .ok (.file bytes) => .ok bytes
  | .ok .directory => .error ⟨.isDirectory, text⟩
  | .error cause => .error ⟨cause, text⟩

/-- Replaces what stands at a place, or adds it behind the rest. -/
def put (disk : Disk) (place : Place) (item : Item) : Disk :=
  if (disk.items.lookup place).isSome then
    { disk with items := disk.items.map fun (p, i) => if p = place then (p, item) else (p, i) }
  else { disk with items := disk.items ++ [(place, item)] }

/-- Whether something new can be made at a place: the directory above has to exist. -/
def reach (disk : Disk) (place : Place) : Except Cause Unit :=
  if maxPath < place.text.utf8ByteSize then .error .nameTooLong
  else
    match disk.walk [] place.dropLast with
    | .error cause => .error cause
    | .ok (_, .file _) => .error .notDirectory
    | .ok (_, .directory) =>
      if (place.getLast?.map String.utf8ByteSize).getD 0 ≤ maxName then .ok ()
      else .error .nameTooLong

/-- Makes one directory. -/
def makeDirectory (disk : Disk) (place : Place) : Except Cause Disk :=
  match disk.reach place with
  | .error cause => .error cause
  | .ok () =>
    match disk.item? place with
    | some _ => .error .alreadyExists
    | none => .ok (disk.put place .directory)

/-- Keeps a directory that is there, if making it has failed. -/
def settle (disk : Disk) (place : Place) (cause : Cause) : Except FileError Unit × Disk :=
  if disk.isDirectory place.text then (.ok (), disk)
  else (.error ⟨cause, place.text⟩, disk)

/-- Makes a directory and those above it that are missing.  The place is given from
its last name backwards.  Directories made before a failure stay. -/
def makeDirectories (disk : Disk) : List String → Except FileError Unit × Disk
  | [] => (.ok (), disk)
  | name :: above =>
    let place : Place := (name :: above).reverse
    match disk.makeDirectory place with
    | .ok disk => (.ok (), disk)
    | .error .notFound =>
      match disk.makeDirectories above with
      | (.error e, disk) => (.error e, disk)
      | (.ok (), disk) =>
        match disk.makeDirectory place with
        | .ok disk => (.ok (), disk)
        | .error .notFound => (.error ⟨.notFound, place.text⟩, disk)
        | .error cause => disk.settle place cause
    | .error cause => disk.settle place cause

/-- Makes the bytes of a file, whether the file is new or not. -/
def write (disk : Disk) (place : Place) (bytes : List UInt8) : Except FileError Disk :=
  match disk.reach place with
  | .error cause => .error ⟨cause, place.text⟩
  | .ok () =>
    match disk.item? place with
    | some .directory => .error ⟨.isDirectory, place.text⟩
    | _ => .ok (disk.put place (.file bytes))

/-- What becomes of bytes for an open file at a place: it takes all of them, or only as
many as are told, and then fails. -/
abbrev Device := Disk → Place → List UInt8 → Option (Nat × StoreError)

/-- The device on which every file takes its bytes. -/
def Device.sound : Device := fun _ _ _ => none

/-- A device that takes no more than some bytes of each file. -/
def Device.limited (room : Nat) : Device := fun _ _ bytes =>
  if bytes.length ≤ room then none else some (room, ⟨28, "No space left on device"⟩)

/-- Fills an open file.  What it has taken before a failure stays. -/
def store (device : Device) (disk : Disk) (place : Place) (bytes : List UInt8) :
    Except StoreError Unit × Disk :=
  match device disk place bytes with
  | none => (.ok (), disk.put place (.file bytes))
  | some (count, e) => (.error e, disk.put place (.file (bytes.take count)))

end Disk

end NumBool
