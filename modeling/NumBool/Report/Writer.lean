import NumBool.Check.Checker
import NumBool.Phrase.Tree
import NumBool.Report.Error
import NumBool.Text.Encoding
import NumBool.Text.Newline

/-!
# Reports

A report writer checks a source, keeps the counts of the check if it succeeds, and
writes them as one line to a file or to the standard output.  What it says about its
work goes to the standard error output.
-/

namespace NumBool.Report

/-- The disk, and what has been printed.  Printing does not fail. -/
structure World where
  disk : Disk
  out : String := ""
  err : String := ""
  deriving DecidableEq, Repr

namespace World

/-- Prints to the standard output. -/
def print (world : World) (text : String) : World :=
  { world with out := world.out ++ text }

/-- Prints a line to the standard error output. -/
def log (world : World) (line : String) : World :=
  { world with err := world.err ++ line ++ "\n" }

end World

/-- What a report finds around it: the encodings by their names, and what becomes of
bytes that are stored. -/
structure Platform where
  codecs : Text.Registry
  device : Disk.Device

/-- The platform with the encodings of this library. -/
def Platform.standard (device : Disk.Device) : Platform :=
  ⟨Text.Codec.registry, device⟩

/-- How files are read and written. -/
structure Settings where
  encoding : String := "utf-8"
  overwrite : Bool := true
  deriving DecidableEq, Repr

/-- Where the line goes. -/
inductive Output where
  | standard
  | file (place : Disk.Place)
  deriving DecidableEq, Repr

/-- Whether a text holds the null character. -/
def hasNull (text : String) : Bool :=
  text.toList.contains '\x00'

/-- The file at a path as output. -/
def Output.ofPath (cwd : Disk.Place) (path : String) : Except Error Output :=
  if hasNull path then .error .nullInPath
  else .ok (.file ((Disk.Path.ofText path).resolve cwd))

/-- An output by its name: a single dash stands for the standard output. -/
def Output.ofText (cwd : Disk.Place) (text : String) : Except Error Output :=
  if text = "-" then .ok .standard else ofPath cwd text

/-- What is to be checked. -/
inductive Source where
  /-- The name of a file, or, if there is no such file, the text of a program. -/
  | text (text : String)
  /-- The path of a file. -/
  | path (text : String)
  deriving DecidableEq, Repr

/-- A report writer between two of its steps. -/
structure Writer where
  output : Output
  settings : Settings := {}
  checker : Checker := {}
  /-- The counts of the last check, if it succeeded. -/
  counters : Option Counters := none
  /-- The name under which the last source was checked. -/
  sourceName : String := "<string>"
  deriving DecidableEq, Repr

/-- The text of a file, its line ends made uniform.  The name of the encoding is looked
up after the file has been opened. -/
def readFile (codecs : Text.Registry) (disk : Disk) (encoding path : String) :
    Except Error (List Char) :=
  if hasNull encoding then .error .nullInEncoding
  else if hasNull path then .error .nullInPath
  else
    match disk.read path with
    | .error e => .error (.file e)
    | .ok bytes =>
      match codecs encoding with
      | .error e => .error (.encoding e)
      | .ok coding =>
        match coding.decode bytes with
        | .error e => .error (.decode e)
        | .ok text => .ok (Text.unifyNewlines text)

/-- The name and the text of a source. -/
def readSource (codecs : Text.Registry) (disk : Disk) (encoding : String) :
    Source → Except Error (String × String)
  | .path path =>
    let name := (Disk.Path.ofText path).text
    (readFile codecs disk encoding name).map fun text => (name, String.ofList text)
  | .text text =>
    if !hasNull text && disk.isFile text then
      (readFile codecs disk encoding text).map fun read => (text, String.ofList read)
    else .ok ("<string>", text)

/-- Parses and checks a text.  A text that is no program leaves the checker as it was. -/
def judge (checker : Checker) (text : String) : Except Error Counters × Checker :=
  match Phrase.parse text with
  | .error e => (.error (.parse e), checker)
  | .ok program =>
    match checker.check program.toNode with
    | (.ok counters, checker) => (.ok counters, checker)
    | (.error failure, checker) => (.error (.check failure), checker)

namespace Writer

/-- Checks a source.  If it cannot be read, nothing changes. -/
def check (platform : Platform) (writer : Writer) (source : Source) (world : World) :
    Except Error Unit × Writer × World :=
  match readSource platform.codecs world.disk writer.settings.encoding source with
  | .error e => (.error e, writer, world)
  | .ok (name, text) =>
    let world := world.log s!"[Checker] 正在检查: {name}"
    match judge writer.checker text with
    | (.ok counters, checker) =>
      (.ok (), { writer with checker, counters := some counters, sourceName := name },
       world.log s!"[Checker] 检查通过: {counters.format}")
    | (.error e, checker) =>
      (.error e, { writer with checker, counters := none, sourceName := name },
       world.log s!"[Checker] 检查失败: {e.message}")

/-- Writes a line to a file that can be opened.  The file is opened, and with that
emptied, before the name of the encoding is looked up.  It is never told that the line is
the end of the text. -/
def fillFile (platform : Platform) (encoding : String) (place : Disk.Place) (line : String)
    (world : World) : Except Error Unit × World :=
  match world.disk.write place [] with
  | .error e => (.error (.file e), world)
  | .ok opened =>
    match platform.codecs encoding with
    | .error e => (.error (.encoding e), { world with disk := opened })
    | .ok coding =>
      match coding.encode line.toList false with
      | .error e => (.error (.encode e), { world with disk := opened })
      | .ok bytes =>
        match opened.store platform.device place bytes with
        | (.error e, disk) => (.error (.store e), { world with disk })
        | (.ok (), disk) => (.ok (), { world with disk })

/-- Writes a line to a file, making the directories above it. -/
def writeFile (platform : Platform) (settings : Settings) (place : Disk.Place)
    (line : String) (world : World) : Except Error Unit × World :=
  match world.disk.makeDirectories place.dropLast.reverse with
  | (.error e, disk) => (.error (.file e), { world with disk })
  | (.ok (), disk) =>
    if hasNull settings.encoding then (.error .nullInEncoding, { world with disk })
    else fillFile platform settings.encoding place line { world with disk }

/-- Writes the counts of the last check.  Answers whether a line has been written. -/
def write (platform : Platform) (writer : Writer) (world : World) :
    Except Error Bool × World :=
  match writer.counters with
  | none => (.error .nothingToWrite, world)
  | some counters =>
    let line := counters.format ++ "\n"
    match writer.output with
    | .standard => (.ok true, world.print line)
    | .file place =>
      match world.disk.exists? place.text with
      | .error e => (.error (.file e), world)
      | .ok present =>
        if present && !writer.settings.overwrite then
          (.ok false, world.log s!"[Report] 文件已存在且不允许覆盖: {place.text}")
        else
          match writeFile platform writer.settings place line world with
          | (.error e, world) => (.error e, world)
          | (.ok (), world) => (.ok true, world.log s!"[Report] 已写入: {place.text}")

end Writer

end NumBool.Report
