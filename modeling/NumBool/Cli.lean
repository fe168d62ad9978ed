import NumBool.Report.Writer

/-!
# The command line

The program takes a source file and, if wanted, an output file, checks the source and
writes one line of statistics.  It reads and writes UTF-8 on any device.
-/

namespace NumBool.Cli

open Report

/-- What is printed when the arguments are no call of the program. -/
def usage : String :=
  "\nsemcheck 命令行类型检查器\n"
    ++ "用法: semcheck <源文件路径> [输出文件路径(默认标准输出)]\n"
    ++ "\n"
    ++ "示例:\n"
    ++ "    semcheck demo.txt\n"
    ++ "    semcheck demo.txt ./result.txt\n"
    ++ "    python3 semcheck.py tests/data/loop.txt -\n"
    ++ "\n"
    ++ "参数说明:\n"
    ++ "  source   - 源文件路径\n"
    ++ "  output   - 统计结果输出文件 (可选, '-' 或省略表示标准输出)\n"
    ++ "环境变量:\n"
    ++ "  SEMCHECK_DEBUG - 设置后失败时打印完整堆栈"

/-- How a run ends. -/
inductive Ending where
  /-- With an exit status, and with the error that is to be traced in full, if any. -/
  | exit (status : Nat) (trace : Option Error)
  /-- With an error that the program does not expect. -/
  | escaped (error : Error)
  deriving DecidableEq, Repr

/-- The report on an expected error. -/
def failureLine (e : Error) : String :=
  let kind := if e.isSemantic then "语义错误" else "错误"
  s!"✗ 检查失败! {kind}: {e.message}"

/-- Checks the source and writes its line. -/
def report (device : Disk.Device) (source output : String) (world : World) :
    Except Error Unit × World :=
  match Output.ofText world.disk.cwd output with
  | .error e => (.error e, world)
  | .ok output =>
    let platform := Platform.standard device
    match ({ output } : Writer).check platform (.path source) world with
    | (.error e, _, world) => (.error e, world)
    | (.ok (), writer, world) =>
      match writer.write platform world with
      | (.error e, world) => (.error e, world)
      | (.ok _, world) => (.ok (), world)

/-- Runs the program on a source that exists. -/
def runFile (device : Disk.Device) (source output : String) (debug : Bool) (world : World) :
    Ending × World :=
  let path := (Disk.Path.ofText source).absolute world.disk.cwd
  match report device source output (world.log s!"[semcheck] 开始检查 {path.text}") with
  | (.ok (), world) => (.exit 0 none, world.log "✓ 检查成功!")
  | (.error e, world) =>
    if e.isExpected then
      (.exit 1 (if debug then some e else none), world.log (failureLine e))
    else (.escaped e, world)

/-- Whether a source exists; a path that is no path leads nowhere. -/
def sourceExists (disk : Disk) (path : String) : Except Disk.FileError Bool :=
  if hasNull path then .ok false else disk.exists? path

/-- Runs the program on two arguments. -/
def runOn (device : Disk.Device) (source output : String) (debug : Bool) (world : World) :
    Ending × World :=
  let path := (Disk.Path.ofText source).text
  match sourceExists world.disk path with
  | .error e => (.escaped (.file e), world)
  | .ok false => (.exit 1 none, world.log s!"✗ 错误: 源文件不存在: {source}")
  | .ok true =>
    if world.disk.isFile path then runFile device source output debug world
    else (.exit 1 none, world.log s!"✗ 错误: 源路径不是文件: {source}")

/-- Runs the program.  `debug` asks for a full trace of an expected error. -/
def run (device : Disk.Device) (args : List String) (debug : Bool) (world : World) :
    Ending × World :=
  match args with
  | [source] =>
    if source = "-h" || source = "--help" then (.exit 1 none, world.log usage)
    else runOn device source "-" debug world
  | [source, output] =>
    if source = "-h" || source = "--help" then (.exit 1 none, world.log usage)
    else runOn device source output debug world
  | _ => (.exit 1 none, world.log usage)

end NumBool.Cli
