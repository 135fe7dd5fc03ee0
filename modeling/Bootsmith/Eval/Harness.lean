/-
**The evaluation tool** (`eval.rs`).

The tool starts QEMU on an image, takes a picture of its screen again and again until a deadline, and judges
the first screen on which it reads a marker. The monitor, the tools and the clock are asked; what they answer
is left open. The two loops wait for the clock, so a run has as many rounds for each as it is given, and
returns nothing when they are used up.
-/

import Bootsmith.Eval.Qmp
import Bootsmith.Pipeline.System

namespace Bootsmith.Eval.Harness

open Bootsmith.Library
open Bootsmith.Pipeline (join told)

/-! ### The command line -/

inductive Flavor
  | windowsXp
  | windows7
  deriving DecidableEq, Repr

inductive TargetBus
  | ide
  | ahci
  deriving DecidableEq, Repr

inductive BootMedia
  | disk
  | cdrom
  deriving DecidableEq, Repr

structure Cli where
  image : Text
  bootMedia : BootMedia
  flavor : Flavor
  timeout : Nat
  interval : Nat
  outDir : Option Text
  targetSize : Text
  targetBus : TargetBus
  memMib : Nat
  machine : Text
  keepRunning : Bool

def Cli.passMarkers (cli : Cli) : List String :=
  match cli.flavor, cli.targetBus with
  | .windowsXp, .ahci =>
    ["unpartitioned space", "the following list shows", "to set up windows xp on the selected item"]
  | .windowsXp, _ => ["welcome to setup", "setup is starting", "press f6 if you", "press r to repair"]
  | .windows7, _ => ["windows is loading files", "press any key to boot", "starting windows"]

def failMarkers : List String :=
  ["a problem has been detected", "has been shut down to prevent damage", "stop:",
    "process1_initialization_failed", "inaccessible_boot_device", "iastor.sys could not be found",
    "the file iastor.sys", "setup did not find any hard disk drives", "ntldr is missing", "ntldr is compressed",
    "bootmgr is missing", "disk read error", "non-system disk", "invalid partition table"]

inductive Verdict
  | pass (lastScreenshot : Text) (matched : String)
  | fail (lastScreenshot : Text) (matched : String)
  | timeout (lastScreenshot : Option Text)
  deriving DecidableEq, Repr

/-- The exit code of `main`, and of a panic. -/
def exitCode : Fallible Verdict → Nat
  | .ok (.pass _ _) => 0
  | .ok (.fail _ _) => 1
  | .ok (.timeout _) => 2
  | .error (.error _) => 3
  | .error .panic => 101

/-! ### Calls -/

/-- What a finished tool leaves, with its exit status as it is shown. -/
structure Output where
  success : Bool
  status : Text
  stdout : Bytes
  stderr : Bytes

inductive Call
  | pathExists (path : Text)
  | version (tool : String)
  | tempDir
  | createDirAll (path : Text)
  | qemuImg (target size : Text)
  | removeFile (path : Text)
  | createFile (path : Text)
  | spawnQemu (args : List Text)
  | connect (socket : Text)
  | setTimeouts (reading writing : Nat)
  | now
  | sleep (millis : Nat)
  | handshake
  | screendump (out : Text)
  | tesseract (img : Text)
  | writeFile (path text : Text)
  | killQemu
  | waitQemu

/-- What the system may answer. The clock counts milliseconds. -/
def Answer : Call → Type
  | .pathExists _ => Bool
  | .version _ => Except String Bool
  | .tempDir => Text
  | .createDirAll _ => Except String Unit
  | .qemuImg _ _ => Except String Output
  | .removeFile _ => Except String Unit
  | .createFile _ => Except String Unit
  | .spawnQemu _ => Except String Unit
  | .connect _ => Except String Unit
  | .setTimeouts _ _ => Except String Unit
  | .now => Nat
  | .sleep _ => Unit
  | .handshake => Fallible Unit
  | .screendump _ => Fallible Unit
  | .tesseract _ => Except String Output
  | .writeFile _ _ => Except String Unit
  | .killQemu => Except String Unit
  | .waitQemu => Except String Unit

abbrev Io (α : Type) := Exchange Call Answer α

abbrev History := Past Answer

/-- What the tool takes from its standard library: texts in lower case, and the last instant that the clock
can name. -/
structure Platform where
  toLowercase : Text → Text
  latest : Nat

/-! ### The tools -/

def pathExists (path : Text) : Io Bool := Exchange.ask (.pathExists path) .ok

def requireTool (name : String) : Io Unit :=
  Exchange.ask (.version name) fun answer =>
    if answer.toOption = some true then .ok ()
    else Fallible.bail s!"required tool `{name}` not found on PATH (brew install qemu / tesseract)"

def now : Io Nat := Exchange.ask .now .ok

def sleep (millis : Nat) : Io Unit := Exchange.ask (.sleep millis) .ok

/-- The loop of `wait_for_monitor`. -/
def waitFrom (path : Text) (start timeout : Nat) : Nat → Io (Option Unit)
  | 0 => pure none
  | rounds + 1 => do
    let connected ← Exchange.ask (.connect path) .ok
    match connected with
    | .ok _ => do
      Exchange.ask (.setTimeouts 15 5) (told [])
      pure (some ())
    | .error _ => do
      let instant ← now
      if timeout < instant - start then
        Exchange.bail s!"timed out waiting for monitor socket {String.ofList path}"
      else do
        sleep 200
        waitFrom path start timeout rounds

def waitForMonitor (rounds : Nat) (path : Text) (timeout : Nat) : Io (Option Unit) := do
  let start ← now
  waitFrom path start timeout rounds

/-- The text of a finished `tesseract`. -/
def ocrText (answer : Except String Output) : Fallible Text := do
  let out ← told ["spawn tesseract"] answer
  if out.success then pure (lineText out.stdout)
  else Fallible.bail s!"tesseract exited {String.ofList out.status}: {String.ofList (trim (lineText out.stderr))}"

def ocr (img : Text) : Io Text := Exchange.ask (.tesseract img) ocrText

def screendump (out : Text) : Io Unit := Exchange.ask (.screendump out) fun answer => answer

/-- `QemuGuard::shutdown`. -/
def shutdown (keep : Bool) : Io Unit :=
  if keep then pure ()
  else do
    let _ ← Exchange.ask .killQemu .ok
    let _ ← Exchange.ask .waitQemu .ok
    pure ()

/-- What runs with the guard. When a verdict is returned the guard was shut down already, and dropping it does
nothing more. -/
def guarded {α : Type} (keep : Bool) (body : Io α) : Io α :=
  Program.bind body fun result =>
    match result with
    | .ok value => .done (.ok value)
    | .error failure => Program.bind (shutdown keep) fun _ => .done (.error failure)

/-! ### The screens -/

/-- The number of a picture, with four digits at least. -/
def shotName (shotIdx : Nat) (extension : String) : Text :=
  let digits := (Nat.repr shotIdx).toList
  "shot-".toList ++ List.replicate (4 - digits.length) '0' ++ digits ++ extension.toList

/-- What is read on a screen: a marker of a failure, or else a marker of success. -/
def judge (platform : Platform) (cli : Cli) (screen : Text × Text) : Option Verdict :=
  let lower := platform.toLowercase screen.2
  ((failMarkers.find? (contains · lower)).map (.fail screen.1)).or
    ((cli.passMarkers.find? (contains · lower)).map (.pass screen.1))

/-- The loop of `run`. A picture that is not taken or not read is skipped. -/
def watch (platform : Platform) (cli : Cli) (work : Text) (deadline : Nat) :
    Nat → Nat → Option Text → Io (Option Verdict)
  | 0, _, _ => pure none
  | rounds + 1, shotIdx, lastScreenshot => do
    let instant ← now
    if instant < deadline then do
      sleep (cli.interval * 1000)
      let shotIdx := (shotIdx + 1) % 2 ^ 32
      let png := join work (shotName shotIdx ".png")
      let dumped ← Exchange.attempt (screendump png)
      match dumped with
      | .error _ => watch platform cli work deadline rounds shotIdx lastScreenshot
      | .ok _ => do
        let read ← Exchange.attempt (ocr png)
        match read with
        | .error _ => watch platform cli work deadline rounds shotIdx (some png)
        | .ok txt => do
          let _ ← Exchange.ask (.writeFile (join work (shotName shotIdx ".txt")) txt) .ok
          match judge platform cli (png, txt) with
          | some verdict => do
            shutdown cli.keepRunning
            pure (some verdict)
          | none => watch platform cli work deadline rounds shotIdx (some png)
    else do
      shutdown cli.keepRunning
      pure (some (.timeout lastScreenshot))

/-! ### The run -/

def workDir (cli : Cli) : Io Text :=
  match cli.outDir with
  | some path => do
    Exchange.ask (.createDirAll path) (told [s!"mkdir {String.ofList path}"])
    pure path
  | none => do
    let path ← Exchange.ask .tempDir .ok
    Exchange.ask (.createDirAll path) (told [])
    pure path

/-- The blank target disk, when it is not there yet. -/
def createTarget (cli : Cli) (targetImg : Text) : Io Unit := do
  let there ← pathExists targetImg
  if there then pure ()
  else do
    let status ← Exchange.ask (.qemuImg targetImg cli.targetSize) (told ["spawn qemu-img"])
    if status.success then pure ()
    else Exchange.bail s!"qemu-img create failed: {String.ofList status.status}"

def qemuArgs (cli : Cli) (targetImg monitorSock : Text) : List Text :=
  ["-m".toList, (Nat.repr cli.memMib).toList, "-machine".toList, cli.machine]
    ++ ["-accel", "tcg", "-cpu", "pentium3", "-rtc", "base=localtime", "-vga", "std", "-display", "none"].map
      String.toList
    ++ (match cli.bootMedia with
      | .disk => ["-boot".toList, "c".toList, "-drive".toList,
          "file=".toList ++ cli.image ++ ",format=raw,if=ide,index=0,media=disk".toList]
      | .cdrom => ["-boot".toList, "d".toList, "-cdrom".toList, cli.image])
    ++ (match cli.targetBus with
      | .ide => ["-drive".toList, "file=".toList ++ targetImg ++ ",format=raw,if=ide,index=1,media=disk".toList]
      | .ahci => ["-device".toList, "ich9-ahci,id=ahci".toList, "-drive".toList,
          "file=".toList ++ targetImg ++ ",format=raw,if=none,id=targetdisk,media=disk".toList,
          "-device".toList, "ide-hd,drive=targetdisk,bus=ahci.0".toList])
    ++ ["-qmp".toList, "unix:".toList ++ monitorSock ++ ",server,nowait".toList]

/-- What comes in front of QEMU, and its start. -/
def spawn (cli : Cli) : Io Text := do
  let there ← pathExists cli.image
  if !there then Exchange.bail s!"--image does not exist: {String.ofList cli.image}"
  else do
    requireTool "qemu-system-i386"
    requireTool "qemu-img"
    requireTool "tesseract"
    let work ← workDir cli
    let targetImg := join work "target.img".toList
    createTarget cli targetImg
    let monitorSock := join work "monitor.sock".toList
    let _ ← Exchange.ask (.removeFile monitorSock) .ok
    Exchange.ask (.createFile (join work "qemu.stdout".toList)) (told [])
    Exchange.ask (.createFile (join work "qemu.stderr".toList)) (told [])
    Exchange.ask (.spawnQemu (qemuArgs cli targetImg monitorSock)) (told ["spawn qemu-system-i386"])
    pure work

/-- `Instant::now() + timeout`, which panics past the last instant. -/
def deadlineOf (platform : Platform) (instant timeout : Nat) : Fallible Nat :=
  if instant + timeout * 1000 ≤ platform.latest then .ok (instant + timeout * 1000) else .error .panic

/-- What is done with the monitor. -/
def session (platform : Platform) (rounds : Nat) (cli : Cli) (work : Text) : Io (Option Verdict) := do
  let monitor ← Exchange.context "connect to qemu monitor"
    (waitForMonitor rounds (join work "monitor.sock".toList) 15000)
  match monitor with
  | none => pure none
  | some _ => do
    Exchange.context "qmp handshake" (Exchange.ask .handshake fun answer => answer)
    let instant ← now
    let deadline ← Exchange.lift (deadlineOf platform instant cli.timeout)
    watch platform cli work deadline rounds 0 none

def run (platform : Platform) (rounds : Nat) (cli : Cli) : Io (Option Verdict) := do
  let work ← spawn cli
  guarded cli.keepRunning (session platform rounds cli work)

end Bootsmith.Eval.Harness
