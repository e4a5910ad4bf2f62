import Amnezia.Ipc.ProcessArguments

/-!
# The privileged process object

The private copy of the input file is a temporary file that lives as long as the object that names it.
-/

namespace Amnezia.Ipc

inductive ProcessState where
  | notRunning | starting | running
  deriving DecidableEq

structure QProcess where
  state : ProcessState := .notRunning
  program : Text := []
  arguments : List Text := []
  workingDirectory : Text := []
  inputChannelMode : Int := 0
  processChannelMode : Int := 0

-- The program and the arguments of a process that is not idle stay as they are.
def QProcess.setProgram (process : QProcess) (program : Text) : QProcess :=
  if process.state = .notRunning then { process with program := program } else process

def QProcess.setArguments (process : QProcess) (arguments : List Text) : QProcess :=
  if process.state = .notRunning then { process with arguments := arguments } else process

theorem QProcess.setArguments_program (process : QProcess) (arguments : List Text) :
    (process.setArguments arguments).program = process.program := by
  unfold QProcess.setArguments
  split <;> rfl

theorem QProcess.setArguments_setArguments (process : QProcess) (first second : List Text) :
    (process.setArguments first).setArguments second = process.setArguments second := by
  unfold QProcess.setArguments
  split_ifs <;> rfl

structure StagedFile where
  path : Text
  content : Bytes
  deriving DecidableEq

def readValidatedRegularFile (platform : Platform) (files : FileSystem) (sourcePath : Text)
    (maximumSize : Nat) : Except String Bytes :=
  if sourcePath = [] ∨ !platform.isAbsolute sourcePath ∨ sourcePath.any (·.toNat = 0) ∨
      maximumSize ≥ 2147483647 then
    throw "Invalid privileged process input path or size limit"
  else match files.openFile sourcePath with
    | none => throw "Unable to open privileged process input safely"
    | some file =>
      if !file.isRegular ∨ file.size > maximumSize then
        throw "Privileged process input is not a bounded regular file"
      else match file.content with
        | none => throw "Unable to read privileged process input safely"
        | some content =>
          if content.length > maximumSize then throw "Privileged process input exceeds the size limit"
          else return content

def stagedContent (platform : Platform) (maximumSize : Nat) (openVpnConfig : Bool) (content : Bytes) :
    Except String Bytes :=
  if !openVpnConfig then return content
  else do
    validateOpenVpnConfigContent platform.scriptPolicy content
    if (hardenOpenVpnConfigContent content).length > maximumSize then
      throw "Hardened OpenVPN configuration exceeds the size limit"
    else return hardenOpenVpnConfigContent content

def stageInputFile (platform : Platform) (files : FileSystem) (sourcePath : Text) (maximumSize : Nat)
    (openVpnConfig : Bool) : Except String StagedFile := do
  let content ← readValidatedRegularFile platform files sourcePath maximumSize
  let content ← stagedContent platform maximumSize openVpnConfig content
  match files.stagingPath with
  | none => throw "Unable to stage privileged process input safely"
  | some path => return ⟨path, content⟩

def inputMaximumSize (program : PermittedProcess) : Nat :=
  if program = .openVPN then openVpnMaximumSize else certUtilMaximumSize

def stageArguments (platform : Platform) (files : FileSystem) (program : PermittedProcess)
    (arguments : List Text) : Except String (List Text × Option StagedFile) :=
  match inputIndex program with
  | none => return (arguments, none)
  | some index => do
      let staged ← stageInputFile platform files (arguments.getD index []) (inputMaximumSize program)
        (program = .openVPN)
      return (arguments.set index staged.path, some staged)

structure IpcServerProcess where
  program : PermittedProcess := .invalid
  process : QProcess := {}
  programConfigured : Bool := false
  argumentsConfigured : Bool := false
  configurationRejected : Bool := false
  stagedInput : Option StagedFile := none
  rejections : List String := []

structure Launch where
  program : Text
  arguments : List Text
  workingDirectory : Text
  stagedInput : Option StagedFile
  deriving DecidableEq

inductive StartResult where
  | refused | alreadyRunning | launched (launch : Launch)
  deriving DecidableEq

namespace IpcServerProcess

def rejectLaunchSpecification (server : IpcServerProcess) (reason : String) : IpcServerProcess :=
  { server with
    configurationRejected := true
    argumentsConfigured := false
    process := server.process.setArguments []
    rejections := reason :: server.rejections }

def programOfId (programId : Int) : PermittedProcess :=
  if programId = 1 then .openVPN
  else if programId = 2 then .wireguard
  else if programId = 3 then .tun2Socks
  else if programId = 4 then .certUtil
  else if programId = 5 then .permittedProcessCount
  else .invalid

def selectProgram (platform : Platform) (files : FileSystem) (programId : Int) :
    Except String PermittedProcess :=
  if programId ≤ 0 ∨ programId ≥ 5 then throw "Invalid privileged process identifier"
  else
    let program := programOfId programId
    let path := permittedProcessPath platform program
    if program = .wireguard then throw "WireGuard root launcher is not supported"
    else if path = [] ∨ !platform.isAbsolute path ∨ !(files.fileInfo path).any (·.isFile) then
      throw "Privileged process executable is unavailable"
    else return program

def clearSpecification (server : IpcServerProcess) : IpcServerProcess :=
  { server with
    program := .invalid
    programConfigured := false
    argumentsConfigured := false
    configurationRejected := false
    process := (server.process.setProgram []).setArguments []
    stagedInput := none }

def setProgram (platform : Platform) (files : FileSystem) (server : IpcServerProcess)
    (programId : Int) : IpcServerProcess :=
  let cleared := server.clearSpecification
  match selectProgram platform files programId with
  | .error reason => cleared.rejectLaunchSpecification reason
  | .ok program =>
    let path := permittedProcessPath platform program
    { cleared with
      program := program
      process := { cleared.process.setProgram (platform.absoluteFilePath path) with
        workingDirectory := platform.absolutePath path }
      programConfigured := true }

def setArguments (platform : Platform) (files : FileSystem) (server : IpcServerProcess)
    (arguments : List Text) : IpcServerProcess :=
  let server :=
    { server with argumentsConfigured := false, process := server.process.setArguments [] }
  if !server.programConfigured ∨ server.configurationRejected then
    server.rejectLaunchSpecification "Program must be selected before arguments"
  else match validateProcessArguments platform files server.program arguments with
    | .error reason => server.rejectLaunchSpecification reason
    | .ok validated =>
      match stageArguments platform files server.program validated with
      | .error reason => { server with stagedInput := none }.rejectLaunchSpecification reason
      | .ok (stagedArguments, stagedInput) =>
        { server with
          stagedInput := stagedInput
          process := server.process.setArguments stagedArguments
          argumentsConfigured := true }

def setInputChannelMode (server : IpcServerProcess) (mode : Int) : IpcServerProcess :=
  if mode ≠ 0 ∧ mode ≠ 1 then server.rejectLaunchSpecification "Invalid process input channel mode"
  else { server with process := { server.process with inputChannelMode := mode } }

def setProcessChannelMode (server : IpcServerProcess) (mode : Int) : IpcServerProcess :=
  if mode < 0 ∨ mode > 4 then server.rejectLaunchSpecification "Invalid process channel mode"
  else { server with process := { server.process with processChannelMode := mode } }

def setNativeArguments (platform : Platform) (server : IpcServerProcess) (arguments : Text) :
    IpcServerProcess :=
  if platform.windows ∧ arguments ≠ [] then
    server.rejectLaunchSpecification "Native process arguments are disabled"
  else server

def setWorkingDirectory (server : IpcServerProcess) (dir : Text) : IpcServerProcess :=
  if dir ≠ [] then
    server.rejectLaunchSpecification "Caller-controlled working directories are disabled"
  else server

def withState (server : IpcServerProcess) (state : ProcessState) : IpcServerProcess :=
  { server with process := { server.process with state := state } }

def start (server : IpcServerProcess) : IpcServerProcess × StartResult :=
  if !server.programConfigured ∨ !server.argumentsConfigured ∨ server.configurationRejected ∨
      server.process.program = [] then (server, .refused)
  else if server.process.state ≠ .notRunning then (server, .alreadyRunning)
  else (server.withState .starting, .launched
    ⟨server.process.program, server.process.arguments, server.process.workingDirectory, server.stagedInput⟩)

/-! ## Runs

Besides the calls of a client, the process itself gets going and comes to its end. -/

inductive Event where
  | setProgram (programId : Int)
  | setArguments (arguments : List Text)
  | setInputChannelMode (mode : Int)
  | setProcessChannelMode (mode : Int)
  | setNativeArguments (arguments : Text)
  | setWorkingDirectory (dir : Text)
  | start | terminate | kill | close | waitForStarted | waitForFinished
  | processStarted | processEnded

structure Moment where
  event : Event
  files : FileSystem

def next (platform : Platform) (server : IpcServerProcess) (moment : Moment) : IpcServerProcess :=
  match moment.event with
  | .setProgram programId => server.setProgram platform moment.files programId
  | .setArguments arguments => server.setArguments platform moment.files arguments
  | .setInputChannelMode mode => server.setInputChannelMode mode
  | .setProcessChannelMode mode => server.setProcessChannelMode mode
  | .setNativeArguments arguments => server.setNativeArguments platform arguments
  | .setWorkingDirectory dir => server.setWorkingDirectory dir
  | .start => server.start.1
  -- The signals only ask the process to end, and `close` waits until it has.
  | .terminate | .kill | .waitForStarted | .waitForFinished => server
  | .close => server.withState .notRunning
  | .processStarted => if server.process.state = .starting then server.withState .running else server
  | .processEnded => server.withState .notRunning

def Step (platform : Platform) (before : IpcServerProcess) (moment : Moment) (after : IpcServerProcess) : Prop :=
  after = before.next platform moment

end IpcServerProcess

end Amnezia.Ipc
