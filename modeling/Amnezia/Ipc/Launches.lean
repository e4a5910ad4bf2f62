import Amnezia.Ipc.ServerProcess
import Amnezia.Lib.Runs

/-! # What the service launches -/

namespace Amnezia.Ipc.IpcServerProcess
open Lib

variable (platform : Platform)

def CheckedContent (files : FileSystem) (program : PermittedProcess) (source : Text) (content : Bytes) : Prop :=
  ∃ original, readValidatedRegularFile platform files source (inputMaximumSize program) = .ok original ∧
    (program = .openVPN → validateOpenVpnConfigContent platform.scriptPolicy original = .ok () ∧
      content = hardenOpenVpnConfigContent original) ∧
    (program ≠ .openVPN → content = original)

-- One call of `setArguments` in the past was accepted for the program, and these are its arguments, with
-- the private copy in the place of the input file.
def Specified (past : List Moment) (program : PermittedProcess) (arguments : List Text)
    (stagedInput : Option StagedFile) : Prop :=
  ∃ given files, ⟨.setArguments given, files⟩ ∈ past ∧
    validateProcessArguments platform files program given = .ok given ∧
    match inputIndex program with
    | none => arguments = given
    | some index => ∃ source staged, given[index]? = some source ∧ stagedInput = some staged ∧
        arguments = given.set index staged.path ∧ CheckedContent platform files program source staged.content

def Validated (past : List Moment) (launch : Launch) : Prop :=
  ∃ program, launch.program = platform.absoluteFilePath (permittedProcessPath platform program) ∧
    Specified platform past program launch.arguments launch.stagedInput

def Reconfigures (server : IpcServerProcess) (moment : Moment) : Prop :=
  server.process.state ≠ .notRunning ∧
    match moment.event with
    | .setProgram programId => (selectProgram platform moment.files programId).isOk
    | .setArguments arguments => server.programConfigured ∧ !server.configurationRejected ∧
        inputIndex server.program ≠ none ∧
        (do
          let validated ← validateProcessArguments platform moment.files server.program arguments
          stageArguments platform moment.files server.program validated).isOk
    | _ => False

def QuietStep (before : IpcServerProcess) (moment : Moment) (after : IpcServerProcess) : Prop :=
  Step platform before moment after ∧ ¬ Reconfigures platform before moment

structure Consistent (past : List Moment) (server : IpcServerProcess) : Prop where
  selected : server.programConfigured → !server.configurationRejected →
    server.process.program = platform.absoluteFilePath (permittedProcessPath platform server.program)
  specified : server.programConfigured → !server.configurationRejected → server.argumentsConfigured →
    Specified platform past server.program server.process.arguments server.stagedInput
  active : server.programConfigured → !server.configurationRejected →
    server.process.state ≠ .notRunning → server.argumentsConfigured

variable {platform}

variable {past : List Moment} {program : PermittedProcess} {stagedInput : Option StagedFile}
variable {server : IpcServerProcess} {moment : Moment} {arguments : List Text}

theorem Specified.later (specified : Specified platform past program arguments stagedInput)
    (moment : Moment) : Specified platform (past ++ [moment]) program arguments stagedInput := by
  obtain ⟨given, files, member, rest⟩ := specified
  exact ⟨given, files, List.mem_append_left _ member, rest⟩

theorem Consistent.of_rejected (rejected : server.configurationRejected) : Consistent platform past server := by
  constructor <;> intro _ accepted <;> simp [rejected] at accepted

theorem Consistent.initial : Consistent platform [] {} := by
  constructor <;> intro configured <;> cases configured

variable {before after : IpcServerProcess}

theorem Consistent.frame (consistent : Consistent platform past before) (program : after.program = before.program)
    (programConfigured : after.programConfigured = before.programConfigured)
    (argumentsConfigured : after.argumentsConfigured = before.argumentsConfigured)
    (configurationRejected : after.configurationRejected = before.configurationRejected)
    (stagedInput : after.stagedInput = before.stagedInput)
    (processProgram : after.process.program = before.process.program)
    (arguments : after.process.arguments = before.process.arguments)
    (idle : after.process.state ≠ .notRunning →
      before.process.state ≠ .notRunning ∨ before.argumentsConfigured) :
    Consistent platform (past ++ [moment]) after := by
  constructor <;> rw [programConfigured, configurationRejected] <;> intro configured accepted
  · rw [processProgram, program]
    exact consistent.selected configured accepted
  · intro complete
    rw [program, arguments, stagedInput]
    rw [argumentsConfigured] at complete
    exact (consistent.specified configured accepted complete).later moment
  · intro awake
    rw [argumentsConfigured]
    rcases idle awake with running | complete
    · exact consistent.active configured accepted running
    · exact complete

variable {files : FileSystem}

theorem checkedContent_of_staged {source : Text} {staged : StagedFile}
    (stages : stageInputFile platform files source (inputMaximumSize program) (program = .openVPN) = .ok staged) :
    CheckedContent platform files program source staged.content := by
  obtain ⟨original, read, stages⟩ := ok_of_bind stages
  obtain ⟨content, checked, stages⟩ := ok_of_bind stages
  have same : staged.content = content := by
    cases place : files.stagingPath with
    | none => simp only [place] at stages; cases stages
    | some path => simp only [place] at stages; cases stages; rfl
  refine ⟨original, read, ?_, ?_⟩
  · intro openVpn
    simp only [stagedContent, openVpn, decide_true, Bool.not_true, Bool.false_eq_true, ↓reduceIte] at checked
    obtain ⟨_, valid, hardened⟩ := ok_of_bind checked
    split_ifs at hardened with long
    exact ⟨valid, same.trans (Except.ok.inj hardened).symm⟩
  · intro other
    simp only [stagedContent, other, decide_false, Bool.not_false, ↓reduceIte] at checked
    exact same.trans (Except.ok.inj checked).symm

theorem specified_of_staged (past : List Moment) {given validated stagedArguments : List Text}
    (valid : validateProcessArguments platform files program given = .ok validated)
    (stages : stageArguments platform files program validated = .ok (stagedArguments, stagedInput)) :
    Specified platform (past ++ [⟨.setArguments given, files⟩]) program stagedArguments stagedInput := by
  obtain ⟨rfl, _⟩ := validateProcessArguments_ok valid
  refine ⟨_, files, List.mem_append_right _ List.mem_cons_self, valid, ?_⟩
  unfold stageArguments at stages
  cases place : inputIndex program with
  | none =>
    simp only [place] at stages
    exact (Prod.mk.inj (Except.ok.inj stages)).1.symm
  | some index =>
    simp only [place] at stages
    obtain ⟨staged, copied, equation⟩ := ok_of_bind stages
    obtain ⟨rfl, rfl⟩ := Prod.mk.inj (Except.ok.inj equation)
    have inside := inputIndex_lt valid place
    refine ⟨_, staged, List.getElem?_eq_getElem inside, rfl, rfl, ?_⟩
    have source : validated.getD index [] = validated[index] := by
      simp [List.getD_eq_getElem?_getD, inside]
    rw [source] at copied
    exact checkedContent_of_staged copied

theorem Consistent.setProgram
    {programId : Int} (quiet : ¬ Reconfigures platform server ⟨.setProgram programId, files⟩) :
    Consistent platform (past ++ [⟨.setProgram programId, files⟩])
      (server.setProgram platform files programId) := by
  unfold IpcServerProcess.setProgram
  cases selection : selectProgram platform files programId with
  | error reason => exact .of_rejected rfl
  | ok program =>
    have idle : server.process.state = .notRunning := by
      by_contra running
      exact quiet ⟨running, by simp [selection, Except.isOk, Except.toBool]⟩
    constructor
    · intro _ _
      simp [QProcess.setProgram, QProcess.setArguments, clearSpecification, idle]
    · intro _ _ complete
      cases complete
    · intro _ _ running
      simp [QProcess.setProgram, QProcess.setArguments, clearSpecification, idle] at running

theorem Specified.withoutInput (specified : Specified platform past program arguments stagedInput)
    (plain : inputIndex program = none) (other : Option StagedFile) :
    Specified platform past program arguments other := by
  unfold Specified at specified ⊢
  simpa only [plain] using specified

section

variable (consistent : Consistent platform past server)
include consistent

theorem Consistent.setArguments (quiet : ¬ Reconfigures platform server ⟨.setArguments arguments, files⟩) :
    Consistent platform (past ++ [⟨.setArguments arguments, files⟩])
      (server.setArguments platform files arguments) := by
  unfold IpcServerProcess.setArguments
  by_cases unready : !server.programConfigured ∨ server.configurationRejected
  · simp only [unready, ↓reduceIte]
    exact .of_rejected rfl
  simp only [unready, ↓reduceIte]
  simp only [Bool.not_eq_true', not_or, Bool.not_eq_false, Bool.not_eq_true] at unready
  obtain ⟨configured, accepted⟩ := unready
  cases valid : validateProcessArguments platform files server.program arguments with
  | error reason => exact .of_rejected rfl
  | ok validated =>
    cases stages : stageArguments platform files server.program validated with
    | error reason => simp only [stages]; exact .of_rejected rfl
    | ok result =>
      obtain ⟨stagedArguments, stagedInput⟩ := result
      simp only [stages, QProcess.setArguments_setArguments]
      have fresh := specified_of_staged past valid stages
      constructor
      · intro _ _
        exact (QProcess.setArguments_program _ _).trans (consistent.selected configured (by simp [accepted]))
      · intro _ _ _
        by_cases idle : server.process.state = .notRunning
        · simpa only [QProcess.setArguments, idle, ↓reduceIte] using fresh
        · have plain : inputIndex server.program = none := by
            by_contra reads
            apply quiet
            refine ⟨idle, configured, by simp [accepted], reads, ?_⟩
            simp [valid, stages, bind, Except.bind, Except.isOk, Except.toBool]
          have earlier := consistent.specified configured (by simp [accepted])
            (consistent.active configured (by simp [accepted]) idle)
          simpa only [QProcess.setArguments, idle, ↓reduceIte] using
            (earlier.withoutInput plain _).later _
      · intro _ _ _
        rfl

theorem Consistent.unchanged : Consistent platform (past ++ [moment]) server :=
  consistent.frame rfl rfl rfl rfl rfl rfl rfl Or.inl

theorem Consistent.start :
    Consistent platform (past ++ [moment]) server.start.1 := by
  unfold IpcServerProcess.start
  split_ifs with refused running
  · exact consistent.unchanged
  · exact consistent.unchanged
  · simp only [Bool.not_eq_true', not_or, Bool.not_eq_false, Bool.not_eq_true] at refused
    exact consistent.frame rfl rfl rfl rfl rfl rfl rfl fun _ => .inr refused.2.1

theorem Consistent.ended :
    Consistent platform (past ++ [moment]) (server.withState .notRunning) :=
  consistent.frame rfl rfl rfl rfl rfl rfl rfl fun awake => (awake rfl).elim

end

theorem Consistent.step
    (consistent : Consistent platform past before) (step : QuietStep platform before moment after) :
    Consistent platform (past ++ [moment]) after := by
  obtain ⟨rfl, quiet⟩ := step
  obtain ⟨event, files⟩ := moment
  cases event with
  | setProgram programId => exact Consistent.setProgram quiet
  | setArguments arguments => exact consistent.setArguments quiet
  | setInputChannelMode mode =>
    simp only [next, IpcServerProcess.setInputChannelMode]
    split
    · exact .of_rejected rfl
    · exact consistent.frame rfl rfl rfl rfl rfl rfl rfl Or.inl
  | setProcessChannelMode mode =>
    simp only [next, IpcServerProcess.setProcessChannelMode]
    split
    · exact .of_rejected rfl
    · exact consistent.frame rfl rfl rfl rfl rfl rfl rfl Or.inl
  | setNativeArguments arguments =>
    simp only [next, IpcServerProcess.setNativeArguments]
    split
    · exact .of_rejected rfl
    · exact consistent.unchanged
  | setWorkingDirectory dir =>
    simp only [next, IpcServerProcess.setWorkingDirectory]
    split
    · exact .of_rejected rfl
    · exact consistent.unchanged
  | start => exact consistent.start
  | close => exact consistent.ended
  | processEnded => exact consistent.ended
  | processStarted =>
    simp only [next]
    split
    · rename_i starting
      exact consistent.frame rfl rfl rfl rfl rfl rfl rfl fun _ => .inl (by simp [starting])
    · exact consistent.unchanged
  | terminate | kill | waitForStarted | waitForFinished => exact consistent.unchanged

theorem Consistent.launch {launch : Launch}
    (consistent : Consistent platform past server) (launched : server.start.2 = .launched launch) :
    Validated platform past launch := by
  unfold IpcServerProcess.start at launched
  split_ifs at launched with refused running
  simp only [Bool.not_eq_true', not_or, Bool.not_eq_false, Bool.not_eq_true] at refused
  obtain ⟨configured, complete, accepted, _⟩ := refused
  cases launched
  exact ⟨server.program, consistent.selected configured (by simp [accepted]),
    consistent.specified configured (by simp [accepted]) complete⟩

/-- In a run that gives the object no new specification while its process runs, every launch is of a
permitted program with the arguments of one accepted call, and its private copy is still there. -/
theorem launch_is_validated (past : List Moment) (server : IpcServerProcess)
    (run : Run (QuietStep platform) {} past server) (launch : Launch)
    (launched : server.start.2 = .launched launch) : Validated platform past launch := by
  have consistent : Consistent platform ([] ++ past) server :=
    run.invariant (fun _ _ _ _ held step => held.step step) [] Consistent.initial
  exact consistent.launch launched

def linuxPlatform : Platform where
  windows := false
  openVpnExecPath := literal "/opt/AmneziaVPN/service/openvpn"
  wireguardExecPath := literal "/usr/bin/wg-quick"
  certUtilPath := []
  tun2socksPath := literal "/opt/AmneziaVPN/service/tun2socks"
  isAbsolute path := path.head? = some '/'
  absoluteFilePath path := path
  absolutePath path := (path.rdropWhile (· ≠ '/')).dropLast
  strictUrl text :=
    let port := decimal (text.drop 19)
    ⟨(literal "socks5://127.0.0.1:").isPrefixOf text && port.isSome, literal "127.0.0.1",
      (port.map Int.ofNat).getD (-1), [], false, false⟩
  scriptPolicy := ⟨literal "/opt/AmneziaVPN/service/update-resolv-conf.sh", literal "/"⟩

def clientFiles (stagingPath : Text) : FileSystem where
  fileInfo _ := some ⟨true, false, 7⟩
  openFile _ := some ⟨true, 7, some (ascii "client\n")⟩
  stagingPath := some stagingPath

def openVpnArguments (config : Text) : List Text :=
  [literal "--config", config, literal "--management", literal "127.0.0.1", literal "57775",
    literal "--management-client"]

def firstRun : List Moment :=
  [⟨.setProgram 1, clientFiles []⟩,
    ⟨.setArguments (openVpnArguments (literal "/home/a.ovpn")), clientFiles (literal "/tmp/s1")⟩,
    ⟨.start, clientFiles []⟩, ⟨.processStarted, clientFiles []⟩]

def restart : List Moment := firstRun ++ [⟨.processEnded, clientFiles []⟩]

def reconfiguredRestart : List Moment :=
  firstRun ++
    [⟨.setArguments (openVpnArguments (literal "/home/b.ovpn")), clientFiles (literal "/tmp/s2")⟩,
      ⟨.processEnded, clientFiles []⟩]

def launchWith (config : Text) (staged : Text) : Launch where
  program := literal "/opt/AmneziaVPN/service/openvpn"
  arguments := openVpnArguments config
  workingDirectory := literal "/opt/AmneziaVPN/service"
  stagedInput := some ⟨staged, hardenOpenVpnConfigContent (ascii "client\n")⟩

theorem run_foldl (platform : Platform) (moments : List Moment) (server : IpcServerProcess) :
    Run (Step platform) server moments (moments.foldl (next platform) server) := by
  induction moments generalizing server with
  | nil => exact .nil server
  | cons moment rest ih => exact .cons rfl (ih _)

theorem restart_is_validated :
    Validated linuxPlatform restart (launchWith (literal "/tmp/s1") (literal "/tmp/s1")) := by
  apply launch_is_validated restart (restart.foldl (next linuxPlatform) {})
  · refine .cons ⟨rfl, fun busy => busy.1 rfl⟩ (.cons ⟨rfl, fun busy => ?_⟩ (.cons ⟨rfl, fun busy => busy.2⟩
      (.cons ⟨rfl, fun busy => busy.2⟩ (.cons ⟨rfl, fun busy => busy.2⟩ (.nil _)))))
    exact busy.1 (by decide +kernel)
  · decide +kernel

theorem reconfiguredRestart_launches_removed_copy : ∃ server launch,
    Run (Step linuxPlatform) {} reconfiguredRestart server ∧ server.start.2 = .launched launch ∧
      launch = launchWith (literal "/tmp/s1") (literal "/tmp/s2") ∧
      ¬ Validated linuxPlatform reconfiguredRestart launch := by
  refine ⟨_, _, run_foldl _ _ _, by decide +kernel, rfl, ?_⟩
  rintro ⟨program, path, given, files, _, valid, input⟩
  obtain rfl : program = .openVPN := by
    cases program with
    | openVPN => rfl
    | _ => revert path; decide +kernel
  obtain ⟨source, staged, inside, copy, arguments, -⟩ := input
  cases copy
  have second := congrArg (fun arguments => arguments[1]?) arguments
  rw [List.getElem?_set_self (List.getElem?_eq_some_iff.mp inside).1] at second
  revert second
  decide +kernel

end Amnezia.Ipc.IpcServerProcess
