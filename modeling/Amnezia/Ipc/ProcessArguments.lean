import Amnezia.Ipc.OpenVpnConfig

/-! # The arguments of a privileged process -/

namespace Amnezia.Ipc

inductive PermittedProcess where
  | invalid | openVPN | wireguard | tun2Socks | certUtil | permittedProcessCount
  deriving DecidableEq

/-! ## The platform

What Qt and the installation fix for the life of the service, and what a call sees of the file
system while it runs. -/

structure Url where
  isValid : Bool
  host : Text
  port : Int
  path : Text
  hasQuery : Bool
  hasFragment : Bool

structure Platform where
  windows : Bool
  openVpnExecPath : Text
  wireguardExecPath : Text
  certUtilPath : Text
  tun2socksPath : Text
  isAbsolute : Text → Bool
  absoluteFilePath : Text → Text
  absolutePath : Text → Text
  strictUrl : Text → Url
  scriptPolicy : ScriptPolicy

def permittedProcessPath (platform : Platform) : PermittedProcess → Text
  | .openVPN => platform.openVpnExecPath
  | .wireguard => platform.wireguardExecPath
  | .certUtil => platform.certUtilPath
  | .tun2Socks => platform.tun2socksPath
  | .invalid | .permittedProcessCount => []

structure FileInfo where
  isFile : Bool
  isSymLink : Bool
  size : Nat

-- A file as it is opened without following links; `content` is `none` when reading it fails.
structure OpenedFile where
  isRegular : Bool
  size : Nat
  content : Option Bytes

-- `stagingPath` names the temporary file, and is `none` when it cannot be created or written.
structure FileSystem where
  fileInfo : Text → Option FileInfo
  openFile : Text → Option OpenedFile
  stagingPath : Option Text

-- `QString::size` counts UTF-16 units.
def utf16Size (text : Text) : Nat :=
  text.foldl (fun size char => size + if char.toNat < 0x10000 then 1 else 2) 0

def hasUnsafeArgumentCharacters (argument : Text) : Bool :=
  argument.any fun char => char.toNat < 0x20 || char.toNat = 0x7F

def isBoundedRegularFile (platform : Platform) (files : FileSystem) (path : Text) (maximumSize : Nat) : Bool :=
  platform.isAbsolute path && (files.fileInfo path).any fun file =>
    file.isFile && !file.isSymLink && file.size ≤ maximumSize

def decimal (digits : Text) : Option Nat :=
  if digits = [] ∨ !digits.all Char.isDigit then none
  else some (digits.foldl (fun value digit => value * 10 + (digit.toNat - 48)) 0)

def toInt (text : Text) : Option Int :=
  let value : Option Int := match trimmed text with
    | '-' :: digits => (decimal digits).map fun value => -(value : Int)
    | '+' :: digits => (decimal digits).map fun value => (value : Int)
    | digits => (decimal digits).map fun value => (value : Int)
  value.filter fun value => -2147483648 ≤ value ∧ value ≤ 2147483647

def number : Int → Text
  | .ofNat value => Nat.toDigits 10 value
  | .negSucc value => '-' :: Nat.toDigits 10 (value + 1)

def isManagementPort (argument : Text) : Bool :=
  (toInt argument).any fun port => 1 ≤ port && port ≤ 65535 && argument = number port

-- `^tun://[A-Za-z0-9_.:-]{1,64}$`; the line feed that `$` admits is an unsafe character.
def matchDevice (argument : Text) : Bool :=
  let name := argument.drop 6
  (literal "tun://").isPrefixOf argument && 1 ≤ name.length && name.length ≤ 64 &&
    name.all fun char => char.isAlphanum || char ∈ ['_', '.', ':', '-']

-- The letters outside ASCII that fold to an ASCII one are the long s and the Kelvin sign.
def foldCase (char : Char) : Char :=
  if char.toNat = 0x17F then 's' else if char.toNat = 0x212A then 'k' else char.toLower

def startsWithIgnoringCase (text start : Text) : Bool := start.isPrefixOf (text.map foldCase)

def splitAtLastAt (text : Text) : Option (Text × Text) :=
  if '@' ∈ text then some ((text.rdropWhile (· ≠ '@')).dropLast, text.rtakeWhile (· ≠ '@')) else none

def isLoopbackEndpoint (endpoint : Url) : Bool :=
  endpoint.isValid && (endpoint.host = literal "127.0.0.1" || endpoint.host = literal "::1") &&
    1 ≤ endpoint.port && endpoint.port ≤ 65535 && endpoint.path = [] && !endpoint.hasQuery &&
    !endpoint.hasFragment

def checkCharacters (totalLength : Nat) : List Text → Except String Unit
  | [] => return
  | argument :: rest =>
    let totalLength := totalLength + utf16Size argument
    if utf16Size argument > 8192 ∨ totalLength > 32768 ∨ hasUnsafeArgumentCharacters argument then
      throw "Unsafe privileged process argument"
    else checkCharacters totalLength rest

def openVpnMaximumSize : Nat := 4 * 1024 * 1024

def certUtilMaximumSize : Nat := 16 * 1024 * 1024

def checkOpenVpn (platform : Platform) (files : FileSystem) : List Text → Except String Unit
  | [config, file, management, address, port, client] =>
    if config ≠ literal "--config" ∨ management ≠ literal "--management" ∨
        address ≠ literal "127.0.0.1" ∨ client ≠ literal "--management-client" ∨
        !isBoundedRegularFile platform files file openVpnMaximumSize then
      throw "Invalid OpenVPN launch specification"
    else if !isManagementPort port then throw "Invalid OpenVPN management port"
    else return
  | _ => throw "Invalid OpenVPN launch specification"

def checkProxy (platform : Platform) (proxy : Text) : Except String Unit :=
  match splitAtLastAt proxy with
  | some (front, endpoint) =>
    if !startsWithIgnoringCase proxy (literal "socks5://") ∨ front.length ≤ (literal "socks5://").length then
      throw "Invalid tun2socks proxy"
    else if !isLoopbackEndpoint (platform.strictUrl (literal "socks5://" ++ endpoint)) then
      throw "Tun2socks proxy must use a loopback endpoint"
    else return
  | none => throw "Invalid tun2socks proxy"

def checkTun2Socks (platform : Platform) : List Text → Except String Unit
  | [flag, device, proxyFlag, proxy] =>
    if flag ≠ literal "-device" ∨ proxyFlag ≠ literal "-proxy" then
      throw "Invalid tun2socks launch specification"
    else if !matchDevice device then throw "Invalid tun2socks device"
    else checkProxy platform proxy
  | _ => throw "Invalid tun2socks launch specification"

def checkCertUtil (platform : Platform) (files : FileSystem) : List Text → Except String Unit
  | [force, importFlag, passwordFlag, _, file, noExport] =>
    if force ≠ literal "-f" ∨ importFlag ≠ literal "-importpfx" ∨ passwordFlag ≠ literal "-p" ∨
        noExport ≠ literal "NoExport" ∨
        !isBoundedRegularFile platform files file certUtilMaximumSize then
      throw "Invalid certificate import specification"
    else return
  | _ => throw "Invalid certificate import specification"

def checkShape (platform : Platform) (files : FileSystem) :
    PermittedProcess → List Text → Except String Unit
  | .openVPN, arguments => checkOpenVpn platform files arguments
  | .tun2Socks, arguments => checkTun2Socks platform arguments
  | .certUtil, arguments => checkCertUtil platform files arguments
  | .invalid, _ | .wireguard, _ | .permittedProcessCount, _ => throw "Privileged process is not supported"

def validateProcessArguments (platform : Platform) (files : FileSystem) (process : PermittedProcess)
    (arguments : List Text) : Except String (List Text) :=
  if arguments.length > 8 then throw "Too many privileged process arguments"
  else do
    checkCharacters 0 arguments
    checkShape platform files process arguments
    return arguments

theorem ok_of_bind {α β ε : Type} {first : Except ε α} {second : α → Except ε β} {result : β}
    (equation : first >>= second = .ok result) : ∃ value, first = .ok value ∧ second value = .ok result := by
  cases first with
  | error message => cases equation
  | ok value => exact ⟨value, rfl, equation⟩

variable {platform : Platform} {files : FileSystem} {arguments : List Text}

theorem checkOpenVpn_ok (accepted : checkOpenVpn platform files arguments = .ok ()) :
    ∃ file port, arguments = [literal "--config", file, literal "--management", literal "127.0.0.1", port,
        literal "--management-client"] ∧
      isBoundedRegularFile platform files file openVpnMaximumSize ∧ isManagementPort port := by
  unfold checkOpenVpn at accepted
  split at accepted
  · rename_i config file management address port client
    split_ifs at accepted with refused badPort
    simp only [ne_eq, not_or, not_not, Bool.not_eq_true', Bool.not_eq_false] at refused badPort
    obtain ⟨rfl, rfl, rfl, rfl, bounded⟩ := refused
    exact ⟨file, port, rfl, bounded, badPort⟩
  · cases accepted

theorem checkCertUtil_ok (accepted : checkCertUtil platform files arguments = .ok ()) :
    ∃ password file, arguments = [literal "-f", literal "-importpfx", literal "-p", password, file,
        literal "NoExport"] ∧ isBoundedRegularFile platform files file certUtilMaximumSize := by
  unfold checkCertUtil at accepted
  split at accepted
  · rename_i force importFlag passwordFlag password file noExport
    split_ifs at accepted with refused
    simp only [ne_eq, not_or, not_not, Bool.not_eq_true', Bool.not_eq_false] at refused
    obtain ⟨rfl, rfl, rfl, rfl, bounded⟩ := refused
    exact ⟨password, file, rfl, bounded⟩
  · cases accepted

def inputIndex : PermittedProcess → Option Nat
  | .openVPN => some 1
  | .certUtil => some 4
  | _ => none

variable {process : PermittedProcess}

theorem validateProcessArguments_ok {result : List Text}
    (accepted : validateProcessArguments platform files process arguments = .ok result) :
    result = arguments ∧
      ((process = .openVPN ∧ checkOpenVpn platform files arguments = .ok ()) ∨
        (process = .tun2Socks ∧ checkTun2Socks platform arguments = .ok ()) ∨
        (process = .certUtil ∧ checkCertUtil platform files arguments = .ok ())) := by
  unfold validateProcessArguments at accepted
  split_ifs at accepted with many
  obtain ⟨_, _, accepted⟩ := ok_of_bind accepted
  obtain ⟨_, checked, equation⟩ := ok_of_bind accepted
  refine ⟨(Except.ok.inj equation).symm, ?_⟩
  cases process with
  | openVPN => exact .inl ⟨rfl, checked⟩
  | tun2Socks => exact .inr (.inl ⟨rfl, checked⟩)
  | certUtil => exact .inr (.inr ⟨rfl, checked⟩)
  | _ => cases checked

theorem inputIndex_lt {result : List Text} {index : Nat}
    (accepted : validateProcessArguments platform files process arguments = .ok result)
    (here : inputIndex process = some index) : index < result.length := by
  obtain ⟨rfl, ⟨rfl, checked⟩ | ⟨rfl, _⟩ | ⟨rfl, checked⟩⟩ := validateProcessArguments_ok accepted
  · obtain ⟨file, port, rfl, _⟩ := checkOpenVpn_ok checked
    cases here
    simp
  · cases here
  · obtain ⟨password, file, rfl, _⟩ := checkCertUtil_ok checked
    cases here
    simp

end Amnezia.Ipc
