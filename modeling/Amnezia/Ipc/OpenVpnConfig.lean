import Amnezia.Lib.Utf8
import Mathlib.Data.List.DropRight

/-! # The check of an OpenVPN configuration -/

namespace Amnezia.Ipc
open Lib.Utf8

abbrev Bytes := List UInt8

abbrev Text := List Char

-- The bytes of a string literal, and the characters of one in ASCII.
def ascii (string : String) : Bytes := string.toByteArray.data.toList

def literal (string : String) : Text := (ascii string).map Char.ofUInt8

-- What `\s` matches: tab, line feed, vertical tab, form feed, carriage return and space.
def isBlank (char : Char) : Bool := char = ' ' || (9 ≤ char.toNat && char.toNat ≤ 13)

def isSpace (char : Char) : Bool :=
  isBlank char || char.toNat ∈ [0x85, 0xA0, 0x1680, 0x2028, 0x2029, 0x202F, 0x205F, 0x3000] ||
    (0x2000 ≤ char.toNat && char.toNat ≤ 0x200A)

def trimmed (text : Text) : Text := (text.dropWhile isSpace).rdropWhile isSpace

def toLower (text : Text) : Text := text.map Char.toLower

def isNameChar (char : Char) : Bool := char.isAlphanum || char = '_' || char = '-'

-- The byte order mark is not part of the text; bytes that are not UTF-8 give `none`.
def fromUtf8 (content : Bytes) : Option Text :=
  match decode content with
  | some (first :: text) => if first.toNat = 0xFEFF then some text else some (first :: text)
  | other => other

def dropDashes : Text → Text
  | '-' :: '-' :: rest => if rest.head?.any isNameChar then rest else '-' :: '-' :: rest
  | line => line

-- `^\s*(?:--)?([A-Za-z0-9_-]+)(?:\s+(.*))?$`
def matchDirective (line : Text) : Option (Text × Text) :=
  let body := dropDashes (line.dropWhile isBlank)
  let name := body.takeWhile isNameChar
  let rest := body.dropWhile isNameChar
  if name = [] then none
  else if rest = [] ∨ rest.head?.any isBlank then some (name, rest.dropWhile isBlank)
  else none

-- `^\s*<([A-Za-z0-9_-]+)>\s*$` for the marker `<`, and the same for `</`
def matchTag (marker line : Text) : Option Text :=
  let line := line.dropWhile isBlank
  let body := line.drop marker.length
  let name := body.takeWhile isNameChar
  match body.dropWhile isNameChar with
  | '>' :: rest => if marker.isPrefixOf line ∧ name ≠ [] ∧ rest.all isBlank then some name else none
  | _ => none

def matchOpenTag (line : Text) : Option Text := matchTag ['<'] line

def matchCloseTag (line : Text) : Option Text := matchTag ['<', '/'] line

def segments (path : Text) : List Text := (path.splitOn '/').filter fun part => part ≠ [] ∧ part ≠ ['.']

def resolveParents (parts : List Text) : List Text :=
  parts.foldl (fun front part => if part = ['.', '.'] then front.dropLast else front ++ [part]) []

-- `QDir::cleanPath(QFileInfo(path).absoluteFilePath())` as the parts below the root
def cleanAbsolutePath (currentPath path : Text) : Option (List Text) :=
  if path = [] then none
  else if path.head? = some '/' then some (resolveParents (segments path))
  else some (resolveParents (segments (currentPath ++ '/' :: path)))

def unquote (value : Text) : Text :=
  if 2 ≤ value.length ∧ ((value.head? = some '"' ∧ value.getLast? = some '"') ∨
      (value.head? = some '\'' ∧ value.getLast? = some '\'')) then value.tail.dropLast
  else value

def dataBlocks : List Text :=
  ["auth-user-pass", "ca", "cert", "dh", "extra-certs", "key", "pkcs12", "secret", "tls-auth",
    "tls-crypt", "tls-crypt-v2"].map literal

def forbiddenDirectives : List Text :=
  ["askpass", "auth-gen-token-secret", "auth-gen-token", "auth-user-pass-optional",
    "auth-user-pass-verify", "cd", "bcast-buffers", "capath", "ccd-exclusive", "chroot",
    "client-connect", "client-cert-not-required", "client-crresponse", "client-disconnect",
    "client-config-dir", "client-to-client", "connect-freq", "connect-freq-initial", "config",
    "cryptoapicert", "daemon", "dns-updown", "down", "duplicate-cn", "engine", "group", "genkey",
    "hash-size", "http-proxy", "http-proxy-user-pass", "ipchange", "ifconfig-ipv6-pool",
    "ifconfig-ipv6-push", "ifconfig-pool", "ifconfig-pool-persist", "ifconfig-push",
    "ifconfig-push-constraint", "iproute", "learn-address", "log", "log-append", "management",
    "management-client-auth", "management-external-cert", "management-external-key", "max-clients",
    "max-routes-per-client", "mode", "nice", "opt-verify", "override-username", "plugin",
    "pkcs11-providers", "providers", "port-share", "push", "push-continuation", "push-remove",
    "push-reset", "replay-persist", "route-pre-down", "route-up", "script-security", "server",
    "server-bridge", "server-ipv6", "setcon", "setenv", "socks-proxy", "status",
    "tls-crypt-v2-verify", "tls-export-cert", "tls-server", "tls-verify", "tmp-dir", "up", "user",
    "username-as-common-name", "verify-client-cert", "writepid"].map literal

def externalFileDirectives : List Text :=
  ["auth-user-pass", "ca", "cert", "crl-verify", "dh", "extra-certs", "key", "pkcs12", "secret",
    "tls-auth", "tls-crypt", "tls-crypt-v2"].map literal

-- What the check compares with: the trusted script, empty when there is none, and the directory that
-- a relative path starts from.
structure ScriptPolicy where
  trustedResolverScript : Text
  currentPath : Text

def checkDirective (policy : ScriptPolicy) (directive value : Text) : Except String Unit :=
  if directive = literal "script-security" ∧ value = ['2'] ∧ policy.trustedResolverScript ≠ [] then return
  else if (directive = literal "up" ∨ directive = literal "down") ∧ policy.trustedResolverScript ≠ [] ∧
      cleanAbsolutePath policy.currentPath (unquote value) =
        cleanAbsolutePath policy.currentPath policy.trustedResolverScript then return
  else if directive ∈ forbiddenDirectives ∨
      (directive ∈ externalFileDirectives ∧ toLower value ≠ literal "[inline]") then
    throw ("OpenVPN configuration contains a privileged directive: " ++ String.ofList directive)
  else return

structure ScanState where
  activeDataBlock : Text := []
  logicalLine : Text := []
  hasClientSemantics : Bool := false

-- An odd number of backslashes at the end of a line continues it.
def isContinued (line : Text) : Bool := (line.reverse.takeWhile (· = '\\')).length % 2 ≠ 0

def chopCarriageReturn (line : Text) : Text := if line.getLast? = some '\r' then line.dropLast else line

def scanLogicalLine (policy : ScriptPolicy) (state : ScanState) (line : Text) : Except String ScanState :=
  if line = [] ∨ line.head? = some '#' ∨ line.head? = some ';' then return state
  else if state.activeDataBlock ≠ [] then
    match matchCloseTag line with
    | some tag =>
      if toLower tag = toLower state.activeDataBlock then return { state with activeDataBlock := [] }
      else return state
    | none => return state
  else match matchOpenTag line with
    | some tag =>
      if toLower tag ∈ dataBlocks then return { state with activeDataBlock := toLower tag }
      else return state
    | none =>
      if (matchCloseTag line).map toLower = some (literal "connection") then return state
      else match matchDirective line with
        | none => throw "OpenVPN configuration contains an invalid directive"
        | some (name, rest) => do
            let directive := toLower name
            let value := trimmed rest
            checkDirective policy directive value
            let client := (directive = literal "client" ∨ directive = literal "tls-client") ∧ value = []
            return { state with hasClientSemantics := state.hasClientSemantics || client }

def scanPhysicalLine (policy : ScriptPolicy) (state : ScanState) (physicalLine : Text) :
    Except String ScanState :=
  let logicalLine := state.logicalLine ++ chopCarriageReturn physicalLine
  if isContinued logicalLine then return { state with logicalLine := logicalLine.dropLast }
  else scanLogicalLine policy { state with logicalLine := [] } (trimmed logicalLine)

def validateOpenVpnConfigContent (policy : ScriptPolicy) (content : Bytes) : Except String Unit :=
  if content = [] ∨ content.length > 4 * 1024 * 1024 ∨ 0 ∈ content then
    throw "OpenVPN configuration has an invalid size or encoding"
  else match fromUtf8 content with
    | none => throw "OpenVPN configuration is not valid UTF-8"
    | some text =>
      if text.any fun char => char.toNat = 0xFFFD then throw "OpenVPN configuration is not valid UTF-8"
      else do
        let state ← (text.splitOn '\n').foldlM (scanPhysicalLine policy) {}
        if state.logicalLine ≠ [] ∨ state.activeDataBlock ≠ [] then
          throw "OpenVPN configuration contains an incomplete block"
        else if !state.hasClientSemantics then
          throw "OpenVPN configuration must explicitly use client mode"
        else return

def openVpnConfigSecurityPolicyPrefix : Bytes :=
  ascii ("pull-filter reject \"setenv \"\n" ++ "pull-filter accept \"setenv-safe\"\n" ++
    "pull-filter reject \"setenv\"\n")

def hardenOpenVpnConfigContent (content : Bytes) : Bytes :=
  if openVpnConfigSecurityPolicyPrefix.isPrefixOf content then content
  else openVpnConfigSecurityPolicyPrefix ++ content

end Amnezia.Ipc
