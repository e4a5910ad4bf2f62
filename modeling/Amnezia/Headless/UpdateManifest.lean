import Amnezia.Headless.UpdateTransaction
import Amnezia.Ipc.ProcessArguments
import Amnezia.Lib.Json

/-!
# The signed manifest of the headless updater

What Qt, OpenSSL and tar compute is a parameter.
-/

namespace Amnezia.Headless
open Lib Procedure

abbrev Bytes := List UInt8

inductive HostAddress where
  | unknown | ipv4 (address : Nat) | ipv6

structure Url where
  isValid : Bool
  isRelative : Bool
  scheme : String
  userInfo : String
  host : String
  port : Int
  path : String
  query : String
  hasFragment : Bool

structure ArchiveMember (Content : Type) where
  isRegular : Bool
  name : String
  content : Content

structure Services (Content : Type) extends Platform Content where
  fromJson : Bytes → Option Json
  fromBase64 : Bool → Bytes → Bytes
  toBase64 : Bool → Bytes → Bytes
  -- The key is a PEM text of an Ed25519 key and the signature of the payload verifies under it.
  verifySignature : Bytes → Bytes → Bytes → Bool
  parseUrl : String → Url
  resolved : Url → Url → Url
  hostAddress : String → HostAddress
  keyHash : Bytes → Bytes
  members : Content → Option (List (ArchiveMember Content))

instance {Content : Type} : CoeOut (Services Content) (Hashing Content) := ⟨fun services => services.toHashing⟩

structure Profile where
  autoUpdate : Bool
  updateManifestUrl : String
  updatePublicKeyPath : String
  forwardRoutes : List String

variable {Content : Type} (services : Services Content)

def sameIgnoringCase (left right : String) : Bool := left.toLower = right.toLower

def effectivePort (url : Url) : Int :=
  if url.port ≠ -1 then url.port
  else if sameIgnoringCase url.scheme "https" then 443
  else if sameIgnoringCase url.scheme "http" then 80
  else -1

def samePinnedUrl (expected actual : Url) : Bool :=
  actual.isValid && sameIgnoringCase actual.scheme expected.scheme &&
    sameIgnoringCase actual.host expected.host && effectivePort actual = effectivePort expected &&
    actual.path = expected.path && actual.query = expected.query

def privateOrLocalIpv4 (address : Nat) : Bool :=
  address >>> 24 = 10 || address >>> 20 = 0xac1 || address >>> 16 = 0xc0a8 || address >>> 22 = 0x191 ||
    address >>> 8 = 0xc00000 || address >>> 24 = 0x7f

def routePrefix : List (List Char) → Option (List Char × Int)
  | [network] => some (network, 32)
  | [network, length] => (Ipc.toInt length).map fun length => (network, length)
  | _ => none

def ipv4ContainedByRoute (address : Nat) (route : String) : Bool :=
  match routePrefix ((Ipc.trimmed route.toList).splitOn '/') with
  | none => false
  | some (network, length) =>
    match services.hostAddress (String.ofList network) with
    | .ipv4 network => 0 ≤ length && length ≤ 32 &&
        address >>> (32 - length.toNat) = network >>> (32 - length.toNat)
    | _ => false

def safeUpdateUrl (profile : Profile) (url : Url) : Bool :=
  if !url.isValid ∨ url.host = "" ∨ url.userInfo ≠ "" ∨ url.hasFragment ∨
      (url.port ≠ -1 ∧ (url.port < 1 ∨ url.port > 65535)) then false
  else if sameIgnoringCase url.scheme "https" then
    match services.hostAddress url.host with
    | .unknown => false
    | _ => true
  else if !sameIgnoringCase url.scheme "http" then false
  else
    match services.hostAddress url.host with
    | .ipv4 address => privateOrLocalIpv4 address &&
        profile.forwardRoutes.any (ipv4ContainedByRoute services address)
    | _ => false

def validArtifactUrl (profile : Profile) (manifestUrl : Url) (rawUrl : String) : Option Url :=
  let candidate := services.parseUrl rawUrl
  let resolved := if candidate.isRelative then services.resolved manifestUrl candidate else candidate
  if Ipc.trimmed rawUrl.toList = [] ∨ !candidate.isValid ∨ candidate.userInfo ≠ "" ∨
      candidate.hasFragment then none
  else if safeUpdateUrl services profile resolved ∧ resolved.host ≠ "" ∧ resolved.userInfo = "" ∧
      !resolved.hasFragment ∧ sameIgnoringCase resolved.scheme manifestUrl.scheme ∧
      sameIgnoringCase resolved.host manifestUrl.host ∧
      effectivePort resolved = effectivePort manifestUrl then some resolved
  else none

def maximumManifestBytes : Nat := 1024 * 1024

def maximumArtifactBytes : Int := 512 * 1024 * 1024

def isBase64 (urlSafe : Bool) (byte : UInt8) : Bool :=
  (0x41 ≤ byte && byte ≤ 0x5A) || (0x61 ≤ byte && byte ≤ 0x7A) || (0x30 ≤ byte && byte ≤ 0x39) ||
    (if urlSafe then byte = 0x2D || byte = 0x5F else byte = 0x2B || byte = 0x2F)

def decodeStrict (encoded : Bytes) (urlSafe : Bool) : Option Bytes :=
  let padding := encoded.dropWhile (isBase64 urlSafe)
  let decoded := services.fromBase64 urlSafe encoded
  if encoded = [] ∨ !padding.all (· = 0x3D) ∨ padding.length > 2 ∨ (urlSafe ∧ padding.length ≠ 0) ∨
      encoded.length % 4 = 1 then none
  else if decoded = [] ∨ services.toBase64 urlSafe decoded ≠ encoded then none
  else some decoded

def utf8 (text : String) : Bytes := text.toByteArray.data.toList

def verifyEnvelope (envelope : JsonObject) (publicKey : Bytes) : Option Bytes := do
  if !(envelope.value "payload").isString ∨ !(envelope.value "signature").isString then none
  else
    let payload ← decodeStrict services (utf8 (envelope.text "payload")) true
    let signature ← decodeStrict services (utf8 (envelope.text "signature")) false
    if payload = [] ∨ signature.length ≠ 64 ∨ publicKey = [] ∨ publicKey.length > 16 * 1024 ∨
        !services.verifySignature publicKey payload signature then none
    else some payload

structure Candidate where
  version : String
  platform : String
  url : Url
  sha256 : String
  size : Int
  autoInstall : Bool
  format : String

inductive Parsed where
  | rejected (code : Code) (message : String)
  | nothing (code : Code) (message : String)
  | available (candidate : Candidate)

def jsonInteger (value : Json) (minimum maximum : Int) : Option Int :=
  match value with
  | .number number =>
    if number.den = 1 ∧ minimum ≤ number.num ∧ number.num ≤ maximum then some number.num else none
  | _ => none

def provisioningFiles : List String :=
  ["install_headless.sh", "amneziad", "amnezia-cli", "amneziad.service", "package-manifest.json",
    "runtime-dependencies.json", "runtime-dependencies.txt", "SHA256SUMS"]

def hasExactHeadlessProvisioningFiles (value : Json) : Bool :=
  match value with
  | .array items => items.all Json.isString && items.map (Json.toString "") = provisioningFiles
  | _ => false

def validProvisioning (profile : Profile) (manifestUrl : Url) (version : String) (value : Json) : Bool :=
  let provisioning := value.toObject
  value.isObject && provisioning.hasOnly ["url", "sha256", "size", "format", "version",
      "packageManifestSha256", "checksumsSha256", "packageVersion", "packageFiles"] &&
    provisioning.text "version" = version && provisioning.text "packageVersion" = version &&
    provisioning.text "format" = "amnezia-headless-provisioning-tar-v1" &&
    (validArtifactUrl services profile manifestUrl (provisioning.text "url")).isSome &&
    validSha256 (provisioning.text "sha256") && validSha256 (provisioning.text "packageManifestSha256") &&
    validSha256 (provisioning.text "checksumsSha256") &&
    hasExactHeadlessProvisioningFiles (provisioning.value "packageFiles") &&
    (jsonInteger (provisioning.value "size") 1 maximumArtifactBytes).isSome

def headlessPlatform : String := "linux-headless-x64"

def parseArtifact (profile : Profile) (manifestUrl : Url) (payload artifact : JsonObject) (version : String) :
    Parsed :=
  let rawUrl := (artifact.value "url").toString (artifact.text "path")
  if !artifact.hasOnly ["url", "path", "sha256", "size", "autoInstall", "format"] then
    .rejected .invalidManifest "headless artifact has unknown fields"
  else
    match validArtifactUrl services profile manifestUrl rawUrl with
    | none => .rejected .invalidManifest "headless artifact metadata is invalid"
    | some url =>
      if !validSha256 (artifact.text "sha256") ∨ artifact.text "format" ≠ "amnezia-headless-tar-v1" then
        .rejected .invalidManifest "headless artifact metadata is invalid"
      else
        match jsonInteger (artifact.value "size") 1 maximumArtifactBytes with
        | none => .rejected .invalidManifest "headless artifact size is invalid"
        | some size =>
          if artifact.contains "autoInstall" ∧ !(artifact.value "autoInstall").isBool then
            .rejected .invalidManifest "headless artifact autoInstall is invalid"
          else .available {
            version := version
            platform := headlessPlatform
            url := url
            sha256 := artifact.text "sha256"
            size := size
            autoInstall := (artifact.value "autoInstall").toBool
              ((payload.value "autoInstall").toBool false)
            format := artifact.text "format" }

def parsePayload (profile : Profile) (manifestUrl : Url) (currentVersion : String) (payload : JsonObject) :
    Parsed :=
  let version := payload.text "version"
  let platforms := payload.value "platforms"
  if !payload.hasOnly ["schema", "version", "platforms", "autoInstall", "changelog", "releaseDate",
      "headlessProvisioning"] then
    .rejected .invalidManifest "signed headless update payload has unknown fields"
  else if (jsonInteger (payload.value "schema") 1 1).isNone ∨ !(payload.value "version").isString ∨
      !validVersion version then
    .rejected .invalidManifest "signed headless update version is invalid"
  else if !validVersion currentVersion then
    .rejected .invalidCurrentVersion "running headless version is invalid"
  else if (platforms.isObject && platforms.toObject.contains headlessPlatform) ≠
      payload.contains "headlessProvisioning" then
    .rejected .invalidManifest "headless artifact and provisioning metadata must be published together"
  else if payload.contains "headlessProvisioning" ∧
      !validProvisioning services profile manifestUrl version (payload.value "headlessProvisioning") then
    .rejected .invalidManifest "headless provisioning metadata is invalid"
  else if !newerVersion version currentVersion then
    .nothing .noUpdate "headless client is up to date"
  else if !platforms.isObject then
    .rejected .invalidManifest "headless update platforms are missing"
  else if !(platforms.toObject.value headlessPlatform).isObject then
    .nothing .noHeadlessArtifact "manifest contains no Linux headless artifact"
  else
    parseArtifact services profile manifestUrl payload (platforms.toObject.value headlessPlatform).toObject
      version

-- What `QFileInfo` and `QFile` say about a path; a file that cannot be opened reads as `none`.
structure KeyFile where
  canonicalFilePath : String
  isFile : Bool
  isSymLink : Bool
  ownerId : Nat
  writeGroup : Bool
  writeOther : Bool
  size : Nat
  readAll : Option Bytes

def KeyFile.missing : KeyFile := ⟨"", false, false, 0, false, false, 0, none⟩

def trustedUpdatePublicKeyPath : String := "/etc/amnezia/update-public-key.pem"

def verifyTrustedKey (files : String → KeyFile) (configuredPath : String) : Except String Bytes :=
  let configured := files configuredPath
  let expected := files trustedUpdatePublicKeyPath
  if configuredPath ≠ trustedUpdatePublicKeyPath ∨
      configured.canonicalFilePath ≠ expected.canonicalFilePath ∨
      !configured.isFile ∨ configured.isSymLink then
    .error ("update trust anchor must be the fixed root-owned key at " ++
      "/etc/amnezia/update-public-key.pem")
  else if configured.ownerId ≠ 0 ∨ configured.writeGroup ∨ configured.writeOther then
    .error "update trust anchor must be root-owned and not group/world writable"
  else
    match configured.readAll with
    | none => .error "update trust anchor cannot be read safely"
    | some bytes =>
      if configured.size ≤ 0 ∨ configured.size > 16 * 1024 then
        .error "update trust anchor cannot be read safely"
      else if bytes.length ≠ configured.size then
        .error "update trust anchor could not be read completely"
      else .ok bytes

-- The key that was read before the request, and the files as they are when the signature is verified.
structure TrustAnchor where
  publicKeyPath : String
  pinnedPublicKey : Bytes
  files : String → KeyFile

def TrustAnchor.unchanged (anchor : TrustAnchor) : Bool :=
  match verifyTrustedKey anchor.files anchor.publicKeyPath with
  | .error _ => false
  | .ok currentPublicKey => services.keyHash currentPublicKey = services.keyHash anchor.pinnedPublicKey

def parseSigned (profile : Profile) (manifestUrl : Url) (anchor : TrustAnchor) (currentVersion : String)
    (envelope : JsonObject) : Parsed :=
  if !envelope.hasOnly ["schema", "signatureAlgorithm", "payload", "signature"] ∨
      envelope.text "schema" ≠ "amnezia-selfhosted-update-v1" ∨
      envelope.text "signatureAlgorithm" ≠ "Ed25519" then
    .rejected .invalidManifest "headless update manifest envelope is invalid"
  else if !anchor.unchanged services then
    .rejected .signatureInvalid "headless update trust anchor changed during manifest verification"
  else
    match verifyEnvelope services envelope anchor.pinnedPublicKey with
    | none => .rejected .signatureInvalid "headless update manifest signature is invalid"
    | some payloadBytes =>
      if payloadBytes.length > maximumManifestBytes then
        .rejected .signatureInvalid "headless update manifest signature is invalid"
      else
        match services.fromJson payloadBytes with
        | some (.object payload) => parsePayload services profile manifestUrl currentVersion payload
        | _ => .rejected .invalidManifest "signed headless update payload is invalid"

def parseManifest (manifest : Bytes) (manifestUrl : Url) (profile : Profile) (anchor : TrustAnchor)
    (currentVersion : String) : Parsed :=
  match services.fromJson manifest with
  | some (.object envelope) => parseSigned services profile manifestUrl anchor currentVersion envelope
  | _ => .rejected .invalidManifest "headless update manifest is not JSON"

structure Reply (Body : Type) where
  finished : Bool
  url : Url
  failed : Bool
  status : Int
  body : Body

def Reply.successful {Body : Type} (reply : Reply Body) : Bool := 200 ≤ reply.status && reply.status < 300

def download (candidate : Candidate) (reply : Reply Content) : Action Content (Except String Content) := do
  let stored ← synchronize
  if stored ∧ reply.finished ∧ samePinnedUrl candidate.url reply.url ∧ !reply.failed ∧ reply.successful ∧
      (services.size reply.body : Int) = candidate.size ∧ services.sha256 reply.body = candidate.sha256 then
    return .ok reply.body
  else return .error "headless update artifact failed size or SHA-256 verification"

def managedName : ManagedFile → String
  | .amneziad => "amneziad"
  | .amneziaCli => "amnezia-cli"

def safeMembers (listedTotal : Int) (seen : List String) : List (ArchiveMember Content) → Bool
  | [] => true
  | member :: rest =>
    member.isRegular && member.name ≠ "" && !(member.name.toList.contains '/') && member.name ≠ "." &&
      member.name ≠ ".." && 1 ≤ services.size member.content &&
      (services.size member.content : Int) ≤ maximumArtifactBytes - listedTotal &&
      !(seen.contains member.name) &&
      safeMembers (listedTotal + services.size member.content) (member.name :: seen) rest

def memberContent (members : List (ArchiveMember Content)) (name : ManagedFile) : Option Content :=
  (members.find? fun member => member.name = managedName name).map ArchiveMember.content

def payloadOf (members : List (ArchiveMember Content)) : Option (Pair Content) :=
  if safeMembers services 0 [] members ∧ members.length = 2 then do
    let amneziad ← memberContent members .amneziad
    let amneziaCli ← memberContent members .amneziaCli
    return ⟨amneziad, amneziaCli⟩
  else none

def extract (candidate : Candidate) (archive : Content) (transaction : DirectoryName) :
    Action Content (Except String Unit) := do
  if (services.size archive : Int) ≠ candidate.size ∨ services.sha256 archive ≠ candidate.sha256 then
    return .error "headless update archive failed expected hash or size verification"
  else
    match ← passAll ["headless update archive cannot be privately staged",
        "headless verified archive cannot be durably staged",
        "headless private archive failed expected hash or size verification",
        "tar is not installed for headless update extraction",
        "headless update archive command failed"] with
    | some message => return .error message
    | none =>
      match (services.members archive).bind (payloadOf services) with
      | none => return .error "headless update archive has an unexpected file set"
      | some payload =>
        let extracted ← commit fun disk => { disk with
          directories := disk.directories.insert transaction (payload.map some) }
        if extracted then return .ok ()
        else return .error "headless extracted binary cannot be durably staged"

end Amnezia.Headless
