import Amnezia.Lib.Runs
import Mathlib.Data.List.Sort

/-!
# The log collector

Every thread is a list of operations, one of which is carried out at a time, and the process may stop
between any two. Renames and transactions are atomic and succeed. SHA-256 and the text of a calendar date
are given; a scan of the files reads the clock once.
-/

namespace Amnezia.Collector
open Lib

abbrev Bytes := List UInt8

abbrev Text := List Char

structure Options where
  uploadBytes : Nat := 15 * 1024 * 1024
  clientBytes : Nat := 30 * 1024 * 1024
  clientFiles : Nat := 4096
  totalBytes : Nat := 512 * 1024 * 1024
  totalFiles : Nat := 8192
  logAge : Int := 30 * 86400
  receiptAge : Int := 35 * 86400
  clientReceipts : Nat := 131072
  totalReceipts : Nat := 1048576

structure Moment where
  seconds : Int
  nanoseconds : Nat
  deriving DecidableEq, Repr

structure LogFile where
  client : Text
  name : Text
  modified : Moment
  content : Bytes
  deriving DecidableEq, Repr

structure Binding (Hash : Type) where
  hash : Hash
  length : Nat
  deriving DecidableEq, Repr

structure Row (Hash : Type) where
  client : Text
  batch : Text
  acceptedAt : Int
  binding : Option (Binding Hash)
  deriving DecidableEq, Repr

structure Request where
  client : Text
  batch : Text
  installation : Text
  kind : Text
  body : Bytes
  deriving DecidableEq, Repr

inductive Response where
  | accepted (replayed : Bool)
  | refused (status : Nat)
  deriving DecidableEq, Repr

def digestId (text : Text) : Bool :=
  text.length = 64 && text.all fun char => "0123456789abcdef".toList.contains char

def safeInstallation (text : Text) : Bool :=
  !text.isEmpty && text.length ≤ 80 && text.all fun char =>
    ('A' ≤ char && char ≤ 'Z') || ('a' ≤ char && char ≤ 'z') || ('0' ≤ char && char ≤ '9') || char = '_'
      || char = '.' || char = '-'

def suffix (batch : Text) : Text := '-' :: batch ++ ".log".toList

def LogFile.holds (file : LogFile) (client batch : Text) : Bool :=
  file.client = client && (file.name = batch ++ ".log".toList || (suffix batch).isSuffixOf file.name)

section Receipts

variable {Hash : Type} [DecidableEq Hash]

def Row.isFor (row : Row Hash) (client batch : Text) : Bool := row.client = client && row.batch = batch

def receipt (rows : List (Row Hash)) (client batch : Text) : Option (Option (Binding Hash)) :=
  (rows.find? fun row => row.isFor client batch).map Row.binding

-- `ORDER BY accepted_at DESC, rowid DESC`: the rows are in the order of their ids.
def newer (first second : Row Hash × Nat) : Bool :=
  second.1.acceptedAt < first.1.acceptedAt ||
    (first.1.acceptedAt = second.1.acceptedAt && second.2 < first.2)

-- `DELETE .. LIMIT -1 OFFSET limit` among the rows that are chosen
def keepNewest (limit : Nat) (chosen : Row Hash → Bool) (rows : List (Row Hash)) : List (Row Hash) :=
  (rows.zipIdx.filter fun entry => !chosen entry.1 ||
    (rows.zipIdx.filter fun other => chosen other.1 && newer other entry).length < limit).map Prod.fst

def insertOrIgnore (row : Row Hash) (rows : List (Row Hash)) : List (Row Hash) :=
  if rows.any fun other => other.isFor row.client row.batch then rows else rows ++ [row]

def bindRow (client batch : Text) (binding : Binding Hash) (row : Row Hash) : Row Hash :=
  if row.isFor client batch && row.binding = none then { row with binding := some binding } else row

def record (options : Options) (now : Moment) (client batch : Text) (binding : Binding Hash)
    (rows : List (Row Hash)) : List (Row Hash) :=
  keepNewest options.clientReceipts (fun row => row.client = client)
    ((insertOrIgnore ⟨client, batch, now.seconds, some binding⟩ rows).map (bindRow client batch binding))

def expireRows (options : Options) (now : Moment) (rows : List (Row Hash)) : List (Row Hash) :=
  keepNewest options.totalReceipts (fun _ => true)
    (rows.filter fun row => !(row.acceptedAt < now.seconds - options.receiptAge))

end Receipts

def Moment.before (first second : Moment) : Bool :=
  first.seconds < second.seconds ||
    (first.seconds = second.seconds && first.nanoseconds < second.nanoseconds)

def textBefore : Text → Text → Bool
  | _, [] => false
  | [], _ :: _ => true
  | first :: firsts, second :: seconds =>
    first.toNat < second.toNat || (first.toNat = second.toNat && textBefore firsts seconds)

-- `log_files` sorts by the time of modification and then by the path, part by part.
def LogFile.sortsBefore (first second : LogFile) : Bool :=
  first.modified.before second.modified ||
    (first.modified = second.modified &&
      (textBefore first.client second.client ||
        (first.client = second.client && !textBefore second.name first.name)))

def logFiles (files : List LogFile) : List LogFile := files.insertionSort fun first second => first.sortsBefore second

def fileSizes (files : List LogFile) : Nat := files.foldr (fun file total => file.content.length + total) 0

def shrink (bytes count : Nat) : List LogFile → Nat → Nat → List LogFile × Nat × Nat
  | [], total, remaining => ([], total, remaining)
  | file :: files, total, remaining =>
    if total ≤ bytes && remaining ≤ count then ([], total, remaining)
    else
      let (removed, rest) := shrink bytes count files (total - file.content.length) (remaining - 1)
      (file :: removed, rest)

def reserve (options : Options) (now : Moment) (bytes count : Nat) (files : List LogFile) :
    List LogFile × Bool :=
  if options.totalBytes < bytes || options.totalFiles < count then ([], false)
  else
    let sorted := logFiles files
    let old := sorted.filter fun file => file.modified.seconds < now.seconds - options.logAge
    let retained := sorted.filter fun file => !(file.modified.seconds < now.seconds - options.logAge)
    let (removed, total, remaining) := shrink (options.totalBytes - bytes) (options.totalFiles - count)
      retained (fileSizes retained) retained.length
    (old ++ removed, total ≤ options.totalBytes - bytes && remaining ≤ options.totalFiles - count)

def pruneClient (options : Options) (client : Text) (files : List LogFile) : List LogFile :=
  let mine := logFiles (files.filter fun file => file.client = client)
  (shrink options.clientBytes options.clientFiles mine (fileSizes mine) mine.length).1

def maintenanceDue (last : Option Int) (now : Moment) : Bool :=
  let last := last.getD 0
  !(0 ≤ last && last ≤ now.seconds + 300 && now.seconds - last < 3600)

inductive Operation (Hash : Type) where
  | lockClient
  | lookup
  | inspect (found : Option (Option (Binding Hash)))
  | measure (file : LogFile)
  | write
  | lockStorage
  | reserve (file : LogFile)
  | remove (file : LogFile)
  | rename (file : LogFile)
  | record
  | expire
  | prune
  | unlockStorage
  | maintenance
  | stamp
  | answer (response : Response)
  deriving DecidableEq

structure Thread (Hash : Type) where
  id : Nat
  request : Option Request
  holdsClient : Bool := false
  holdsStorage : Bool := false
  operations : List (Operation Hash)
  deriving DecidableEq

inductive Event where
  | stored (id : Nat)
  | answered (id : Nat) (response : Response)
  deriving DecidableEq, Repr

structure World (Hash : Type) where
  files : List LogFile
  rows : List (Row Hash)
  lastMaintenance : Option Int
  recordings : Nat
  threads : List (Thread Hash)
  nextId : Nat
  log : List Event

structure Services (Hash : Type) where
  sha256 : Bytes → Hash
  sha256_injective : Function.Injective sha256
  utcStamp : Int → Text

variable {Hash : Type} [DecidableEq Hash] (services : Services Hash) (options : Options)

def bindingOf (body : Bytes) : Binding Hash := ⟨services.sha256 body, body.length⟩

def maintenanceOperations : List (Operation Hash) := [.lockStorage, .maintenance, .unlockStorage]

def storeOperations (file : LogFile) : List (Operation Hash) :=
  [.rename file, .record, .prune, .unlockStorage] ++ maintenanceOperations ++ [.answer (.accepted false)]

-- A length out of bounds fails, in the row as in the file.
def compare (request : Request) (expected : Binding Hash) (agreed : List (Operation Hash)) :
    List (Operation Hash) :=
  if expected.length = 0 || options.uploadBytes < expected.length then [.answer (.refused 500)]
  else if expected = bindingOf services request.body then agreed
  else [.answer (.refused 409)]

def findLog (client batch : Text) (files : List LogFile) : Option LogFile :=
  (logFiles files).find? fun file => file.holds client batch

def inspect (request : Request) (found : Option (Option (Binding Hash))) (files : List LogFile) :
    List (Operation Hash) :=
  match found, findLog request.client request.batch files with
  | some (some binding), _ => compare services options request binding [.answer (.accepted true)]
  | _, some file => [.measure file]
  | some none, none => [.record, .answer (.accepted true)]
  | none, none => [.write]

def LogFile.samePath (first second : LogFile) : Bool := first.client = second.client && first.name = second.name

def measure (request : Request) (file : LogFile) (files : List LogFile) : List (Operation Hash) :=
  match files.find? file.samePath with
  | some file => compare services options request (bindingOf services file.content)
      [.record, .answer (.accepted true)]
  | none => [.answer (.refused 500)]

def digits (number : Nat) : Text := (toString number).toList

def fileName (request : Request) (now : Moment) : Text :=
  let installation :=
    if safeInstallation request.installation then request.installation else "unknown".toList
  services.utcStamp now.seconds ++ '-' :: digits (now.seconds.toNat * 1000000000 + now.nanoseconds)
    ++ '-' :: installation ++ '-' :: request.kind ++ suffix request.batch

def newFile (request : Request) (now : Moment) : LogFile :=
  ⟨request.client, fileName services request now, now, request.body⟩

def removeFile (file : LogFile) (files : List LogFile) : List LogFile :=
  files.filter fun other => !file.samePath other

def recordRequest (now : Moment) (request : Request) (rows : List (Row Hash)) : List (Row Hash) :=
  record options now request.client request.batch (bindingOf services request.body) rows

def execute (now : Moment) (request : Option Request) (operation : Operation Hash)
    (rest : List (Operation Hash)) (world : World Hash) : World Hash × List (Operation Hash) :=
  match operation, request with
  | .lookup, some request => (world, .inspect (receipt world.rows request.client request.batch) :: rest)
  | .inspect found, some request => (world, inspect services options request found world.files ++ rest)
  | .measure file, some request => (world, measure services options request file world.files ++ rest)
  | .write, some request => (world, [.lockStorage, .reserve (newFile services request now)] ++ rest)
  | .reserve file, some request =>
    let room := reserve options now request.body.length 1 world.files
    (world, room.1.map .remove ++
      (if room.2 then storeOperations file else [.unlockStorage, .answer (.refused 507)]) ++ rest)
  | .remove file, _ => ({ world with files := removeFile file world.files }, rest)
  | .rename file, some _ => ({ world with files := removeFile file world.files ++ [file] }, rest)
  | .record, some request =>
    ({ world with
        rows := recordRequest services options now request world.rows
        recordings := world.recordings + 1 },
      if (world.recordings + 1) % 256 = 0 then .expire :: rest else rest)
  | .expire, _ => ({ world with rows := expireRows options now world.rows }, rest)
  | .prune, some request => (world, (pruneClient options request.client world.files).map .remove ++ rest)
  | .maintenance, _ =>
    (world,
      if maintenanceDue world.lastMaintenance now then
        (reserve options now 0 0 world.files).1.map .remove ++ [.expire, .stamp] ++ rest
      else rest)
  | .stamp, _ => ({ world with lastMaintenance := some now.seconds }, rest)
  | _, _ => (world, rest)

def Thread.client (thread : Thread Hash) : Option Text := thread.request.map Request.client

def World.enabled (world : World Hash) (thread : Thread Hash) : Bool :=
  match thread.operations with
  | .lockClient :: _ =>
    !(world.threads.any fun other => other.holdsClient && other.client = thread.client)
  | .lockStorage :: _ => !(world.threads.any fun other => other.holdsStorage)
  | [] => false
  | _ => true

def Thread.locks (thread : Thread Hash) : Operation Hash → Bool × Bool
  | .lockClient => (true, thread.holdsStorage)
  | .lockStorage => (thread.holdsClient, true)
  | .unlockStorage => (thread.holdsClient, false)
  | _ => (thread.holdsClient, thread.holdsStorage)

def Operation.events (id : Nat) : Operation Hash → List Event
  | .rename _ => [.stored id]
  | .answer response => [.answered id response]
  | _ => []

def replaceThread (thread : Thread Hash) (threads : List (Thread Hash)) : List (Thread Hash) :=
  threads.map fun other => if other.id = thread.id then thread else other

def World.run (now : Moment) (thread : Thread Hash) (world : World Hash) : World Hash :=
  match thread.operations with
  | [] => world
  | operation :: rest =>
    let (after, operations) := execute services options now thread.request operation rest world
    let (client, storage) := thread.locks operation
    let log := world.log ++ operation.events thread.id
    if operations = [] then
      { after with threads := world.threads.filter (fun other => other.id ≠ thread.id), log }
    else
      { after with
        threads := replaceThread { thread with holdsClient := client, holdsStorage := storage, operations }
          world.threads
        log }

def maximumUploads : Nat := 4

def knownKind (kind : Text) : Bool :=
  kind = "android".toList || kind = "client".toList || kind = "service".toList

def checkRequest (authentication : Nat) (request : Request) : Option Nat :=
  if authentication ≠ 0 then some authentication
  else if !knownKind request.kind then some 400
  else if request.batch = [] then some 428
  else if !digestId request.batch then some 400
  else if request.body = [] || options.uploadBytes < request.body.length then some 413
  else none

def World.uploads (world : World Hash) : Nat :=
  (world.threads.filter fun thread => thread.request.isSome).length

def World.refuse (world : World Hash) (status : Nat) : World Hash :=
  { world with nextId := world.nextId + 1, log := world.log ++ [.answered world.nextId (.refused status)] }

def World.spawn (world : World Hash) (request : Option Request) (operations : List (Operation Hash)) :
    World Hash :=
  { world with
    nextId := world.nextId + 1
    threads := world.threads ++ [{ id := world.nextId, request, operations }] }

-- Bootstrap requests take their slots from the same counter.
def World.arrive (authentication bootstraps : Nat) (request : Request) (world : World Hash) : World Hash :=
  match checkRequest options authentication request with
  | some status => world.refuse status
  | none =>
    if maximumUploads ≤ world.uploads + bootstraps then world.refuse 503
    else world.spawn (some request) [.lockClient, .lookup]

inductive Label where
  | arrive (authentication bootstraps : Nat) (request : Request)
  | maintain
  | run (id : Nat) (now : Moment)
  | stop
  deriving DecidableEq, Repr

def World.find (world : World Hash) (id : Nat) : Option (Thread Hash) :=
  world.threads.find? fun thread => thread.id = id

def step (world : World Hash) : Label → World Hash
  | .arrive authentication bootstraps request => world.arrive options authentication bootstraps request
  | .maintain => world.spawn none maintenanceOperations
  | .run id now =>
    match world.find id with
    | some thread => if world.enabled thread then world.run services options now thread else world
    | none => world
  | .stop => { world with threads := [], recordings := 0 }

end Amnezia.Collector
