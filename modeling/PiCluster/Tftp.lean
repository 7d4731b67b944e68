/-
The TFTP server up to the start of a transfer: the read request, the path it
asks for, the option negotiation and the packets of a session.
-/
import PiCluster.Lib.Bytes
import PiCluster.Lib.UnixPath

namespace PiCluster

namespace Tftp

open Text Bytes UnixPath

def opRrq : UInt16 := 1
def opData : UInt16 := 3
def opAck : UInt16 := 4
def opError : UInt16 := 5
def opOack : UInt16 := 6

def defaultBlockSize : Nat := 512
def maxRetries : Nat := 5

/-- The largest block size the server agrees to. -/
def mtuSafe : Nat := 1428

/-- `usize` is 64 bits wide on the hosts. -/
def usizeBound : Nat := 0x10000000000000000

/-- What the standard library leaves open: the case mapping of Unicode text and
the iteration order of a `HashMap`. -/
structure Platform where
  lowercase : Str → Str
  hashOrder : List (Str × Str) → List (Str × Str)
  hashOrder_perm : ∀ entries, (hashOrder entries).Perm entries

structure Rrq where
  filename : Str
  mode : Str
  options : List (Str × Str)
deriving DecidableEq, Repr

/-- `HashMap::get` on the inserted pairs: the last insertion wins. -/
def optionGet (options : List (Str × Str)) (key : Str) : Option Str :=
  options.reverse.lookup key

def optionPairs (lowercase : Str → Str) : List Str → List (Str × Str)
  | key :: value :: rest => (lowercase key, value) :: optionPairs lowercase rest
  | _ => []

def parseRrq (lowercase : Str → Str) (payload : List UInt8) : Except Str Rrq :=
  match nulFields payload with
  | filename :: mode :: rest =>
      .ok ⟨filename, lowercase mode, optionPairs lowercase rest⟩
  | _ => .error "Malformed RRQ payload".toList

def buildDataPacket (block : UInt16) (data : List UInt8) : List UInt8 :=
  toBeBytes opData ++ toBeBytes block ++ data

def buildErrorPacket (code : UInt16) (msg : Str) : List UInt8 :=
  toBeBytes opError ++ toBeBytes code ++ asBytes msg ++ [0]

/-- `options` in the iteration order of the map. -/
def buildOackPacket (options : List (Str × Str)) : List UInt8 :=
  toBeBytes opOack ++
    options.flatMap fun pair => asBytes pair.1 ++ 0 :: (asBytes pair.2 ++ [0])

/-- The test of `wait_for_ack` on a datagram of the peer; its receive buffer
holds 64 bytes. -/
def isAckOf (expectedBlock : UInt16) (packet : List UInt8) : Bool :=
  match packet.take 64 with
  | op1 :: op0 :: block1 :: block0 :: _ =>
      fromBeBytes op1 op0 == opAck && fromBeBytes block1 block0 == expectedBlock
  | _ => false

/-- The outcome of reading an initial packet: packets that are short or no read
request are dropped without an error. -/
def readRequest (lowercase : Str → Str) (packet : List UInt8) : Except Str (Option Rrq) :=
  if packet.length < 4 then .ok none
  else
    match packet with
    | op1 :: op0 :: payload =>
        if fromBeBytes op1 op0 ≠ opRrq then .ok none
        else (parseRrq lowercase payload).map some
    | _ => .ok none

/-- The path that is tested with `is_file` and opened. -/
def targetPath (rootDir filename : Str) : Str :=
  join rootDir (trimStartMatches (· == '/') filename)

def blksizeKey : Str := "blksize".toList
def tsizeKey : Str := "tsize".toList

def negotiatedBlockSize (rrq : Rrq) : Nat :=
  min (((optionGet rrq.options blksizeKey).bind (parseUnsigned usizeBound)).getD
    defaultBlockSize) mtuSafe

/-- The options the server acknowledges, as inserted into the map. -/
def oackOptions (rrq : Rrq) (fileLen : Nat) : List (Str × Str) :=
  (if (optionGet rrq.options blksizeKey).isSome then
    [(blksizeKey, decimal (negotiatedBlockSize rrq))] else []) ++
  (if (optionGet rrq.options tsizeKey).isSome then [(tsizeKey, decimal fileLen)] else [])

/-- What a session transfers and how: `oack` is the packet sent first when the
request carried options. -/
structure Session where
  blockSize : Nat
  content : List UInt8
  oack : Option (List UInt8)
deriving DecidableEq, Repr

def openSession (platform : Platform) (rrq : Rrq) (content : List UInt8) : Session where
  blockSize := negotiatedBlockSize rrq
  content := content
  oack :=
    if rrq.options = [] then none
    else some (buildOackPacket (platform.hashOrder (oackOptions rrq content.length)))

/-- What a path leads to. -/
inductive FileState where
  | notFile
  | unreadable (error : Str)
  | file (content : List UInt8)

inductive InitialOutcome where
  | ignored
  | failed (error : Str)
  | notFound (reply : List UInt8)
  | opened (session : Session)

def handleInitialPacket (platform : Platform) (rootDir : Str) (files : Str → FileState)
    (packet : List UInt8) : InitialOutcome :=
  match readRequest platform.lowercase packet with
  | .error e => .failed e
  | .ok none => .ignored
  | .ok (some rrq) =>
      match files (targetPath rootDir rrq.filename) with
      | .notFile => .notFound (buildErrorPacket 1 "File not found".toList)
      | .unreadable e => .failed e
      | .file content => .opened (openSession platform rrq content)

/-- The file name a packet asks for, if it is a well-formed read request. -/
def requestedFile (lowercase : Str → Str) (packet : List UInt8) : Option Str :=
  match readRequest lowercase packet with
  | .ok (some rrq) => some rrq.filename
  | _ => none

theorem hasRoot_trimStart (filename : Str) :
    hasRoot (trimStartMatches (· == '/') filename) = false := by
  unfold trimStartMatches hasRoot
  cases hdrop : filename.dropWhile (· == '/') with
  | nil => rfl
  | cons head tail =>
      have hhead := List.head?_dropWhile_not (· == '/') filename
      simpa [hdrop] using hhead

/-- The name returns into every directory of the root that it climbs out of; a
name that never climbs above its start does so trivially. -/
def StaysBelow (rootDir filename : Str) : Prop :=
  let walk := climb (bodyComponents (trimStartMatches (· == '/') filename))
  (resolve rootDir).drop ((resolve rootDir).length - walk.up) <+: walk.names

instance (rootDir filename : Str) : Decidable (StaysBelow rootDir filename) :=
  inferInstanceAs (Decidable (_ <+: _))

/-- A packet leads outside an absolute root exactly when its file name climbs
out of a directory of the root without naming it again. -/
theorem requestedFile_inside_iff {rootDir : Str} (hroot : hasRoot rootDir = true)
    (lowercase : Str → Str) (packet : List UInt8) :
    (∀ filename ∈ requestedFile lowercase packet,
        Inside rootDir (targetPath rootDir filename)) ↔
      ∀ filename ∈ requestedFile lowercase packet, StaysBelow rootDir filename := by
  have hiff : ∀ filename, Inside rootDir (targetPath rootDir filename) ↔
      StaysBelow rootDir filename :=
    fun filename => inside_join_iff hroot (hasRoot_trimStart filename)
  simp only [hiff]

namespace TftpWitness

/-- A read request without options. -/
def request (filename : Str) : List UInt8 :=
  toBeBytes opRrq ++ (asBytes filename ++ 0 :: (asBytes "octet".toList ++ [0]))

def tftpRoot : Str := "/srv/tftp".toList

theorem boot_file_inside :
    Inside tftpRoot (targetPath tftpRoot "/pi5/../boot.img".toList) := by
  have hname : requestedFile id (request "/pi5/../boot.img".toList) =
      some "/pi5/../boot.img".toList := by decide
  refine (requestedFile_inside_iff (by decide) id
    (request "/pi5/../boot.img".toList)).mpr ?_ _ hname
  rw [hname]
  rintro _ ⟨⟩
  decide

def plain : Platform := ⟨id, id, List.Perm.refl⟩

/-- Only the password file exists, outside the root. -/
def passwordFile (path : Str) : FileState :=
  if resolve path = ["etc".toList, "passwd".toList] then .file [1, 2, 3] else .notFile

theorem request_escapes_root :
    requestedFile id (request "../../etc/passwd".toList) =
        some "../../etc/passwd".toList ∧
      ¬ Inside tftpRoot (targetPath tftpRoot "../../etc/passwd".toList) ∧
      handleInitialPacket plain tftpRoot passwordFile
        (request "../../etc/passwd".toList) = .opened ⟨512, [1, 2, 3], none⟩ :=
  ⟨by decide, by decide, rfl⟩

end TftpWitness

end Tftp

end PiCluster
