/-
Block devices and mount tables.  The file system trees the code reads
(`/sys/class/block` and `/dev/disk/by-id`) are given by their contents; every
function below computes from those contents what the code computes from the
live trees.
-/
import Mathlib.Data.List.Sort
import PiCluster.Lib.UnixPath

namespace PiCluster

open Text UnixPath

inductive DeviceError where
  | notFound (device : Str)
  | sysfsRead (path source : Str)
  | invalidMountTable (reason : Str)
  | resolution (reason : Str)
deriving DecidableEq, Repr

structure MountEntry where
  device : Str
  mountPoint : Str
  fsType : Str
  options : List Str
deriving DecidableEq, Repr

structure MountTable where
  entries : List MountEntry
deriving DecidableEq, Repr

namespace MountTable

/-- `MountTable::default()`. -/
def empty : MountTable := ⟨[]⟩

/-- The entry a numbered line contributes: nothing for a blank or comment line,
an error for fewer than three columns. -/
def parseLine (lineIdx : Nat) (line : Str) : Except DeviceError (Option MountEntry) :=
  let line := trim line
  if line = [] ∨ startsWith line ['#'] then .ok none
  else match splitWhitespace line with
    | device :: mountPoint :: fsType :: rest =>
        let options := match rest with
          | [] => []
          | column :: _ => column.splitOn ','
        .ok (some ⟨device, mountPoint, fsType, options⟩)
    | _ => .error (.invalidMountTable
        ("Line ".toList ++ decimal (lineIdx + 1) ++
          " has insufficient columns: '".toList ++ line ++ "'".toList))

/-- The loop of `parse`, with the index of the first remaining line. -/
def parseLines (lineIdx : Nat) : List Str → Except DeviceError (List MountEntry)
  | [] => .ok []
  | line :: rest => do
      let entry ← parseLine lineIdx line
      let entries ← parseLines (lineIdx + 1) rest
      return entry.toList ++ entries

def parse (content : Str) : Except DeviceError MountTable :=
  (parseLines 0 (lines content)).map MountTable.mk

def findByMountPoint (table : MountTable) (target : Str) : Option MountEntry :=
  table.entries.find? fun entry => entry.mountPoint == target

def getRootDevice (table : MountTable) : Option Str :=
  (table.findByMountPoint ['/']).map MountEntry.device

def isBootMountPoint (mountPoint : Str) : Bool :=
  mountPoint == "/boot".toList || mountPoint == "/boot/firmware".toList

def getBootDevices (table : MountTable) : List Str :=
  (table.entries.filter fun entry => isBootMountPoint entry.mountPoint).map
    MountEntry.device

end MountTable

structure BlockDevice where
  name : Str
  devPath : Str
  sysfsPath : Str
  sizeBytes : Nat
  byIdPaths : List Str
  uuid : Option Str
  label : Option Str
  fsType : Option Str
  model : Option Str
  serial : Option Str
  isPartition : Bool
  parentDisk : Option Str
  mountPoints : List Str
deriving DecidableEq, Repr

/-- The parent of a partition, read off its kernel name. -/
def determineParentDisk (partitionName : Str) : Option Str :=
  let stripped := trimEndMatches isNumeric partitionName
  let byDigits := if stripped ≠ partitionName ∧ stripped ≠ [] then some stripped else none
  if partitionName.contains 'p' &&
      (startsWith partitionName "mmcblk".toList ||
        startsWith partitionName "nvme".toList) then
    match rfind 'p' partitionName with
    | some idx => some (partitionName.take idx)
    | none => byDigits
  else byDigits

/-- The files of one directory under `/sys/class/block`; an absent or
unreadable file is `none`. -/
structure SysfsBlock where
  name : Str
  size : Option Str
  hasPartitionFile : Bool
  uevent : Option Str
  deviceModel : Option Str
  deviceSerial : Option Str
deriving DecidableEq, Repr

/-- A link under `/dev/disk/by-id` with the file name of its canonical target,
when it resolves. -/
structure ByIdLink where
  path : Str
  targetName : Option Str
deriving DecidableEq, Repr

inductive SysfsRoot where
  | missing
  | unreadable (path error : Str)
  | entries (blocks : List SysfsBlock)
deriving DecidableEq, Repr

/-- One more than `u64::MAX`. -/
def u64Bound : Nat := 0x10000000000000000

/-- `read_sysfs_u64(..).unwrap_or(0)`. -/
def readSysfsU64 (content : Option Str) : Nat :=
  (content.bind fun text => parseUnsigned u64Bound (trim text)).getD 0

/-- The key-value lines of a `uevent` file in order; a later line replaces an
earlier one with the same key. -/
def parseUevent (content : Str) : List (Str × Str) :=
  ((lines content).filterMap (splitOnce '=')).map fun pair => (trim pair.1, trim pair.2)

def ueventGet (pairs : List (Str × Str)) (key : Str) : Option Str :=
  pairs.reverse.lookup key

namespace BlockDevice

def discoverByIdPaths (devName : Str) (byIdDir : List ByIdLink) : List Str :=
  ((byIdDir.filter fun link => link.targetName == some devName).map
    ByIdLink.path).insertionSort fun left right => strLe left right = true

/-- Whether a mount entry's device names the device being read. -/
def entryNamesDevice (name devPath : Str) (byIdPaths : List Str) (entry : MountEntry) :
    Bool :=
  entry.device == devPath || endsWith entry.device ('/' :: name) ||
    byIdPaths.any fun path => path == entry.device

def fromSysfs (sysfsRoot : Str) (block : SysfsBlock) (byIdDir : List ByIdLink)
    (mountTable : MountTable) : BlockDevice :=
  let name := block.name
  let devPath := "/dev/".toList ++ name
  let uevent := parseUevent (block.uevent.getD [])
  let byIdPaths := discoverByIdPaths name byIdDir
  { name := name
    devPath := devPath
    sysfsPath := join sysfsRoot name
    sizeBytes := readSysfsU64 block.size * 512 % u64Bound
    byIdPaths := byIdPaths
    uuid := ueventGet uevent "ID_FS_UUID".toList
    label := ueventGet uevent "ID_FS_LABEL".toList
    fsType := ueventGet uevent "ID_FS_TYPE".toList
    model := (ueventGet uevent "ID_MODEL".toList).or (block.deviceModel.map trim)
    serial := ((ueventGet uevent "ID_SERIAL_SHORT".toList).or
      (ueventGet uevent "ID_SERIAL".toList)).or (block.deviceSerial.map trim)
    isPartition := block.hasPartitionFile
    parentDisk := if block.hasPartitionFile then determineParentDisk name else none
    mountPoints := (mountTable.entries.filter
      (entryNamesDevice name devPath byIdPaths)).map MountEntry.mountPoint }

/-- Names of virtual devices that a scan skips. -/
def isVirtualName (name : Str) : Bool :=
  startsWith name "loop".toList || startsWith name "ram".toList ||
    startsWith name "zram".toList

def scanAll (sysfsRoot : Str) (sysfs : SysfsRoot) (byIdDir : List ByIdLink)
    (mountTable : MountTable) : Except DeviceError (List BlockDevice) :=
  match sysfs with
  | .missing => .ok []
  | .unreadable path error => .error (.sysfsRead path error)
  | .entries blocks =>
      .ok (((blocks.filter fun block => !isVirtualName block.name).map
        fun block => fromSysfs sysfsRoot block byIdDir mountTable).insertionSort
          fun left right => strLe left.name right.name = true)

/-- Whether a stable identifier names this device. -/
def matchesIdentifier (device : BlockDevice) (id : Str) : Bool :=
  pathEq device.devPath id ||
    (match device.uuid with
      | some uuid => uuid == id || id == "UUID=".toList ++ uuid
      | none => false) ||
    device.byIdPaths.any fun byId => pathEq byId id || pathEndsWith byId id

end BlockDevice

end PiCluster
