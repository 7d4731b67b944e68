/-
The HTTP side of a boot.  The kernel command line the server hands out is the same for
every board and names no query, and without a query the two handlers know a board by its
address alone: which role file it gets, and so whether it may format a disk in use, is
decided by the nodes registered with that address.
-/
import PiCluster.BootChain

namespace PiCluster

open Text Wire Effects SafetyGuard

namespace CloudInitGenerator

def cmdlineHead : Str :=
  "console=serial0,115200 console=tty1 root=/dev/ram0 rdinit=/init ".toList ++
    "cgroup_memory=1 cgroup_enable=memory ds=nocloud-net;s=http://".toList

def cmdlineTail : Str := "/cloud-init/ netboot=1".toList

def generateCmdline (vip : Str) (httpPort : UInt16) : Str :=
  cmdlineHead ++ vip ++ [':'] ++ decimal httpPort.toNat ++ cmdlineTail

def generateMetaData (node : PiNode) : Str :=
  "instance-id: ".toList ++ node.spec.hardwareSerial ++ "\nlocal-hostname: ".toList ++
    hostname node.spec ++ "\n".toList

theorem not_mem_generateCmdline {vip : Str} (hvip : '?' ∉ vip) (httpPort : UInt16) :
    '?' ∉ generateCmdline vip httpPort := by
  have hport : '?' ∉ decimal httpPort.toNat := by
    intro hmem
    exact absurd (isDigit_of_mem_decimal hmem) (by decide)
  have hhead : '?' ∉ cmdlineHead := by decide
  have htail : '?' ∉ cmdlineTail := by decide
  rw [generateCmdline]
  simp [hvip, hport, hhead, htail]

end CloudInitGenerator

namespace Http

def cmdlineHandler (vip : Str) (httpPort : UInt16) : Response where
  status := 200
  contentType := "text/plain".toList
  body := CloudInitGenerator.generateCmdline vip httpPort

/-- The answer to `/cloud-init/meta-data`. -/
def metadataHandler (registered : Option (List NodeObject)) (peerIp : Str)
    (query : NodeQuery) : Response where
  status := 200
  contentType := "text/yaml".toList
  body := CloudInitGenerator.generateMetaData (resolveNode registered peerIp query).node

/-- A request without a query. -/
def emptyQuery : NodeQuery := ⟨none, none⟩

/-- The first node registered with an address. -/
def atAddress (registered : Option (List NodeObject)) (peerIp : Str) : Option NodeObject :=
  registered.bind (List.find? (hasIp peerIp))

/-- The node of a board that is known by its address. -/
def addressed (registered : Option (List NodeObject)) (peerIp : Str) : NodeObject :=
  (atAddress registered peerIp).getD (fallbackNode peerIp emptyQuery)

/-- The role file a node's record stands for. -/
def roleFile (object : NodeObject) : RoleConfigFile :=
  ⟨object.node.spec.desiredRole, object.node.spec.targetDiskId,
    some object.node.spec.reformatConfirmed⟩

section Address

variable {listed other : Option (List NodeObject)} {peerIp : Str}

theorem resolveNode_emptyQuery (listed : Option (List NodeObject)) (peerIp : Str) :
    resolveNode listed peerIp emptyQuery = addressed listed peerIp := by
  have htest : matchesQuery peerIp emptyQuery = hasIp peerIp := by
    funext object
    exact Bool.false_or _
  rw [resolveNode, addressed, atAddress, htest]
  cases listed.bind (List.find? (hasIp peerIp)) with
  | some object => rfl
  | none => rfl

/-- Nodes without the address do not count. -/
theorem addressed_congr
    (hsame : listed.map (List.filter (hasIp peerIp)) = other.map (List.filter (hasIp peerIp))) :
    addressed listed peerIp = addressed other peerIp := by
  have hfirst : ∀ nodes : Option (List NodeObject),
      atAddress nodes peerIp = (nodes.map (List.filter (hasIp peerIp))).bind List.head? := by
    intro nodes
    cases nodes with
    | none => rfl
    | some nodes => exact List.head?_filter.symm
  rw [addressed, addressed, hfirst, hfirst, hsame]

/-- Only the record of a registered node can confirm a reformat. -/
theorem confirmed_addressed
    (hconfirmed : (roleFile (addressed listed peerIp)).reformatConfirmed.getD false = true) :
    ∃ object, atAddress listed peerIp = some object ∧
      object.node.spec.reformatConfirmed = true := by
  rw [addressed] at hconfirmed
  cases hfound : atAddress listed peerIp with
  | some object =>
      rw [hfound] at hconfirmed
      exact ⟨object, rfl, hconfirmed⟩
  | none =>
      rw [hfound] at hconfirmed
      cases hconfirmed

end Address

/-- Without a query a board is answered for the first node registered with its address,
or for an unconfirmed worker if there is none.  Nodes without the address do not count,
and a disk with a file system is formatted only if the first node with the address has
its reformat confirmed. -/
theorem boot_by_address (json : Format JsonObject) (vip k3sToken peerIp : Str)
    (httpPort : UInt16) (listed : Option (List NodeObject)) :
    ('?' ∉ vip → '?' ∉ (cmdlineHandler vip httpPort).body) ∧
    (metadataHandler listed peerIp emptyQuery).body =
      CloudInitGenerator.generateMetaData (addressed listed peerIp).node ∧
    (∀ other : Option (List NodeObject),
      listed.map (List.filter (hasIp peerIp)) = other.map (List.filter (hasIp peerIp)) →
      metadataHandler other peerIp emptyQuery = metadataHandler listed peerIp emptyQuery ∧
      userdataHandler json other vip k3sToken peerIp emptyQuery =
        userdataHandler json listed vip k3sToken peerIp emptyQuery) ∧
    ('\n' ∉ CloudInitGenerator.hostname (addressed listed peerIp).node.spec →
      CloudInitGenerator.embeddedRole json
        (userdataHandler json listed vip k3sToken peerIp emptyQuery).body =
          some (roleFile (addressed listed peerIp))) ∧
    ∀ view trace result run,
      (runProvision (unitParams (roleFile (addressed listed peerIp))) view).Runs trace result →
      run ∈ runsOf .mkfsExt4 trace →
      ∃ target allDevices,
        BlockDevice.scanAll "/sys/class/block".toList view.sysfs view.byIdDir
          (view.mounts.toOption.getD .empty) = .ok allDevices ∧
        target ∈ allDevices ∧ run.1.args.getLast? = some target.devPath ∧
        (hasExistingFs target = true → ∃ object, atAddress listed peerIp = some object ∧
          object.node.spec.reformatConfirmed = true) := by
  refine ⟨?_, ?_, ?_, ?_, ?_⟩
  · intro hvip
    exact CloudInitGenerator.not_mem_generateCmdline hvip httpPort
  · rw [metadataHandler, resolveNode_emptyQuery]
  · intro other hsame
    rw [metadataHandler, metadataHandler, userdataHandler, userdataHandler]
    rw [resolveNode_emptyQuery, resolveNode_emptyQuery, addressed_congr hsame]
    exact ⟨rfl, rfl⟩
  · intro hhost
    rw [userdataHandler, resolveNode_emptyQuery]
    exact CloudInitGenerator.embeddedRole_generateUserData json hhost vip k3sToken
  · intro view trace result run hruns hrun
    obtain ⟨target, allDevices, hscan, hmem, htarget, hconfirmed⟩ :=
      runProvision_formats_scanned hruns hrun
    exact ⟨target, allDevices, hscan, hmem, htarget,
      fun hfs => confirmed_addressed (hconfirmed hfs)⟩

namespace AddressWitness

open LookupWitness

/-- A node that is listed with its MAC address and its serial and is to be a master. -/
def master : NodeObject :=
  ⟨some "node-aaaa".toList,
    ⟨⟨"aaaa".toList, "DC:A6:32:01:02:03".toList, .master, none, true, none, none⟩, none⟩⟩

/-- Its board is sent the role file of a worker. -/
theorem listed_master_boots_worker :
    CloudInitGenerator.embeddedRole AuditJson.object (userdataHandler AuditJson.object
      (some [stale, master]) "192.168.1.200".toList "t".toList "192.168.1.51".toList
      emptyQuery).body = some ⟨.worker, none, some false⟩ := by
  obtain ⟨-, -, -, hrole, -⟩ := boot_by_address AuditJson.object "192.168.1.200".toList
    "t".toList "192.168.1.51".toList 8080 (some [stale, master])
  exact hrole (by decide)

end AddressWitness

end Http

end PiCluster
