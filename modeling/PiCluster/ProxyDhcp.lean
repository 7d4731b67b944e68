/-
The ProxyDHCP responder: which DHCP messages it answers, what the answer carries and
which messages end it with a panic.  Options are a map keyed by their code.
-/
import PiCluster.Lib.Bytes
import PiCluster.NodeLookup

namespace PiCluster

open Text Bytes

structure Ipv4Addr where
  octets : UInt8 × UInt8 × UInt8 × UInt8
deriving DecidableEq, Repr

namespace Ipv4Addr

def unspecified : Ipv4Addr := ⟨0, 0, 0, 0⟩

end Ipv4Addr

namespace Dhcp

inductive Opcode where
  | bootRequest
  | bootReply
  | unknown (code : UInt8)
deriving DecidableEq, Repr

/-- The message types of option 53 that play a part here; `other` is any further
one by its number. -/
inductive MessageType where
  | discover
  | offer
  | request
  | other (code : UInt8)
deriving DecidableEq, Repr

inductive OptionCode where
  | messageType
  | serverIdentifier
  | classIdentifier
  | vendorExtensions
  | addressLeaseTime
  | other (code : UInt8)
deriving DecidableEq, Repr

inductive DhcpOption where
  | messageType (value : MessageType)
  | serverIdentifier (addr : Ipv4Addr)
  | classIdentifier (bytes : List UInt8)
  | vendorExtensions (bytes : List UInt8)
  | addressLeaseTime (seconds : UInt32)
  | other (code : UInt8) (bytes : List UInt8)
deriving DecidableEq, Repr

def DhcpOption.code : DhcpOption → OptionCode
  | .messageType _ => .messageType
  | .serverIdentifier _ => .serverIdentifier
  | .classIdentifier _ => .classIdentifier
  | .vendorExtensions _ => .vendorExtensions
  | .addressLeaseTime _ => .addressLeaseTime
  | .other code _ => .other code

/-- The options of a message: at most one for each code. -/
structure DhcpOptions where
  entries : List DhcpOption
  keyed : (entries.map DhcpOption.code).Nodup
deriving DecidableEq

namespace DhcpOptions

def empty : DhcpOptions := ⟨[], List.nodup_nil⟩

def get (options : DhcpOptions) (code : OptionCode) : Option DhcpOption :=
  options.entries.find? fun option => option.code == code

theorem keyed_insert (options : DhcpOptions) (option : DhcpOption) :
    ((options.entries.filter (fun old => old.code != option.code) ++ [option]).map
      DhcpOption.code).Nodup := by
  have hkept : ((options.entries.filter fun old => old.code != option.code).map
      DhcpOption.code).Nodup :=
    options.keyed.sublist (List.filter_sublist.map _)
  rw [List.map_append, List.nodup_append]
  refine ⟨hkept, List.pairwise_singleton _ _, ?_⟩
  intro code hcode other hother
  obtain rfl := List.mem_singleton.mp hother
  obtain ⟨old, hold, rfl⟩ := List.mem_map.mp hcode
  simpa using (List.mem_filter.mp hold).2

/-- An insertion replaces the option of the same code. -/
def insert (options : DhcpOptions) (option : DhcpOption) : DhcpOptions :=
  ⟨options.entries.filter (fun old => old.code != option.code) ++ [option],
    options.keyed_insert option⟩

end DhcpOptions

/-- A decoded message.  The first `hlen` bytes of the field `chaddr` are the hardware
address. -/
structure Message where
  opcode : Opcode
  htype : UInt8
  hlen : UInt8
  hops : UInt8
  xid : UInt32
  secs : UInt16
  flags : UInt16
  ciaddr : Ipv4Addr
  yiaddr : Ipv4Addr
  siaddr : Ipv4Addr
  giaddr : Ipv4Addr
  chaddr : Vector UInt8 16
  fname : Option (List UInt8)
  opts : DhcpOptions
deriving DecidableEq

def Message.hardwareAddress (message : Message) : List UInt8 :=
  message.chaddr.toList.take message.hlen.toNat

/-- What `dhcproto` does with the two fields of bounded size.  An error is the text of a
panic: the length of the hardware address is not checked when a message is decoded. -/
structure BoundedFields where
  chaddr : Message → Except Str (List UInt8)
  setChaddr : Message → List UInt8 → Except Str Message
  setFnameStr : Message → Str → Except Str Message
  chaddr_of_fits : ∀ message : Message, message.hlen.toNat ≤ 16 →
    chaddr message = .ok message.hardwareAddress
  chaddr_of_exceeds : ∀ message : Message, 16 < message.hlen.toNat →
    ∃ panic, chaddr message = .error panic
  setChaddr_of_fits : ∀ (message : Message) (bytes : List UInt8), bytes.length ≤ 16 →
    ∃ field : Vector UInt8 16, field.toList.take bytes.length = bytes ∧
      setChaddr message bytes =
        .ok { message with hlen := UInt8.ofNat bytes.length, chaddr := field }
  setFnameStr_of_fits : ∀ (message : Message) (name : Str), (asBytes name).length ≤ 128 →
    setFnameStr message name = .ok { message with fname := some (asBytes name) }
  setFnameStr_of_exceeds : ∀ (message : Message) (name : Str),
    128 < (asBytes name).length → ∃ panic, setFnameStr message name = .error panic

end Dhcp

open Dhcp

/-- `registered` is what the API server lists in the server's namespace, if
there is a client and the request succeeds. -/
structure ProxyDhcpServer where
  vip : Ipv4Addr
  bootFile : Str
  registered : Option (List NodeObject)

namespace ProxyDhcpServer

def pxeClient : List UInt8 := asBytes "PXEClient".toList

/-- `slice::windows`. -/
def windows (size : Nat) (bytes : List UInt8) : List (List UInt8) :=
  (List.range (bytes.length + 1 - size)).map fun start => (bytes.drop start).take size

def isPxe (request : Message) : Bool :=
  match request.opts.get .classIdentifier with
  | some (.classIdentifier bytes) =>
      (windows pxeClient.length bytes).any fun window => window == pxeClient
  | _ => false

/-- The options of a reply, in the order they are inserted. -/
def replyOptions (server : ProxyDhcpServer) : DhcpOptions :=
  DhcpOptions.empty
    |>.insert (.messageType .offer)
    |>.insert (.serverIdentifier server.vip)
    |>.insert (.classIdentifier pxeClient)
    |>.insert (.vendorExtensions [6, 1, 8, 255])

/-- A reply before its hardware address, its file name and its options are set. -/
def replyHeader (server : ProxyDhcpServer) (request : Message) : Message where
  opcode := .bootReply
  htype := request.htype
  hlen := 0
  hops := 0
  xid := request.xid
  secs := 0
  flags := request.flags
  ciaddr := request.ciaddr
  yiaddr := .unspecified
  siaddr := server.vip
  giaddr := request.giaddr
  chaddr := Vector.replicate 16 0
  fname := none
  opts := DhcpOptions.empty

def processPacket (fields : BoundedFields) (server : ProxyDhcpServer) (request : Message) :
    Except Str (Option Message) :=
  if request.opcode ≠ .bootRequest then .ok none
  else if isPxe request = false then .ok none
  else do
    let chaddr ← fields.chaddr request
    let targetFile := resolveBootFile server.bootFile server.registered (macString chaddr)
    let addressed ← fields.setChaddr (server.replyHeader request) chaddr
    let named ← fields.setFnameStr addressed targetFile
    return some { named with opts := server.replyOptions }

theorem any_windows_iff {needle bytes : List UInt8} (hneedle : needle ≠ []) :
    ((windows needle.length bytes).any fun window => window == needle) = true ↔
      needle <:+: bytes := by
  have hpos := List.length_pos_iff.mpr hneedle
  simp only [windows, List.any_eq_true, List.mem_map, List.mem_range, beq_iff_eq,
    exists_exists_and_eq_and]
  constructor
  · rintro ⟨start, _, hwindow⟩
    have hstart : needle <+: bytes.drop start := by
      rw [← hwindow]
      apply List.take_prefix
    exact hstart.isInfix.trans (List.drop_suffix start bytes).isInfix
  · rintro ⟨before, after, rfl⟩
    refine ⟨before.length, ?_, ?_⟩
    · simp only [List.length_append]
      omega
    · rw [List.append_assoc, List.drop_left, List.take_left]

/-- The class identifier of a message. -/
def classId (request : Message) : Option (List UInt8) :=
  match request.opts.get .classIdentifier with
  | some (.classIdentifier bytes) => some bytes
  | _ => none

theorem isPxe_iff (request : Message) :
    isPxe request = true ↔ ∃ bytes, classId request = some bytes ∧ pxeClient <:+: bytes := by
  have hne : pxeClient ≠ [] := by decide
  unfold isPxe classId
  split
  next bytes hget => simp [any_windows_iff hne]
  next => simp

/-- A DHCPDISCOVER or DHCPREQUEST of a PXE client. -/
structure Answerable (request : Message) : Prop where
  opcode : request.opcode = .bootRequest
  messageType : request.opts.get .messageType = some (.messageType .discover) ∨
    request.opts.get .messageType = some (.messageType .request)
  classId : ∃ bytes, request.opts.get .classIdentifier = some (.classIdentifier bytes) ∧
    pxeClient <+: bytes

/-- Nothing in a reply assigns an address: there is none in it, no lease time,
and no option beyond the four a ProxyDHCP offer needs. -/
structure LeasesNothing (message : Message) : Prop where
  yiaddr : message.yiaddr = .unspecified
  leaseTime : message.opts.get .addressLeaseTime = none
  codes : message.opts.entries.map DhcpOption.code =
    [.messageType, .serverIdentifier, .classIdentifier, .vendorExtensions]

/-- The file a client is sent to. -/
def bootFileFor (server : ProxyDhcpServer) (request : Message) : Str :=
  resolveBootFile server.bootFile server.registered (macString request.hardwareAddress)

/-- The hardware address of the request and the name of the boot file have room in a
message: `/bootcode.bin` leaves a serial 115 of the 128 bytes. -/
structure Fits (server : ProxyDhcpServer) (request : Message) : Prop where
  hlen : request.hlen.toNat ≤ 16
  fname : match server.registered.bind (selectNode (macString request.hardwareAddress)) with
    | some object => (asBytes object.node.spec.hardwareSerial).length ≤ 115
    | none => (asBytes server.bootFile).length ≤ 128

/-- What every reply carries. -/
structure IsReply (server : ProxyDhcpServer) (request reply : Message) : Prop where
  opcode : reply.opcode = .bootReply
  yiaddr : reply.yiaddr = .unspecified
  fname : reply.fname = some (asBytes (server.bootFileFor request))
  opts : reply.opts = server.replyOptions

theorem IsReply.leasesNothing {server : ProxyDhcpServer} {request reply : Message}
    (hreply : IsReply server request reply) : LeasesNothing reply where
  yiaddr := hreply.yiaddr
  leaseTime := by
    rw [hreply.opts]
    rfl
  codes := by
    rw [hreply.opts]
    rfl

theorem length_bootFileFor_le_iff (server : ProxyDhcpServer) (request : Message) :
    (asBytes (server.bootFileFor request)).length ≤ 128 ↔
      match server.registered.bind (selectNode (macString request.hardwareAddress)) with
      | some object => (asBytes object.node.spec.hardwareSerial).length ≤ 115
      | none => (asBytes server.bootFile).length ≤ 128 := by
  unfold bootFileFor resolveBootFile
  cases server.registered.bind (selectNode (macString request.hardwareAddress)) with
  | none => rfl
  | some object =>
      have htail : (asBytes "/bootcode.bin".toList).length = 13 := by decide
      dsimp only
      rw [asBytes, List.flatMap_append, List.length_append, ← asBytes, ← asBytes, htail]
      omega

theorem length_hardwareAddress_le (request : Message) :
    request.hardwareAddress.length ≤ 16 := by
  rw [Message.hardwareAddress, List.length_take, Vector.length_toList]
  exact Nat.min_le_right _ _

/-- A packet is ignored, ends the call with a panic, or is answered. -/
theorem processPacket_cases (fields : BoundedFields) (server : ProxyDhcpServer)
    (request : Message) :
    (¬ (request.opcode = .bootRequest ∧ isPxe request = true) ∧
        server.processPacket fields request = .ok none) ∨
      (request.opcode = .bootRequest ∧ isPxe request = true ∧
        ((¬ Fits server request ∧
            ∃ panic, server.processPacket fields request = .error panic) ∨
          Fits server request ∧ ∃ reply,
            server.processPacket fields request = .ok (some reply) ∧
              IsReply server request reply)) := by
  by_cases hopcode : request.opcode = .bootRequest
  · cases hpxe : isPxe request with
    | false =>
        refine Or.inl ⟨by simp, ?_⟩
        rw [processPacket, if_neg (not_not.mpr hopcode), if_pos hpxe]
    | true =>
        refine Or.inr ⟨hopcode, rfl, ?_⟩
        rw [processPacket, if_neg (not_not.mpr hopcode), if_neg (by simp [hpxe])]
        rcases Nat.lt_or_ge 16 request.hlen.toNat with hlong | hlen
        · obtain ⟨panic, hpanic⟩ := fields.chaddr_of_exceeds request hlong
          refine Or.inl ⟨fun hfits => absurd hfits.hlen (Nat.not_le.mpr hlong), panic, ?_⟩
          rw [hpanic]
          rfl
        · obtain ⟨field, -, hfield⟩ := fields.setChaddr_of_fits (server.replyHeader request)
            request.hardwareAddress (length_hardwareAddress_le request)
          rw [fields.chaddr_of_fits request hlen]
          simp only [bind, Except.bind, hfield]
          rcases Nat.lt_or_ge 128 (asBytes (server.bootFileFor request)).length with
            hlong | hname
          · obtain ⟨panic, hpanic⟩ := fields.setFnameStr_of_exceeds
              { server.replyHeader request with
                hlen := UInt8.ofNat request.hardwareAddress.length, chaddr := field }
              _ hlong
            refine Or.inl ⟨fun hfits => ?_, panic, ?_⟩
            · have hshort := (length_bootFileFor_le_iff server request).mpr hfits.fname
              omega
            · rw [bootFileFor] at hpanic
              rw [hpanic]
          · refine Or.inr ⟨⟨hlen, (length_bootFileFor_le_iff server request).mp hname⟩, ?_⟩
            rw [bootFileFor] at hname
            rw [fields.setFnameStr_of_fits _ _ hname]
            exact ⟨_, rfl, rfl, rfl, rfl, rfl⟩
  · refine Or.inl ⟨fun hboth => hopcode hboth.1, ?_⟩
    rw [processPacket, if_pos hopcode]

section Gate

variable {fields : BoundedFields} {server : ProxyDhcpServer} {request reply : Message}

theorem exists_reply_iff :
    (∃ reply, server.processPacket fields request = .ok (some reply)) ↔
      request.opcode = .bootRequest ∧ isPxe request = true ∧ Fits server request := by
  rcases processPacket_cases fields server request with ⟨hgate, hnone⟩ |
    ⟨hopcode, hpxe, ⟨hfits, panic, hpanic⟩ | ⟨hfits, reply, hreply, _⟩⟩
  · rw [hnone]
    constructor
    · rintro ⟨reply, hreply⟩
      cases hreply
    · rintro ⟨hopcode, hpxe, _⟩
      exact absurd ⟨hopcode, hpxe⟩ hgate
  · rw [hpanic]
    constructor
    · rintro ⟨reply, hreply⟩
      cases hreply
    · rintro ⟨_, _, hroom⟩
      exact absurd hroom hfits
  · exact iff_of_true ⟨reply, hreply⟩ ⟨hopcode, hpxe, hfits⟩

theorem isReply_of_processPacket
    (hreply : server.processPacket fields request = .ok (some reply)) :
    IsReply server request reply := by
  rcases processPacket_cases fields server request with ⟨_, hnone⟩ |
    ⟨_, _, ⟨_, panic, hpanic⟩ | ⟨_, other, hother, hisReply⟩⟩
  · rw [hnone] at hreply
    cases hreply
  · rw [hpanic] at hreply
    cases hreply
  · rw [hother] at hreply
    cases hreply
    exact hisReply

end Gate

theorem classId_eq_some_iff (request : Message) (bytes : List UInt8) :
    classId request = some bytes ↔
      request.opts.get .classIdentifier = some (.classIdentifier bytes) := by
  unfold classId
  split
  next found hget => simp [hget]
  next hother =>
    constructor
    · nofun
    · intro hget
      exact absurd hget (hother bytes)

/-- The reply gate is exact on a message, apart from what it never looks at.  A boot
request with the name of the PXE client anywhere in its class identifier must be a
discover or a request that begins with that name, and have room in a reply; or fail
both. -/
theorem processPacket_exact_iff (fields : BoundedFields) (server : ProxyDhcpServer)
    (request : Message) :
    (((∃ reply, server.processPacket fields request = .ok (some reply)) ↔
          Answerable request) ∧
        ∀ reply, server.processPacket fields request = .ok (some reply) →
          LeasesNothing reply) ↔
      (request.opcode = .bootRequest →
        ∀ bytes, request.opts.get .classIdentifier = some (.classIdentifier bytes) →
          pxeClient <:+: bytes →
          (Fits server request ↔
            (request.opts.get .messageType = some (.messageType .discover) ∨
              request.opts.get .messageType = some (.messageType .request)) ∧
            pxeClient <+: bytes)) := by
  have hleases : ∀ reply, server.processPacket fields request = .ok (some reply) →
      LeasesNothing reply :=
    fun reply hreply => (isReply_of_processPacket hreply).leasesNothing
  rw [exists_reply_iff, isPxe_iff]
  simp only [classId_eq_some_iff]
  constructor
  · rintro ⟨hexact, _⟩ hopcode bytes hbytes hinfix
    constructor
    · intro hfits
      obtain ⟨_, htype, found, hfound, hstart⟩ :=
        hexact.mp ⟨hopcode, ⟨bytes, hbytes, hinfix⟩, hfits⟩
      rw [hbytes] at hfound
      cases hfound
      exact ⟨htype, hstart⟩
    · rintro ⟨htype, hstart⟩
      exact (hexact.mpr ⟨hopcode, htype, bytes, hbytes, hstart⟩).2.2
  · intro hgate
    refine ⟨?_, hleases⟩
    constructor
    · rintro ⟨hopcode, ⟨bytes, hbytes, hinfix⟩, hfits⟩
      obtain ⟨htype, hstart⟩ := (hgate hopcode bytes hbytes hinfix).mp hfits
      exact ⟨hopcode, htype, bytes, hbytes, hstart⟩
    · rintro ⟨hopcode, htype, bytes, hbytes, hstart⟩
      have hfits := (hgate hopcode bytes hbytes hstart.isInfix).mpr ⟨htype, hstart⟩
      exact ⟨hopcode, ⟨bytes, hbytes, hstart.isInfix⟩, hfits⟩

namespace GateWitness

/-- The two setters write what they are given and pad it with zeros. -/
def fields : BoundedFields where
  chaddr message :=
    if message.hlen.toNat ≤ 16 then .ok message.hardwareAddress
    else .error "range end index out of range".toList
  setChaddr message bytes :=
    if bytes.length ≤ 16 then
      .ok { message with
        hlen := UInt8.ofNat bytes.length
        chaddr := Vector.ofFn fun i => bytes.getD i 0 }
    else .error "range end index out of range".toList
  setFnameStr message name :=
    if (asBytes name).length ≤ 128 then .ok { message with fname := some (asBytes name) }
    else .error "file name too long".toList
  chaddr_of_fits message hfits := if_pos hfits
  chaddr_of_exceeds message hlong := ⟨_, if_neg (Nat.not_le.mpr hlong)⟩
  setChaddr_of_fits message bytes hfits := by
    refine ⟨_, ?_, if_pos hfits⟩
    apply List.ext_getElem
    · simp [hfits]
    · intro i hleft hright
      simp [hright]
  setFnameStr_of_fits message name hfits := if_pos hfits
  setFnameStr_of_exceeds message name hlong := ⟨_, if_neg (Nat.not_le.mpr hlong)⟩

def server : ProxyDhcpServer := ⟨⟨192, 168, 1, 200⟩, "bootcode.bin".toList, none⟩

def message (messageType : MessageType) (classId : Str) : Message where
  opcode := .bootRequest
  htype := 1
  hlen := 6
  hops := 0
  xid := 7
  secs := 0
  flags := 0
  ciaddr := .unspecified
  yiaddr := .unspecified
  siaddr := .unspecified
  giaddr := .unspecified
  chaddr := #v[0xdc, 0xa6, 0x32, 0x01, 0x02, 0x03, 0, 0, 0, 0, 0, 0, 0, 0, 0, 0]
  fname := none
  opts := DhcpOptions.empty
    |>.insert (.messageType messageType)
    |>.insert (.classIdentifier (asBytes classId))

/-- A DHCPRELEASE of a PXE client. -/
def release : Message := message (.other 7) "PXEClient:Arch:00011".toList

/-- A discover of a client that is none but has the name in its identifier. -/
def embedded : Message := message .discover "MyPXEClient".toList

/-- Both are answered with an offer. -/
theorem release_and_embedded_answered :
    (∃ reply, server.processPacket fields release = .ok (some reply)) ∧
      ¬ Answerable release ∧
      (∃ reply, server.processPacket fields embedded = .ok (some reply)) ∧
      ¬ Answerable embedded := by
  refine ⟨⟨_, rfl⟩, ?_, ⟨_, rfl⟩, ?_⟩
  · rintro ⟨_, htype, _⟩
    revert htype
    decide
  · rintro ⟨_, _, bytes, hbytes, hstart⟩
    have hid : bytes = asBytes "MyPXEClient".toList := by
      cases hbytes
      rfl
    rw [hid] at hstart
    revert hstart
    decide

end GateWitness

end ProxyDhcpServer

end PiCluster
